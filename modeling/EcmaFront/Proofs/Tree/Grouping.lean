import EcmaFront.Proofs.Tree.Completeness.Operator

/-!
# How operators group their operands

A chain is an operand and operators with an operand behind each. It is split at the operator of its
lowest level, the last one of them or, where the level groups to the right, the first one, and both
parts are split in the same way: `Chain.Groups` says so without a reader. Precedence climbing builds
the same tree from left to right.

* `Chain.Run`: a chain that stands between two cursors, operand by operand.
* `Chain.Climbed`: what a loop of operators makes of a chain, for every floor.
* `readChain_groups`: a chain is read as its tree, and refused exactly if it mixes `??` with `&&` or
  `||`.
-/

namespace EcmaFront

open Reader

/-- Operators, each with the operand behind it. -/
abbrev Chain := List (InfixOperator × Expr)

/-- Whether one of `??` and `&&` or `||` may not be an operand of the other. -/
def InfixOperator.clashes : InfixOperator → InfixOperator → Bool
  | .logical a, .logical b => (a == .coalesce) != (b == .coalesce)
  | _, _ => false

/-- Whether the token is an operator between two operands. -/
def TokenKind.isInfix (kind : TokenKind) : Bool := (InfixOperator.ofKind? kind).isSome

theorem TokenKind.isInfix_of_bindsTighter {k : Nat} {kind : TokenKind}
    (h : kind.bindsTighter k = true) : kind.isInfix = true := by
  obtain ⟨op, isOp, _⟩ := (Option.any_eq_true _ _).1 h
  rw [isInfix, isOp]
  rfl

namespace Chain

/-- The chain holds `??` and one of `&&` and `||`. -/
def Mixed (links : Chain) : Prop :=
  (∃ l ∈ links, l.1 = .logical .coalesce) ∧
    ∃ l ∈ links, l.1 = .logical .and ∨ l.1 = .logical .or

/-- The operator between two parts of a chain is one of the lowest level in it: the last one, or the
first one if the level groups to the right. -/
structure IsRoot (before : Chain) (op : InfixOperator) (after : Chain) : Prop where
  lowest : ∀ l ∈ before ++ after, op.precedence.rank ≤ l.1.precedence.rank
  last : op.precedence.groupsRight = false →
    ∀ l ∈ after, op.precedence.rank < l.1.precedence.rank
  first : op.precedence.groupsRight = true →
    ∀ l ∈ before, op.precedence.rank < l.1.precedence.rank

/-- The tree of a chain that starts with the operand `first`. -/
inductive Groups : Expr → Chain → Expr → Prop
  | operand (first : Expr) : Groups first [] first
  | split {first second left right : Expr} {before after : Chain} {op : InfixOperator} :
    IsRoot before op after → Groups first before left → Groups second after right →
    Groups first (before ++ (op, second) :: after)
      (.operation op left right (left.span.cover right.span))

/-- The links stand between two cursors, and no operator follows them. Each operand is what the
reader of operands makes of the tokens between two operators. A chain may enter `n` levels of
nesting, and the operand in front of the links has `m` of them left: each operator that groups to
the right takes one level, and any other one gives all levels back. -/
inductive Stands (n : Nat) : Nat → Cursor → Chain → Cursor → Prop
  | done {m : Nat} {c : Cursor} : Stops TokenKind.isInfix c.rest → Stands n m c [] c
  | leftward {m : Nat} {op : InfixOperator} {o : Lexeme} {e : Expr} {c c₁ c₂ c' : Cursor}
    {links : Chain} : op.precedence.groupsRight = false → op.kind = o.kind → c.Took [o] c₁ →
    Expr.readOperand (.within n) c₁ = .ok e c₂ → Stands n n c₂ links c' →
    Stands n m c ((op, e) :: links) c'
  | rightward {m : Nat} {op : InfixOperator} {o : Lexeme} {e : Expr} {c c₁ c₂ c' : Cursor}
    {links : Chain} : op.precedence.groupsRight = true → op.kind = o.kind → c.Took [o] c₁ →
    Expr.readOperand (.within m) c₁ = .ok e c₂ → Stands n m c₂ links c' →
    Stands n (m + 1) c ((op, e) :: links) c'

/-- A first operand and the links behind it stand between two cursors. -/
def Run (n : Nat) (c : Cursor) (first : Expr) (links : Chain) (c' : Cursor) : Prop :=
  ∃ c₁, Expr.readOperand (.within n) c = .ok first c₁ ∧ Stands n n c₁ links c'

theorem Stands.stop {n m : Nat} {c c' : Cursor} (h : Stands n m c [] c') :
    Stops TokenKind.isInfix c.rest := by
  cases h with
  | done stop => exact stop

/-- The first token is the first operator. -/
theorem Stands.head {n m : Nat} {l : InfixOperator × Expr} {links : Chain} {c c' : Cursor}
    (h : Stands n m c (l :: links) c') : ∃ o ∈ c.rest.head?, l.1.kind = o.kind := by
  cases h with
  | leftward _ isOp took | rightward _ isOp took => exact ⟨_, by rw [took.rest]; rfl, isOp⟩

/-! ## Trees of chains -/

section

variable {first second e e' : Expr} {links before after before' after' : Chain}
  {op op' : InfixOperator}

theorem IsRoot.le (h : IsRoot before op after) {l : InfixOperator × Expr}
    (mem : l ∈ before ++ (op, e) :: after) : op.precedence.rank ≤ l.1.precedence.rank := by
  obtain inBefore | rfl | inAfter : l ∈ before ∨ l = (op, e) ∨ l ∈ after := by simpa using mem
  · exact h.lowest l (List.mem_append_left _ inBefore)
  · exact Nat.le_refl _
  · exact h.lowest l (List.mem_append_right _ inAfter)

/-- No operator behind the root of a chain is a root of it as well. -/
theorem IsRoot.not_behind {between : Chain} (h : IsRoot before op (between ++ (op', e) :: after))
    (h' : IsRoot (before ++ (op, e') :: between) op' after) : False := by
  have le : op.precedence.rank ≤ op'.precedence.rank := h.lowest (op', e) (by simp)
  have le' : op'.precedence.rank ≤ op.precedence.rank := h'.lowest (op, e') (by simp)
  have same : op.precedence = op'.precedence := Precedence.rank_inj (Nat.le_antisymm le le')
  cases grouping : op.precedence.groupsRight with
  | false =>
    exact absurd (h.last grouping (op', e) (by simp)) (Nat.not_lt_of_le le')
  | true =>
    exact absurd (h'.first (same ▸ grouping) (op, e') (by simp)) (Nat.not_lt_of_le le)

theorem IsRoot.eq_of_append (h : IsRoot before op after) (h' : IsRoot before' op' after')
    (eq : before ++ (op, first) :: after = before' ++ (op', second) :: after') :
    before = before' ∧ op = op' ∧ first = second ∧ after = after' := by
  obtain ⟨front, split, split'⟩ | ⟨front, split, split'⟩ := List.append_eq_append_iff.1 eq
  · cases front with
    | nil => simp_all
    | cons l between =>
      obtain ⟨rfl, rfl⟩ := List.cons.inj split'
      exact (h.not_behind (split ▸ h')).elim
  · cases front with
    | nil => simp_all
    | cons l between =>
      obtain ⟨rfl, rfl⟩ := List.cons.inj split'
      exact (h'.not_behind (split ▸ h)).elim

/-- A chain has one tree. -/
theorem Groups.unique (h : Groups first links e) (h' : Groups first links e') : e = e' := by
  induction h generalizing e' with
  | operand first =>
    generalize eq : ([] : Chain) = links at h'
    cases h' with
    | operand => rfl
    | split => simp at eq
  | split root _ _ ihLeft ihRight =>
    generalize eq : _ ++ _ :: _ = links at h'
    cases h' with
    | operand => simp at eq
    | split root' isLeft isRight =>
      obtain ⟨rfl, rfl, rfl, rfl⟩ := root.eq_of_append root' eq
      rw [ihLeft isLeft, ihRight isRight]

end

end Chain

/-! ## Operators that may not be mixed -/

theorem Expr.mixesWith_operation (q op : InfixOperator) (left right : Expr) (span : Span) :
    mixesWith q (.operation op left right span) = q.clashes op := by
  cases q <;> cases op <;> rfl

theorem Expr.mixesWith_operand {e : Expr} (h : e.rightRank = Precedence.power.rank)
    (q : InfixOperator) : mixesWith q e = false := by
  cases e with
  | operation op =>
    change op.precedence.rightFloor.rank = Precedence.power.rank at h
    cases op with
    | binary op => cases q <;> rfl
    | logical op => cases op <;> contradiction
  | _ => cases q <;> rfl

namespace InfixOperator

theorem clashes_self (a : InfixOperator) : a.clashes a = false := by
  cases a with
  | binary => rfl
  | logical a => exact bne_self_eq_false _

theorem clashes_comm (a b : InfixOperator) : a.clashes b = b.clashes a := by
  cases a <;> cases b <;> simp [clashes, bne_comm]

/-- The levels of `??`, `||` and `&&` are the lowest ones, so what is as low as an operator that
clashes with another one clashes with one of them. -/
theorem clashes_of_le {a b r : InfixOperator} (h : a.clashes b = true)
    (le : r.precedence.rank ≤ a.precedence.rank) :
    r.clashes a = true ∨ r.clashes b = true := by
  cases a with
  | binary => cases h
  | logical a =>
  cases b with
  | binary => cases h
  | logical b =>
  cases r with
  | binary r => cases a <;> cases r <;> contradiction
  | logical r =>
    revert h
    cases a <;> cases b <;> cases r <;> decide

theorem conditional_lt (op : InfixOperator) :
    Precedence.conditional.rank < op.precedence.rank := by
  cases op with
  | binary op => cases op <;> decide
  | logical op => cases op <;> decide

end InfixOperator

namespace Precedence

variable {p q : Precedence}

theorem rightFloor_le (p : Precedence) : p.rightFloor.rank ≤ p.rank := by
  cases p <;> decide

theorem le_of_rightFloor_lt (h : p.rightFloor.rank < q.rank) : p.rank ≤ q.rank := by
  revert h
  cases p <;> cases q <;> decide

theorem rightFloor_le_of_lt (h : p.rightFloor.rank < q.rank) :
    p.rightFloor.rank ≤ q.rightFloor.rank := by
  revert h
  cases p <;> cases q <;> decide

theorem not_power_le_rightFloor (p : Precedence) :
    ¬ Precedence.power.rank ≤ p.rightFloor.rank := by
  cases p <;> decide

end Precedence

namespace Chain

variable {first second left right e : Expr} {links before after : Chain} {op q : InfixOperator}

theorem mixed_iff_clashes :
    links.Mixed ↔ ∃ k ∈ links, ∃ l ∈ links, k.1.clashes l.1 = true := by
  constructor
  · rintro ⟨⟨k, memK, isCoalesce⟩, l, memL, isAnd | isOr⟩
    · exact ⟨k, memK, l, memL, by rw [isCoalesce, isAnd]; rfl⟩
    · exact ⟨k, memK, l, memL, by rw [isCoalesce, isOr]; rfl⟩
  · rintro ⟨⟨k, _⟩, memK, ⟨l, _⟩, memL, clash⟩
    cases k with
    | binary => cases clash
    | logical k =>
    cases l with
    | binary => cases clash
    | logical l =>
    unfold Mixed
    cases k <;> cases l <;> cases clash
    · exact ⟨⟨_, memL, rfl⟩, _, memK, .inl rfl⟩
    · exact ⟨⟨_, memL, rfl⟩, _, memK, .inr rfl⟩
    · exact ⟨⟨_, memK, rfl⟩, _, memL, .inl rfl⟩
    · exact ⟨⟨_, memK, rfl⟩, _, memL, .inr rfl⟩

theorem not_mixed_nil : ¬ Mixed [] := by
  simp [Mixed]

theorem Mixed.mono (h : links.Mixed) (le : links ⊆ after) : after.Mixed := by
  obtain ⟨⟨k, memK, isK⟩, l, memL, isL⟩ := h
  exact ⟨⟨k, le memK, isK⟩, l, le memL, isL⟩

/-- A chain is mixed exactly if its root clashes with an operator in it. -/
theorem IsRoot.mixed_iff (h : IsRoot before op after) :
    (before ++ (op, e) :: after).Mixed ↔ ∃ l ∈ before ++ after, op.clashes l.1 = true := by
  rw [mixed_iff_clashes]
  constructor
  · rintro ⟨k, memK, l, memL, clash⟩
    obtain ⟨l, mem, clash⟩ : ∃ l ∈ before ++ (op, e) :: after, op.clashes l.1 = true :=
      (InfixOperator.clashes_of_le clash (h.le memK)).elim (⟨k, memK, ·⟩) (⟨l, memL, ·⟩)
    obtain other | rfl : l ∈ before ++ after ∨ l = (op, e) := by
      simpa [or_assoc, or_comm, or_left_comm] using mem
    · exact ⟨l, other, clash⟩
    · exact absurd clash (by simp [InfixOperator.clashes_self])
  · rintro ⟨l, mem, clash⟩
    exact ⟨(op, e), by simp, l, by simpa using (List.mem_append.1 mem).imp_right .inr, clash⟩

/-- The tree of a chain shows at its root whether an operator clashes with any in the chain. -/
theorem Groups.mixesWith_iff (h : Groups first links e)
    (operand : first.rightRank = Precedence.power.rank) (unmixed : ¬ links.Mixed) :
    Expr.mixesWith q e = true ↔ ∃ l ∈ links, q.clashes l.1 = true := by
  cases h with
  | operand => simp [Expr.mixesWith_operand operand]
  | @split _ second _ _ before after root isRoot =>
    rw [Expr.mixesWith_operation]
    have inside : (root, second) ∈ before ++ (root, second) :: after := by simp
    refine ⟨fun clash => ⟨_, inside, clash⟩, fun ⟨l, mem, clash⟩ => ?_⟩
    rw [InfixOperator.clashes_comm] at clash ⊢
    obtain clashL | clashQ := InfixOperator.clashes_of_le clash (isRoot.le mem)
    · exact (unmixed (mixed_iff_clashes.2 ⟨_, inside, l, mem, clashL⟩)).elim
    · exact clashQ

/-- The operator between two chains may not have one of their trees as its operand exactly if they
are mixed together. -/
theorem IsRoot.mixesWith_iff (h : IsRoot before op after)
    (isLeft : Groups first before left) (isRight : Groups second after right)
    (operand : first.rightRank = Precedence.power.rank)
    (operand' : second.rightRank = Precedence.power.rank)
    (unmixed : ¬ before.Mixed) (unmixed' : ¬ after.Mixed) :
    (Expr.mixesWith op left || Expr.mixesWith op right) = true ↔
      (before ++ (op, second) :: after).Mixed := by
  rw [h.mixed_iff, Bool.or_eq_true, isLeft.mixesWith_iff operand unmixed,
    isRight.mixesWith_iff operand' unmixed']
  simp only [List.mem_append, or_and_right, exists_or]

/-! ## Climbing a chain -/

/-- Links that the loop of operators above `floor` does not take. -/
def Loose (floor : Precedence) (links : Chain) : Prop :=
  ∀ l ∈ links.head?, l.1.precedence.rank ≤ floor.rank

theorem Stands.stops_of_loose {n m : Nat} {floor : Precedence} {c c' : Cursor}
    (h : Stands n m c links c') (loose : Loose floor links) :
    Stops (TokenKind.bindsTighter floor.rank) c.rest := by
  cases links with
  | nil => exact h.stop.mono TokenKind.isInfix_of_bindsTighter
  | cons l links =>
    obtain ⟨o, head, isOp⟩ := h.head
    intro t head'
    obtain rfl : o = t := Option.mem_unique head head'
    rw [← isOp]
    exact TokenKind.bindsTighter_infix (loose l rfl)

/-- What the loop of operators above `floor` makes of the links behind those in `before`: it takes
the first ones of them, up to one that is loose, or up to where the chain is mixed. -/
inductive Climbed (n : Nat) (floor : Precedence) (first : Expr) (before links : Chain)
    (c' : Cursor) : EStateM.Result SyntaxError Cursor Expr → Prop
  | tree {m : Nat} {taken others : Chain} {e : Expr} {c : Cursor} : links = taken ++ others →
    (∀ l ∈ taken, floor.rank < l.1.precedence.rank) → ¬ (before ++ taken).Mixed →
    Groups first (before ++ taken) e → Stands n m c others c' → Loose floor others →
    Climbed n floor first before links c' (.ok e c)
  | mixed {m : Nat} {taken others : Chain} {span : Span} {c : Cursor} : links = taken ++ others →
    (before ++ taken).Mixed → Stands n m c others c' →
    Climbed n floor first before links c' (.error (.mixedCoalescing span) c)

/-- The loop ends at a loose link. -/
theorem Climbed.nothing {n m : Nat} {floor : Precedence} {c c' : Cursor}
    (isTree : Groups first before e) (unmixed : ¬ before.Mixed) (stands : Stands n m c links c')
    (loose : Loose floor links) : Climbed n floor first before links c' (.ok e c) := by
  have split : links = [] ++ links := rfl
  refine .tree split ?_ ?_ ?_ stands loose
  · simp
  · rwa [List.append_nil]
  · rwa [List.append_nil]

/-- What the loop goes on with when it has taken the links in `taken`. -/
theorem Climbed.prepend {n : Nat} {floor : Precedence} {taken others : Chain} {c' : Cursor}
    {r : EStateM.Result SyntaxError Cursor Expr}
    (h : Climbed n floor first (before ++ taken) others c' r)
    (above : ∀ l ∈ taken, floor.rank < l.1.precedence.rank) :
    Climbed n floor first before (taken ++ others) c' r := by
  cases h with
  | @tree _ more others e c split above' unmixed isTree stands loose =>
    rw [List.append_assoc] at unmixed isTree
    refine .tree (by rw [split, List.append_assoc]) (fun l mem => ?_) unmixed isTree stands loose
    exact (List.mem_append.1 mem).elim (above l) (above' l)
  | mixed split mixed stands =>
    rw [List.append_assoc] at mixed
    exact .mixed (by rw [split, List.append_assoc]) mixed stands

/-- A chain that is cut at an operator has the operator as its root if its left part leaves the
operator over and its right part takes what binds tighter. -/
theorem isRoot_of_bounds
    (leaves : ∀ l ∈ before, op.precedence.rank ≤ l.1.precedence.rightFloor.rank)
    (takes : ∀ l ∈ after, op.precedence.rightFloor.rank < l.1.precedence.rank) :
    IsRoot before op after := by
  have lowLeft : ∀ l ∈ before, op.precedence.rank ≤ l.1.precedence.rank := fun l mem =>
    Nat.le_trans (leaves l mem) l.1.precedence.rightFloor_le
  constructor
  · intro l mem
    obtain mem | mem := List.mem_append.1 mem
    · exact lowLeft l mem
    · exact Precedence.le_of_rightFloor_lt (takes l mem)
  · intro grouping l mem
    simpa [Precedence.rightFloor, grouping] using takes l mem
  · intro grouping l mem
    have isPower := Precedence.eq_power_of_groupsRight grouping
    exact (Precedence.not_power_le_rightFloor _ (isPower ▸ leaves l mem)).elim

/-- What the loop of operators above `floor` keeps, when the readers of nested forms may enter `b`
levels: the next operator, which is the first one in `links`, is left over by all operators before
it, and one that groups to the right finds all `b` levels. -/
structure IsClimbing (b m : Nat) (first : Expr) (before : Chain) (left : Expr)
    (links : Chain) : Prop where
  operand : first.rightRank = Precedence.power.rank
  tree : Groups first before left
  unmixed : ¬ before.Mixed
  leaves : ∀ l ∈ links.head?, ∀ k ∈ before, l.1.precedence.rank ≤ k.1.precedence.rightFloor.rank
  levels : ∀ l ∈ links.head?, l.1.precedence.groupsRight = true → m = b

/-- The loop goes on with the links that the right operand of an operator left over. -/
theorem IsClimbing.again {b m m' : Nat} {first second left right : Expr}
    {before links taken others : Chain} {op : InfixOperator}
    (h : IsClimbing b m first before left ((op, second) :: links)) (root : IsRoot before op taken)
    (isRight : Groups second taken right) (unmixed : ¬ (before ++ (op, second) :: taken).Mixed)
    (above : ∀ l ∈ taken, op.precedence.rightFloor.rank < l.1.precedence.rank)
    (loose : Loose op.precedence.rightFloor others) :
    IsClimbing b m' first (before ++ (op, second) :: taken)
      (.operation op left right (left.span.cover right.span)) others where
  operand := h.operand
  tree := .split root h.tree isRight
  unmixed := unmixed
  leaves l head k mem := by
    have low := loose l head
    obtain inBefore | rfl | inTaken : k ∈ before ∨ k = (op, second) ∨ k ∈ taken := by
      simpa using mem
    · have leaves : op.precedence.rank ≤ k.1.precedence.rightFloor.rank := h.leaves _ rfl k inBefore
      have := op.precedence.rightFloor_le
      omega
    · exact low
    · exact Nat.le_trans low (Precedence.rightFloor_le_of_lt (above k inTaken))
  levels l head grouping := by
    have isPower := Precedence.eq_power_of_groupsRight grouping
    exact (Precedence.not_power_le_rightFloor _ (isPower ▸ loose l head)).elim

end Chain

namespace Expr

open Chain

variable {n b m height : Nat} {floor : Precedence} {first second left : Expr}
  {before links : Chain} {op : InfixOperator} {c c₁ c' : Cursor}

theorem operand_rightRank (ok : readOperand (.within n) c = .ok first c') :
    first.rightRank = Precedence.power.rank := by
  obtain ⟨ts, _, written⟩ := reads_readOperand (Nested.sound_within n) ok
  exact written.isOperand

/-- A step of the loop of operators at an operator that it takes. -/
theorem chainStep_eq {inner : Nested} {operandFrom : Precedence → Reader Expr} {o : Lexeme}
    (isOp : op.kind = o.kind) (tighter : floor.rank < op.precedence.rank) (took : c.Took [o] c₁) :
    chainStep inner operandFrom floor left c =
      ((if op.precedence.groupsRight then inner.rightOperand else operandFrom op.precedence) >>=
        fun right => combine op left right >>= fun e => pure (.again e)) c₁ := by
  have some : tighterOperator? floor c = .ok (some op) c := by
    simp [tighterOperator?_eq, took.rest, InfixOperator.ofKind?_eq_some_iff.2 isOp, tighter]
  unfold chainStep
  rw [bind_of_ok some]
  dsimp only
  rw [bind_of_ok (advance_of_took took)]
  split <;> rfl

theorem combine_of_mixes {left right : Expr}
    (h : (mixesWith op left || mixesWith op right) = true) :
    combine op left right c = .error (.mixedCoalescing (left.span.cover right.span)) c := by
  rw [combine, if_pos h]
  rfl

theorem combine_of_unmixed {left right : Expr}
    (h : ¬ (mixesWith op left || mixesWith op right) = true) :
    combine op left right c = .ok (.operation op left right (left.span.cover right.span)) c := by
  rw [combine, if_neg h]
  rfl

/-- What the reader of operators makes of the links between two cursors. -/
def Climbs (n : Nat) (links : Chain) : Prop :=
  ∀ {b height : Nat} {floor : Precedence} {first : Expr} {c c₁ c' : Cursor},
    Precedence.power.rank ≤ floor.rank + height →
    (floor.rank < Precedence.multiplicative.rank → b = n) →
    readOperand (.within b) c = .ok first c₁ → Stands n b c₁ links c' →
    Climbed n floor first [] links c' (readChainWithin (.within b) height floor c)

/-- The right operand of an operator takes the links that bind tighter. An operator that groups to
the right enters a level for it, on which no other operators are taken. -/
theorem climbed_right (climbs : Climbs n links)
    (high : Precedence.power.rank ≤ floor.rank + (height + 1))
    (levels : floor.rank < Precedence.multiplicative.rank → b = n)
    (enters : op.precedence.groupsRight = true → m = b)
    (tighter : floor.rank < op.precedence.rank)
    (stands : Stands n m c ((op, second) :: links) c') :
    ∃ o c₁, op.kind = o.kind ∧ c.Took [o] c₁ ∧ second.rightRank = Precedence.power.rank ∧
      Climbed n op.precedence.rightFloor second [] links c'
        ((if op.precedence.groupsRight then (Nested.within b).rightOperand
          else readChainWithin (.within b) height op.precedence) c₁) := by
  cases stands with
  | @leftward _ _ o _ _ c₁ _ _ _ grouping isOp took readSecond stands =>
    have below : op.precedence.rank ≤ Precedence.multiplicative.rank := by
      revert grouping
      cases op.precedence <;> decide
    obtain rfl : b = n := levels (Nat.lt_of_lt_of_le tighter below)
    refine ⟨o, c₁, isOp, took, operand_rightRank readSecond, ?_⟩
    rw [if_neg (by simp [grouping]), Precedence.rightFloor, if_neg (by simp [grouping])]
    exact climbs (by omega) (fun _ => rfl) readSecond stands
  | @rightward k _ o _ _ c₁ _ _ _ grouping isOp took readSecond stands =>
    obtain rfl : k + 1 = b := enters grouping
    refine ⟨o, c₁, isOp, took, operand_rightRank readSecond, ?_⟩
    rw [if_pos grouping, Precedence.eq_power_of_groupsRight grouping]
    exact climbs (by decide) (fun low => absurd low (by decide)) readSecond stands

/-- A step of the loop at an operator that it takes: the operator and the links of its right operand
are taken, or the chain is mixed with them. -/
theorem climbing_step (climbs : Climbs n links)
    (high : Precedence.power.rank ≤ floor.rank + (height + 1))
    (levels : floor.rank < Precedence.multiplicative.rank → b = n)
    (tighter : floor.rank < op.precedence.rank)
    (keeps : IsClimbing b m first before left ((op, second) :: links))
    (stands : Stands n m c ((op, second) :: links) c') :
    (∃ e c₂, chainStep (.within b) (readChainWithin (.within b) height) floor left c = .error e c₂ ∧
        Climbed n floor first before ((op, second) :: links) c' (.error e c₂)) ∨
      ∃ m' left' taken others c₂,
        chainStep (.within b) (readChainWithin (.within b) height) floor left c =
          .ok (.again left') c₂ ∧
        links = taken ++ others ∧ (∀ l ∈ (op, second) :: taken, floor.rank < l.1.precedence.rank) ∧
        IsClimbing b m' first (before ++ (op, second) :: taken) left' others ∧
        Stands n m' c₂ others c' := by
  obtain ⟨o, c₁, isOp, took, isOperand, climbed⟩ :=
    climbed_right climbs high levels (keeps.levels _ rfl) tighter stands
  rw [chainStep_eq isOp tighter took]
  generalize readRight : (if op.precedence.groupsRight then (Nested.within b).rightOperand
    else readChainWithin (.within b) height op.precedence) c₁ = r at climbed
  cases climbed with
  | @mixed _ taken others _ _ split mixed stands =>
    have split' : (op, second) :: links = ((op, second) :: taken) ++ others := congrArg _ split
    refine .inl ⟨_, _, bind_of_error readRight _, .mixed split' (mixed.mono fun l mem => ?_) stands⟩
    exact List.mem_append_right _ (List.mem_cons_of_mem _ mem)
  | @tree m' taken others right c₂ split above unmixed isRight stands loose =>
    rw [bind_of_ok readRight]
    have root : IsRoot before op taken := isRoot_of_bounds (keeps.leaves _ rfl) above
    have mixes :=
      root.mixesWith_iff keeps.tree isRight keeps.operand isOperand keeps.unmixed unmixed
    by_cases mixed : (before ++ (op, second) :: taken).Mixed
    · have split' : (op, second) :: links = ((op, second) :: taken) ++ others := congrArg _ split
      exact .inl ⟨_, _, bind_of_error (combine_of_mixes (mixes.2 mixed)) _,
        .mixed split' mixed stands⟩
    · refine .inr ⟨m', _, taken, others, c₂, ?_, split, ?_,
        keeps.again root isRight mixed above loose, stands⟩
      · rw [bind_of_ok (combine_of_unmixed (mt mixes.1 mixed))]
        rfl
      · intro l mem
        obtain rfl | mem := List.mem_cons.1 mem
        · exact tighter
        · exact Nat.lt_of_lt_of_le tighter (Precedence.le_of_rightFloor_lt (above l mem))

theorem loop_loose {inner : Nested} {operandFrom : Precedence → Reader Expr}
    (stop : Stops (TokenKind.bindsTighter floor.rank) c.rest) :
    loop (chainStep inner operandFrom floor) left c = .ok left c :=
  loop_done (takes_noOperator stop c.lastStop c.sourceStop)

theorem climbed_loop (shorter : ∀ links' : Chain, links'.length < links.length → Climbs n links')
    (high : Precedence.power.rank ≤ floor.rank + (height + 1))
    (levels : floor.rank < Precedence.multiplicative.rank → b = n)
    (keeps : IsClimbing b m first before left links) (stands : Stands n m c links c') :
    Climbed n floor first before links c'
      (loop (chainStep (.within b) (readChainWithin (.within b) height) floor) left c) := by
  generalize size : links.length = k at shorter
  induction k using Nat.strongRecOn generalizing links before left m c with
  | ind k ih =>
    subst size
    have ended (loose : Loose floor links) : Climbed n floor first before links c'
        (loop (chainStep (.within b) (readChainWithin (.within b) height) floor) left c) := by
      rw [loop_loose (stands.stops_of_loose loose)]
      exact .nothing keeps.tree keeps.unmixed stands loose
    cases links with
    | nil => exact ended nofun
    | cons l links =>
      obtain ⟨op, second⟩ := l
      by_cases tighter : floor.rank < op.precedence.rank
      · obtain ⟨e, c₂, step, climbed⟩ | ⟨m', left', taken, others, c₂, step, split, above, keeps',
            stands'⟩ := climbing_step (shorter links (by simp)) high levels tighter keeps stands
        · rw [loop_error step]
          exact climbed
        · rw [loop_again (progresses_chainStep high) step, split]
          have fewer : others.length < ((op, second) :: links).length := by
            simp only [split, List.length_cons, List.length_append]
            omega
          have climbed := ih _ fewer keeps' stands' rfl fun links' lt =>
            shorter links' (Nat.lt_trans lt fewer)
          exact climbed.prepend above
      · exact ended (by simpa [Loose] using tighter)

theorem climbs (links : Chain) : Climbs n links := by
  generalize size : links.length = k
  -- A right operand is read above another floor, or on another level. It always has fewer links.
  induction k using Nat.strongRecOn generalizing links with
  | ind k ih =>
    intro b height floor first c c₁ c' high levels readFirst stands
    have shorter : ∀ links' : Chain, links'.length < links.length → Climbs n links' :=
      fun links' lt => ih _ (size ▸ lt) links' rfl
    cases height with
    | zero =>
      rw [readChainWithin, readFirst]
      have loose : Loose floor links := fun l _ => Nat.le_trans l.1.precedence.rank_le_power high
      exact .nothing (.operand first) not_mixed_nil stands loose
    | succ height =>
      rw [readChainWithin, bind_of_ok readFirst]
      exact climbed_loop shorter high levels ⟨operand_rightRank readFirst, .operand first,
        not_mixed_nil, fun _ _ _ mem => absurd mem List.not_mem_nil, fun _ _ _ => rfl⟩ stands

end Expr

/-- A chain of operators is refused exactly if it mixes `??` with `&&` or `||`, and then the links
that have been taken are mixed already. Any other chain is read to its end, as its only tree. -/
theorem readChain_groups {n : Nat} {c c' : Cursor} {first : Expr} {links : Chain}
    (run : Chain.Run n c first links c') :
    ((∃ span c₁, Expr.readChain (.within n) .conditional c =
        .error (.mixedCoalescing span) c₁) ↔ links.Mixed) ∧
      (∀ e c₁, Expr.readChain (.within n) .conditional c = .error e c₁ →
        ∃ taken others m, links = taken ++ others ∧ taken.Mixed ∧
          Chain.Stands n m c₁ others c') ∧
      (¬ links.Mixed → ∃ e, Expr.readChain (.within n) .conditional c = .ok e c' ∧
        ∀ e', Chain.Groups first links e' ↔ e' = e) := by
  obtain ⟨c₁, readFirst, stands⟩ := run
  have climbed : Chain.Climbed n .conditional first [] links c'
      (Expr.readChain (.within n) .conditional c) :=
    Expr.climbs links (by decide) (fun _ => rfl) readFirst stands
  generalize Expr.readChain (.within n) .conditional c = r at climbed
  cases climbed with
  | @tree m taken others e c₂ split above unmixed isTree stands loose =>
    obtain rfl : others = [] := by
      cases others with
      | nil => rfl
      | cons l others => exact absurd (loose l rfl) (Nat.not_le_of_lt l.1.conditional_lt)
    rw [List.append_nil] at split
    subst split
    cases stands
    refine ⟨⟨?_, fun mixed => absurd mixed unmixed⟩, ?_, fun _ => ⟨e, rfl, fun e' => ?_⟩⟩
    · rintro ⟨span, c₃, same⟩
      cases same
    · intro e c₃ same
      cases same
    · exact ⟨fun isTree' => isTree'.unique isTree, fun same => same ▸ isTree⟩
  | @mixed m taken others span c₂ split mixed stands =>
    have all : links.Mixed := mixed.mono (split ▸ List.subset_append_left taken others)
    refine ⟨⟨fun _ => all, fun _ => ⟨span, c₂, rfl⟩⟩, ?_, fun unmixed => absurd all unmixed⟩
    intro e c₃ same
    obtain ⟨_, rfl⟩ := EStateM.Result.error.inj same
    exact ⟨taken, others, m, split, mixed, stands⟩

/-- The chain of `a-b**c**d-e` has the tree `(a-(b**(c**d)))-e`. -/
theorem readChain_groups_power :
    ∃ tokens, scan false ['a', '-', 'b', '*', '*', 'c', '*', '*', 'd', '-', 'e'] = .ok tokens ∧
      ∃ first links c', Chain.Run 64 (Cursor.start tokens) first links c' ∧ links.length = 4 ∧
        ∃ e, Expr.readChain (.within 64) .conditional (Cursor.start tokens) = .ok e c' ∧
          ∀ e', Chain.Groups first links e' ↔ e' = e := by
  let name (c : Char) (start : Nat) : Lexeme := ⟨.identifier, ⟨start, 1⟩, [c]⟩
  let minus (start : Nat) : Lexeme := ⟨.punctuator .minus, ⟨start, 1⟩, ['-']⟩
  let power (start : Nat) : Lexeme := ⟨.punctuator .starStar, ⟨start, 2⟩, ['*', '*']⟩
  let operand (c : Char) (start : Nat) : Expr := .leaf (.identifier [c]) ⟨start, 1⟩
  let links : Chain := [(.binary .subtraction, operand 'b' 2), (.binary .power, operand 'c' 5),
    (.binary .power, operand 'd' 8), (.binary .subtraction, operand 'e' 10)]
  have run : Chain.Run 64 ⟨[name 'a' 0, minus 1, name 'b' 2, power 3, name 'c' 5, power 6,
      name 'd' 8, minus 9, name 'e' 10], 0, 11⟩ (operand 'a' 0) links ⟨[], 11, 11⟩ :=
    ⟨_, rfl, .leftward rfl rfl .head rfl <| .rightward rfl rfl .head rfl <|
      .rightward rfl rfl .head rfl <| .leftward rfl rfl .head rfl <|
      .done (.nil _)⟩
  have unmixed : ¬ links.Mixed := by
    simp [Chain.Mixed, links]
  exact ⟨_, rfl, _, links, _, run, rfl, (readChain_groups run).2.2 unmixed⟩

/-- In `a||b??c??d` the first `??` is refused, so the second one and its operand are left. -/
theorem mixed_chain_left_over :
    ∃ tokens, scan false ['a', '|', '|', 'b', '?', '?', 'c', '?', '?', 'd'] = .ok tokens ∧
      ∃ first links c', Chain.Run 64 (Cursor.start tokens) first links c' ∧ links.Mixed ∧
        c'.rest = [] ∧ ∃ c₁,
          Expr.readChain (.within 64) .conditional (Cursor.start tokens) =
            .error (.mixedCoalescing ⟨0, 7⟩) c₁ ∧
          c₁.rest.map (·.kind) = [.punctuator .questionQuestion, .identifier] := by
  let name (c : Char) (start : Nat) : Lexeme := ⟨.identifier, ⟨start, 1⟩, [c]⟩
  let bars : Lexeme := ⟨.punctuator .barBar, ⟨1, 2⟩, ['|', '|']⟩
  let marks (start : Nat) : Lexeme := ⟨.punctuator .questionQuestion, ⟨start, 2⟩, ['?', '?']⟩
  let operand (c : Char) (start : Nat) : Expr := .leaf (.identifier [c]) ⟨start, 1⟩
  let links : Chain := [(.logical .or, operand 'b' 3), (.logical .coalesce, operand 'c' 6),
    (.logical .coalesce, operand 'd' 9)]
  have run : Chain.Run 64 ⟨[name 'a' 0, bars, name 'b' 3, marks 4, name 'c' 6, marks 7,
      name 'd' 9], 0, 10⟩ (operand 'a' 0) links ⟨[], 10, 10⟩ :=
    ⟨_, rfl, .leftward rfl rfl .head rfl <| .leftward rfl rfl .head rfl <|
      .leftward rfl rfl .head rfl <| .done (.nil _)⟩
  have mixed : links.Mixed := by
    simp [Chain.Mixed, links]
  exact ⟨_, rfl, _, links, _, run, mixed, rfl, _, rfl, rfl⟩

end EcmaFront
