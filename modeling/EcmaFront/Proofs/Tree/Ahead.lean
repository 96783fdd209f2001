import EcmaFront.Proofs.Tree.Grammar.Written

/-!
# What stands behind a piece

A piece looks no further than at the next token behind it, and at the one after a dot. So it stays
written in front of anything that looks the same (`SameAhead`), with any number of levels that is
enough for it (`Written.transfer`). A statement ends by itself, whatever stands behind it.
-/

namespace EcmaFront

/-- Nothing that is written in front can tell the two rests apart. -/
structure SameAhead (rest rest' : List Lexeme) : Prop where
  head : rest.head? = rest'.head?
  suffix : ∀ t, Expr.attachedSuffix? t rest = Expr.attachedSuffix? t rest'

namespace SameAhead

variable {rest rest' : List Lexeme}

/-- Both rests are over, or they start with the same token. -/
theorem nil_or_cons (h : SameAhead rest rest') : (rest = [] ∧ rest' = []) ∨
    ∃ t us us', rest = t :: us ∧ rest' = t :: us' := by
  have head := h.head
  rcases rest with _ | ⟨t, us⟩ <;> rcases rest' with _ | ⟨t', us'⟩
  · exact .inl ⟨rfl, rfl⟩
  · cases head
  · cases head
  · obtain rfl := Option.some.inj head
    exact .inr ⟨t, us, us', rfl, rfl⟩

theorem cons (h : SameAhead rest rest') (t : Lexeme) : SameAhead (t :: rest) (t :: rest') := by
  refine ⟨rfl, fun number => ?_⟩
  rcases h.nil_or_cons with ⟨rfl, rfl⟩ | ⟨u, us, us', rfl, rfl⟩ <;> rfl

theorem append (h : SameAhead rest rest') (ts : List Lexeme) :
    SameAhead (ts ++ rest) (ts ++ rest') := by
  induction ts with
  | nil => exact h
  | cons t ts ih => exact ih.cons t

/-- Only a dot makes what is behind it seen. -/
theorem of_ne_dot {t : Lexeme} (h : t.kind ≠ .punctuator .dot) (rest rest' : List Lexeme) :
    SameAhead (t :: rest) (t :: rest') := by
  refine ⟨rfl, fun number => ?_⟩
  simp only [Expr.attachedSuffix?, if_neg h]

theorem stops (h : SameAhead rest rest') {p : TokenKind → Bool} (stop : Stops p rest) :
    Stops p rest' := by
  rwa [Stops, ← h.head]

theorem isShorthand (h : SameAhead rest rest') {t : Lexeme}
    (short : Expr.isShorthand (t :: rest) = true) : Expr.isShorthand (t :: rest') = true := by
  rcases h.nil_or_cons with ⟨rfl, rfl⟩ | ⟨u, us, us', rfl, rfl⟩
  · exact short
  · exact short

end SameAhead

/-- The rests look the same to the piece. -/
def Piece.SeesSame (p : Piece) (rest rest' : List Lexeme) : Prop :=
  match p with
  | .statement _ | .statements _ => True
  | _ => SameAhead rest rest'

/-- The piece enters at most `n` levels, a link together with what it continues. -/
def Piece.Enters (n : Nat) : Piece → Prop
  | .element _ _ e | .call _ _ e | .access _ e | .link _ e => e.nesting ≤ n
  | p => p.NestsWithin n

theorem nestingExpressions_succ_le {es : List Expr} {n : Nat} (nonempty : es ≠ []) :
    nestingExpressions es + 1 ≤ n ↔ ∀ e ∈ es, e.nesting + 1 ≤ n := by
  cases n with
  | zero => simp [nonempty, List.exists_mem_of_ne_nil]
  | succ n => simp

namespace Written

variable {n m : Nat} {object e : Expr} {ts rest : List Lexeme}

theorem nesting_le_of_access (h : Written n (.access object e) ts rest) :
    object.nesting ≤ e.nesting := by
  cases h with
  | accessName => exact Nat.le_refl _
  | accessElement h =>
    cases h
    exact Nat.le_max_left ..

theorem nesting_le_of_link (h : Written n (.link object e) ts rest) :
    object.nesting ≤ e.nesting := by
  cases h with
  | linkAccess h => exact h.nesting_le_of_access
  | linkCall h | optionalElement _ h | optionalCall _ h =>
    cases h
    exact Nat.le_max_left ..
  | optionalName => exact Nat.le_refl _

/-- A piece stays written in front of what looks the same, with all levels that it enters. -/
theorem transfer {p : Piece} (h : Written n p ts rest) (enters : p.Enters m)
    {rest' : List Lexeme} (same : p.SeesSame rest rest') : Written m p ts rest' := by
  induction h generalizing m rest' with
  | yield kind stop =>
    match m, enters with
    | m + 1, _ => exact .yield kind (SameAhead.stops same stop)
  | yieldValue kind _ ih =>
    match m, enters with
    | m + 1, enters => exact .yieldValue kind (ih (Nat.le_of_succ_le_succ enters) same)
  | yieldAll kind star _ ih =>
    match m, enters with
    | m + 1, enters => exact .yieldAll kind star (ih (Nat.le_of_succ_le_succ enters) same)
  | unassigned _ ih =>
    match m, enters with
    | m + 1, enters => exact .unassigned (ih (Nat.le_of_succ_le_succ enters) same)
  | @assigned _ _ _ _ o _ us _ isOp assignable _ _ ihTarget ihValue =>
    match m, enters with
    | m + 1, enters =>
      obtain ⟨target, value⟩ := Nat.max_le.1 (Nat.le_of_succ_le_succ enters)
      exact .assigned isOp assignable (ihTarget target ((SameAhead.append same us).cons o))
        (ihValue value same)
  | single _ ih => exact .single (ih enters same)
  | @sequence _ _ _ _ k _ us _ _ _ ihFirst ihTail =>
    have all := (nestingExpressions_succ_le (List.cons_ne_nil _ _)).1 enters
    obtain ⟨first, tail⟩ := List.forall_mem_cons.1 all
    exact .sequence (ihFirst first ((SameAhead.append same us).cons k)) (ihTail tail same)
  | tailNil => exact .tailNil
  | @tailCons _ _ _ _ _ us _ comma _ _ ihFirst ihTail =>
    obtain ⟨first, tail⟩ := List.forall_mem_cons.1 enters
    exact .tailCons comma (ihFirst first (SameAhead.append same us)) (ihTail tail same)
  | plain _ ih => exact .plain (ih enters same)
  | spread dots _ ih => exact .spread dots (ih enters same)
  | argumentsNil => exact .argumentsNil
  | argumentsLast _ ih => exact .argumentsLast (ih (List.forall_mem_cons.1 enters).1 same)
  | @argumentsCons _ _ _ k _ us _ comma _ _ ihFirst ihMore =>
    obtain ⟨first, more⟩ := List.forall_mem_cons.1 enters
    exact .argumentsCons comma (ihFirst first ((SameAhead.append same us).cons k))
      (ihMore more same)
  | elementsNil => exact .elementsNil
  | elementsHole comma _ ih =>
    exact .elementsHole comma (ih (List.forall_mem_cons.1 enters).2 same)
  | elementsLast _ ih => exact .elementsLast (ih (List.forall_mem_cons.1 enters).1 same)
  | @elementsCons _ _ _ k _ us _ comma _ _ ihFirst ihMore =>
    obtain ⟨first, more⟩ := List.forall_mem_cons.1 enters
    exact .elementsCons comma (ihFirst first ((SameAhead.append same us).cons k))
      (ihMore more same)
  | keyName start => exact .keyName start
  | keyString start => exact .keyString start
  | keyNumber start value => exact .keyNumber start value
  | keyComputed start close _ ih =>
    exact .keyComputed start close (ih enters (SameAhead.cons same _))
  | @property _ _ _ _ k _ us _ colon _ _ ihKey ihValue =>
    obtain ⟨key, value⟩ := Nat.max_le.1 enters
    exact .property colon (ihKey key ((SameAhead.append same us).cons k)) (ihValue value same)
  | shorthand short => exact .shorthand (SameAhead.isShorthand same short)
  | memberSpread dots _ ih => exact .memberSpread dots (ih enters same)
  | membersNil => exact .membersNil
  | membersLast _ ih => exact .membersLast (ih (List.forall_mem_cons.1 enters).1 same)
  | @membersCons _ _ _ k _ us _ comma _ _ ihFirst ihMore =>
    obtain ⟨first, more⟩ := List.forall_mem_cons.1 enters
    exact .membersCons comma (ihFirst first ((SameAhead.append same us).cons k)) (ihMore more same)
  | @number _ _ t _ start value detached =>
    exact .number start value ((SameAhead.suffix same t).symm.trans detached)
  | leaf start => exact .leaf start
  | importMeta start dot kind text => exact .importMeta start dot kind text
  | parenthesized start close _ ih =>
    exact .parenthesized start close (ih enters (SameAhead.cons same _))
  | array start close _ ih =>
    exact .array start close (ih (nestingElements_le.1 enters) (SameAhead.cons same _))
  | object start close _ ih =>
    exact .object start close (ih (nestingMembers_le.1 enters) (SameAhead.cons same _))
  | headPrimary _ ih => exact .headPrimary (ih enters same)
  | newTarget isNew dot kind text =>
    match m, enters with
    | m + 1, _ => exact .newTarget isNew dot kind text
  | @construct _ _ _ _ p k _ us _ isNew paren close _ _ ihCallee ihList =>
    match m, enters with
    | m + 1, enters =>
      obtain ⟨callee, list⟩ := Nat.max_le.1 (Nat.le_of_succ_le_succ enters)
      have behind := SameAhead.cons same k
      exact .construct isNew paren close (ihCallee callee ((behind.append us).cons p))
        (ihList (nestingArguments_le.1 list) behind)
  | constructBare isNew _ stop ih =>
    match m, enters with
    | m + 1, enters =>
      exact .constructBare isNew (ih (Nat.le_of_succ_le_succ enters) same)
        (SameAhead.stops same stop)
  | calleeHead _ ih => exact .calleeHead (ih enters same)
  | @calleeAccess _ _ _ _ us _ _ access ihObject ihAccess =>
    have object := Nat.le_trans access.nesting_le_of_access enters
    exact .calleeAccess (ihObject object (SameAhead.append same us)) (ihAccess enters same)
  | linksHead _ ih => exact .linksHead (ih enters same)
  | @linksLink _ _ _ _ us _ _ link ihObject ihLink =>
    have object := Nat.le_trans link.nesting_le_of_link enters
    exact .linksLink (ihObject object (SameAhead.append same us)) (ihLink enters same)
  | element bracket close _ ih =>
    exact .element bracket close (ih (Nat.max_le.1 enters).2 (SameAhead.cons same _))
  | call paren close _ ih =>
    have list := nestingArguments_le.1 (Nat.max_le.1 enters).2
    exact .call paren close (ih list (SameAhead.cons same _))
  | accessName dot isName => exact .accessName dot isName
  | accessElement _ ih => exact .accessElement (ih enters same)
  | linkAccess _ ih => exact .linkAccess (ih enters same)
  | linkCall _ ih => exact .linkCall (ih enters same)
  | optionalName dot isName => exact .optionalName dot isName
  | optionalElement dot _ ih => exact .optionalElement dot (ih enters same)
  | optionalCall dot _ ih => exact .optionalCall dot (ih enters same)
  | updatedLinks _ ih => exact .updatedLinks (ih enters same)
  | updateBehind isOp assignable _ ih =>
    exact .updateBehind isOp assignable (ih enters (SameAhead.cons same _))
  | operandUpdated _ ih => exact .operandUpdated (ih enters same)
  | updateAhead start assignable _ ih =>
    match m, enters with
    | m + 1, enters =>
      exact .updateAhead start assignable (ih (Nat.le_of_succ_le_succ enters) same)
  | unary start _ ih =>
    match m, enters with
    | m + 1, enters => exact .unary start (ih (Nat.le_of_succ_le_succ enters) same)
  | await start _ ih =>
    match m, enters with
    | m + 1, enters => exact .await start (ih (Nat.le_of_succ_le_succ enters) same)
  | chainOperand _ ih => exact .chainOperand (ih enters same)
  | @operationLeft _ _ _ _ _ o _ us _ isOp grouping le mixLeft mixRight _ _ ihLeft ihRight =>
    obtain ⟨left, right⟩ := Nat.max_le.1 enters
    rw [if_neg (by simp [grouping])] at right
    exact .operationLeft isOp grouping le mixLeft mixRight
      (ihLeft left ((SameAhead.append same us).cons o)) (ihRight right same)
  | @operationRight _ _ _ _ _ o _ us _ isOp grouping le mixLeft mixRight _ _ ihLeft ihRight =>
    obtain ⟨left, right⟩ := Nat.max_le.1 enters
    rw [if_pos grouping] at right
    match m, right with
    | m + 1, right =>
      exact .operationRight isOp grouping le mixLeft mixRight
        (ihLeft left ((SameAhead.append same us).cons o))
        (ihRight (Nat.le_of_succ_le_succ right) same)
  | unconditional _ ih => exact .unconditional (ih enters same)
  | @conditional _ _ _ _ q k _ us vs _ question colon _ _ _ ihCondition ihTrue ihFalse =>
    obtain ⟨condition, arms⟩ := Nat.max_le.1 enters
    rw [← Nat.add_max_add_right, Nat.max_le] at arms
    obtain ⟨whenTrue, whenFalse⟩ := arms
    have behind := (SameAhead.append same vs).cons k
    exact .conditional question colon (ihCondition condition ((behind.append us).cons q))
      (ihTrue whenTrue behind) (ihFalse whenFalse same)
  | declaration kind name assign semicolon _ ih =>
    exact .declaration kind name assign semicolon
      (ih enters (.of_ne_dot (by simp [semicolon]) ..))
  | block brace close _ ih =>
    match m, enters with
    | m + 1, enters =>
      have list := nestingStatements_le.1 (Nat.le_of_succ_le_succ enters)
      exact .block brace close (ih list trivial)
  | empty semicolon => exact .empty semicolon
  | expression notBrace semicolon _ ih =>
    exact .expression notBrace semicolon (ih enters (.of_ne_dot (by simp [semicolon]) ..))
  | debugger kind semicolon => exact .debugger kind semicolon
  | statementsNil => exact .statementsNil
  | statementsCons _ _ ihFirst ihMore =>
    obtain ⟨first, more⟩ := List.forall_mem_cons.1 enters
    exact .statementsCons (ihFirst first trivial) (ihMore more trivial)

end Written

end EcmaFront
