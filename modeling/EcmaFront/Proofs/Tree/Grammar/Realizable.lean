import EcmaFront.Proofs.Tree.Filled
import EcmaFront.Proofs.Tree.Grammar.Laid

/-!
# Realizable pieces

A piece is realizable if the lexemes that it asks for write it wherever it may stand, with spans that
come from the lexemes. What it may stand in front of is a condition of its category,
`Piece.Follows`: a form between commas stands in front of a separator or of a bracket that closes, a
`new` form without arguments in front of nothing that it would take.

* `Piece.slots`, `Piece.Follows`, `Piece.Realizable`.
* `realized_arguments` and the like: lists of realizable pieces are written.
-/

namespace EcmaFront

open Reader (Separates)

/-! ## What follows a piece -/

namespace TokenKind

/-- Whether a form between commas ends in front of the token. -/
def endsAssignment : TokenKind → Bool
  | .punctuator .closeParen | .punctuator .closeBracket | .punctuator .closeBrace
  | .punctuator .comma | .punctuator .semicolon | .punctuator .colon => true
  | _ => false

theorem continuesCallee_of_endsAssignment {kind : TokenKind} (h : kind.endsAssignment = true) :
    kind.continuesCallee = false := by
  unfold endsAssignment at h
  split at h <;> first | rfl | cases h

theorem startsYieldOperand_of_endsAssignment {kind : TokenKind} (h : kind.endsAssignment = true) :
    kind.startsYieldOperand = false := by
  unfold endsAssignment at h
  split at h <;> first | rfl | cases h

theorem continuesCallee_infix (op : InfixOperator) : op.kind.continuesCallee = false := by
  rcases op with op | op <;> cases op <;> rfl

theorem continuesCallee_update (op : UpdateOperator) : op.kind.continuesCallee = false := by
  cases op <;> rfl

theorem isStrictOnly_infix (op : InfixOperator) : op.kind.isStrictOnly = false := by
  rcases op with op | op <;> cases op <;> rfl

theorem operandStart_update (op : UpdateOperator) : op.kind.operandStart = .update op := by
  cases op <;> rfl

theorem operandStart_unary (op : UnaryOperator) : op.kind.operandStart = .unary op := by
  cases op <;> rfl

theorem keyStart_name {kind : TokenKind} (h : kind.isPropertyName = true) :
    kind.keyStart = .name := by
  rw [isPropertyName_eq] at h
  cases kind with
  | identifier | keyword => rfl
  | _ => cases h

end TokenKind

/-- A form between commas may stand in front of the lexemes. -/
def Ends (rest : List Lexeme) : Prop := ∀ t ∈ rest.head?, t.kind.endsAssignment = true

namespace Ends

variable {rest : List Lexeme}

theorem of_kind {t : Lexeme} {kind : TokenKind} (same : t.kind = kind)
    (ends : kind.endsAssignment = true) : Ends (t :: rest) := by
  rintro _ ⟨⟩
  rw [same]
  exact ends

theorem stops (h : Ends rest) : Stops TokenKind.continuesCallee rest :=
  fun t head => TokenKind.continuesCallee_of_endsAssignment (h t head)

theorem stopsYield (h : Ends rest) : Stops TokenKind.startsYieldOperand rest :=
  fun t head => TokenKind.startsYieldOperand_of_endsAssignment (h t head)

end Ends

/-- A member of an object stands in front of a comma or of the closing brace. -/
def EndsMember (rest : List Lexeme) : Prop :=
  ∃ t us, rest = t :: us ∧ (t.kind = .punctuator .comma ∨ t.kind = .punctuator .closeBrace)

theorem EndsMember.ends {rest : List Lexeme} (h : EndsMember rest) : Ends rest := by
  obtain ⟨t, us, rfl, comma | close⟩ := h
  · exact .of_kind comma rfl
  · exact .of_kind close rfl

theorem Written.exists_of_key {n : Nat} {k : PropertyKey} {ts rest : List Lexeme}
    (h : Written n (.key k) ts rest) : ∃ t us, ts = t :: us := by
  cases h with
  | keyName | keyString | keyNumber | keyComputed => exact ⟨_, _, rfl⟩

/-- What the piece may stand in front of. -/
def Piece.Follows : Piece → List Lexeme → Prop
  | .assignment _, rest | .expression _, rest | .argument _, rest => Ends rest
  | .member _, rest => EndsMember rest
  | .head e, rest | .callee e, rest | .links e, rest =>
    e.isBareNew = true → Stops TokenKind.continuesCallee rest
  | .updated _, rest | .operand _, rest | .chain _ _, rest => Stops TokenKind.continuesCallee rest
  | .conditional e, rest =>
    Stops TokenKind.continuesCallee rest ∧ (e.isAssignable = true ∨ Ends rest)
  | _, _ => True

theorem follows_of_notBare {e : Expr} (h : e.isBareNew = false) {rest : List Lexeme} :
    e.isBareNew = true → Stops TokenKind.continuesCallee rest := by
  simp [h]

/-! ## Slots of pieces -/

namespace Outline

@[simp] theorem slots_slot (s : Slot) : (slot s).slots = [s] := by rw [slots]

@[simp] theorem slots_punctuator (p : Punctuator) :
    (punctuator p).slots = [.fixed (.punctuator p)] := slots_slot _

@[simp] theorem slots_keyword (k : Keyword) : (keyword k).slots = [.fixed (.keyword k)] :=
  slots_slot _

@[simp] theorem slots_hole (span : Span) : (hole span).slots = [.fixed (.punctuator .comma)] := by
  rw [slots]

@[simp] theorem slots_node (span : Span) (parts : List Outline) :
    (node span parts).slots = slotsOf parts := by
  rw [slots]

@[simp] theorem slotsOf_nil : slotsOf [] = [] := by rw [slotsOf]

@[simp] theorem slotsOf_cons (l : Outline) (ls : List Outline) :
    slotsOf (l :: ls) = l.slots ++ slotsOf ls := by
  rw [slotsOf]

@[simp] theorem slotsOf_append (ls ms : List Outline) :
    slotsOf (ls ++ ms) = slotsOf ls ++ slotsOf ms := by
  induction ls with
  | nil => simp
  | cons l ls ih => simp [ih]

end Outline

@[simp] theorem Identifier.slots_outline (i : Identifier) : i.outline.slots = [.word i.name] := by
  simp [outline]

attribute [simp] Leaf.outlines Expr.outline Argument.outline PropertyKey.outlines
  ObjectMember.outline outlineElements Statement.outline

/-- The slots of the piece in order. -/
@[simp] def Piece.slots : Piece → List Slot
  | .assignment e | .expression e | .primary e | .head e | .callee e | .links e | .updated e
  | .operand e | .chain _ e | .conditional e => e.outline.slots
  | .argument a => a.outline.slots
  | .key k => Outline.slotsOf k.outlines
  | .member m => m.outline.slots
  | .statement s => s.outline.slots
  | _ => []

theorem Detached.right {ts us : List Lexeme} (h : Detached (ts ++ us)) : Detached us := by
  induction ts with
  | nil => exact h
  | cons t ts ih => exact ih h.2

/-- The lexemes write the piece, once it has spans. -/
def Piece.Realized (n : Nat) : Piece → List Lexeme → List Lexeme → Prop
  | .assignment e, ts, rest => ∃ e', e'.bare = e ∧ Written n (.assignment e') ts rest
  | .expression e, ts, rest => ∃ e', e'.bare = e ∧ Written n (.expression e') ts rest
  | .argument a, ts, rest => ∃ a', a'.bare = a ∧ Written n (.argument a') ts rest
  | .key k, ts, rest => ∃ k', k'.bare = k ∧ Written n (.key k') ts rest
  | .member m, ts, rest => ∃ m', m'.bare = m ∧ Written n (.member m') ts rest
  | .primary e, ts, rest => ∃ e', e'.bare = e ∧ Written n (.primary e') ts rest
  | .head e, ts, rest => ∃ e', e'.bare = e ∧ Written n (.head e') ts rest
  | .callee e, ts, rest => ∃ e', e'.bare = e ∧ Written n (.callee e') ts rest
  | .links e, ts, rest => ∃ e', e'.bare = e ∧ Written n (.links e') ts rest
  | .updated e, ts, rest => ∃ e', e'.bare = e ∧ Written n (.updated e') ts rest
  | .operand e, ts, rest => ∃ e', e'.bare = e ∧ Written n (.operand e') ts rest
  | .chain least e, ts, rest => ∃ e', e'.bare = e ∧ Written n (.chain least e') ts rest
  | .conditional e, ts, rest => ∃ e', e'.bare = e ∧ Written n (.conditional e') ts rest
  | .statement s, ts, rest => ∃ s', s'.bare = s ∧ Written n (.statement s') ts rest
  | _, _, _ => True

/-- The lexemes of the piece write it wherever it may stand. -/
def Piece.Realizable (strict : Bool) (n : Nat) (p : Piece) : Prop :=
  ∀ ⦃ts rest : List Lexeme⦄, Lays strict p.slots ts → Detached (ts ++ rest) → p.Follows rest →
    p.Realized n ts rest

/-! ## Lists -/

section

variable {strict : Bool} {n : Nat} {ts rest : List Lexeme}

/-- The first of the members, and the comma that may stand behind it. -/
theorem Lays.separated_cons {l : Outline} {ls : List Outline}
    (h : Lays strict (Outline.slotsOf (Outline.separated (l :: ls))) ts) :
    ∃ us vs, ts = us ++ vs ∧ Lays strict l.slots us ∧ (vs = [] ∧ ls = [] ∨
      ∃ k ws, vs = k :: ws ∧ k.kind = .punctuator .comma ∧
        Lays strict (Outline.slotsOf (Outline.separated ls)) ws) := by
  cases ls with
  | nil =>
    simp only [Outline.separated, Outline.slotsOf_cons, Outline.slotsOf_nil, List.append_nil,
      Outline.slots_slot] at h
    obtain ⟨us, vs, rfl, first, h⟩ := h.exists_append
    refine ⟨us, vs, rfl, first, ?_⟩
    rcases h.lastComma with none | ⟨k, ws, rfl, kind, h⟩
    · exact .inl ⟨none.eq_nil, rfl⟩
    · exact .inr ⟨k, ws, rfl, kind, by simpa [Outline.separated] using h⟩
  | cons m ls =>
    simp only [Outline.separated, Outline.slotsOf_cons, Outline.slots_punctuator,
      List.singleton_append] at h
    obtain ⟨us, vs, rfl, first, h⟩ := h.exists_append
    obtain ⟨k, ws, rfl, kind, h⟩ := h.punctuator
    exact ⟨us, _, rfl, first, .inr ⟨k, ws, rfl, kind, h⟩⟩

/-- A list of members is written if each of them is. -/
theorem exists_separated {α : Type} {outline : α → Outline} {bare : α → α}
    {item : α → List Lexeme → List Lexeme → Prop} {list : List α → List Lexeme → List Lexeme → Prop}
    {follows : List Lexeme → Prop} (separates : Separates item list)
    (comma : ∀ {k us}, k.kind = .punctuator .comma → follows (k :: us)) {as : List α}
    (all : ∀ a ∈ as, ∀ ⦃ts rest⦄, Lays strict (outline a).slots ts → Detached (ts ++ rest) →
      follows rest → ∃ a', bare a' = a ∧ item a' ts rest)
    (lays : Lays strict (Outline.slotsOf (Outline.separated (as.map outline))) ts)
    (detached : Detached (ts ++ rest)) (ends : follows rest) :
    ∃ as', as'.map bare = as ∧ list as' ts rest := by
  induction as generalizing ts with
  | nil =>
    have none : ts = [] := Lays.eq_nil (by simpa [Outline.separated] using lays)
    exact ⟨[], rfl, none ▸ separates.nil⟩
  | cons a as ih =>
    obtain ⟨us, vs, rfl, first, ⟨rfl, more⟩ | ⟨k, ws, rfl, kind, more⟩⟩ := lays.separated_cons
    · rw [List.append_nil] at detached ⊢
      obtain rfl := List.map_eq_nil_iff.1 more
      obtain ⟨a', rfl, written⟩ := all a List.mem_cons_self first detached ends
      exact ⟨[a'], rfl, separates.last written⟩
    · rw [List.append_assoc] at detached
      obtain ⟨a', rfl, written⟩ := all a List.mem_cons_self first detached (comma kind)
      obtain ⟨as', rfl, tail⟩ := ih (fun b mem => all b (List.mem_cons_of_mem _ mem)) more
        detached.right.2
      exact ⟨a' :: as', rfl, separates.cons kind written tail⟩

theorem outlineArguments_eq_map (list : List Argument) :
    outlineArguments list = list.map Argument.outline := by
  induction list with
  | nil => rfl
  | cons a list ih => simp [outlineArguments, ih]

theorem bareArguments_eq_map (list : List Argument) :
    bareArguments list = list.map Argument.bare := by
  induction list with
  | nil => rfl
  | cons a list ih => simp [bareArguments, ih]

theorem outlineMembers_eq_map (ms : List ObjectMember) :
    outlineMembers ms = ms.map ObjectMember.outline := by
  induction ms with
  | nil => rfl
  | cons m ms ih => simp [outlineMembers, ih]

theorem bareMembers_eq_map (ms : List ObjectMember) :
    bareMembers ms = ms.map ObjectMember.bare := by
  induction ms with
  | nil => rfl
  | cons m ms ih => simp [bareMembers, ih]

theorem realized_arguments {list : List Argument}
    (all : ∀ a ∈ list, (Piece.argument a).Realizable strict n)
    (lays : Lays strict (Outline.slotsOf (Outline.separated (outlineArguments list))) ts)
    (detached : Detached (ts ++ rest)) (ends : Ends rest) :
    ∃ list', bareArguments list' = list ∧ Written n (.arguments list') ts rest := by
  rw [outlineArguments_eq_map] at lays
  simp only [bareArguments_eq_map]
  exact exists_separated Expr.separates_arguments (fun comma => Ends.of_kind comma rfl) all lays
    detached ends

theorem realized_members {ms : List ObjectMember}
    (all : ∀ m ∈ ms, (Piece.member m).Realizable strict n)
    (lays : Lays strict (Outline.slotsOf (Outline.separated (outlineMembers ms))) ts)
    (detached : Detached (ts ++ rest)) (ends : EndsMember rest) :
    ∃ ms', bareMembers ms' = ms ∧ Written n (.members ms') ts rest := by
  rw [outlineMembers_eq_map] at lays
  simp only [bareMembers_eq_map]
  exact exists_separated Expr.separates_members (fun comma => ⟨_, _, rfl, .inl comma⟩) all lays
    detached ends

/-- The first element, if it is no hole, and the comma that may stand behind it. -/
theorem Lays.elements_cons {a : Argument} {es : List ArrayElement}
    (h : Lays strict (Outline.slotsOf (outlineElements (.item a :: es))) ts) :
    ∃ us vs, ts = us ++ vs ∧ Lays strict a.outline.slots us ∧ (vs = [] ∧ es = [] ∨
      ∃ k ws, vs = k :: ws ∧ k.kind = .punctuator .comma ∧
        Lays strict (Outline.slotsOf (outlineElements es)) ws) := by
  cases es with
  | nil =>
    have h : Lays strict (Outline.slotsOf (Outline.separated [a.outline])) ts := h
    obtain ⟨us, vs, eq, first, h⟩ := h.separated_cons
    refine ⟨us, vs, eq, first, ?_⟩
    simpa [outlineElements, Outline.separated] using h
  | cons e es =>
    simp only [outlineElements, Outline.slotsOf_cons, Outline.slots_punctuator,
      List.singleton_append] at h
    obtain ⟨us, vs, rfl, first, h⟩ := h.exists_append
    obtain ⟨k, ws, rfl, kind, h⟩ := h.punctuator
    exact ⟨us, _, rfl, first, .inr ⟨k, ws, rfl, kind, h⟩⟩

theorem realized_elements {es : List ArrayElement} (holes : ∀ span, .hole span ∈ es → span = .unset)
    (all : ∀ a, .item a ∈ es → (Piece.argument a).Realizable strict n)
    (lays : Lays strict (Outline.slotsOf (outlineElements es)) ts)
    (detached : Detached (ts ++ rest)) (ends : Ends rest) :
    ∃ es', bareElements es' = es ∧ Written n (.elements es') ts rest := by
  induction es generalizing ts with
  | nil =>
    have none : ts = [] := Lays.eq_nil (by simpa [outlineElements] using lays)
    exact ⟨[], rfl, none ▸ .elementsNil⟩
  | cons e es ih =>
    have ih {us : List Lexeme} := @ih us (fun span mem => holes span (List.mem_cons_of_mem _ mem))
      (fun a mem => all a (List.mem_cons_of_mem _ mem))
    cases e with
    | hole span =>
      obtain rfl := holes span List.mem_cons_self
      simp only [outlineElements, Outline.slotsOf_cons, Outline.slots_hole,
        List.singleton_append] at lays
      obtain ⟨k, us, rfl, kind, lays⟩ := lays.punctuator
      obtain ⟨es', rfl, tail⟩ := ih lays detached.2
      exact ⟨_ :: es', rfl, .elementsHole kind tail⟩
    | item a =>
      obtain ⟨us, vs, rfl, first, ⟨rfl, rfl⟩ | ⟨k, ws, rfl, kind, more⟩⟩ := lays.elements_cons
      · rw [List.append_nil] at detached ⊢
        obtain ⟨a', rfl, written⟩ := all a List.mem_cons_self first detached ends
        exact ⟨[.item a'], rfl, .elementsLast written⟩
      · rw [List.append_assoc] at detached
        obtain ⟨a', rfl, written⟩ := all a List.mem_cons_self first detached (Ends.of_kind kind rfl)
        obtain ⟨es', rfl, tail⟩ := ih more detached.right.2
        exact ⟨.item a' :: es', rfl, .elementsCons kind written tail⟩

/-- An expression and the tail of a sequence behind it. -/
theorem realized_tail {e : Expr} {es : List Expr}
    (all : ∀ f ∈ e :: es, (Piece.assignment f).Realizable strict n)
    (lays : Lays strict (Outline.slotsOf (Outline.joined (outlineExpressions (e :: es)))) ts)
    (detached : Detached (ts ++ rest)) (ends : Ends rest) :
    ∃ e' es' us vs, e'.bare = e ∧ bareExpressions es' = es ∧ ts = us ++ vs ∧
      Written n (.assignment e') us (vs ++ rest) ∧ Written n (.tail es') vs rest := by
  induction es generalizing e ts with
  | nil =>
    have lays : Lays strict e.outline.slots ts := by
      simpa [outlineExpressions, Outline.joined] using lays
    obtain ⟨e', same, written⟩ := all e List.mem_cons_self lays detached ends
    exact ⟨e', [], ts, [], same, rfl, (List.append_nil ts).symm, written, .tailNil⟩
  | cons f es ih =>
    simp only [outlineExpressions, Outline.joined, Outline.slotsOf_cons, Outline.slots_punctuator,
      List.singleton_append] at lays
    obtain ⟨us, vs, rfl, first, more⟩ := lays.exists_append
    obtain ⟨k, ws, rfl, kind, more⟩ := more.punctuator
    rw [List.append_assoc] at detached
    obtain ⟨e', same, written⟩ := all e List.mem_cons_self first detached (Ends.of_kind kind rfl)
    obtain ⟨f', es', xs, ys, rfl, rfl, rfl, second, tail⟩ :=
      ih (fun g mem => all g (List.mem_cons_of_mem _ mem)) more detached.right.2
    exact ⟨e', f' :: es', us, k :: (xs ++ ys), same, rfl, rfl, written, .tailCons kind second tail⟩

theorem realized_statements {list : List Statement}
    (all : ∀ s ∈ list, (Piece.statement s).Realizable strict n)
    (lays : Lays strict (Outline.slotsOf (outlineStatements list)) ts)
    (detached : Detached (ts ++ rest)) :
    ∃ list', bareStatements list' = list ∧ Written n (.statements list') ts rest := by
  induction list generalizing ts with
  | nil =>
    have none : ts = [] := Lays.eq_nil (by simpa [outlineStatements] using lays)
    exact ⟨[], rfl, none ▸ .statementsNil⟩
  | cons s list ih =>
    simp only [outlineStatements, Outline.slotsOf_cons] at lays
    obtain ⟨us, vs, rfl, first, more⟩ := lays.exists_append
    rw [List.append_assoc] at detached
    obtain ⟨s', rfl, written⟩ := all s List.mem_cons_self first detached trivial
    obtain ⟨list', rfl, tail⟩ := ih (fun t mem => all t (List.mem_cons_of_mem _ mem)) more
      detached.right
    exact ⟨s' :: list', rfl, .statementsCons written tail⟩

end

end EcmaFront
