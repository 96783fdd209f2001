import EcmaFront.Proofs.Tree.Grammar.Realizable

/-!
# Slots of bare trees

The slots of a tree do not depend on its spans (`Program.slots_bare`), and every lexeme that a tree of
the grammar asks for is spelled by the lexical grammar (`Grammatical.spelled`).
-/

namespace EcmaFront

/-! ## Slots without spans -/

namespace Outline

variable {ls ms : List Outline}

theorem slotsOf_congr (h : ls.map slots = ms.map slots) : slotsOf ls = slotsOf ms := by
  induction ls generalizing ms with
  | nil =>
    cases ms with
    | nil => rfl
    | cons m ms => cases h
  | cons l ls ih =>
    cases ms with
    | nil => cases h
    | cons m ms =>
      obtain ⟨first, rest⟩ := List.cons.inj h
      simp [first, ih rest]

theorem slots_separated (h : ls.map slots = ms.map slots) :
    (separated ls).map slots = (separated ms).map slots := by
  induction ls generalizing ms with
  | nil =>
    cases ms with
    | nil => rfl
    | cons m ms => cases h
  | cons l ls ih =>
    cases ms with
    | nil => cases h
    | cons m ms =>
      obtain ⟨first, rest⟩ := List.cons.inj h
      have rest' := ih rest
      cases ls <;> cases ms <;> simp_all [separated]

theorem slots_joined (h : ls.map slots = ms.map slots) :
    (joined ls).map slots = (joined ms).map slots := by
  induction ls generalizing ms with
  | nil =>
    cases ms with
    | nil => rfl
    | cons m ms => cases h
  | cons l ls ih =>
    cases ms with
    | nil => cases h
    | cons m ms =>
      obtain ⟨first, rest⟩ := List.cons.inj h
      have rest' := ih rest
      cases ls <;> cases ms <;> simp_all [joined]

end Outline

mutual

theorem Expr.slots_bare : (e : Expr) → e.bare.outline.slots = e.outline.slots
  | .leaf _ _ | .yield _ => by simp [Expr.bare]
  | .parenthesized inside _ => by simp [Expr.bare, inside.slots_bare]
  | .array elements _ => by
    simp [Expr.bare, Outline.slotsOf_congr (slots_bareElements elements)]
  | .object members _ => by
    have inside := Outline.slotsOf_congr (Outline.slots_separated (slots_bareMembers members))
    simp [Expr.bare, inside]
  | .property object name true _ | .property object name false _ => by
    simp [Expr.bare, object.slots_bare, Identifier.bare]
  | .element object index true _ | .element object index false _ => by
    simp [Expr.bare, object.slots_bare, index.slots_bare]
  | .call callee arguments true _ | .call callee arguments false _
  | .construct callee arguments _ => by
    have inside := Outline.slotsOf_congr (Outline.slots_separated (slots_bareArguments arguments))
    simp [Expr.bare, callee.slots_bare, inside]
  | .constructBare callee _ => by simp [Expr.bare, callee.slots_bare]
  | .update _ true operand _ | .update _ false operand _ | .unary _ operand _ | .await operand _
  | .yieldValue true operand _ | .yieldValue false operand _ => by
    simp [Expr.bare, operand.slots_bare]
  | .operation _ left right _ => by simp [Expr.bare, left.slots_bare, right.slots_bare]
  | .conditional condition whenTrue whenFalse _ => by
    simp [Expr.bare, condition.slots_bare, whenTrue.slots_bare, whenFalse.slots_bare]
  | .assignment _ target value _ => by simp [Expr.bare, target.slots_bare, value.slots_bare]
  | .sequence expressions _ => by
    have inside := Outline.slotsOf_congr (Outline.slots_joined (slots_bareExpressions expressions))
    simp [Expr.bare, inside]

theorem Argument.slots_bare : (a : Argument) → a.bare.outline.slots = a.outline.slots
  | .plain e | .spread e _ => by simp [Argument.bare, e.slots_bare]

theorem PropertyKey.slots_bare : (k : PropertyKey) →
    Outline.slotsOf k.bare.outlines = Outline.slotsOf k.outlines
  | .name _ => by simp [PropertyKey.bare, Identifier.bare]
  | .string _ _ | .number _ _ => by simp [PropertyKey.bare]
  | .computed e => by simp [PropertyKey.bare, e.slots_bare]

theorem ObjectMember.slots_bare : (m : ObjectMember) → m.bare.outline.slots = m.outline.slots
  | .property key value _ => by simp [ObjectMember.bare, key.slots_bare, value.slots_bare]
  | .shorthand _ => by simp [ObjectMember.bare, Identifier.bare]
  | .spread e _ => by simp [ObjectMember.bare, e.slots_bare]

theorem slots_bareExpressions : (es : List Expr) →
    (outlineExpressions (bareExpressions es)).map Outline.slots =
      (outlineExpressions es).map Outline.slots
  | [] => rfl
  | e :: es => by simp [bareExpressions, outlineExpressions, e.slots_bare, slots_bareExpressions es]

theorem slots_bareArguments : (list : List Argument) →
    (outlineArguments (bareArguments list)).map Outline.slots =
      (outlineArguments list).map Outline.slots
  | [] => rfl
  | a :: list => by simp [bareArguments, outlineArguments, a.slots_bare, slots_bareArguments list]

theorem slots_bareElements : (es : List ArrayElement) →
    (outlineElements (bareElements es)).map Outline.slots = (outlineElements es).map Outline.slots
  | [] => rfl
  | .hole _ :: es => by simp [bareElements, ArrayElement.bare, slots_bareElements es]
  | [.item a] => by simp [bareElements, ArrayElement.bare, a.slots_bare]
  | .item a :: e :: es => by
    have rest := slots_bareElements (e :: es)
    simp only [bareElements] at rest
    simp [bareElements, ArrayElement.bare, a.slots_bare, rest]

theorem slots_bareMembers : (ms : List ObjectMember) →
    (outlineMembers (bareMembers ms)).map Outline.slots = (outlineMembers ms).map Outline.slots
  | [] => rfl
  | m :: ms => by simp [bareMembers, outlineMembers, m.slots_bare, slots_bareMembers ms]

end

mutual

theorem Statement.slots_bare : (s : Statement) → s.bare.outline.slots = s.outline.slots
  | .declaration _ _ value _ => by simp [Statement.bare, Identifier.bare, value.slots_bare]
  | .block list _ => by simp [Statement.bare, slots_bareStatements list]
  | .empty _ | .debugger _ => by simp [Statement.bare]
  | .expression e _ => by simp [Statement.bare, e.slots_bare]

theorem slots_bareStatements : (list : List Statement) →
    Outline.slotsOf (outlineStatements (bareStatements list)) =
      Outline.slotsOf (outlineStatements list)
  | [] => rfl
  | s :: list => by
    simp [bareStatements, outlineStatements, s.slots_bare, slots_bareStatements list]

end

theorem Program.slots_bare (p : Program) : p.bare.slots = p.slots :=
  slots_bareStatements p.statements

/-! ## What the slots of the grammar print -/

/-- The slot prints a text of the lexical grammar, if any. -/
def Slot.IsSpelled (strict : Bool) (slot : Slot) : Prop :=
  ∀ text ∈ slot.text?, ∃ kind, Spelled strict kind text

namespace Slot

variable {strict : Bool}

theorem isSpelled_fixed {kind : TokenKind} {spelling : String} (isFixed : kind.text? = some spelling)
    (reserved : (strict || !kind.isStrictOnly) = true) : (fixed kind).IsSpelled strict := by
  rintro text ⟨⟩
  exact ⟨kind, .fixed isFixed reserved⟩

@[simp] theorem isSpelled_punctuator (p : Punctuator) :
    (fixed (.punctuator p)).IsSpelled strict :=
  isSpelled_fixed rfl (by simp)

@[simp] theorem isSpelled_assignment (op : AssignmentOperator) :
    (fixed (.assignment op)).IsSpelled strict :=
  isSpelled_fixed rfl (by simp)

@[simp] theorem isSpelled_update (op : UpdateOperator) : (fixed op.kind).IsSpelled strict :=
  isSpelled_fixed op.text?_kind (by cases op <;> exact Bool.or_true strict)

@[simp] theorem isSpelled_unary (op : UnaryOperator) : (fixed op.kind).IsSpelled strict :=
  isSpelled_fixed op.text?_kind (by cases op <;> exact Bool.or_true strict)

@[simp] theorem isSpelled_infix (op : InfixOperator) : (fixed op.kind).IsSpelled strict :=
  isSpelled_fixed op.text?_kind (by simp [TokenKind.isStrictOnly_infix])

@[simp] theorem isSpelled_declaration (kind : DeclarationKind) :
    (fixed kind.kind).IsSpelled strict :=
  isSpelled_fixed kind.text?_kind (by cases kind <;> exact Bool.or_true strict)

@[simp] theorem isSpelled_keyword {k : Keyword} (reserved : (strict || !k.isStrictOnly) = true) :
    (fixed (.keyword k)).IsSpelled strict :=
  isSpelled_fixed rfl reserved

@[simp] theorem isSpelled_numeral (value : Nat) : (numeral value).IsSpelled strict := by
  rintro text ⟨⟩
  exact ⟨.number, .number (by simp) fun d mem => Nat.isDigit_of_mem_toDigits (by decide) (by decide) mem⟩

@[simp] theorem isSpelled_lastComma : lastComma.IsSpelled strict := nofun

@[simp] theorem isSpelled_name {text : Text} (isName : text.IsName) :
    (word text).IsSpelled strict := by
  rintro _ ⟨⟩
  exact ⟨_, .name isName⟩

@[simp] theorem isSpelled_string {raw : Text} (isString : Quoted.IsString raw) :
    (word raw).IsSpelled strict := by
  rintro _ ⟨⟩
  exact ⟨_, .string isString⟩

end Slot

/-- Slots that print texts of the lexical grammar, if any. -/
def AreSpelled (strict : Bool) (slots : List Slot) : Prop := ∀ slot ∈ slots, slot.IsSpelled strict

section

variable {strict : Bool}

@[simp] theorem areSpelled_nil : AreSpelled strict [] := nofun

@[simp] theorem areSpelled_cons {slot : Slot} {slots : List Slot} :
    AreSpelled strict (slot :: slots) ↔ slot.IsSpelled strict ∧ AreSpelled strict slots :=
  List.forall_mem_cons

@[simp] theorem areSpelled_append {slots slots' : List Slot} :
    AreSpelled strict (slots ++ slots') ↔ AreSpelled strict slots ∧ AreSpelled strict slots' :=
  List.forall_mem_append

theorem areSpelled_separated {ls : List Outline} (all : ∀ l ∈ ls, AreSpelled strict l.slots) :
    AreSpelled strict (Outline.slotsOf (Outline.separated ls)) := by
  induction ls with
  | nil => simp [Outline.separated]
  | cons l ls ih =>
    obtain ⟨first, rest⟩ := List.forall_mem_cons.1 all
    have ih := ih rest
    cases ls with
    | nil => simpa [Outline.separated] using first
    | cons m ls => simp [Outline.separated, first, ih]

theorem areSpelled_arguments {list : List Argument}
    (all : ∀ a ∈ list, AreSpelled strict a.outline.slots) :
    AreSpelled strict (Outline.slotsOf (Outline.separated (outlineArguments list))) := by
  rw [outlineArguments_eq_map]
  exact areSpelled_separated (List.forall_mem_map.2 all)

theorem areSpelled_members {ms : List ObjectMember}
    (all : ∀ m ∈ ms, AreSpelled strict m.outline.slots) :
    AreSpelled strict (Outline.slotsOf (Outline.separated (outlineMembers ms))) := by
  rw [outlineMembers_eq_map]
  exact areSpelled_separated (List.forall_mem_map.2 all)

theorem areSpelled_elements {es : List ArrayElement}
    (all : ∀ a, .item a ∈ es → AreSpelled strict a.outline.slots) :
    AreSpelled strict (Outline.slotsOf (outlineElements es)) := by
  induction es with
  | nil => simp
  | cons e es ih =>
    have ih := ih fun a mem => all a (List.mem_cons_of_mem _ mem)
    cases e with
    | hole span => simpa using ih
    | item a =>
      have first := all a List.mem_cons_self
      cases es with
      | nil => simpa using first
      | cons e es => simp [first, ih]

theorem areSpelled_expressions {es : List Expr}
    (all : ∀ e ∈ es, AreSpelled strict e.outline.slots) :
    AreSpelled strict (Outline.slotsOf (Outline.joined (outlineExpressions es))) := by
  induction es with
  | nil => simp [outlineExpressions, Outline.joined]
  | cons e es ih =>
    obtain ⟨first, rest⟩ := List.forall_mem_cons.1 all
    have ih := ih rest
    cases es with
    | nil => simpa [outlineExpressions, Outline.joined] using first
    | cons f es =>
      simp only [outlineExpressions] at ih
      simp [outlineExpressions, Outline.joined, first, ih]

theorem areSpelled_statements {list : List Statement}
    (all : ∀ s ∈ list, AreSpelled strict s.outline.slots) :
    AreSpelled strict (Outline.slotsOf (outlineStatements list)) := by
  induction list with
  | nil => simp [outlineStatements]
  | cons s list ih =>
    obtain ⟨first, rest⟩ := List.forall_mem_cons.1 all
    simp [outlineStatements, first, ih rest]

end

/-- Every lexeme that a piece of the grammar asks for is spelled by the lexical grammar. -/
theorem Grammatical.spelled {strict : Bool} {p : Piece} (h : Grammatical strict p) :
    AreSpelled strict p.slots := by
  induction h with
  | yield isStrict => simp [isStrict]
  | @yieldValue delegates => cases delegates <;> simp_all
  | unassigned _ ih | single _ ih | plain _ ih | headPrimary _ ih | calleeHead _ ih
  | linksHead _ ih | updatedLinks _ ih | operandUpdated _ ih | chainOperand _ ih
  | unconditional _ ih => exact ih
  | sequence _ _ ih => simpa using areSpelled_expressions ih
  | shorthand isName | identifier isName | declaration isName =>
    have := isName.1
    simp_all
  | word mem =>
    simp only [List.mem_cons, List.not_mem_nil, or_false] at mem
    have := (isIdentifier_meta strict).1.1
    rcases mem with rfl | rfl | rfl | rfl | rfl | rfl <;> simp_all [Keyword.isStrictOnly_eq]
  | array _ _ ih => simpa using areSpelled_elements ih
  | object _ ih => simpa using areSpelled_members ih
  | newTarget =>
    have := (isIdentifier_meta strict).2.1
    simp_all [Keyword.isStrictOnly_eq]
  | construct _ _ _ _ list =>
    have inside := areSpelled_arguments list
    simp_all [Keyword.isStrictOnly_eq]
  | @linksCall _ _ optional _ _ _ _ list =>
    have inside := areSpelled_arguments list
    cases optional <;> simp_all
  | @linksProperty _ _ optional | @linksElement _ _ optional => cases optional <;> simp_all
  | block _ ih => simpa using areSpelled_statements ih
  | _ => simp_all [Keyword.isStrictOnly_eq]

end EcmaFront
