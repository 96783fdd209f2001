import EcmaFront.Proofs.Tree.Grammar.Written

/-!
# Slots and their lexemes

`Lays strict slots ts` says that the lexemes `ts`, each spelled by the lexical grammar, are printed
for the slots. It is taken apart slot by slot: the slot decides on the kind of its lexeme, since a
text has one kind.
-/

namespace EcmaFront

/-! ## Words have one kind -/

namespace Spelled

variable {strict : Bool} {kind : TokenKind} {text : Text}

theorem isPropertyName (h : Spelled strict kind text) (name : text.IsName) :
    kind.isPropertyName = true := by
  rw [h.unique (.name name), Spelling.isPropertyName_nameKind]

theorem kind_eq_identifier (h : Spelled strict kind text) (name : text.IsIdentifier strict) :
    kind = .identifier := by
  rw [h.unique (.name name.1), Spelling.nameKind, name.2]

end Spelled

/-- The words behind `import` and `new` are reserved nowhere. -/
theorem isIdentifier_meta (strict : Bool) :
    Text.IsIdentifier strict "meta".toList ∧ Text.IsIdentifier strict "target".toList := by
  refine ⟨⟨Text.isName_of_all rfl (by decide) (by decide), ?_⟩,
    ⟨Text.isName_of_all rfl (by decide) (by decide), ?_⟩⟩ <;> revert strict <;> decide +kernel

/-- Texts for two runs of slots are printed one after the other. -/
theorem Prints.exists_append {slots slots' : List Slot} {texts : List Text}
    (h : Prints (slots ++ slots') texts) :
    ∃ ts us, texts = ts ++ us ∧ Prints slots ts ∧ Prints slots' us := by
  induction slots generalizing texts with
  | nil => exact ⟨[], texts, rfl, .nil, h⟩
  | cons slot slots ih =>
    cases h with
    | fixed h =>
      obtain ⟨ts, us, rfl, left, right⟩ := ih h
      exact ⟨_ :: ts, us, rfl, .fixed left, right⟩
    | word h =>
      obtain ⟨ts, us, rfl, left, right⟩ := ih h
      exact ⟨_ :: ts, us, rfl, .word left, right⟩
    | numeral zeros h =>
      obtain ⟨ts, us, rfl, left, right⟩ := ih h
      exact ⟨_ :: ts, us, rfl, .numeral zeros left, right⟩
    | noComma h =>
      obtain ⟨ts, us, rfl, left, right⟩ := ih h
      exact ⟨ts, us, rfl, .noComma left, right⟩
    | lastComma h =>
      obtain ⟨ts, us, rfl, left, right⟩ := ih h
      exact ⟨_ :: ts, us, rfl, .lastComma left, right⟩

/-- The lexemes are printed for the slots. -/
structure Lays (strict : Bool) (slots : List Slot) (ts : List Lexeme) : Prop where
  spelled : ∀ t ∈ ts, Spelled strict t.kind t.text
  prints : Prints slots (ts.map (·.text))

namespace Lays

variable {strict : Bool} {slots slots' : List Slot} {ts : List Lexeme}

theorem eq_nil (h : Lays strict [] ts) : ts = [] := by
  obtain ⟨_, prints⟩ := h
  cases ts with
  | nil => rfl
  | cons t ts => cases prints

theorem exists_append (h : Lays strict (slots ++ slots') ts) :
    ∃ us vs, ts = us ++ vs ∧ Lays strict slots us ∧ Lays strict slots' vs := by
  obtain ⟨left, right, eq, isLeft, isRight⟩ := h.prints.exists_append
  obtain ⟨us, vs, rfl, rfl, rfl⟩ := List.map_eq_append_iff.1 eq
  refine ⟨us, vs, rfl, ⟨fun t mem => ?_, isLeft⟩, ⟨fun t mem => ?_, isRight⟩⟩
  · exact h.spelled t (List.mem_append_left _ mem)
  · exact h.spelled t (List.mem_append_right _ mem)

theorem tail {t : Lexeme} (h : Lays strict slots (t :: ts))
    (prints : Prints slots' (ts.map (·.text))) : Lays strict slots' ts where
  spelled u mem := h.spelled u (List.mem_cons_of_mem _ mem)
  prints := prints

theorem fixed {kind : TokenKind} {spelling : String} (h : Lays strict (.fixed kind :: slots) ts)
    (isFixed : kind.text? = some spelling) (reserved : (strict || !kind.isStrictOnly) = true) :
    ∃ t us, ts = t :: us ∧ t.kind = kind ∧ Lays strict slots us := by
  cases ts with
  | nil => cases h.prints
  | cons t us =>
    have ⟨spelled, prints⟩ := h
    generalize eq : (t :: us).map (·.text) = texts at prints
    cases prints with
    | fixed prints =>
      obtain ⟨same, rfl⟩ := List.cons.inj eq
      exact ⟨t, us, rfl, (spelled t List.mem_cons_self).kind_eq isFixed reserved same, h.tail prints⟩

/-- A kind that is no matter of strictness. -/
theorem always {kind : TokenKind} {spelling : String} (h : Lays strict (.fixed kind :: slots) ts)
    (isFixed : kind.text? = some spelling) (notStrict : kind.isStrictOnly = false) :
    ∃ t us, ts = t :: us ∧ t.kind = kind ∧ Lays strict slots us :=
  h.fixed isFixed (by simp [notStrict])

theorem punctuator {p : Punctuator} (h : Lays strict (.fixed (.punctuator p) :: slots) ts) :
    ∃ t us, ts = t :: us ∧ t.kind = .punctuator p ∧ Lays strict slots us :=
  h.fixed rfl (by simp)

/-- What ends with a punctuator. -/
theorem exists_concat {q : Punctuator}
    (h : Lays strict (slots ++ [.fixed (.punctuator q)]) ts) :
    ∃ us k, ts = us ++ [k] ∧ k.kind = .punctuator q ∧ Lays strict slots us := by
  obtain ⟨us, vs, rfl, inside, last⟩ := h.exists_append
  obtain ⟨k, vs, rfl, close, last⟩ := last.punctuator
  obtain rfl := last.eq_nil
  exact ⟨us, k, rfl, close, inside⟩

/-- What stands between two punctuators. -/
theorem between {p q : Punctuator}
    (h : Lays strict (.fixed (.punctuator p) :: (slots ++ [.fixed (.punctuator q)])) ts) :
    ∃ t us k, ts = t :: (us ++ [k]) ∧ t.kind = .punctuator p ∧ k.kind = .punctuator q ∧
      Lays strict slots us := by
  obtain ⟨t, us, rfl, isOpen, h⟩ := h.punctuator
  obtain ⟨us, k, rfl, close, inside⟩ := h.exists_concat
  exact ⟨t, us, k, rfl, isOpen, close, inside⟩

theorem word {text : Text} (h : Lays strict (.word text :: slots) ts) :
    ∃ t us, ts = t :: us ∧ t.text = text ∧ Spelled strict t.kind t.text ∧ Lays strict slots us := by
  cases ts with
  | nil => cases h.prints
  | cons t us =>
    have ⟨spelled, prints⟩ := h
    generalize eq : (t :: us).map (·.text) = texts at prints
    cases prints with
    | word prints =>
      obtain ⟨same, rfl⟩ := List.cons.inj eq
      exact ⟨t, us, rfl, same, spelled t List.mem_cons_self, h.tail prints⟩

theorem numeral {value : Nat} (h : Lays strict (.numeral value :: slots) ts)
    (small : value < Numeral.bound) :
    ∃ t us, ts = t :: us ∧ t.kind = .number ∧ Numeral.value? t.text = some value ∧
      Lays strict slots us := by
  cases ts with
  | nil => cases h.prints
  | cons t us =>
    have ⟨spelled, prints⟩ := h
    generalize eq : (t :: us).map (·.text) = texts at prints
    cases prints with
    | numeral zeros prints =>
      obtain ⟨same, rfl⟩ := List.cons.inj eq
      have isValue := Numeral.value?_zeros_append small zeros
      have digits := Numeral.isDigit_zeros_append zeros value
      have asNumber : Spelled strict .number t.text := by
        rw [show t.text = _ from same]
        exact .number (by simp) digits
      refine ⟨t, us, rfl, (spelled t List.mem_cons_self).unique asNumber, ?_, h.tail prints⟩
      rw [show t.text = _ from same]
      exact isValue

theorem lastComma (h : Lays strict (.lastComma :: slots) ts) :
    Lays strict slots ts ∨
      ∃ t us, ts = t :: us ∧ t.kind = .punctuator .comma ∧ Lays strict slots us := by
  have ⟨spelled, prints⟩ := h
  generalize eq : ts.map (·.text) = texts at prints
  cases prints with
  | noComma prints => exact .inl ⟨spelled, eq ▸ prints⟩
  | lastComma prints =>
    cases ts with
    | nil => cases eq
    | cons t us =>
      obtain ⟨same, rfl⟩ := List.cons.inj eq
      have asComma : Spelled strict (.punctuator .comma) t.text := by
        rw [show t.text = _ from same]
        exact .punctuator .comma
      exact .inr ⟨t, us, rfl, (spelled t List.mem_cons_self).unique asComma, h.tail prints⟩

end Lays

end EcmaFront
