import EcmaFront.Token.Lexer
import Mathlib.Data.List.Infix
import Mathlib.Data.List.TakeWhile

/-!
# Gaps between tokens

What a lexer may skip: `Gap gap rest` says that the text `gap`, in front of `rest`, is made of
spaces, line comments and block comments. A line comment goes up to a line break or the end, a block
comment through the first `*/` after its opening; one that is never closed takes all that is left.

* `Lexer.skipTrivia_eq`: the lexer moves past a gap, to where no further trivia starts.
-/

namespace EcmaFront

namespace Text

/-- Whether a block comment could be closed somewhere in the text. -/
def HoldsClose (t : Text) : Prop := ['*', '/'] <:+: t

/-- The text is over, or a line break comes next. -/
def EndsLine (t : Text) : Prop := ∀ c ∈ t.head?, isLineBreak c = true

end Text

inductive Gap : Text → Text → Prop
  | nil {rest : Text} : Gap [] rest
  | space {c : Char} {gap rest : Text} : Text.isSpace c = true → Gap gap rest →
    Gap (c :: gap) rest
  | line {inside gap rest : Text} : (∀ c ∈ inside, Text.isLineBreak c = false) →
    Text.EndsLine (gap ++ rest) → Gap gap rest → Gap ('/' :: '/' :: (inside ++ gap)) rest
  | block {inside gap rest : Text} : ¬ Text.HoldsClose (inside ++ ['*']) → Gap gap rest →
    Gap ('/' :: '*' :: (inside ++ '*' :: '/' :: gap)) rest
  | openBlock {inside : Text} : ¬ Text.HoldsClose inside → Gap ('/' :: '*' :: inside) []

namespace Trivia

theorem holdsClose_cons {c : Char} {t : Text} :
    Text.HoldsClose (c :: t) ↔ (c = '*' ∧ t.head? = some '/') ∨ Text.HoldsClose t := by
  unfold Text.HoldsClose
  rw [List.infix_cons_iff]
  refine or_congr ?_ Iff.rfl
  cases t <;> simp [List.cons_prefix_cons, eq_comm]

theorem head?_throughClose (t : Text) :
    ∀ c ∈ (throughClose t).1.head?, t.head? = some c := by
  intro c mem
  rw [← throughClose_append t]
  cases inside : (throughClose t).1 <;> simp_all

/-- The inside of a block comment ends with the first `*/`, if there is one. -/
theorem throughClose_eq (t : Text) :
    (∃ inside, (throughClose t).1 = inside ++ ['*', '/'] ∧ ¬ Text.HoldsClose (inside ++ ['*'])) ∨
      ((throughClose t).2 = [] ∧ ¬ Text.HoldsClose (throughClose t).1) := by
  induction t with
  | nil => exact .inr ⟨rfl, by simp [throughClose, Text.HoldsClose]⟩
  | cons c cs ih =>
    have head := head?_throughClose cs
    simp only [throughClose]
    split
    · next closes =>
      simp only [Bool.and_eq_true, decide_eq_true_eq] at closes
      exact .inl ⟨[], by simp [closes.1], fun close => by simpa using close.length_le⟩
    · next stays =>
      simp only [Bool.and_eq_true, decide_eq_true_eq, beq_iff_eq] at stays
      rcases ih with ⟨inside, eq, no⟩ | ⟨rest, no⟩
      · refine .inl ⟨c :: inside, by simp [eq], ?_⟩
        rw [List.cons_append, holdsClose_cons]
        rintro (⟨star, slash⟩ | later)
        · refine stays ⟨star, head '/' ?_⟩
          rw [eq]
          cases inside <;> simp_all
        · exact no later
      · refine .inr ⟨rest, ?_⟩
        rw [holdsClose_cons]
        rintro (⟨star, slash⟩ | later)
        · exact stays ⟨star, head '/' slash⟩
        · exact no later

theorem gap_append_of_spaces {spaces gap rest : Text}
    (h : ∀ c ∈ spaces, Text.isSpace c = true) (hg : Gap gap rest) : Gap (spaces ++ gap) rest := by
  induction spaces with
  | nil => exact hg
  | cons c cs ih =>
    obtain ⟨space, spaces⟩ := List.forall_mem_cons.1 h
    exact .space space (ih spaces)

theorem eq_of_startsLineComment {t : Text} (h : startsLineComment t = true) :
    ∃ u, t = '/' :: '/' :: u := by
  unfold startsLineComment at h
  split at h
  · exact ⟨_, rfl⟩
  · cases h

theorem eq_of_startsBlockComment {t : Text} (h : startsBlockComment t = true) :
    ∃ u, t = '/' :: '*' :: u := by
  unfold startsBlockComment at h
  split at h
  · exact ⟨_, rfl⟩
  · cases h

theorem lineComment_slashes (t : Text) :
    lineComment ('/' :: '/' :: t) =
      ('/' :: '/' :: t.takeWhile (fun c => !Text.isLineBreak c),
        t.dropWhile (fun c => !Text.isLineBreak c)) := by
  have slash : Text.isLineBreak '/' = false := by decide
  simp [lineComment, Text.run, slash]

/-- One piece of trivia in front of a gap makes a longer gap. -/
theorem gap_of_piece? {t taken gap rest : Text} (h : piece? t = some (taken, gap ++ rest))
    (hg : Gap gap rest) : Gap (taken ++ gap) rest := by
  unfold piece? at h
  split at h
  · obtain ⟨rfl, _⟩ := Prod.mk.inj (Option.some.inj h)
    exact gap_append_of_spaces (fun c mem => List.mem_takeWhile_imp mem) hg
  split at h
  · next starts =>
    obtain ⟨t, rfl⟩ := eq_of_startsLineComment starts
    rw [lineComment_slashes] at h
    obtain ⟨rfl, after⟩ := Prod.mk.inj (Option.some.inj h)
    refine .line (fun c mem => ?_) (fun c mem => ?_) hg
    · simpa using List.mem_takeWhile_imp mem
    · have breaks := List.head?_dropWhile_not (fun c => !Text.isLineBreak c) t
      rw [after, Option.mem_def.1 mem] at breaks
      simpa using breaks
  split at h
  · next starts =>
    obtain ⟨t, rfl⟩ := eq_of_startsBlockComment starts
    simp only [blockComment] at h
    obtain ⟨rfl, after⟩ := Prod.mk.inj (Option.some.inj h)
    rcases throughClose_eq t with ⟨inside, eq, no⟩ | ⟨nothing, no⟩
    · rw [eq]
      simpa using Gap.block no hg
    · obtain ⟨rfl, rfl⟩ := List.append_eq_nil_iff.1 (after.symm.trans nothing)
      simpa using Gap.openBlock no
  · cases h

end Trivia

namespace Lexer

theorem move_move (s : Lexer) (t u rest rest' : Text) :
    (s.move t rest).move u rest' = s.move (t ++ u) rest' := by
  simp [move, Nat.add_assoc]

theorem move_nil (s : Lexer) : s.move [] s.rest = s := by
  simp [move]

/-- Skipping trivia moves past a gap, to a place where no trivia starts. -/
theorem skipTrivia_eq (s : Lexer) :
    ∃ gap rest, s.rest = gap ++ rest ∧ Gap gap rest ∧ s.skipTrivia = s.move gap rest ∧
      Trivia.piece? rest = none := by
  induction size : s.rest.length using Nat.strongRecOn generalizing s with
  | ind n ih =>
    cases piece : Trivia.piece? s.rest with
    | none =>
      refine ⟨[], s.rest, rfl, .nil, ?_, piece⟩
      rw [skipTrivia_of_none piece, move_nil]
    | some cut =>
      obtain ⟨taken, left⟩ := cut
      have shorter := Trivia.length_lt_of_piece? piece
      obtain ⟨gap, rest, left_eq, hg, skip, none⟩ :=
        ih left.length (size ▸ shorter) (s.move taken left) rfl
      rw [rest_move] at left_eq
      subst left_eq
      refine ⟨taken ++ gap, rest, ?_, Trivia.gap_of_piece? piece hg, ?_, none⟩
      · rw [List.append_assoc, Trivia.append_of_piece? piece]
      · rw [skipTrivia_of_piece? piece, skip, move_move]

end Lexer

end EcmaFront
