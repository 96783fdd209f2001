import EcmaFront.Compilation
import EcmaFront.Proofs.Text.Lines
import EcmaFront.Proofs.Token.Tiling

/-!
# The line of a lexer

A lexer counts the line feeds that it reads. Its line is the one that the index of the source gives
for its position, however often it has been asked for a token, and the same is true of the line and
the position of each error. So the line that the message of an error names is that of its diagnostic.

* `Lexer.Reached`: the states of a lexer that has been asked for tokens, with or without success.
* `Lexer.StandsIn`: what `Lexer.next` keeps, that a part of the source has been read and its line
  feeds have been counted.
* `line_of_reached`: the lines agree.
-/

namespace EcmaFront

namespace Quoted

theorem exhausted_of_cons {item before : Text} {e : Ending}
    (h : e.cons item = .exhausted before) :
    ∃ inside, e = .exhausted inside ∧ before = item ++ inside := by
  cases e <;> simp_all [Ending.cons]

/-- A null character follows what comes before it. -/
theorem split_of_exhausted {quote : Char} {t before : Text}
    (h : read quote t = .exhausted before) : ∃ rest, t = before ++ '\x00' :: rest := by
  fun_induction read quote t generalizing before with
  | case1 | case2 | case3 | case7 => cases h
  | case5 =>
    cases h
    exact ⟨_, rfl⟩
  | case8 =>
    cases h
    exact ⟨_, rfl⟩
  | case4 cs _ ih | case6 _ cs _ _ _ ih | case9 _ cs _ _ _ _ ih =>
    obtain ⟨inside, ended, rfl⟩ := exhausted_of_cons h
    obtain ⟨rest, rfl⟩ := ih ended
    exact ⟨rest, by simp⟩

/-- What comes before the null character is the beginning of the text. -/
theorem prefix_of_exhausted {quote : Char} {t before : Text}
    (h : read quote t = .exhausted before) : before <+: t := by
  obtain ⟨rest, rfl⟩ := split_of_exhausted h
  exact List.prefix_append ..

end Quoted

theorem Front.split_of_exhausted {strict : Bool} {c : Char} {cs before : Text}
    (h : read strict c cs = .exhausted before) : ∃ rest, c :: cs = before ++ '\x00' :: rest := by
  unfold read at h
  split at h
  · cases h
  split at h
  · cases h
  split at h
  · cases h
  split at h
  · unfold readString at h
    split at h
    · cases h
    · cases h
    · next ended =>
      cases h
      obtain ⟨rest, rfl⟩ := Quoted.split_of_exhausted ended
      exact ⟨rest, rfl⟩
  · cases h

theorem Text.count_le_size (t : Text) (c : Char) : t.count c ≤ Text.size t := by
  induction t with
  | nil => exact Nat.le_refl _
  | cons d t ih =>
    have wide := d.utf8Size_pos
    have one := List.count_cons (a := c) (b := d) (l := t)
    rw [Text.size_cons]
    split at one <;> omega

namespace LexicalError

/-- The error names a position between two characters of the source, and its line. -/
structure PointsInto (source : Text) (e : LexicalError) : Prop where
  place : ∃ before, before <+: source ∧ e.offset = Text.size before ∧
    e.line = before.count '\n' + 1
  located : ∀ size, e ≠ .tooLarge size

namespace PointsInto

variable {source : Text} {e : LexicalError}

theorem line_eq (h : e.PointsInto source) :
    e.line = (LineIndex.ofText source).lineOf e.offset := by
  obtain ⟨before, ⟨rest, rfl⟩, offset, line⟩ := h.place
  rw [offset, line, LineIndex.lineOf_append]

/-- The diagnostic of the error is on the line that the error names. -/
theorem position_eq (h : e.PointsInto source) (file : String) :
    ((SourceError.lexical e).toDiagnostic file source).location.position?.map (·.line) =
      some e.line := by
  rw [h.line_eq]
  cases e with
  | tooLarge size => exact absurd rfl (h.located size)
  | _ => rfl

end PointsInto

end LexicalError

namespace Lexer

/-- The states of a lexer that has been asked for the next token any number of times. -/
inductive Reached (strict : Bool) (source : Text) : Lexer → Prop
  | start : Reached strict source (.start strict source)
  | next {s s' : Lexer} {answer : Except LexicalError (Option Token)} :
    Reached strict source s → s.next = (answer, s') → Reached strict source s'

/-- A part of the source has been read, and its line feeds have been counted. -/
def StandsIn (source : Text) (s : Lexer) : Prop :=
  ∃ before, source = before ++ s.rest ∧ s.offset = Text.size before ∧
    s.line = before.count '\n' + 1

namespace StandsIn

variable {source : Text} {s s' : Lexer}

theorem start (strict : Bool) (source : Text) : (start strict source).StandsIn source :=
  ⟨[], rfl, rfl, rfl⟩

theorem move {taken rest : Text} (h : s.StandsIn source) (eq : s.rest = taken ++ rest) :
    (s.move taken rest).StandsIn source := by
  obtain ⟨before, rfl, offset, line⟩ := h
  refine ⟨before ++ taken, by simp [eq], by simp [Lexer.move, offset], ?_⟩
  simp only [Lexer.move, line, List.count_append]
  omega

theorem line_eq (h : s.StandsIn source) :
    s.line = (LineIndex.ofText source).lineOf s.offset := by
  obtain ⟨before, rfl, offset, line⟩ := h
  rw [offset, line, LineIndex.lineOf_append]

theorem skipTrivia (h : s.StandsIn source) : s.skipTrivia.StandsIn source := by
  obtain ⟨gap, rest, eq, _, skip, _⟩ := s.skipTrivia_eq
  rw [skip]
  exact h.move eq

/-- One request keeps the lexer in its source, and an error points into the source. -/
theorem next {answer : Except LexicalError (Option Token)} (h : s.StandsIn source)
    (step : s.next = (answer, s')) :
    s'.StandsIn source ∧ ∀ e, answer = .error e → e.PointsInto source := by
  have h := h.skipTrivia
  unfold Lexer.next nextAfterTrivia at step
  split at step
  · obtain ⟨rfl, rfl⟩ := Prod.mk.inj step
    exact ⟨h, by simp⟩
  next c cs rest_eq =>
  obtain ⟨before, source_eq, offset, line⟩ := id h
  have here : before <+: source := ⟨_, source_eq.symm⟩
  split at step
  · next front =>
    obtain ⟨rfl, rfl⟩ := Prod.mk.inj step
    exact ⟨h.move (rest_eq.trans (Front.append_of_read front).symm), by simp⟩
  · obtain ⟨rfl, rfl⟩ := Prod.mk.inj step
    refine ⟨h, ?_⟩
    rintro _ ⟨⟩
    exact ⟨⟨before, here, offset, line⟩, by simp⟩
  · next inside front =>
    obtain ⟨rfl, rfl⟩ := Prod.mk.inj step
    refine ⟨h, ?_⟩
    rintro _ ⟨⟩
    obtain ⟨after, eq⟩ := Front.split_of_exhausted front
    refine ⟨⟨before ++ inside, ⟨'\x00' :: after, ?_⟩, ?_, ?_⟩, by simp⟩
    · rw [source_eq, rest_eq, eq, List.append_assoc]
    · simp [LexicalError.offset, Lexer.move, offset]
    · simp only [LexicalError.line, Lexer.move, line, List.count_append]
      omega
  · obtain ⟨rfl, rfl⟩ := Prod.mk.inj step
    refine ⟨h, ?_⟩
    rintro _ ⟨⟩
    exact ⟨⟨before, here, offset, line⟩, by simp⟩

end StandsIn

namespace Reached

variable {strict : Bool} {source : Text} {s : Lexer}

theorem standsIn (h : Reached strict source s) : s.StandsIn source := by
  induction h with
  | start => exact .start strict source
  | next _ step ih => exact (ih.next step).1

/-- An error of reading all tokens is that of one request. -/
theorem exists_next {e : LexicalError} (h : Reached strict source s) (failed : s.all = .error e) :
    ∃ s' s'', Reached strict source s' ∧ s'.next = (.error e, s'') := by
  induction size : s.rest.length using Nat.strongRecOn generalizing s with
  | ind n ih =>
    rw [all_eq] at failed
    split at failed
    · next t after found =>
      cases others : after.all with
      | ok more => simp [others, Except.map] at failed
      | error e' =>
        rw [others] at failed
        cases failed
        exact ih _ (size ▸ length_lt_of_next found) (h.next found) others rfl
    · cases failed
    · next found =>
      cases failed
      exact ⟨s, _, h, found⟩

theorem pointsInto_of_next {e : LexicalError} (h : Reached strict source s)
    (failed : s.next.1 = .error e) : e.PointsInto source :=
  (h.standsIn.next rfl).2 e failed

theorem pointsInto_of_all {e : LexicalError} (h : Reached strict source s)
    (failed : s.all = .error e) : e.PointsInto source := by
  obtain ⟨s', s'', reached, step⟩ := h.exists_next failed
  exact reached.pointsInto_of_next (by rw [step])

end Reached

end Lexer

/-- A source of a size that positions cover fails where its lexer does. -/
theorem scan_eq_error {strict : Bool} {source : Text} {e : LexicalError}
    (fits : Text.size source ≤ maxPosition) :
    scan strict source = .error e ↔ (Lexer.start strict source).all = .error e := by
  unfold scan
  rw [checkSize, if_pos fits]
  cases (Lexer.start strict source).all <;> simp [bind, Except.bind, pure, Except.pure]

/-- In a source with fewer bytes than the last position, the line of a lexer is the line of its
position, and the line of an error that of the position which the error names. So the diagnostic of
an error is on the line that its message names. -/
theorem line_of_reached {strict : Bool} {source : Text} (fits : Text.size source < maxPosition) :
    (∀ s, Lexer.Reached strict source s →
      s.line = (LineIndex.ofText source).lineOf s.offset ∧ s.line ≤ maxPosition) ∧
    ∀ e, (∃ s, Lexer.Reached strict source s ∧ (s.next.1 = .error e ∨ s.all = .error e)) ∨
        scan strict source = .error e →
      e.line = (LineIndex.ofText source).lineOf e.offset ∧ e.line ≤ maxPosition ∧
        ∀ file, ((SourceError.lexical e).toDiagnostic file source).location.position?.map (·.line) =
          some e.line := by
  have few {before : Text} (h : before <+: source) : before.count '\n' + 1 ≤ maxPosition := by
    have := before.count_le_size '\n'
    obtain ⟨rest, rfl⟩ := h
    rw [Text.size_append] at fits
    omega
  refine ⟨fun s reached => ?_, fun e failed => ?_⟩
  · have stands := reached.standsIn
    have ⟨before, eq, _, line⟩ := stands
    exact ⟨stands.line_eq, line ▸ few ⟨_, eq.symm⟩⟩
  · have points : e.PointsInto source := by
      obtain ⟨s, reached, failed | failed⟩ | failed := failed
      · exact reached.pointsInto_of_next failed
      · exact reached.pointsInto_of_all failed
      · exact Lexer.Reached.start.pointsInto_of_all
          ((scan_eq_error (Nat.le_of_lt fits)).1 failed)
    have ⟨before, here, _, line⟩ := points.place
    exact ⟨points.line_eq, line ▸ few here, points.position_eq⟩

/-- A null character behind an escaped line break is on the second line. -/
theorem line_of_reached_escape :
    Text.size ['\'', '\\', '\n', '\x00'] < maxPosition ∧
      scan false ['\'', '\\', '\n', '\x00'] = .error (.exhausted 3 2) ∧
      (LineIndex.ofText ['\'', '\\', '\n', '\x00']).lineOf 3 = 2 := by
  have fits : Text.size ['\'', '\\', '\n', '\x00'] < maxPosition := by decide
  have failed : scan false ['\'', '\\', '\n', '\x00'] = .error (.exhausted 3 2) := rfl
  exact ⟨fits, failed, ((line_of_reached fits).2 _ (.inr failed)).1.symm⟩

end EcmaFront
