import EcmaFront.Compilation
import EcmaFront.Proofs.Machine.Fault
import EcmaFront.Proofs.Text.Lines

/-!
# Diagnostics with partial operations

The place of an error is looked up in the line index: a search that can hit or miss, an index into
the lines and three sums and differences, each of which may meet a fault.

* `LineIndex.checkedLineColumnOf_eq`: for the index of a text, below the last position, none does.
* `SourceError.checkedDiagnostic_eq`: so the diagnostic of an error in the source is found.
-/

namespace EcmaFront

namespace LineIndex

/-- The line that starts at the position, or else the number of the lines that start before it. -/
def find (lines : LineIndex) (position : Nat) : Except Nat Nat :=
  let i := lines.search position 0 lines.lineCount
  if lines.startOf i = position then .ok i
  else if lines.startOf i < position then .error (i + 1)
  else .error i

def checkedLineOf (lines : LineIndex) (position : Nat) : Checked Nat := do
  let i ←
    match lines.find position with
    | .ok i => pure i
    | .error i => Checked.sub i 1
  Checked.add i 1

def checkedLineColumnOf (lines : LineIndex) (position : Nat) : Checked LineColumn := do
  let line ← lines.checkedLineOf position
  let i ← Checked.sub line 1
  match lines.starts[i]? with
  | some start =>
    let before ← Checked.sub position start
    return ⟨line, ← Checked.add before 1⟩
  | none => .error .noLine

variable {lines : LineIndex} {position : Nat}

/-- The first line starts at zero, so a line is found for every position. -/
theorem checkedLineOf_eq (isLine : lines.IsLineAt position (lines.lineOf position - 1))
    (few : lines.lineOf position ≤ maxPosition) :
    lines.checkedLineOf position = .ok (lines.lineOf position) := by
  have start_le := isLine.start_le
  rw [lineOf, Nat.add_sub_cancel] at start_le
  have fits : lines.search position 0 lines.lineCount + 1 ≤ maxPosition := few
  unfold checkedLineOf find
  by_cases hit : lines.startOf (lines.search position 0 lines.lineCount) = position
  · simp only [hit, if_true]
    exact Checked.add_eq fits
  · have before := Nat.lt_of_le_of_ne start_le hit
    simp only [hit, before, if_true, if_false, Checked.add_sub_cancel]
    exact Checked.add_eq fits

theorem lineOf_le (t : Text) (position : Nat) : (ofText t).lineOf position ≤ Text.size t + 1 := by
  have lines_le : ∀ offset, (t.lineEnds offset).length ≤ Text.size t := by
    induction t with
    | nil => exact fun _ => Nat.le_refl _
    | cons c cs ih =>
      intro offset
      have wide := c.utf8Size_pos
      have := ih (offset + c.utf8Size)
      simp only [Text.lineEnds, Text.size_cons]
      split
      · rw [List.length_cons]
        omega
      · omega
  rw [lineOf_ofText]
  exact Nat.succ_le_succ (Nat.le_trans (List.countP_le_length ..) (lines_le 0))

/-- The line and the column of a position are found, if they are no larger than positions. -/
theorem checkedLineColumnOf_eq {t : Text} (fits : Text.size t < maxPosition)
    (lt : position < maxPosition) :
    (ofText t).checkedLineColumnOf position = .ok ((ofText t).lineColumnOf position) := by
  have isLine := isLineAt_lineOf t position
  have few := Nat.le_trans (lineOf_le t position) fits
  have start_le := isLine.start_le
  have start_eq : (ofText t).starts[(ofText t).lineOf position - 1]? =
      some ((ofText t).startOf ((ofText t).lineOf position - 1)) := by
    rw [startOf, Array.getD_eq_getD_getElem?]
    obtain ⟨start, found⟩ : ∃ start, (ofText t).starts[(ofText t).lineOf position - 1]? = some start :=
      ⟨_, Array.getElem?_eq_getElem isLine.lt⟩
    rw [found, Option.getD_some]
  have column : position - (ofText t).startOf ((ofText t).lineOf position - 1) + 1 ≤ maxPosition := by
    omega
  simp only [checkedLineColumnOf, checkedLineOf_eq isLine few, bind, Except.bind,
    Checked.sub_eq (Nat.succ_le_of_lt (Nat.succ_pos _) : 1 ≤ (ofText t).lineOf position), start_eq,
    Checked.sub_eq start_le, Checked.add_eq column, lineColumnOf]
  rfl

end LineIndex

namespace SourceError

/-- What the error points at. -/
def span : SourceError → Span
  | .lexical e => ⟨e.offset, 1⟩
  | .syntactic e => e.span

/-- The diagnostic stands where the error points at, unless the source is too large. -/
theorem location_eq {e : SourceError} (located : ∀ size, e ≠ .lexical (.tooLarge size))
    (file : String) (source : Text) :
    (e.toDiagnostic file source).location = .ofSpan file (.ofText source) e.span := by
  cases e with
  | lexical e =>
    cases e with
    | tooLarge size => exact absurd rfl (located size)
    | _ => rfl
  | syntactic e =>
    cases e with
    | malformedDeclaration expected | unexpectedToken expected => cases expected <;> rfl
    | unexpectedEnd expected =>
      cases expected with
      | none => rfl
      | some expected => cases expected <;> rfl
    | _ => rfl

/-- The diagnostic of an error at the place that is looked up for it. A source that is too large has
no place. -/
def checkedDiagnostic (e : SourceError) (file : String) (source : Text) : Checked Diagnostic :=
  match e with
  | .lexical (.tooLarge _) => .ok (e.toDiagnostic file source)
  | _ => do
    let position ← (LineIndex.ofText source).checkedLineColumnOf e.span.start
    return { e.toDiagnostic file source with location := .span file e.span position }

theorem checkedDiagnostic_eq {e : SourceError} {source : Text} (file : String)
    (fits : Text.size source < maxPosition) (inside : e.span.start ≤ Text.size source) :
    e.checkedDiagnostic file source = .ok (e.toDiagnostic file source) := by
  have place : (LineIndex.ofText source).checkedLineColumnOf e.span.start =
      .ok ((LineIndex.ofText source).lineColumnOf e.span.start) :=
    LineIndex.checkedLineColumnOf_eq fits (Nat.lt_of_le_of_lt inside fits)
  have found {d : Diagnostic} (same : d.location = .ofSpan file (.ofText source) e.span) :
      ((LineIndex.ofText source).checkedLineColumnOf e.span.start).map
        (fun position => { d with location := .span file e.span position }) = .ok d := by
    rw [place]
    change Except.ok { d with location := .ofSpan file (.ofText source) e.span } = _
    rw [← same]
  cases e with
  | lexical e =>
    cases e with
    | tooLarge size => rfl
    | _ => exact found rfl
  | syntactic e => exact found (location_eq (by simp) file source)

end SourceError

end EcmaFront
