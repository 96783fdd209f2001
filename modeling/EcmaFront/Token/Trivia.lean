import EcmaFront.Text.Space

/-!
# Trivia

What may stand between two tokens: runs of spaces, line comments and block comments. Each function
cuts one piece off the front of a text and returns it with the rest; `append_of_piece?` says that
nothing is lost.
-/

namespace EcmaFront.Trivia

/-- A line comment, from its slashes up to the first line break, which stays in the rest. -/
def lineComment (t : Text) : Text × Text := Text.run (fun c => !Text.isLineBreak c) t

/-- The inside of a block comment, through the first `*/` or else to the end of the text. -/
def throughClose : Text → Text × Text
  | [] => ([], [])
  | c :: cs =>
    if c = '*' && cs.head? == some '/' then
      ([c, '/'], cs.tail)
    else
      let (inside, rest) := throughClose cs
      (c :: inside, rest)

/-- A block comment, from its opening through its closing. The opening cannot close it. -/
def blockComment : Text → Text × Text
  | '/' :: '*' :: cs =>
    let (inside, rest) := throughClose cs
    ('/' :: '*' :: inside, rest)
  | t => ([], t)

/-- Whether a line comment starts here. -/
def startsLineComment : Text → Bool
  | '/' :: '/' :: _ => true
  | _ => false

/-- Whether a block comment starts here. -/
def startsBlockComment : Text → Bool
  | '/' :: '*' :: _ => true
  | _ => false

/-- The piece of trivia that a text starts with, and the rest. -/
def piece? (t : Text) : Option (Text × Text) :=
  if (t.head?.map Text.isSpace).getD false then some (Text.run Text.isSpace t)
  else if startsLineComment t then some (lineComment t)
  else if startsBlockComment t then some (blockComment t)
  else none

theorem piece?_nil : piece? [] = none := rfl

theorem throughClose_append (t : Text) : (throughClose t).1 ++ (throughClose t).2 = t := by
  induction t with
  | nil => rfl
  | cons c cs ih =>
    simp only [throughClose]
    split
    · next h =>
      cases cs with
      | nil => simp at h
      | cons d cs => simp at h; simp [h]
    · simpa using ih

theorem blockComment_append (t : Text) : (blockComment t).1 ++ (blockComment t).2 = t := by
  unfold blockComment
  split
  · simpa using throughClose_append _
  · rfl

/-- A piece and the rest make up the text. -/
theorem append_of_piece? {t taken rest : Text} (h : piece? t = some (taken, rest)) :
    taken ++ rest = t := by
  unfold piece? at h
  split at h
  · have := Text.run_append Text.isSpace t
    rwa [Option.some.inj h] at this
  split at h
  · have := Text.run_append (fun c => !Text.isLineBreak c) t
    rwa [← lineComment, Option.some.inj h] at this
  split at h
  · have := blockComment_append t
    rwa [Option.some.inj h] at this
  · cases h

/-- No piece is empty. -/
theorem ne_nil_of_piece? {t taken rest : Text} (h : piece? t = some (taken, rest)) :
    taken ≠ [] := by
  rintro rfl
  unfold piece? at h
  split at h
  · cases t <;> simp_all [Text.run]
  split at h
  · next slashes =>
    unfold startsLineComment at slashes
    split at slashes
    · simp [lineComment, Text.run, Text.isLineBreak] at h
    · cases slashes
  split at h
  · next opening =>
    unfold startsBlockComment at opening
    split at opening
    · simp [blockComment] at h
    · cases opening
  · cases h

theorem length_lt_of_piece? {t taken rest : Text} (h : piece? t = some (taken, rest)) :
    rest.length < t.length := by
  have := List.length_pos_iff.2 (ne_nil_of_piece? h)
  rw [← append_of_piece? h, List.length_append]
  omega

end EcmaFront.Trivia
