import EcmaFront.Text.Name
import EcmaFront.Token.Quoted
import EcmaFront.Token.Spelling

/-!
# The front of a text

What a text without trivia in front starts with: a token, which is the longest of its class, or a
fault. Where the text stands in a source plays no part here.

* `Front.read`: the front of a text.
* `append_of_read` and `ne_nil_of_read`: a token is a part of the text, and not empty.
-/

namespace EcmaFront

inductive Front where
  /-- A token of a kind, its text, and what is left after it. -/
  | token (kind : TokenKind) (text rest : Text)
  /-- A string that a line break or the end cuts off. -/
  | unterminated
  /-- A string that a null character cuts off, after the text `before`. -/
  | exhausted (before : Text)
  /-- A character that starts no token. -/
  | unexpected
  deriving DecidableEq, Repr

namespace Front

/-- The string that starts with `quote` and goes on with `t`. -/
def readString (quote : Char) (t : Text) : Front :=
  match Quoted.read quote t with
  | .closed body rest => .token .string (quote :: body ++ [quote]) rest
  | .unterminated => .unterminated
  | .exhausted before => .exhausted (quote :: before)

/-- The front of the text that starts with `c` and goes on with `cs`. -/
def read (strict : Bool) (c : Char) (cs : Text) : Front :=
  match Spelling.fitting? (c :: cs) with
  | some (spelling, kind) =>
    let text := spelling.toList
    .token kind text ((c :: cs).drop text.length)
  | none =>
    if Text.isNameStart c then
      let (text, rest) := Text.run Text.isNamePart (c :: cs)
      .token (Spelling.nameKind strict text) text rest
    else if c.isDigit then
      let (text, rest) := Text.run Char.isDigit (c :: cs)
      .token .number text rest
    else if c = '\'' || c = '"' then
      readString c cs
    else
      .unexpected

/-- A token and the rest make up the text. -/
theorem append_of_read {strict : Bool} {c : Char} {cs text rest : Text} {kind : TokenKind}
    (h : read strict c cs = .token kind text rest) : text ++ rest = c :: cs := by
  unfold read at h
  split at h
  · next op =>
    obtain ⟨rfl, rfl, rfl⟩ := token.inj h
    exact Spelling.append_of_fitting? op
  split at h
  · obtain ⟨_, rfl, rfl⟩ := token.inj h
    exact List.takeWhile_append_dropWhile
  split at h
  · obtain ⟨_, rfl, rfl⟩ := token.inj h
    exact List.takeWhile_append_dropWhile
  split at h
  · unfold readString at h
    split at h
    · next body rest' closed =>
      obtain ⟨_, rfl, rfl⟩ := token.inj h
      simp [← Quoted.append_of_read closed]
    all_goals cases h
  · cases h

/-- No token is empty. -/
theorem ne_nil_of_read {strict : Bool} {c : Char} {cs text rest : Text} {kind : TokenKind}
    (h : read strict c cs = .token kind text rest) : text ≠ [] := by
  unfold read at h
  split at h
  · next op =>
    obtain ⟨rfl, rfl, rfl⟩ := token.inj h
    exact Spelling.ne_nil_of_mem_operators _ (List.mem_of_find?_eq_some op)
  split at h
  · next start =>
    obtain ⟨_, rfl, rfl⟩ := token.inj h
    simp [Text.isNamePart_of_isNameStart start]
  split at h
  · next digit =>
    obtain ⟨_, rfl, rfl⟩ := token.inj h
    simp [digit]
  split at h
  · unfold readString at h
    split at h
    · obtain ⟨_, rfl, rfl⟩ := token.inj h
      simp
    all_goals cases h
  · cases h

theorem length_le_of_read {strict : Bool} {c : Char} {cs text rest : Text} {kind : TokenKind}
    (h : read strict c cs = .token kind text rest) : rest.length ≤ cs.length := by
  have nonempty := List.length_pos_iff.2 (ne_nil_of_read h)
  have lengths := congrArg List.length (append_of_read h)
  simp only [List.length_append, List.length_cons] at lengths
  omega

end Front

end EcmaFront
