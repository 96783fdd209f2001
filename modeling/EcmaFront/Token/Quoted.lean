import EcmaFront.Text.Basic

/-!
# Quoted strings

A quoted string is a quote, a run of items and the same quote again. An item is a backslash with
the character after it, where a carriage return with a line feed counts as one character, or any
single character but the quote, the backslash, a line break and the null character.
-/

namespace EcmaFront.Quoted

/-- How the text after an opening quote goes on. -/
inductive Ending where
  /-- Items up to the closing quote, and what follows the quote. -/
  | closed (body rest : Text)
  /-- A line break or the end comes before the closing quote. -/
  | unterminated
  /-- A null character comes before the closing quote, after this text. -/
  | exhausted (before : Text)
  deriving DecidableEq, Repr

/-- The same ending with an item in front. -/
def Ending.cons (item : Text) : Ending → Ending
  | .closed body rest => .closed (item ++ body) rest
  | .unterminated => .unterminated
  | .exhausted before => .exhausted (item ++ before)

theorem closed_of_cons {item body rest : Text} {e : Ending}
    (h : e.cons item = .closed body rest) :
    ∃ inside, e = .closed inside rest ∧ body = item ++ inside := by
  cases e <;> simp_all [Ending.cons]

/-- Reads the items after an opening `quote`. -/
def read (quote : Char) : Text → Ending
  | [] => .unterminated
  | c :: cs =>
    if c = quote then .closed [] cs
    else if c = '\\' then
      match cs with
      | [] => .unterminated
      | '\r' :: '\n' :: cs => (read quote cs).cons [c, '\r', '\n']
      | d :: cs => if d = '\x00' then .exhausted [c] else (read quote cs).cons [c, d]
    else if c = '\n' || c = '\r' then .unterminated
    else if c = '\x00' then .exhausted []
    else (read quote cs).cons [c]

/-- A closed string is its body, the closing quote and the rest. -/
theorem append_of_read {quote : Char} {t body rest : Text}
    (h : read quote t = .closed body rest) : body ++ quote :: rest = t := by
  fun_induction read quote t generalizing body with
  | case1 | case3 | case5 | case7 | case8 => cases h
  | case2 cs => simp_all
  | case4 cs _ ih | case6 _ cs _ _ _ ih | case9 _ cs _ _ _ _ ih =>
    obtain ⟨inside, closed, rfl⟩ := closed_of_cons h
    simp [ih closed]

/-- What stands between the quotes of a string: the text without its first and last byte, and
nothing where those cuts would divide a character. -/
def body (raw : Text) : Text :=
  ((raw.dropBytes? 1).bind (Text.takeBytes? · (Text.size raw - 2))).getD []

end EcmaFront.Quoted
