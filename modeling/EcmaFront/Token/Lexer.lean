import EcmaFront.Token.Front
import EcmaFront.Token.LexicalError
import EcmaFront.Token.Sequence
import EcmaFront.Token.Trivia

/-!
# Cutting a source into tokens

A `Lexer` stands somewhere in a source: it knows what is left, the byte offset and the line.
`Lexer.next` skips trivia and reads one token; at a fault the lexer stays where the bad token
starts, so asking again gives the same answer. `scan` reads a whole source.

* `skipTrivia_of_piece?`, `skipTrivia_of_none`: what skipping trivia does, step by step.
* `length_lt_of_next`: each token leaves less of the source than before.
* `all_eq`: the tokens that are left are the next one and those after it.
-/

namespace EcmaFront

/-- The largest position. -/
def maxPosition : Nat := 4294967295

structure Lexer where
  /-- Whether the words reserved in strict sources are keywords. -/
  strict : Bool
  rest : Text
  offset : Nat
  /-- One more than the number of line feeds read. -/
  line : Nat

namespace Lexer

def start (strict : Bool) (source : Text) : Lexer := ⟨strict, source, 0, 1⟩

/-- Moves past the text `taken`, leaving `rest`. -/
def move (s : Lexer) (taken rest : Text) : Lexer where
  strict := s.strict
  rest := rest
  offset := s.offset + Text.size taken
  line := s.line + taken.count '\n'

@[simp] theorem rest_move (s : Lexer) (taken rest : Text) : (s.move taken rest).rest = rest := rfl

/-- Skips at most `n` pieces of trivia. -/
def skipPieces : Nat → Lexer → Lexer
  | 0, s => s
  | n + 1, s =>
    match Trivia.piece? s.rest with
    | some (taken, rest) => skipPieces n (s.move taken rest)
    | none => s

/-- Skips all trivia in front: no piece is empty, so there are at most as many as characters. -/
def skipTrivia (s : Lexer) : Lexer := skipPieces s.rest.length s

/-- The front of the rest, where no trivia stands, as a token or an error. -/
def nextAfterTrivia (s : Lexer) : Except LexicalError (Option Token) × Lexer :=
  match s.rest with
  | [] => (.ok none, s)
  | c :: cs =>
    match Front.read s.strict c cs with
    | .token kind text rest =>
      let after := s.move text rest
      (.ok (some ⟨kind, .ofBounds s.offset after.offset⟩), after)
    | .unterminated => (.error (.unterminatedString s.offset s.line), s)
    | .exhausted before =>
      let atNull := s.move before []
      (.error (.exhausted atNull.offset atNull.line), s)
    | .unexpected => (.error (.unexpectedCharacter c s.offset s.line), s)

/-- Reads the next token; there is none at the end of the source. -/
def next (s : Lexer) : Except LexicalError (Option Token) × Lexer := s.skipTrivia.nextAfterTrivia

/-- Reads at most `n` tokens, after those in `before`, which are in reverse. -/
def upTo : Nat → List Token → Lexer → Except LexicalError (List Token)
  | 0, before, _ => .ok before.reverse
  | n + 1, before, s =>
    match s.next with
    | (.ok (some t), after) => upTo n (t :: before) after
    | (.ok none, _) => .ok before.reverse
    | (.error e, _) => .error e

/-- Reads all tokens that are left: no token is empty, so there are at most as many as
characters, and one more reading meets the end or a fault. -/
def all (s : Lexer) : Except LexicalError (List Token) := s.upTo (s.rest.length + 1) []

/-- A bound that is no less than the length of the rest does not matter. -/
theorem skipPieces_eq_skipTrivia {n : Nat} {s : Lexer} (h : s.rest.length ≤ n) :
    skipPieces n s = s.skipTrivia := by
  suffices ∀ m, s.rest.length ≤ m → skipPieces n s = skipPieces m s from this _ (Nat.le_refl _)
  induction n generalizing s with
  | zero =>
    intro m _
    have empty : s.rest = [] := List.eq_nil_of_length_eq_zero (Nat.le_zero.1 h)
    cases m <;> simp [skipPieces, empty, Trivia.piece?_nil]
  | succ n ih =>
    intro m hm
    cases m with
    | zero =>
      have empty : s.rest = [] := List.eq_nil_of_length_eq_zero (Nat.le_zero.1 hm)
      simp [skipPieces, empty, Trivia.piece?_nil]
    | succ m =>
      simp only [skipPieces]
      split
      · next taken rest piece =>
        have := Trivia.length_lt_of_piece? piece
        exact ih (by simp; omega) m (by simp; omega)
      · rfl

theorem skipTrivia_of_piece? {s : Lexer} {taken rest : Text}
    (h : Trivia.piece? s.rest = some (taken, rest)) :
    s.skipTrivia = (s.move taken rest).skipTrivia := by
  have shorter := Trivia.length_lt_of_piece? h
  rw [← skipPieces_eq_skipTrivia (n := s.rest.length - 1 + 1) (by omega), skipPieces, h]
  exact skipPieces_eq_skipTrivia (by simp; omega)

theorem skipTrivia_of_none {s : Lexer} (h : Trivia.piece? s.rest = none) : s.skipTrivia = s := by
  rw [← skipPieces_eq_skipTrivia (Nat.le_succ _), skipPieces, h]

theorem length_skipPieces_le (n : Nat) (s : Lexer) :
    (skipPieces n s).rest.length ≤ s.rest.length := by
  fun_induction skipPieces n s with
  | case1 | case3 => exact Nat.le_refl _
  | case2 n s taken rest piece ih =>
    exact Nat.le_trans ih (Nat.le_of_lt (Trivia.length_lt_of_piece? piece))

/-- Less is left after a token than before it. -/
theorem length_lt_of_next {s after : Lexer} {t : Token} (h : s.next = (.ok (some t), after)) :
    after.rest.length < s.rest.length := by
  have le : s.skipTrivia.rest.length ≤ s.rest.length := length_skipPieces_le ..
  unfold next nextAfterTrivia at h
  split at h
  · simp at h
  · next c cs rest_eq =>
    rw [rest_eq] at le
    split at h
    · next kind text rest front =>
      obtain ⟨_, rfl⟩ := Prod.mk.inj h
      have := Front.length_le_of_read front
      simp at le ⊢
      omega
    all_goals simp at h

/-- A bound that is more than the length of the rest does not matter. -/
theorem upTo_eq_upTo {n m : Nat} {s : Lexer} (hn : s.rest.length < n) (hm : s.rest.length < m)
    (before : List Token) : s.upTo n before = s.upTo m before := by
  induction n generalizing m s before with
  | zero => exact absurd hn (Nat.not_lt_zero _)
  | succ n ih =>
    cases m with
    | zero => exact absurd hm (Nat.not_lt_zero _)
    | succ m =>
      simp only [upTo]
      split
      · next t after step =>
        have := length_lt_of_next step
        exact ih (by omega) (by omega) _
      · rfl
      · rfl

theorem upTo_eq_map (n : Nat) (s : Lexer) (before : List Token) :
    s.upTo n before = (s.upTo n []).map (before.reverse ++ ·) := by
  induction n generalizing s before with
  | zero => simp [upTo, Except.map]
  | succ n ih =>
    simp only [upTo]
    split
    · next t after step =>
      rw [ih after (t :: before), ih after [t]]
      cases after.upTo n [] <;> simp [Except.map]
    · simp [Except.map]
    · rfl

/-- The tokens that are left are the next one and those after it. -/
theorem all_eq (s : Lexer) :
    s.all =
      match s.next with
      | (.ok (some t), after) => after.all.map (t :: ·)
      | (.ok none, _) => .ok []
      | (.error e, _) => .error e := by
  rw [all, upTo]
  split
  · next t after step =>
    rw [upTo_eq_map, upTo_eq_upTo (length_lt_of_next step) (Nat.lt_succ_self _)]
    rfl
  · rfl
  · rfl

end Lexer

/-- Refuses a source that positions cannot cover. -/
def checkSize (source : Text) : Except LexicalError Unit :=
  if Text.size source ≤ maxPosition then .ok () else .error (.tooLarge (Text.size source))

/-- The tokens of a source. -/
def scan (strict : Bool) (source : Text) : Except LexicalError TokenSequence := do
  checkSize source
  let tokens ← (Lexer.start strict source).all
  return .ofList source tokens

end EcmaFront
