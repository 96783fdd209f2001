import EcmaFront.Text.Span
import EcmaFront.Text.Escape
import EcmaFront.Token.Kind

/-!
# Token sequences

A token is a kind and a span. A `TokenSequence` keeps the tokens of one source in order, together
with the number of tokens for which room is reserved: the room doubles whenever a token arrives and
none is left.
-/

namespace EcmaFront

structure Token where
  kind : TokenKind
  span : Span
  deriving DecidableEq, Repr, Inhabited

/-- The tokens of one source. -/
structure TokenSequence where
  source : Text
  tokens : Array Token
  /-- The number of tokens for which room is reserved. -/
  capacity : Nat

namespace TokenSequence

/-- The room that a fresh sequence reserves. -/
def initialCapacity : Nat := 2048

def empty (source : Text) : TokenSequence := ⟨source, #[], initialCapacity⟩

def push (s : TokenSequence) (t : Token) : TokenSequence where
  source := s.source
  tokens := s.tokens.push t
  capacity := if s.tokens.size = s.capacity then s.capacity + max s.capacity 1 else s.capacity

def ofList (source : Text) (tokens : List Token) : TokenSequence :=
  tokens.foldl push (empty source)

def toList (s : TokenSequence) : List Token := s.tokens.toList

def length (s : TokenSequence) : Nat := s.tokens.size

def isEmpty (s : TokenSequence) : Bool := s.tokens.isEmpty

def get? (s : TokenSequence) (i : Nat) : Option Token := s.tokens[i]?

/-- The text of a token: the spelling of its kind, else what its span denotes. Text of its own that
cannot be cut out of the source is empty. -/
def text (s : TokenSequence) (t : Token) : Text :=
  match t.kind.text?, t.kind.hasContent with
  | some spelling, false => spelling.toList
  | _, _ => (t.span.slice s.source).getD []

theorem text_of_fixed {s : TokenSequence} {t : Token} {spelling : String}
    (fixed : t.kind.text? = some spelling) : s.text t = spelling.toList := by
  simp [text, TokenKind.hasContent_eq, fixed]

theorem text_of_free {s : TokenSequence} {t : Token} (free : t.kind.text? = none) :
    s.text t = (t.span.slice s.source).getD [] := by
  simp [text, free]

/-- The line of a token in a token listing. -/
def listing (s : TokenSequence) (t : Token) : String :=
  if t.kind.hasContent then t.kind.name ++ " " ++ Text.quote (s.text t) else t.kind.name

@[simp] theorem toList_empty (source : Text) : (empty source).toList = [] := rfl

@[simp] theorem toList_push (s : TokenSequence) (t : Token) :
    (s.push t).toList = s.toList ++ [t] := by
  simp [toList, push]

@[simp] theorem source_push (s : TokenSequence) (t : Token) : (s.push t).source = s.source := rfl

theorem toList_foldl_push (tokens : List Token) (s : TokenSequence) :
    (tokens.foldl push s).toList = s.toList ++ tokens := by
  induction tokens generalizing s with
  | nil => simp
  | cons t tokens ih => simp [ih]

theorem source_foldl_push (tokens : List Token) (s : TokenSequence) :
    (tokens.foldl push s).source = s.source := by
  induction tokens generalizing s with
  | nil => rfl
  | cons t tokens ih => simp [ih]

@[simp] theorem toList_ofList (source : Text) (tokens : List Token) :
    (ofList source tokens).toList = tokens := by
  simp [ofList, toList_foldl_push]

@[simp] theorem source_ofList (source : Text) (tokens : List Token) :
    (ofList source tokens).source = source := by
  simp [ofList, source_foldl_push, empty]

end TokenSequence

end EcmaFront
