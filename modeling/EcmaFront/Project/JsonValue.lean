import EcmaFront.Text.Basic

/-!
# JSON

Reads the values of the JSON data format. Numbers are kept as they are written. The escapes of a
string denote UTF-16 units; a string in which half of a surrogate pair stands alone is well-formed
but has no text.
-/

namespace EcmaFront

mutual

inductive JsonValue where
  | null
  | boolean (value : Bool)
  | number (written : Text)
  /-- A string with its text, if it has one. -/
  | string (text? : Option Text)
  | array (items : List JsonValue)
  | object (members : List JsonMember)

inductive JsonMember where
  | mk (key? : Option Text) (value : JsonValue)

end

instance : Inhabited JsonValue := ⟨.null⟩

namespace JsonMember

def key? : JsonMember → Option Text
  | .mk key? _ => key?

def value : JsonMember → JsonValue
  | .mk _ value => value

end JsonMember

namespace JsonValue

def isBlank (c : Char) : Bool := c == ' ' || c == '\t' || c == '\n' || c == '\r'

def skipBlanks (t : Text) : Text := t.dropWhile isBlank

/-- The value of a hexadecimal digit. -/
def hexDigit? (c : Char) : Option Nat :=
  if c.isDigit then some (c.toNat - '0'.toNat)
  else if 'a' ≤ c ∧ c ≤ 'f' then some (c.toNat - 'a'.toNat + 10)
  else if 'A' ≤ c ∧ c ≤ 'F' then some (c.toNat - 'A'.toNat + 10)
  else none

/-- The value of four hexadecimal digits. -/
def hexUnit? (a b c d : Char) : Option Nat := do
  return (((← hexDigit? a) * 16 + (← hexDigit? b)) * 16 + (← hexDigit? c)) * 16 + (← hexDigit? d)

/-- What a backslash and the character stand for. -/
def escapedUnit? : Char → Option Nat
  | '"' => some 0x22
  | '\\' => some 0x5c
  | '/' => some 0x2f
  | 'b' => some 0x08
  | 'f' => some 0x0c
  | 'n' => some 0x0a
  | 'r' => some 0x0d
  | 't' => some 0x09
  | _ => none

/-- Reads a string after its opening quote: its characters and escaped units, and the rest. -/
def readUnits : Text → Option (List Nat × Text)
  | [] => none
  | c :: cs =>
    if c = '"' then some ([], cs)
    else if c = '\\' then
      match cs with
      | 'u' :: d₁ :: d₂ :: d₃ :: d₄ :: cs => do
        let unit ← hexUnit? d₁ d₂ d₃ d₄
        let (units, rest) ← readUnits cs
        return (unit :: units, rest)
      | d :: cs => do
        let unit ← escapedUnit? d
        let (units, rest) ← readUnits cs
        return (unit :: units, rest)
      | [] => none
    else if c.toNat < 0x20 then none
    else do
      let (units, rest) ← readUnits cs
      return (c.toNat :: units, rest)

def isLeadingHalf (unit : Nat) : Bool := decide (0xd800 ≤ unit) && decide (unit < 0xdc00)

def isTrailingHalf (unit : Nat) : Bool := decide (0xdc00 ≤ unit) && decide (unit < 0xe000)

/-- The text that the units denote, unless half of a surrogate pair stands alone. -/
def textOfUnits : List Nat → Option Text
  | [] => some []
  | unit :: units =>
    if isTrailingHalf unit then none
    else if isLeadingHalf unit then
      match units with
      | trailing :: units =>
        if isTrailingHalf trailing then
          (textOfUnits units).map
            (Char.ofNat (0x10000 + (unit - 0xd800) * 0x400 + (trailing - 0xdc00)) :: ·)
        else
          none
      | [] => none
    else
      (textOfUnits units).map (Char.ofNat unit :: ·)

/-- Reads a string after its opening quote. -/
def readString (t : Text) : Option (Option Text × Text) :=
  (readUnits t).map fun (units, rest) => (textOfUnits units, rest)

/-- Reads one or more digits. -/
def readDigits (t : Text) : Option (Text × Text) :=
  let (digits, rest) := Text.run Char.isDigit t
  if digits.isEmpty then none else some (digits, rest)

/-- Reads the digits before the point. A zero stands alone. -/
def readInteger (t : Text) : Option (Text × Text) := do
  let (digits, rest) ← readDigits t
  if digits.head? = some '0' ∧ digits.length ≠ 1 then none else some (digits, rest)

/-- Reads a point with digits, if there is one. -/
def readFraction : Text → Option (Text × Text)
  | '.' :: t => do
    let (digits, rest) ← readDigits t
    return ('.' :: digits, rest)
  | t => some ([], t)

/-- Reads the sign of an exponent, if there is one. -/
def readSign : Text → Text × Text
  | '+' :: t => (['+'], t)
  | '-' :: t => (['-'], t)
  | t => ([], t)

/-- Reads an exponent, if there is one. -/
def readExponent : Text → Option (Text × Text)
  | [] => some ([], [])
  | c :: t =>
    if c = 'e' ∨ c = 'E' then do
      let (sign, t) := readSign t
      let (digits, rest) ← readDigits t
      return (c :: sign ++ digits, rest)
    else
      some ([], c :: t)

/-- Reads a number after its sign. -/
def readUnsigned (t : Text) : Option (Text × Text) := do
  let (integer, t) ← readInteger t
  let (fraction, t) ← readFraction t
  let (exponent, t) ← readExponent t
  return (integer ++ fraction ++ exponent, t)

/-- Reads a value that has no parts and starts with `c`. -/
def readScalar (c : Char) (cs : Text) : Option (JsonValue × Text) :=
  match c, cs with
  | '"', cs => (readString cs).map fun (text?, rest) => (.string text?, rest)
  | 'n', 'u' :: 'l' :: 'l' :: rest => some (.null, rest)
  | 't', 'r' :: 'u' :: 'e' :: rest => some (.boolean true, rest)
  | 'f', 'a' :: 'l' :: 's' :: 'e' :: rest => some (.boolean false, rest)
  | '-', cs => (readUnsigned cs).map fun (written, rest) => (.number ('-' :: written), rest)
  | c, cs => (readUnsigned (c :: cs)).map fun (written, rest) => (.number written, rest)

mutual

/-- Reads a value; `fuel` bounds the number of calls within each other. -/
def readValue : Nat → Text → Option (JsonValue × Text)
  | 0, _ => none
  | fuel + 1, t =>
    match skipBlanks t with
    | [] => none
    | c :: cs =>
      if c = '[' then
        match skipBlanks cs with
        | ']' :: rest => some (.array [], rest)
        | cs => (readItems fuel cs).map fun (items, rest) => (.array items, rest)
      else if c = '\x7b' then
        match skipBlanks cs with
        | '\x7d' :: rest => some (.object [], rest)
        | cs => (readMembers fuel cs).map fun (members, rest) => (.object members, rest)
      else
        readScalar c cs

/-- Reads one or more items of an array, through its bracket. -/
def readItems : Nat → Text → Option (List JsonValue × Text)
  | 0, _ => none
  | fuel + 1, t => do
    let (item, t) ← readValue fuel t
    match skipBlanks t with
    | ',' :: t =>
      let (items, rest) ← readItems fuel t
      return (item :: items, rest)
    | ']' :: rest => return ([item], rest)
    | _ => none

/-- Reads one or more members of an object, through its brace. -/
def readMembers : Nat → Text → Option (List JsonMember × Text)
  | 0, _ => none
  | fuel + 1, t =>
    match skipBlanks t with
    | '"' :: t => do
      let (key?, t) ← readString t
      match skipBlanks t with
      | ':' :: t =>
        let (value, t) ← readValue fuel t
        match skipBlanks t with
        | ',' :: t =>
          let (members, rest) ← readMembers fuel t
          return (.mk key? value :: members, rest)
        | '\x7d' :: rest => return ([.mk key? value], rest)
        | _ => none
      | _ => none
    | _ => none

end

/-- The value that a whole text denotes. At most every second call within another one takes no
character. -/
def parse? (t : Text) : Option JsonValue :=
  match readValue (2 * t.length + 2) t with
  | some (value, rest) => if (skipBlanks rest).isEmpty then some value else none
  | none => none

/-- The value of the member with the key, if there is one; nothing if there are several. -/
def lookup (key : String) (members : List JsonMember) : Option (Option JsonValue) :=
  match members.filter fun m => m.key? == some key.toList with
  | [] => some none
  | [m] => some (some m.value)
  | _ => none

/-- Whether every key has a text. -/
def keysHaveText (members : List JsonMember) : Bool := members.all fun m => m.key?.isSome

/-- How a character stands in a written string. -/
def writtenChar (c : Char) : Text :=
  if c = '"' then ['\\', '"']
  else if c = '\\' then ['\\', '\\']
  else if c = '\x08' then ['\\', 'b']
  else if c = '\x0c' then ['\\', 'f']
  else if c = '\n' then ['\\', 'n']
  else if c = '\r' then ['\\', 'r']
  else if c = '\t' then ['\\', 't']
  else if c.toNat < 0x20 then
    ['\\', 'u', '0', '0', Nat.digitChar (c.toNat / 16), Nat.digitChar (c.toNat % 16)]
  else [c]

/-- A string as it is written, with quotes and escapes. -/
def writtenString (t : Text) : Text := '"' :: t.flatMap writtenChar ++ ['"']

end JsonValue

end EcmaFront
