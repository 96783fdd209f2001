/-!
# Messages

The catalogue of messages: each has a number, a category and a template for its text.
-/

namespace EcmaFront

inductive Category where
  | warning | error | message
  deriving DecidableEq, Repr, Inhabited

def Category.text : Category → String
  | .warning => "warning"
  | .error => "error"
  | .message => "message"

structure Message where
  code : Nat
  category : Category
  template : String
  deriving DecidableEq, Repr, Inhabited

namespace Message

def unterminatedString : Message := ⟨1002, .error, "Unterminated string literal."⟩

def identifierExpected : Message := ⟨1003, .error, "Identifier expected."⟩

def tokenExpected : Message := ⟨1005, .error, "'\x7b0\x7d' expected."⟩

def expressionExpected : Message := ⟨1109, .error, "Expression expected."⟩

def invalidNumber : Message := ⟨1124, .error, "Invalid numeric literal."⟩

def unexpectedEnd : Message := ⟨1126, .error, "Unexpected end of text."⟩

def invalidCharacter : Message := ⟨1127, .error, "Invalid character '\x7b0\x7d'."⟩

def sourceTooLarge : Message := ⟨1199, .error, "Source file is too large (\x7b0\x7d bytes)."⟩

def notSupported : Message := ⟨1200, .error, "'\x7b0\x7d' is not supported yet."⟩

def nestingTooDeep : Message := ⟨1201, .error, "Expression nesting exceeds \x7b0\x7d levels."⟩

def invalidTarget : Message :=
  ⟨2364, .error, "The left-hand side of an assignment expression must be a variable or a " ++
    "property access."⟩

def mixedOperations : Message :=
  ⟨5076, .error, "'\x7b0\x7d' and '\x7b1\x7d' operations cannot be mixed without parentheses."⟩

def noStatements : Message := ⟨6001, .warning, "File '\x7b0\x7d' contains no statements."⟩

end Message

end EcmaFront
