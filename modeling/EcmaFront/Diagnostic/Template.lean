/-!
# Message templates

A template holds places `{0}`, `{1}` and so on for arguments. The arguments are filled in one after
the other, each at every place of its number in the text as it then stands, so a place that comes
with an argument is filled by a later one.
-/

namespace EcmaFront.Template

/-- The place for argument `i`. -/
def place (i : Nat) : List Char := '\x7b' :: (Nat.toDigits 10 i ++ ['\x7d'])

/-- Puts `new` for each occurrence of `old`, from the left; `skip` characters of an occurrence are
still to be passed over. -/
def replaceFrom (old new : List Char) : Nat → List Char → List Char
  | _, [] => []
  | skip + 1, _ :: cs => replaceFrom old new skip cs
  | 0, c :: cs =>
    if old.isPrefixOf (c :: cs) then new ++ replaceFrom old new (old.length - 1) cs
    else c :: replaceFrom old new 0 cs

/-- Puts `new` for each occurrence of `old`. -/
def replace (old new : List Char) (t : List Char) : List Char := replaceFrom old new 0 t

/-- Fills in the arguments from number `i` on. -/
def fillFrom (i : Nat) : List (List Char) → List Char → List Char
  | [], t => t
  | argument :: arguments, t => fillFrom (i + 1) arguments (replace (place i) argument t)

/-- The message of a template and its arguments. -/
def format (template : String) (arguments : List String) : String :=
  String.ofList (fillFrom 0 (arguments.map String.toList) template.toList)

end EcmaFront.Template
