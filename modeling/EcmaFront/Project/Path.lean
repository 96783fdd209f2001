import EcmaFront.Text.Basic

/-!
# Paths

Paths with slashes between their components. Nothing is resolved here: a path is put together and
taken apart as it is written.
-/

namespace EcmaFront.Path

def isAbsolute (path : String) : Bool := path.toList.head? == some '/'

/-- `path` seen from the directory `base`. An absolute path stands for itself. -/
def join (base path : String) : String :=
  if isAbsolute path || base.isEmpty then path
  else if base.toList.getLast? == some '/' then base ++ path
  else base ++ "/" ++ path

/-- The components of a text, which are empty where slashes meet. -/
def split : Text → List Text
  | [] => [[]]
  | c :: cs =>
    if c = '/' then [] :: split cs
    else
      match split cs with
      | [] => [[c]]
      | first :: rest => (c :: first) :: rest

/-- Whether a component names nothing: it is empty or the directory itself. -/
def isIdle (component : Text) : Bool := component == [] || component == ['.']

/-- A path as its beginning, which is a slash, a dot or nothing, and its components after that. -/
def parts : Text → Text × List Text
  | '/' :: t => (['/'], split t)
  | ['.'] => (['.'], [[]])
  | '.' :: '/' :: t => (['.'], split ('/' :: t))
  | t => ([], split t)

/-- The components up to the last one that names something. -/
def trim (components : List Text) : List Text :=
  (components.reverse.dropWhile isIdle).reverse

def unsplit (components : List Text) : Text := ['/'].intercalate components

/-- The directory that holds `path`; there is none above a root, nor for the empty path. -/
def parent? (path : String) : Option String :=
  let (beginning, components) := parts path.toList
  match trim components, beginning with
  | [], ['.'] => some ""
  | [], _ => none
  | components, beginning =>
    some (String.ofList (beginning ++ unsplit (trim components.dropLast)))

end EcmaFront.Path
