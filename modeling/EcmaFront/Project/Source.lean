import EcmaFront.Project.Basic

/-!
# Sources of files

Files are read by path through a function, which may run on a disk or on files in memory.
`FileTree` holds files in memory: a path is followed component by component, as a disk does.
-/

namespace EcmaFront

/-- Why a file cannot be read. -/
inductive ReadError where
  | notFound
  | notADirectory
  | isADirectory
  /-- The bytes are no UTF-8 text. -/
  | notText
  | other (message : String)
  deriving DecidableEq, Repr, Inhabited

def ReadError.message : ReadError → String
  | .notFound => "No such file or directory (os error 2)"
  | .notADirectory => "Not a directory (os error 20)"
  | .isADirectory => "Is a directory (os error 21)"
  | .notText => "stream did not contain valid UTF-8"
  | .other message => message

/-- Why there is no project. -/
inductive ProjectError where
  | unreadable (path : String) (e : ReadError)
  | invalid
  deriving DecidableEq, Repr, Inhabited

def ProjectError.message : ProjectError → String
  | .unreadable path e => s!"cannot read config file {path}: {e.message}"
  | .invalid => "invalid config"

namespace Project

/-- The project in the file at `path`. -/
def load {m : Type → Type} [Monad m] (read : String → m (Except ReadError Text))
    (path : String) : m (Except ProjectError Project) := do
  match ← read path with
  | .error e => return .error (.unreadable path e)
  | .ok t =>
    match parse? t with
    | some p => return .ok p
    | none => return .error .invalid

end Project

/-- Files in memory: each has the components of its path, and its bytes. -/
structure FileTree where
  files : List (List Text × ByteArray)

namespace FileTree

/-- The components that name something. -/
def components (path : String) : List Text :=
  (Path.split path.toList).filter fun c => !Path.isIdle c

def empty : FileTree := ⟨[]⟩

/-- Puts a file in place of one at the same path. -/
def write (tree : FileTree) (path : String) (bytes : ByteArray) : FileTree :=
  let place := components path
  ⟨(place, bytes) :: tree.files.filter fun f => f.1 != place⟩

/-- What stands at a place. -/
inductive Entry where
  | file (bytes : ByteArray)
  | directory

def entry? (tree : FileTree) (place : List Text) : Option Entry :=
  match tree.files.find? fun f => f.1 == place with
  | some f => some (.file f.2)
  | none =>
    if place.isEmpty || tree.files.any fun f => place.isPrefixOf f.1 then some .directory
    else none

/-- Follows components from a place, each of which has to be entered from a directory. -/
def follow (tree : FileTree) : List Text → List Text → Except ReadError (List Text)
  | place, [] => .ok place
  | place, c :: cs =>
    match tree.entry? place with
    | none => .error .notFound
    | some (.file _) => .error .notADirectory
    | some .directory =>
      if Path.isIdle c then follow tree place cs
      else if c == ['.', '.'] then
        if place.isEmpty then .error .notFound else follow tree place.dropLast cs
      else follow tree (place ++ [c]) cs

/-- The text of the file at a path. Absolute paths and paths above the tree lead nowhere. -/
def read (tree : FileTree) (path : String) : Except ReadError Text :=
  if path.isEmpty || Path.isAbsolute path then
    .error .notFound
  else
    match tree.follow [] (Path.split path.toList) with
    | .error e => .error e
    | .ok place =>
      match tree.entry? place with
      | none => .error .notFound
      | some .directory => .error .isADirectory
      | some (.file bytes) =>
        match String.fromUTF8? bytes with
        | some s => .ok s.toList
        | none => .error .notText

end FileTree

end EcmaFront
