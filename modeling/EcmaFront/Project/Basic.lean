import EcmaFront.Compilation
import EcmaFront.Project.JsonValue
import EcmaFront.Project.Path

/-!
# Project files

A project file is a JSON object with compiler options and a list of files. `Project.parse?` reads
one, and `Project.written` writes one in its shortest form.

* Objects with a fixed set of keys may also be written as arrays of all their values in order.
* Options may not have other keys; a project may, with any value.
* A key may not be given twice, and a missing value is the same as `null`.
-/

namespace EcmaFront

structure Project where
  options? : Option CompilerOptions
  files? : Option (List String)
  deriving DecidableEq, Repr, Inhabited

/-- A value that may be missing or `null`; `read` reads any other. -/
def JsonValue.optional {α : Type} (read : JsonValue → Option α) :
    Option JsonValue → Option (Option α)
  | none | some .null => some none
  | some value => (read value).map some

namespace CompilerOptions

def strictOf? : JsonValue → Option Bool
  | .boolean b => some b
  | _ => none

def ofJson? : JsonValue → Option CompilerOptions
  | .array [strict] => do
    return ⟨← JsonValue.optional strictOf? (some strict)⟩
  | .object members => do
    let strict ← JsonValue.lookup "strict" members
    if members.all fun m => m.key? == some "strict".toList then
      return ⟨← JsonValue.optional strictOf? strict⟩
    else
      none
  | _ => none

end CompilerOptions

namespace Project

def fileOf? : JsonValue → Option String
  | .string (some name) => some (String.ofList name)
  | _ => none

def filesOf? : JsonValue → Option (List String)
  | .array items => items.mapM fileOf?
  | _ => none

def ofParts? (options files : Option JsonValue) : Option Project := do
  return ⟨← JsonValue.optional CompilerOptions.ofJson? options,
    ← JsonValue.optional filesOf? files⟩

def ofJson? : JsonValue → Option Project
  | .array [options, files] => ofParts? (some options) (some files)
  | .object members => do
    let options ← JsonValue.lookup "compilerOptions" members
    let files ← JsonValue.lookup "files" members
    if JsonValue.keysHaveText members then ofParts? options files else none
  | _ => none

/-- The project that a text describes. -/
def parse? (t : Text) : Option Project := do
  ofJson? (← JsonValue.parse? t)

/-- The options, or the default ones. -/
def options (p : Project) : CompilerOptions := p.options?.getD .default

/-- The files as seen from the directory `base`. -/
def paths (base : String) (p : Project) : List String :=
  (p.files?.getD []).map (Path.join base)

def writtenStrict : Option Bool → String
  | none => "null"
  | some true => "true"
  | some false => "false"

def writtenOptions : Option CompilerOptions → String
  | none => "null"
  | some o => "\x7b\"strict\":" ++ writtenStrict o.strict ++ "\x7d"

def writtenFiles : Option (List String) → String
  | none => "null"
  | some files =>
    let items := files.map fun f => String.ofList (JsonValue.writtenString f.toList)
    "[" ++ ",".intercalate items ++ "]"

/-- The project as JSON. -/
def written (p : Project) : String :=
  "\x7b\"compilerOptions\":" ++ writtenOptions p.options? ++ ",\"files\":" ++
    writtenFiles p.files? ++ "\x7d"

end Project

end EcmaFront
