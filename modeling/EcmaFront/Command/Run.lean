import EcmaFront.Command.Arguments
import EcmaFront.Project.Source
import EcmaFront.Tree.Listing

/-!
# Running the command

`run` reads the project and the files that the arguments name through a given function, compiles
the files and shows what was asked for. Nothing is shown unless every file can be read.
-/

namespace EcmaFront.Command

/-- Why nothing could be compiled. -/
inductive Failure where
  | usage (e : UsageError)
  | project (e : ProjectError)
  | noFiles
  | unreadable (path : String) (e : ReadError)
  deriving DecidableEq, Repr, Inhabited

def Failure.message : Failure → String
  | .usage e => e.message
  | .project e => e.message
  | .noFiles => "no input files"
  | .unreadable path e => s!"cannot read source file {path}: {e.message}"

/-- How a run ends. -/
inductive Outcome where
  | help
  | version
  | failed (why : Failure)
  /-- All files were compiled; `shown` is what was asked to be shown of them. -/
  | finished (shown : String) (diagnostics : Diagnostics)

def helpText : String :=
  "Usage: jsfront [--strict] [-p CONFIG] [--tokens] [--ast] [-v...] FILE...\n"

def versionText : String := "jsfront 0.1.0\n"

namespace Outcome

def exitCode : Outcome → Nat
  | .help | .version => 0
  | .failed _ => 1
  | .finished _ diagnostics => if diagnostics.hasErrors then 2 else 0

/-- The text for standard output. -/
def output : Outcome → String
  | .help => helpText
  | .version => versionText
  | .failed _ => ""
  | .finished shown _ => shown

/-- The line that counts the errors, if there are any. -/
def errorCountLine? : Outcome → Option String
  | .finished _ diagnostics =>
    match diagnostics.errorCount with
    | 0 => none
    | 1 => some "Found 1 error."
    | n => some s!"Found {n} errors."
  | _ => none

/-- The diagnostics to report, in order. -/
def diagnostics : Outcome → Diagnostics
  | .finished _ diagnostics => diagnostics
  | _ => []

/-- The lines for standard error. -/
def reports (o : Outcome) : List String :=
  let lines := o.diagnostics.map Diagnostic.toLine
  match o, o.errorCountLine? with
  | .failed why, _ => [s!"error: {why.message}"]
  | _, some count => lines ++ ["", count]
  | _, none => lines

end Outcome

/-- The tokens of a file, one on each line, if it can be cut into tokens. -/
def tokenSection (strict : Bool) (file : SourceFile) : String :=
  match scan strict file.text with
  | .ok s =>
    s.toList.foldl (fun out t => out ++ s.listing t ++ "\n")
      s!"// {file.name}: {s.length} tokens\n"
  | .error _ => ""

/-- The tree of a file, if it is a program. -/
def treeSection (strict : Bool) (file : SourceFile) : String :=
  match EcmaFront.parse strict file.text with
  | .ok p => s!"// {file.name}\n" ++ p.listing.render (.indented 0) ++ "\n"
  | .error _ => ""

/-- What the request asks to be shown of a file. -/
def shownOf (r : Request) (strict : Bool) (file : SourceFile) : String :=
  (if r.tokens then tokenSection strict file else "") ++
    (if r.tree then treeSection strict file else "")

/-- Compiles files that have been read. -/
def finish (r : Request) (options : CompilerOptions) (files : List SourceFile) : Outcome :=
  .finished (files.foldl (fun out file => out ++ shownOf r options.isStrict file) "")
    (compile options files)

section

variable {m : Type → Type} [Monad m] (read : String → m (Except ReadError Text))

/-- Reads the files in order, up to the first that cannot be read. -/
def readFiles : List String → m (Except Failure (List SourceFile))
  | [] => return .ok []
  | path :: paths => do
    match ← read path with
    | .error e => return .error (.unreadable path e)
    | .ok text =>
      match ← readFiles paths with
      | .error why => return .error why
      | .ok files => return .ok (⟨path, text⟩ :: files)

/-- The paths and options of a request: those of its project come last, and the files of a project
are seen from the directory that holds it. -/
def inputs (r : Request) : m (Except Failure (List String × CompilerOptions)) := do
  match r.project? with
  | none => return .ok (r.files, .default)
  | some path =>
    match ← Project.load read path with
    | .error e => return .error (.project e)
    | .ok p =>
      let base := (Path.parent? path).getD "."
      return .ok (r.files ++ p.paths base, p.options)

/-- Compiles what the request names. Strictness on the command line wins over the project's. -/
def compileRequest (r : Request) : m Outcome := do
  match ← inputs read r with
  | .error why => return .failed why
  | .ok ([], _) => return .failed .noFiles
  | .ok (paths, options) =>
    match ← readFiles read paths with
    | .error why => return .failed why
    | .ok files =>
      return finish r (options.merge ⟨if r.strict then some true else none⟩) files

/-- Does what the arguments ask for. -/
def run (arguments : List String) : m Outcome := do
  match parse arguments with
  | .error e => return .failed (.usage e)
  | .ok .help => return .help
  | .ok .version => return .version
  | .ok (.compile r) => compileRequest read r

end

end EcmaFront.Command
