import EcmaFront.Diagnostic.Collection
import EcmaFront.Tree.Statement

/-!
# Compilations

Each source file is read on its own, and what is wrong with it becomes one diagnostic. A compilation
collects the diagnostics of many files and sorts them.
-/

namespace EcmaFront

/-- The settings of a compilation; one that is not made has its default. -/
structure CompilerOptions where
  /-- Whether the words reserved in strict sources are keywords. -/
  strict : Option Bool
  deriving DecidableEq, Repr, Inhabited

namespace CompilerOptions

def default : CompilerOptions := ⟨none⟩

def isStrict (o : CompilerOptions) : Bool := o.strict.getD false

/-- The settings of `changes`, and those of `o` where `changes` makes none. -/
def merge (o changes : CompilerOptions) : CompilerOptions := ⟨changes.strict.or o.strict⟩

end CompilerOptions

/-- Why a source is no program. -/
inductive SourceError where
  | lexical (e : LexicalError)
  | syntactic (e : SyntaxError)
  deriving DecidableEq, Repr, Inhabited

def SourceError.toDiagnostic (e : SourceError) (file : String) (source : Text) : Diagnostic :=
  let lines := LineIndex.ofText source
  match e with
  | .lexical e => .ofLexical file lines e
  | .syntactic e => .ofSyntax file lines e

/-- The program of a source, when forms may nest `limit` levels deep. -/
def parseWithin (limit : Nat) (strict : Bool) (source : Text) : Except SourceError Program := do
  let tokens ← (scan strict source).mapError .lexical
  (Program.ofTokens limit tokens).mapError .syntactic

/-- The program of a source. -/
def parse (strict : Bool) (source : Text) : Except SourceError Program :=
  parseWithin maxNesting strict source

structure SourceFile where
  name : String
  text : Text
  deriving DecidableEq, Repr, Inhabited

namespace SourceFile

/-- What is wrong with a file: its first error, or that it holds no statement. -/
def diagnostic? (strict : Bool) (file : SourceFile) : Option Diagnostic :=
  match parse strict file.text with
  | .ok program =>
    if program.statements.isEmpty then
      some (.make (.file file.name) .noStatements [file.name])
    else
      none
  | .error e => some (e.toDiagnostic file.name file.text)

end SourceFile

/-- The diagnostics of all files, sorted. -/
def compile (options : CompilerOptions) (files : List SourceFile) : Diagnostics :=
  Diagnostics.sort (files.filterMap (SourceFile.diagnostic? options.isStrict))

end EcmaFront
