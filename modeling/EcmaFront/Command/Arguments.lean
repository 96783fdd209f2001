/-!
# Arguments of the command

The arguments are read from the left. A word that starts with a dash is an option until `--` ends
the options, and every other word is a file. The first fault decides, and so does a request for help
or for the version if no fault comes before it.

* `--strict`, `--tokens` and `--ast` take no value and may be given once.
* `-v`, or `--verbose`, may be given any number of times.
* `-p`, or `--project`, takes a value and may be given once. The value stands behind an equals sign,
  right behind the letter, or in the next word, which then may not look like an option.
* One-letter options may share a dash.
-/

namespace EcmaFront.Command

/-- What to compile, and what to show. -/
structure Request where
  files : List String
  project? : Option String
  strict : Bool
  /-- Whether to show the tokens of each file. -/
  tokens : Bool
  /-- Whether to show the tree of each file. -/
  tree : Bool
  deriving DecidableEq, Repr, Inhabited

namespace Request

def empty : Request := ⟨[], none, false, false, false⟩

end Request

inductive UsageError where
  | unknownOption (option : String)
  | repeatedOption (option : String)
  | missingValue (option : String)
  | emptyValue (option : String)
  | unexpectedValue (option : String)
  deriving DecidableEq, Repr, Inhabited

def UsageError.message : UsageError → String
  | .unknownOption option => s!"unexpected argument '{option}'"
  | .repeatedOption option => s!"the argument '{option}' cannot be used multiple times"
  | .missingValue option => s!"a value is required for '{option}' but none was supplied"
  | .emptyValue option => s!"a value is required for '{option}' but an empty one was supplied"
  | .unexpectedValue option => s!"no value is allowed for '{option}'"

/-- What the arguments ask for. -/
inductive Invocation where
  | help
  | version
  | compile (request : Request)
  deriving DecidableEq, Repr, Inhabited

/-- What an option does. -/
inductive Effect where
  /-- It changes the request. -/
  | change (request : Request)
  /-- It needs the next word as the path of the project. -/
  | needsPath
  /-- It decides what is asked for. -/
  | decide (invocation : Invocation)
  deriving DecidableEq, Repr

namespace Request

def addFile (r : Request) (file : String) : Except UsageError Request :=
  if file.isEmpty then .error (.emptyValue "FILE")
  else .ok { r with files := r.files ++ [file] }

def addFiles (r : Request) : List String → Except UsageError Request
  | [] => .ok r
  | file :: files => do
    (← r.addFile file).addFiles files

def setProject (r : Request) (path : String) : Except UsageError Request :=
  if path.isEmpty then .error (.emptyValue "--project")
  else if r.project?.isSome then .error (.repeatedOption "--project")
  else .ok { r with project? := some path }

def setStrict (r : Request) : Except UsageError Request :=
  if r.strict then .error (.repeatedOption "--strict") else .ok { r with strict := true }

def setTokens (r : Request) : Except UsageError Request :=
  if r.tokens then .error (.repeatedOption "--tokens") else .ok { r with tokens := true }

def setTree (r : Request) : Except UsageError Request :=
  if r.tree then .error (.repeatedOption "--ast") else .ok { r with tree := true }

end Request

/-- The effect of an option with a long name and no value. -/
def flag (r : Request) : String → Except UsageError Effect
  | "strict" => return .change (← r.setStrict)
  | "tokens" => return .change (← r.setTokens)
  | "ast" => return .change (← r.setTree)
  | "verbose" => return .change r
  | "version" => return .decide .version
  | "help" => return .decide .help
  | "project" => return .needsPath
  | name => throw (.unknownOption ("--" ++ name))

/-- The effect of an option with a long name and a value. -/
def assigned (r : Request) (name value : String) : Except UsageError Effect := do
  if name = "project" then
    return .change (← r.setProject value)
  else
    match flag .empty name with
    | .ok _ => throw (.unexpectedValue ("--" ++ name))
    | .error e => throw e

/-- The effect of an option with a long name, without its dashes. -/
def longOption (r : Request) (option : List Char) : Except UsageError Effect :=
  let name := String.ofList (option.takeWhile (· != '='))
  match option.dropWhile (· != '=') with
  | _ :: value => assigned r name (String.ofList value)
  | [] => flag r name

/-- The effect of one-letter options that share a dash. -/
def letters (r : Request) : List Char → Except UsageError Effect
  | [] => return .change r
  | 'v' :: rest => letters r rest
  | 'V' :: _ => return .decide .version
  | 'h' :: _ => return .decide .help
  | ['p'] => return .needsPath
  | 'p' :: '=' :: value => return .change (← r.setProject (String.ofList value))
  | 'p' :: value => return .change (← r.setProject (String.ofList value))
  | letter :: _ => throw (.unknownOption (String.ofList ['-', letter]))

/-- The effect of a word. A dash alone is a file. -/
def word (r : Request) (w : String) : Except UsageError Effect :=
  match w.toList with
  | '-' :: '-' :: option => longOption r option
  | ['-'] => return .change (← r.addFile w)
  | '-' :: rest => letters r rest
  | _ => return .change (← r.addFile w)

/-- Whether a word looks like an option. -/
def looksLikeOption (w : String) : Bool :=
  match w.toList with
  | '-' :: _ :: _ => true
  | _ => false

/-- What the words ask for, after those that made the request `r`. -/
def parseFrom (r : Request) : List String → Except UsageError Invocation
  | [] => return .compile r
  | w :: words => do
    if w = "--" then
      return .compile (← r.addFiles words)
    else
      match ← word r w with
      | .change r => parseFrom r words
      | .decide invocation => return invocation
      | .needsPath =>
        match words with
        | [] => throw (.missingValue "--project")
        | path :: words =>
          if looksLikeOption path then
            throw (.missingValue "--project")
          else
            parseFrom (← r.setProject path) words

/-- What the arguments ask for. -/
def parse (arguments : List String) : Except UsageError Invocation :=
  parseFrom .empty arguments

end EcmaFront.Command
