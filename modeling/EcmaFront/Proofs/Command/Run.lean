import EcmaFront.Command.Run
import EcmaFront.Proofs.Command.Arguments
import EcmaFront.Proofs.Compilation

/-!
# What a run tells

A run reads the project first, then all files, and compiles only if every file has been read. Its
exit code, what it shows and the errors that it counts come from the same files under the same
options.

* `Names`, `Reads`: the files of a command line, and their texts.
* `Stuck`: the ways in which nothing can be compiled.
* `Tells`: what a run tells otherwise.
* `run_of_spelled`: so does every run of a command line that asks to compile something.
-/

namespace EcmaFront.Command

/-- The files are read, each time that one is named. -/
def Reads (read : String → Id (Except ReadError Text)) (paths : List String)
    (files : List SourceFile) : Prop :=
  List.Forall₂ (fun path file => file.name = path ∧ read path = .ok file.text) paths files

/-- The paths that the items name: those on the command line, and then those of the project, seen
from the directory that holds it. The project may set the strictness. -/
inductive Names (read : String → Id (Except ReadError Text)) (items : List Item) :
    List String → Option Bool → Prop
  | files : (∀ path, .project path ∉ items) → Names read items (items.filterMap Item.file?) none
  | project {path : String} {t : Text} {p : Project} : .project path ∈ items →
    read path = .ok t → Project.parse? t = some p →
    Names read items
      (items.filterMap Item.file? ++ p.paths ((Path.parent? path).getD ".")) p.options.strict

/-- Why nothing can be compiled. -/
inductive Stuck (read : String → Id (Except ReadError Text)) (items : List Item) : Prop
  | unreadableProject {path : String} {e : ReadError} : .project path ∈ items →
    read path = .error e → Stuck read items
  | invalidProject {path : String} {t : Text} : .project path ∈ items → read path = .ok t →
    Project.parse? t = none → Stuck read items
  | noFiles {strict? : Option Bool} : Names read items [] strict? → Stuck read items
  | unreadable {paths : List String} {strict? : Option Bool} {path : String} {e : ReadError} :
    Names read items paths strict? → path ∈ paths → read path = .error e → Stuck read items

/-- A part of what is shown, which stands there if it is asked for and its subject was found. -/
inductive Part {ε α : Type} (asked : Prop) (found : Except ε α) (text : α → String) :
    String → Prop
  | shown {a : α} : asked → found = .ok a → Part asked found text (text a)
  | unasked : ¬ asked → Part asked found text ""
  | failed {e : ε} : found = .error e → Part asked found text ""

/-- A line with the number of tokens, and a line for each token. -/
def tokenText (file : SourceFile) (s : TokenSequence) : String :=
  s!"// {file.name}: {s.length} tokens\n" ++ String.join (s.toList.map fun t => s.listing t ++ "\n")

/-- A line with the name, and the tree. -/
def treeText (file : SourceFile) (p : Program) : String :=
  s!"// {file.name}\n" ++ p.listing.render (.indented 0) ++ "\n"

/-- What is shown of a file: its tokens and then its tree. -/
def Shows (items : List Item) (strict : Bool) (file : SourceFile) (text : String) : Prop :=
  ∃ tokens tree, text = tokens ++ tree ∧
    Part (.tokens ∈ items) (scan strict file.text) (tokenText file) tokens ∧
    Part (.tree ∈ items) (EcmaFront.parse strict file.text) (treeText file) tree

/-- The line that counts the errors. -/
def foundLine (n : Nat) : String := if n = 1 then "Found 1 error." else s!"Found {n} errors."

/-- The run tells which of the files fail, and what was asked for of each of them. -/
structure Tells (items : List Item) (strict : Bool) (files : List SourceFile) (o : Outcome) :
    Prop where
  fails : o.exitCode = 2 ↔ ∃ file ∈ files, ∃ e, EcmaFront.parse strict file.text = .error e
  succeeds : o.exitCode = 0 ↔ ∀ file ∈ files, ∃ p, EcmaFront.parse strict file.text = .ok p
  counts : o.exitCode = 2 → o.reports.getLast? =
    some (foundLine (files.countP fun file => !(EcmaFront.parse strict file.text).isOk))
  shows : ∃ sections, List.Forall₂ (Shows items strict) files sections ∧
    o.output = String.join sections

/-! ## What is shown -/

theorem foldl_append_eq {α : Type} (f : α → String) (l : List α) (before : String) :
    l.foldl (fun out a => out ++ f a) before = before ++ String.join (l.map f) := by
  induction l generalizing before with
  | nil => simp
  | cons a l ih => simp [ih, String.append_assoc]

/-- A part is shown if it is asked for, and is empty where its subject was not found. -/
theorem part_ite {ε α : Type} {asked : Prop} [Decidable asked] {found : Except ε α}
    {text : α → String} {part : String} (ok : ∀ a, found = .ok a → part = text a)
    (error : ∀ e, found = .error e → part = "") :
    Part asked found text (if decide asked then part else "") := by
  by_cases h : asked
  · rw [if_pos (decide_eq_true h)]
    cases found with
    | ok a =>
      rw [ok a rfl]
      exact .shown h rfl
    | error e =>
      rw [error e rfl]
      exact .failed rfl
  · rw [if_neg (by simpa using h)]
    exact .unasked h

theorem tokenSection_eq {strict : Bool} {file : SourceFile} {s : TokenSequence}
    (h : scan strict file.text = .ok s) : tokenSection strict file = tokenText file s := by
  unfold tokenSection tokenText
  rw [h]
  dsimp only
  rw [← foldl_append_eq]
  simp only [String.append_assoc]

theorem shows_shownOf (items : List Item) (strict : Bool) (file : SourceFile) :
    Shows items strict file (shownOf (.ofItems items) strict file) := by
  refine ⟨_, _, rfl, part_ite (fun s ok => tokenSection_eq ok) fun e error => ?_,
    part_ite (fun p ok => ?_) fun e error => ?_⟩
  · rw [tokenSection, error]
  · rw [treeSection, ok]
    rfl
  · rw [treeSection, error]

/-! ## How a run ends -/

theorem isOk_eq_false_iff {ε α : Type} {x : Except ε α} :
    x.isOk = false ↔ ∃ e, x = .error e := by
  cases x <;> simp [Except.isOk, Except.toBool]

theorem isOk_iff {ε α : Type} {x : Except ε α} : x.isOk = true ↔ ∃ a, x = .ok a := by
  cases x <;> simp [Except.isOk, Except.toBool]

theorem getLast?_reports {shown : String} {ds : Diagnostics} (h : 0 < ds.errorCount) :
    (Outcome.finished shown ds).reports.getLast? = some (foundLine ds.errorCount) := by
  have line : (Outcome.finished shown ds).errorCountLine? = some (foundLine ds.errorCount) := by
    unfold Outcome.errorCountLine? foundLine
    dsimp only
    split
    · next none => omega
    · next one => rw [one]; rfl
    · next n notNone notOne => rw [if_neg notOne]
  unfold Outcome.reports
  rw [line]
  simp

theorem exitCode_finished {shown : String} {ds : Diagnostics} :
    ((Outcome.finished shown ds).exitCode = 2 ↔ 0 < ds.errorCount) ∧
      ((Outcome.finished shown ds).exitCode = 0 ↔ ds.errorCount = 0) := by
  unfold Outcome.exitCode
  dsimp only
  have errors := Diagnostics.hasErrors_iff ds
  cases h : ds.hasErrors with
  | true =>
    have some := errors.1 h
    simp [some, some.ne']
  | false =>
    have none : ds.errorCount = 0 := by
      by_contra some
      rw [errors.2 (by omega)] at h
      cases h
    simp [none]

/-- Either all files are programs, or one of them fails. -/
theorem Tells.exitCode_eq {items : List Item} {strict : Bool} {files : List SourceFile}
    {o : Outcome} (h : Tells items strict files o) : o.exitCode = 0 ∨ o.exitCode = 2 := by
  by_cases failed : ∃ file ∈ files, ∃ e, EcmaFront.parse strict file.text = .error e
  · exact .inr (h.fails.2 failed)
  · refine .inl (h.succeeds.2 fun file mem => ?_)
    cases parsed : EcmaFront.parse strict file.text with
    | ok p => exact ⟨p, rfl⟩
    | error e => exact absurd ⟨file, mem, e, parsed⟩ failed

theorem tells_finish (items : List Item) (options : CompilerOptions) (files : List SourceFile) :
    Tells items options.isStrict files (finish (.ofItems items) options files) := by
  have count := errorCount_compile options files
  constructor
  · rw [finish, exitCode_finished.1, count, List.countP_pos_iff]
    simp only [Bool.not_eq_true', isOk_eq_false_iff]
  · rw [finish, exitCode_finished.2, count, List.countP_eq_zero]
    simp only [Bool.not_eq_true', Bool.not_eq_false, isOk_iff]
  · intro failed
    rw [finish, getLast?_reports (exitCode_finished.1.1 failed), count]
  · refine ⟨files.map (shownOf (.ofItems items) options.isStrict), ?_, ?_⟩
    · rw [List.forall₂_map_right_iff, List.forall₂_same]
      exact fun file _ => shows_shownOf items _ file
    · show List.foldl _ "" files = _
      rw [foldl_append_eq, String.empty_append]

/-! ## What is read -/

variable {read : String → Id (Except ReadError Text)} {items : List Item} {paths : List String}
  {strict? : Option Bool}

/-- A project that is given once is the project. -/
theorem project?_ofItems_iff (once : AtMostOnce items) {path : String} :
    (Request.ofItems items).project? = some path ↔ .project path ∈ items := by
  have mem : path ∈ items.filterMap Item.project? ↔ .project path ∈ items := by
    rw [List.mem_filterMap]
    constructor
    · rintro ⟨item, mem, eq⟩
      cases item with
      | project p => exact Option.some.inj eq ▸ mem
      | strict | tokens | tree | verbose | file => cases eq
    · exact fun mem => ⟨_, mem, rfl⟩
  rw [← mem, Request.ofItems]
  cases projects : items.filterMap Item.project? with
  | nil => simp
  | cons p more =>
    obtain rfl : more = [] := by
      have := once.project
      rw [projects, List.length_cons] at this
      exact List.eq_nil_of_length_eq_zero (by omega)
    simp [eq_comm]

theorem project?_ofItems_eq_none (once : AtMostOnce items) :
    (Request.ofItems items).project? = none ↔ ∀ path, .project path ∉ items := by
  simp only [Option.eq_none_iff_forall_ne_some, ne_eq, project?_ofItems_iff once]

theorem load_error {path : String} {e : ReadError} (h : read path = .error e) :
    Project.load read path = .error (.unreadable path e) := by
  unfold Project.load
  rw [h]
  rfl

theorem load_ok {path : String} {t : Text} (h : read path = .ok t) :
    Project.load read path = (Project.parse? t).elim (.error .invalid) .ok := by
  unfold Project.load
  simp only [bind, h]
  cases Project.parse? t <;> rfl

theorem inputs_none {r : Request} (h : r.project? = none) :
    inputs read r = .ok (r.files, .default) := by
  unfold inputs
  rw [h]
  rfl

theorem inputs_error {r : Request} {path : String} {e : ProjectError} (h : r.project? = some path)
    (failed : Project.load read path = .error e) : inputs read r = .error (.project e) := by
  unfold inputs
  rw [h]
  dsimp only
  rw [failed]
  rfl

theorem inputs_ok {r : Request} {path : String} {p : Project} (h : r.project? = some path)
    (loaded : Project.load read path = .ok p) :
    inputs read r = .ok (r.files ++ p.paths ((Path.parent? path).getD "."), p.options) := by
  unfold inputs
  rw [h]
  dsimp only
  rw [loaded]
  rfl

theorem inputs_of_names (once : AtMostOnce items) (names : Names read items paths strict?) :
    inputs read (.ofItems items) = .ok (paths, ⟨strict?⟩) := by
  cases names with
  | files none => exact inputs_none ((project?_ofItems_eq_none once).2 none)
  | @project path t p mem ok parsed =>
    refine inputs_ok ((project?_ofItems_iff once).2 mem) ?_
    rw [load_ok ok, parsed]
    rfl

theorem readFiles_error {path : String} {e : ReadError} (h : read path = .error e)
    (paths : List String) : readFiles read (path :: paths) = .error (.unreadable path e) := by
  unfold readFiles
  rw [h]
  rfl

theorem readFiles_ok {path : String} {t : Text} (h : read path = .ok t) (paths : List String) :
    readFiles read (path :: paths) = (readFiles read paths).map (⟨path, t⟩ :: ·) := by
  conv => lhs; unfold readFiles
  rw [h]
  cases readFiles read paths <;> rfl

/-- The files can be read, or one of them cannot. -/
theorem reads_or_unreadable (read : String → Id (Except ReadError Text)) (paths : List String) :
    (∃ files, Reads read paths files) ∨ ∃ path ∈ paths, ∃ e, read path = .error e := by
  induction paths with
  | nil => exact .inl ⟨[], .nil⟩
  | cons path paths ih =>
    cases found : read path with
    | error e => exact .inr ⟨path, List.mem_cons_self, e, found⟩
    | ok t =>
      obtain ⟨files, reads⟩ | ⟨other, mem, e, failed⟩ := ih
      · exact .inl ⟨⟨path, t⟩ :: files, .cons ⟨rfl, found⟩ reads⟩
      · exact .inr ⟨other, List.mem_cons_of_mem _ mem, e, failed⟩

theorem readFiles_of_reads {files : List SourceFile} (h : Reads read paths files) :
    readFiles read paths = .ok files := by
  induction h with
  | nil => rfl
  | @cons path file paths files found _ ih =>
    obtain ⟨rfl, found⟩ := found
    rw [readFiles_ok found, ih]
    rfl

theorem readFiles_of_unreadable {path : String} {e : ReadError} (mem : path ∈ paths)
    (failed : read path = .error e) : ∃ why, readFiles read paths = .error why := by
  induction paths with
  | nil => exact absurd mem List.not_mem_nil
  | cons first paths ih =>
    cases found : read first with
    | error e => exact ⟨_, readFiles_error found paths⟩
    | ok t =>
      have mem : path ∈ paths := by
        obtain rfl | mem := List.mem_cons.1 mem
        · rw [failed] at found
          cases found
        · exact mem
      obtain ⟨why, eq⟩ := ih mem
      rw [readFiles_ok found, eq]
      exact ⟨why, rfl⟩

/-! ## Runs -/

theorem names_or_stuck (read : String → Id (Except ReadError Text)) (items : List Item) :
    (∃ paths strict?, Names read items paths strict?) ∨ Stuck read items := by
  by_cases project : ∃ path, .project path ∈ items
  · obtain ⟨path, mem⟩ := project
    cases found : read path with
    | error e => exact .inr (.unreadableProject mem found)
    | ok t =>
      cases parsed : Project.parse? t with
      | none => exact .inr (.invalidProject mem found parsed)
      | some p => exact .inl ⟨_, _, .project mem found parsed⟩
  · exact .inl ⟨_, _, .files (not_exists.1 project)⟩

theorem compileRequest_of_inputs_error {r : Request} {why : Failure}
    (h : inputs read r = .error why) : compileRequest read r = .failed why := by
  unfold compileRequest
  rw [h]
  rfl

theorem compileRequest_of_stuck (once : AtMostOnce items) (h : Stuck read items) :
    ∃ why, compileRequest read (.ofItems items) = .failed why := by
  cases h with
  | unreadableProject mem failed =>
    have project := (project?_ofItems_iff once).2 mem
    exact ⟨_, compileRequest_of_inputs_error (inputs_error project (load_error failed))⟩
  | invalidProject mem ok invalid =>
    have project := (project?_ofItems_iff once).2 mem
    have load := load_ok ok
    rw [invalid] at load
    exact ⟨_, compileRequest_of_inputs_error (inputs_error project load)⟩
  | noFiles names =>
    unfold compileRequest
    rw [inputs_of_names once names]
    exact ⟨_, rfl⟩
  | @unreadable paths _ path e names mem failed =>
    obtain ⟨why, eq⟩ := readFiles_of_unreadable mem failed
    unfold compileRequest
    rw [inputs_of_names once names]
    cases paths with
    | nil => exact ⟨_, rfl⟩
    | cons first paths =>
      refine ⟨why, ?_⟩
      simp only [bind, eq]
      rfl

theorem compileRequest_of_reads {r : Request} {options : CompilerOptions}
    {files : List SourceFile} (h : inputs read r = .ok (paths, options)) (some : paths ≠ [])
    (reads : Reads read paths files) : compileRequest read r =
      finish r (options.merge ⟨if r.strict then Option.some true else none⟩) files := by
  obtain ⟨first, paths, rfl⟩ := List.exists_cons_of_ne_nil some
  unfold compileRequest
  rw [h]
  simp only [bind, readFiles_of_reads reads]
  rfl

theorem isStrict_merge_iff : (CompilerOptions.merge ⟨strict?⟩
      ⟨if (Request.ofItems items).strict then some true else none⟩).isStrict = true ↔
    .strict ∈ items ∨ strict? = some true := by
  have asked : (Request.ofItems items).strict = decide (.strict ∈ items) := rfl
  rw [asked]
  by_cases strict : Item.strict ∈ items
  · simp [strict, CompilerOptions.merge, CompilerOptions.isStrict]
  · cases strict? <;> simp [strict, CompilerOptions.merge, CompilerOptions.isStrict]

/-- A command line that asks to compile something fails exactly when nothing can be compiled, and
then nothing is shown. Otherwise it tells what it found in the files that it names. -/
theorem run_of_spelled {items : List Item} {arguments : List String}
    (spelled : Spelled items arguments) (once : AtMostOnce items)
    (read : String → Id (Except ReadError Text)) :
    ((run read arguments).exitCode = 1 ↔ Stuck read items) ∧
    (Stuck read items → (run read arguments).output = "") ∧
    (¬ Stuck read items → ∃ paths strict? files strict,
      Names read items paths strict? ∧ paths ≠ [] ∧ Reads read paths files ∧
      (strict = true ↔ .strict ∈ items ∨ strict? = some true) ∧
      Tells items strict files (run read arguments)) := by
  have parsed := parse_eq_compile_iff.2 ⟨items, spelled, once, rfl⟩
  have eq : run read arguments = compileRequest read (.ofItems items) := by
    unfold run
    rw [parsed]
  have tells (free : ¬ Stuck read items) : ∃ paths strict? files strict,
      Names read items paths strict? ∧ paths ≠ [] ∧ Reads read paths files ∧
      (strict = true ↔ .strict ∈ items ∨ strict? = some true) ∧
      Tells items strict files (compileRequest read (.ofItems items)) := by
    obtain ⟨paths, strict?, names⟩ := (names_or_stuck read items).resolve_right free
    have some : paths ≠ [] := by
      rintro rfl
      exact free (.noFiles names)
    obtain ⟨files, reads⟩ | ⟨path, mem, e, failed⟩ := reads_or_unreadable read paths
    · refine ⟨paths, strict?, files, _, names, some, reads, isStrict_merge_iff, ?_⟩
      rw [compileRequest_of_reads (inputs_of_names once names) some reads]
      exact tells_finish items _ files
    · exact absurd (.unreadable names mem failed) free
  have stuck (h : Stuck read items) : (compileRequest read (.ofItems items)).exitCode = 1 ∧
      (compileRequest read (.ofItems items)).output = "" := by
    obtain ⟨why, eq⟩ := compileRequest_of_stuck once h
    rw [eq]
    exact ⟨rfl, rfl⟩
  rw [eq]
  refine ⟨⟨fun failed => ?_, fun h => (stuck h).1⟩, fun h => (stuck h).2, tells⟩
  by_contra free
  obtain ⟨_, _, _, _, _, _, _, _, told⟩ := tells free
  have := told.exitCode_eq
  omega

/-- A project that asks for strictness and names the file `b`, and two files. One of them uses a
word as a name that is reserved in strict sources. -/
def twoFiles (path : String) : Id (Except ReadError Text) :=
  if path = "p" then
    .ok ['[', '[', 't', 'r', 'u', 'e', ']', ',', '[', '"', 'b', '"', ']', ']']
  else if path = "a" then
    .ok ['p', 'u', 'b', 'l', 'i', 'c', ';']
  else if path = "b" then
    .ok ['b', ';']
  else
    .error .notFound

theorem names_twoFiles (names : Names twoFiles [.file "a", .project "p"] paths strict?) :
    paths = ["a", "b"] ∧ strict? = some true := by
  cases names with
  | files none => exact absurd (by simp) (none "p")
  | @project path t p mem ok parsed =>
    obtain rfl : path = "p" := by simpa using mem
    obtain rfl := Except.ok.inj ok
    have project : Project.parse?
        ['[', '[', 't', 'r', 'u', 'e', ']', ',', '[', '"', 'b', '"', ']', ']'] =
          some ⟨some ⟨some true⟩, some ["b"]⟩ := by decide +kernel
    obtain rfl := Option.some.inj (parsed.symm.trans project)
    have base : (Path.parent? "p").getD "." = "" := by decide +kernel
    have file : Project.paths "" ⟨some ⟨some true⟩, some ["b"]⟩ = ["b"] := by decide +kernel
    rw [base, file]
    exact ⟨rfl, rfl⟩

theorem not_stuck_twoFiles : ¬ Stuck twoFiles [.file "a", .project "p"] := by
  intro stuck
  cases stuck with
  | @unreadableProject path e mem failed =>
    obtain rfl : path = "p" := by simpa using mem
    cases failed
  | @invalidProject path t mem ok invalid =>
    obtain rfl : path = "p" := by simpa using mem
    obtain rfl := Except.ok.inj ok
    revert invalid
    decide +kernel
  | noFiles names => cases (names_twoFiles names).1
  | @unreadable paths _ path e names mem failed =>
    obtain rfl := (names_twoFiles names).1
    obtain rfl | rfl : path = "a" ∨ path = "b" := by simpa using mem
    · cases failed
    · cases failed

theorem run_of_spelled_twoFiles :
    Spelled [.file "a", .project "p"] ["a", "-p", "p"] ∧
      AtMostOnce [.file "a", .project "p"] ∧
      (run twoFiles ["a", "-p", "p"]).exitCode = 2 ∧
      (run twoFiles ["a", "-p", "p"]).reports.getLast? = some "Found 1 error." := by
  have noLetters : Item.IsLetters [] := nofun
  have spelled : Spelled [.file "a", .project "p"] ["a", "-p", "p"] :=
    .cons (.file (by decide) (by decide))
      (.cons (.nextWord (.inr ⟨[], noLetters, rfl⟩) (by decide) (by decide)) .nil)
  have once : AtMostOnce [.file "a", .project "p"] :=
    ⟨by decide, by decide, by decide, by decide⟩
  obtain ⟨paths, strict?, files, strict, names, _, reads, isStrict, tells⟩ :=
    (run_of_spelled spelled once twoFiles).2.2 not_stuck_twoFiles
  obtain ⟨rfl, rfl⟩ := names_twoFiles names
  obtain rfl : strict = true := isStrict.2 (.inr rfl)
  let a : SourceFile := ⟨"a", ['p', 'u', 'b', 'l', 'i', 'c', ';']⟩
  let b : SourceFile := ⟨"b", ['b', ';']⟩
  have texts : readFiles twoFiles ["a", "b"] = .ok [a, b] := rfl
  obtain rfl : files = [a, b] := Except.ok.inj ((readFiles_of_reads reads).symm.trans texts)
  have reserved : ∃ e, EcmaFront.parse true a.text = .error e := ⟨_, rfl⟩
  have failed := tells.fails.2 ⟨a, List.mem_cons_self, reserved⟩
  exact ⟨spelled, once, failed, tells.counts failed⟩

end EcmaFront.Command
