import EcmaFront.Compilation
import EcmaFront.Proofs.Text.Order
import Mathlib.Data.List.Forall2
import Mathlib.Data.List.Nodup
import Mathlib.Data.Prod.Lex
import Mathlib.Data.String.Basic
import Mathlib.Order.WithBot

/-!
# What a compilation reports

Diagnostics are sorted by a key, the bytes of the file's name and the start of the span
(`Diagnostic.le_iff`), and diagnostics with the same key stay in order (`Diagnostics.filter_sort`).

* `SourceFile.Reports`: what one file adds.
* `compile_reports`: a compilation reports each file once, and if the names of the files differ, it
  does not depend on their order.
-/

namespace EcmaFront

/-! ## Sorting -/

theorem optionLe_iff {α β : Type} [Preorder β] {le : α → α → Bool} {f : α → β}
    (h : ∀ a b, le a b = true ↔ f a ≤ f b) (a? b? : Option α) :
    optionLe le a? b? = true ↔
      a?.elim ⊥ (fun a => WithBot.some (f a)) ≤ b?.elim ⊥ fun b => WithBot.some (f b) := by
  cases a? with
  | none => simp [optionLe]
  | some a =>
    cases b? with
    | none => simp [optionLe]
    | some b => exact (h a b).trans WithBot.coe_le_coe.symm

namespace Diagnostic

/-- The bytes of the name of the file. What is in no file comes first. -/
def fileKey (d : Diagnostic) : WithBot (List Nat) :=
  d.location.file?.elim ⊥ fun name => WithBot.some (Text.byteValues name.toList)

/-- The start of the span. What has no span comes first. -/
def startKey (d : Diagnostic) : WithBot Nat :=
  (d.location.span?.map (·.start)).elim ⊥ fun start => WithBot.some start

/-- What diagnostics are sorted by. -/
def key (d : Diagnostic) : WithBot (List Nat) ×ₗ WithBot Nat := toLex (d.fileKey, d.startKey)

variable {a b : Diagnostic}

theorem fileKey_eq_iff : a.fileKey = b.fileKey ↔ a.location.file? = b.location.file? := by
  unfold fileKey
  cases a.location.file? <;> cases b.location.file? <;>
    simp [Text.byteValues_strictMono.injective.eq_iff, String.toList_inj]

theorem le_iff : a.le b = true ↔ a.key ≤ b.key := by
  have names (m n : String) : decide (m ≤ n) = true ↔
      Text.byteValues m.toList ≤ Text.byteValues n.toList := by
    rw [decide_eq_true_iff, Text.byteValues_strictMono.le_iff_le, String.le_iff_toList_le]
  have starts (m n : Nat) : decide (m ≤ n) = true ↔ id m ≤ id n := decide_eq_true_iff
  rw [key, key, Prod.Lex.toLex_le_toLex, le, fileKey_eq_iff]
  dsimp only
  split
  · next same =>
    rw [fileKey_eq_iff.2 same, optionLe_iff starts]
    simp only [same, lt_self_iff_false, false_or, true_and]
    rfl
  · next differ =>
    have first : a.fileKey ≠ b.fileKey := mt fileKey_eq_iff.1 differ
    rw [optionLe_iff names]
    simp only [differ, false_and, or_false]
    exact (lt_iff_le_and_ne.trans (and_iff_left first)).symm

theorem le_of_le_of_le (a b c : Diagnostic) (h : a.le b = true) (h' : b.le c = true) :
    a.le c = true :=
  le_iff.2 ((le_iff.1 h).trans (le_iff.1 h'))

theorem le_or_le (a b : Diagnostic) : (a.le b || b.le a) = true := by
  rw [Bool.or_eq_true, le_iff, le_iff]
  exact le_total a.key b.key

end Diagnostic

namespace Diagnostics

theorem sort_perm (ds : Diagnostics) : (sort ds).Perm ds := List.mergeSort_perm ds _

theorem sort_pairwise (ds : Diagnostics) : (sort ds).Pairwise fun a b => a.key ≤ b.key := by
  have sorted := List.pairwise_mergeSort Diagnostic.le_of_le_of_le Diagnostic.le_or_le ds
  exact sorted.imp Diagnostic.le_iff.1

/-- Diagnostics with the same key stay in order. -/
theorem filter_sort (ds : Diagnostics) (key : WithBot (List Nat) ×ₗ WithBot Nat) :
    (sort ds).filter (·.key = key) = ds.filter (·.key = key) := by
  have tied : (ds.filter (·.key = key)).Pairwise fun a b => a.le b = true := by
    refine List.pairwise_of_forall_mem_list fun a ha b hb => Diagnostic.le_iff.2 ?_
    have ha := of_decide_eq_true (List.mem_filter.1 ha).2
    have hb := of_decide_eq_true (List.mem_filter.1 hb).2
    exact (ha.trans hb.symm).le
  have inside : (ds.filter (·.key = key)).Sublist (sort ds) :=
    List.sublist_mergeSort Diagnostic.le_of_le_of_le Diagnostic.le_or_le tied List.filter_sublist
  have inside := inside.filter (·.key = key)
  rw [List.filter_filter] at inside
  simp only [Bool.and_self] at inside
  exact (inside.eq_of_length ((sort_perm ds).filter _).length_eq.symm).symm

theorem hasErrors_iff (ds : Diagnostics) : ds.hasErrors = true ↔ 0 < ds.errorCount := by
  rw [hasErrors, errorCount, List.any_eq_true, List.countP_pos_iff]

end Diagnostics

/-! ## Files -/

theorem Diagnostic.ofExpected_error (place : Location) (kind : TokenKind) :
    (ofExpected place kind).location = place ∧ (ofExpected place kind).category = .error := by
  unfold ofExpected
  split <;> exact ⟨rfl, rfl⟩

/-- The error of a file is in the file. -/
theorem SourceError.toDiagnostic_error (e : SourceError) (file : String) (source : Text) :
    (e.toDiagnostic file source).location.file? = some file ∧
      (e.toDiagnostic file source).category = .error := by
  cases e with
  | lexical e => cases e <;> exact ⟨rfl, rfl⟩
  | syntactic e =>
    have expected (kind : TokenKind) :=
      Diagnostic.ofExpected_error (.ofSpan file (.ofText source) e.span) kind
    rcases e with ⟨kind, _⟩ | _ | ⟨_ | kind, _⟩ | ⟨kind, _⟩ | _ | _ | _ | _ | _
    all_goals first
      | exact ⟨rfl, rfl⟩
      | exact ⟨congrArg Location.file? (expected kind).1, (expected kind).2⟩

namespace SourceFile

/-- What a file adds to a compilation: nothing if it holds statements, a warning without a span if
it holds none, the error that it is read with otherwise. -/
inductive Reports (strict : Bool) (file : SourceFile) : List Diagnostic → Prop
  | nothing {p : Program} : parse strict file.text = .ok p → p.statements ≠ [] →
    Reports strict file []
  | warning {p : Program} {d : Diagnostic} : parse strict file.text = .ok p → p.statements = [] →
    d = .make (.file file.name) .noStatements [file.name] → d.category = .warning →
    d.location.span? = none → Reports strict file [d]
  | error {e : SourceError} {d : Diagnostic} : parse strict file.text = .error e →
    d = e.toDiagnostic file.name file.text → d.category = .error → Reports strict file [d]

variable {strict : Bool} {file : SourceFile}

theorem reports_diagnostic? (file : SourceFile) (strict : Bool) :
    file.Reports strict (file.diagnostic? strict).toList := by
  unfold diagnostic?
  cases parsed : parse strict file.text with
  | ok p =>
    dsimp only
    split
    · next empty => exact .warning parsed (List.isEmpty_iff.1 empty) rfl rfl rfl
    · next some => exact .nothing parsed (by simpa using some)
  | error e => exact .error parsed rfl (e.toDiagnostic_error _ _).2

theorem file?_of_diagnostic? {d : Diagnostic} (h : file.diagnostic? strict = some d) :
    d.location.file? = some file.name := by
  have reports := reports_diagnostic? file strict
  rw [h] at reports
  cases reports with
  | warning _ _ eq => rw [eq]; rfl
  | @error e _ _ eq => rw [eq]; exact (e.toDiagnostic_error _ _).1

theorem isError_diagnostic? (file : SourceFile) (strict : Bool) :
    ((file.diagnostic? strict).map Diagnostic.isError).getD false =
      !(parse strict file.text).isOk := by
  have reports := reports_diagnostic? file strict
  generalize file.diagnostic? strict = d? at reports
  cases d? with
  | none =>
    cases reports with
    | nothing parsed => rw [parsed]; rfl
  | some d =>
    rw [Option.map_some, Option.getD_some, Diagnostic.isError]
    cases reports with
    | warning parsed _ _ category => rw [parsed, category]; rfl
    | error failed _ category => rw [failed, category]; rfl

end SourceFile

section

variable {options : CompilerOptions} {files files' : List SourceFile}

theorem compile_perm (options : CompilerOptions) (files : List SourceFile) :
    (compile options files).Perm (files.filterMap (SourceFile.diagnostic? options.isStrict)) :=
  Diagnostics.sort_perm _

theorem mem_compile {d : Diagnostic} : d ∈ compile options files ↔
    ∃ file ∈ files, file.diagnostic? options.isStrict = some d := by
  rw [(compile_perm options files).mem_iff, List.mem_filterMap]

theorem errorCount_compile (options : CompilerOptions) (files : List SourceFile) :
    (compile options files).errorCount =
      files.countP fun file => !(parse options.isStrict file.text).isOk := by
  rw [Diagnostics.errorCount, (compile_perm options files).countP_eq, List.countP_filterMap]
  simp only [SourceFile.isError_diagnostic?]

/-- Files with different names are told apart by the keys of what they report. -/
theorem eq_of_key_eq (names : (files.map (·.name)).Nodup) {a b : Diagnostic}
    (ha : a ∈ compile options files) (hb : b ∈ compile options files) (same : a.key = b.key) :
    a = b := by
  obtain ⟨f, hf, fa⟩ := mem_compile.1 ha
  obtain ⟨g, hg, gb⟩ := mem_compile.1 hb
  have file : a.fileKey = b.fileKey := congrArg (fun k => (ofLex k).1) same
  rw [Diagnostic.fileKey_eq_iff, SourceFile.file?_of_diagnostic? fa,
    SourceFile.file?_of_diagnostic? gb] at file
  obtain rfl : f = g := List.inj_on_of_nodup_map names hf hg (Option.some.inj file)
  exact Option.some.inj (fa.symm.trans gb)

theorem compile_congr (perm : files'.Perm files) (names : (files.map (·.name)).Nodup) :
    compile options files' = compile options files := by
  have all : (compile options files').Perm (compile options files) :=
    (compile_perm options files').trans
      ((perm.filterMap _).trans (compile_perm options files).symm)
  apply List.Perm.eq_of_pairwise _ (Diagnostics.sort_pairwise _) (Diagnostics.sort_pairwise _) all
  intro a b ha hb le ge
  exact eq_of_key_eq names (all.mem_iff.1 ha) hb (le_antisymm le ge)

end

/-- A compilation reports each file once: what it returns is what the files add, in the order of the
names' bytes and then of the starts of spans, and diagnostics that agree in both are in the order of
their files. It counts the files that fail as errors. If the names of the files differ, the order of
the files does not matter. -/
theorem compile_reports (options : CompilerOptions) (files : List SourceFile) :
    (∃ reports : List (List Diagnostic),
      List.Forall₂ (fun file report => file.Reports options.isStrict report) files reports ∧
      (compile options files).Perm reports.flatten ∧
      ∀ key, (compile options files).filter (·.key = key) =
        reports.flatten.filter (·.key = key)) ∧
    (compile options files).Pairwise (fun a b => a.key ≤ b.key) ∧
    (compile options files).errorCount =
      files.countP (fun file => !(parse options.isStrict file.text).isOk) ∧
    ((compile options files).hasErrors = true ↔ 0 < (compile options files).errorCount) ∧
    ∀ files' : List SourceFile, files'.Perm files → (files.map (·.name)).Nodup →
      compile options files' = compile options files := by
  let report (file : SourceFile) := (file.diagnostic? options.isStrict).toList
  have all : files.filterMap (SourceFile.diagnostic? options.isStrict) =
      (files.map report).flatten := List.filterMap_eq_flatMap_toList _ _
  refine ⟨⟨files.map report, ?_, ?_, fun key => ?_⟩, Diagnostics.sort_pairwise _,
    errorCount_compile options files, Diagnostics.hasErrors_iff _,
    fun files' perm names => compile_congr perm names⟩
  · rw [List.forall₂_map_right_iff, List.forall₂_same]
    exact fun file _ => file.reports_diagnostic? options.isStrict
  · rw [← all]
    exact compile_perm options files
  · rw [← all]
    exact Diagnostics.filter_sort _ key

/-- One file is empty, and in the other one a string is not closed. -/
theorem compile_reports_swapped :
    ∃ a b : SourceFile, a.name < b.name ∧ [a, b].Perm [b, a] ∧ ([b, a].map (·.name)).Nodup ∧
      compile .default [a, b] = compile .default [b, a] ∧
      (compile .default [b, a]).errorCount = 1 ∧ (compile .default [b, a]).hasErrors = true := by
  let a : SourceFile := ⟨"a.js", []⟩
  let b : SourceFile := ⟨"b.js", ['\'']⟩
  have perm : [a, b].Perm [b, a] := .swap b a []
  have names : ([b, a].map (·.name)).Nodup := by decide
  obtain ⟨_, _, count, errors, congr⟩ := compile_reports .default [b, a]
  have one : (compile .default [b, a]).errorCount = 1 := count.trans rfl
  exact ⟨a, b, by decide, perm, names, congr _ perm names, one, errors.2 (by omega)⟩

end EcmaFront
