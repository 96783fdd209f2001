import EcmaFront.Command.Arguments
import Mathlib.Data.List.Basic

/-!
# Command lines

A command line that compiles something is a list of items, each of which is spelled with one or two
words. All items after the words `--` are files.

* `Spelled`: how items are spelled.
* `parse_eq_compile_iff`: the command lines that are read as requests, and the requests.
-/

namespace EcmaFront.Command

/-- What a command line gives. -/
inductive Item where
  | strict
  | tokens
  | tree
  | verbose
  | project (path : String)
  | file (name : String)
  deriving DecidableEq

namespace Item

def file? : Item → Option String
  | .file name => some name
  | _ => none

def project? : Item → Option String
  | .project path => some path
  | _ => none

/-- The option for more logging, written with one letter for each time that it is given. -/
def IsLetters (letters : List Char) : Prop := ∀ c ∈ letters, c = 'v'

/-- The word is the option for the project, whose path is the next word. One-letter options may
stand in front of the letter. -/
def AwaitsPath (w : String) : Prop :=
  w = "--project" ∨ ∃ vs, IsLetters vs ∧ w.toList = '-' :: (vs ++ ['p'])

/-- The words for an item. -/
inductive Spells : Item → List String → Prop
  | strict : Spells .strict ["--strict"]
  | tokens : Spells .tokens ["--tokens"]
  | tree : Spells .tree ["--ast"]
  | verbose : Spells .verbose ["--verbose"]
  | letters {w : String} {vs : List Char} : IsLetters vs → vs ≠ [] → w.toList = '-' :: vs →
    Spells .verbose [w]
  | nextWord {w path : String} : AwaitsPath w → looksLikeOption path = false → path ≠ "" →
    Spells (.project path) [w, path]
  | equals {w path : String} : w.toList = "--project=".toList ++ path.toList → path ≠ "" →
    Spells (.project path) [w]
  | letterEquals {w path : String} {vs : List Char} : IsLetters vs →
    w.toList = '-' :: (vs ++ 'p' :: '=' :: path.toList) → path ≠ "" → Spells (.project path) [w]
  | letter {w path : String} {vs : List Char} : IsLetters vs →
    w.toList = '-' :: (vs ++ 'p' :: path.toList) → path.toList.head? ≠ some '=' → path ≠ "" →
    Spells (.project path) [w]
  | file {name : String} : looksLikeOption name = false → name ≠ "" → Spells (.file name) [name]

end Item

/-- The words of a command line. -/
inductive Spelled : List Item → List String → Prop
  | nil : Spelled [] []
  | cons {item : Item} {items : List Item} {ws words : List String} : item.Spells ws →
    Spelled items words → Spelled (item :: items) (ws ++ words)
  | files {names : List String} : (∀ name ∈ names, name ≠ "") →
    Spelled (names.map .file) ("--" :: names)

/-- No item is given twice that may be given once only. -/
structure AtMostOnce (items : List Item) : Prop where
  strict : items.count .strict ≤ 1
  tokens : items.count .tokens ≤ 1
  tree : items.count .tree ≤ 1
  project : (items.filterMap Item.project?).length ≤ 1

/-- What the items ask for. -/
def Request.ofItems (items : List Item) : Request where
  files := items.filterMap Item.file?
  project? := (items.filterMap Item.project?).head?
  strict := decide (.strict ∈ items)
  tokens := decide (.tokens ∈ items)
  tree := decide (.tree ∈ items)

/-! ## Items one after the other -/

namespace Request

/-- The request with one more item. -/
def add (r : Request) : Item → Except UsageError Request
  | .strict => r.setStrict
  | .tokens => r.setTokens
  | .tree => r.setTree
  | .verbose => .ok r
  | .project path => r.setProject path
  | .file name => r.addFile name

variable {r r' : Request}

theorem setStrict_eq_ok : r.setStrict = .ok r' ↔
    r.strict = false ∧ { r with strict := true } = r' := by
  unfold setStrict
  cases r.strict <;> simp

theorem setTokens_eq_ok : r.setTokens = .ok r' ↔
    r.tokens = false ∧ { r with tokens := true } = r' := by
  unfold setTokens
  cases r.tokens <;> simp

theorem setTree_eq_ok : r.setTree = .ok r' ↔ r.tree = false ∧ { r with tree := true } = r' := by
  unfold setTree
  cases r.tree <;> simp

theorem setProject_eq_ok {path : String} : r.setProject path = .ok r' ↔
    path ≠ "" ∧ r.project? = none ∧ { r with project? := some path } = r' := by
  unfold setProject
  cases r.project? <;> by_cases empty : path = "" <;> simp [empty]

theorem addFile_eq_ok {name : String} : r.addFile name = .ok r' ↔
    name ≠ "" ∧ { r with files := r.files ++ [name] } = r' := by
  unfold addFile
  by_cases empty : name = "" <;> simp [empty]

/-- What both requests together ask for, the files of `r` first. -/
def join (r r' : Request) : Request where
  files := r.files ++ r'.files
  project? := r.project?.or r'.project?
  strict := r.strict || r'.strict
  tokens := r.tokens || r'.tokens
  tree := r.tree || r'.tree

/-- The items may be given after those of the request. -/
structure Admits (r : Request) (items : List Item) : Prop where
  strict : r.strict.toNat + items.count .strict ≤ 1
  tokens : r.tokens.toNat + items.count .tokens ≤ 1
  tree : r.tree.toNat + items.count .tree ≤ 1
  project : r.project?.toList.length + (items.filterMap Item.project?).length ≤ 1

end Request

/-- A path or name is not empty. -/
def Item.IsNamed : Item → Prop
  | .project path => path ≠ ""
  | .file name => name ≠ ""
  | _ => True

namespace Request

variable {r r' : Request} {items : List Item}

theorem bind_eq_ok {α β : Type} {x : Except UsageError α} {f : α → Except UsageError β} {b : β} :
    (x >>= f) = .ok b ↔ ∃ a, x = .ok a ∧ f a = .ok b := by
  cases x with
  | error e => simp [bind, Except.bind]
  | ok a => simp [bind, Except.bind]

theorem join_empty (r : Request) : r.join (.ofItems []) = r := by
  simp [join, ofItems]

theorem join_assoc (r r' r'' : Request) : (r.join r').join r'' = r.join (r'.join r'') := by
  simp [join, Option.or_assoc, Bool.or_assoc]

theorem ofItems_cons (item : Item) (items : List Item) :
    ofItems (item :: items) = (ofItems [item]).join (ofItems items) := by
  cases item <;> simp [ofItems, join, Item.file?, Item.project?, List.filterMap_cons]

theorem admits_iff : r.Admits items ↔ r.strict.toNat + items.count .strict ≤ 1 ∧
    r.tokens.toNat + items.count .tokens ≤ 1 ∧ r.tree.toNat + items.count .tree ≤ 1 ∧
    r.project?.toList.length + (items.filterMap Item.project?).length ≤ 1 :=
  ⟨fun h => ⟨h.strict, h.tokens, h.tree, h.project⟩, fun h => ⟨h.1, h.2.1, h.2.2.1, h.2.2.2⟩⟩

theorem admits_nil (r : Request) : r.Admits [] := by
  rw [admits_iff]
  have := r.strict.toNat_le
  have := r.tokens.toNat_le
  have := r.tree.toNat_le
  cases r.project? <;> simp <;> omega

theorem add_eq_ok {item : Item} : r.add item = .ok r' ↔
    item.IsNamed ∧ r.Admits [item] ∧ r' = r.join (.ofItems [item]) := by
  obtain ⟨files, project?, strict, tokens, tree⟩ := r
  have bounds := admits_iff.1 (admits_nil ⟨files, project?, strict, tokens, tree⟩)
  simp only [admits_iff, Item.IsNamed, ofItems, join, List.filterMap_cons, List.filterMap_nil]
  cases item with
  | strict =>
    rw [add, setStrict_eq_ok]
    cases strict <;> simp_all [Item.file?, Item.project?, eq_comm]
  | tokens =>
    rw [add, setTokens_eq_ok]
    cases tokens <;> simp_all [Item.file?, Item.project?, eq_comm]
  | tree =>
    rw [add, setTree_eq_ok]
    cases tree <;> simp_all [Item.file?, Item.project?, eq_comm]
  | verbose => simp_all [add, Item.file?, Item.project?, eq_comm]
  | project path =>
    rw [add, setProject_eq_ok]
    cases project? <;> simp_all [Item.file?, Item.project?, eq_comm]
  | file name =>
    rw [add, addFile_eq_ok]
    simp_all [Item.file?, Item.project?, eq_comm]

/-- A flag is given at most once, if it is not given again after the first item. -/
theorem flag_cons (flag : Bool) (a item : Item) (items : List Item) :
    flag.toNat + (item :: items).count a ≤ 1 ↔ flag.toNat + [item].count a ≤ 1 ∧
      (flag || decide (a ∈ [item])).toNat + items.count a ≤ 1 := by
  by_cases same : item = a
  · subst same
    rw [List.count_cons_self, List.count_cons_self, List.count_nil,
      decide_eq_true (List.mem_singleton_self item), Bool.or_true, Bool.toNat_true]
    omega
  · have absent : a ∉ [item] := fun mem => same (List.mem_singleton.1 mem).symm
    rw [List.count_cons_of_ne same, List.count_cons_of_ne same, List.count_nil,
      decide_eq_false absent, Bool.or_false]
    omega

theorem project_cons (project? : Option String) (item : Item) (items : List Item) :
    project?.toList.length + ((item :: items).filterMap Item.project?).length ≤ 1 ↔
      project?.toList.length + ([item].filterMap Item.project?).length ≤ 1 ∧
        (project?.or ([item].filterMap Item.project?).head?).toList.length +
          (items.filterMap Item.project?).length ≤ 1 := by
  rw [List.filterMap_cons, List.filterMap_cons, List.filterMap_nil]
  cases item.project? with
  | none =>
    have := Option.length_toList_le (o := project?)
    simp only [List.length_nil, List.head?_nil, Option.or_none]
    omega
  | some path =>
    cases project? with
    | none =>
      simp only [Option.toList_none, Option.toList_some, Option.none_or, List.head?_cons,
        List.length_nil, List.length_cons]
      omega
    | some other =>
      simp only [Option.toList_some, Option.some_or, List.length_nil, List.length_cons]
      omega

/-- An item is given after those of a request, and the others after all of these. -/
theorem admits_cons {item : Item} : r.Admits (item :: items) ↔
    r.Admits [item] ∧ (r.join (.ofItems [item])).Admits items := by
  rw [admits_iff, admits_iff, admits_iff, flag_cons r.strict .strict item items,
    flag_cons r.tokens .tokens item items, flag_cons r.tree .tree item items,
    project_cons r.project? item items]
  constructor
  · rintro ⟨⟨strict, strict'⟩, ⟨tokens, tokens'⟩, ⟨tree, tree'⟩, ⟨project, project'⟩⟩
    exact ⟨⟨strict, tokens, tree, project⟩, strict', tokens', tree', project'⟩
  · rintro ⟨⟨strict, tokens, tree, project⟩, strict', tokens', tree', project'⟩
    exact ⟨⟨strict, strict'⟩, ⟨tokens, tokens'⟩, ⟨tree, tree'⟩, ⟨project, project'⟩⟩

theorem foldlM_add_eq_ok : items.foldlM add r = .ok r' ↔
    (∀ item ∈ items, item.IsNamed) ∧ r.Admits items ∧ r' = r.join (.ofItems items) := by
  induction items generalizing r with
  | nil =>
    rw [join_empty]
    simp [pure, Except.pure, admits_nil, eq_comm]
  | cons item items ih =>
    rw [List.foldlM_cons, bind_eq_ok, ofItems_cons, ← join_assoc, admits_cons,
      List.forall_mem_cons]
    constructor
    · rintro ⟨r₁, added, more⟩
      obtain ⟨named, admits, rfl⟩ := add_eq_ok.1 added
      obtain ⟨allNamed, allAdmits, eq⟩ := ih.1 more
      exact ⟨⟨named, allNamed⟩, ⟨admits, allAdmits⟩, eq⟩
    · rintro ⟨⟨named, allNamed⟩, ⟨admits, allAdmits⟩, eq⟩
      exact ⟨_, add_eq_ok.2 ⟨named, admits, rfl⟩, ih.2 ⟨allNamed, allAdmits, eq⟩⟩

end Request

/-! ## Words -/

variable {r r' : Request} {w : String}

theorem letters_append {vs : List Char} (h : Item.IsLetters vs) (r : Request) (rest : List Char) :
    letters r (vs ++ rest) = letters r rest := by
  induction vs with
  | nil => rfl
  | cons c vs ih =>
    obtain rfl := h c List.mem_cons_self
    exact ih fun d mem => h d (List.mem_cons_of_mem _ mem)

theorem word_letters {rest : List Char} {c : Char} {cs : List Char} (eq : w.toList = '-' :: rest)
    (first : rest = c :: cs) (notDash : c ≠ '-') (r : Request) : word r w = letters r rest := by
  subst first
  unfold word
  rw [eq]
  split <;> simp_all

theorem looksLikeOption_eq_true_iff :
    looksLikeOption w = true ↔ ∃ c cs, w.toList = '-' :: c :: cs := by
  unfold looksLikeOption
  split
  · next c cs same => simp [same]
  · next other => simpa using fun c cs => other c cs

theorem word_file (h : looksLikeOption w = false) (r : Request) :
    word r w = (r.addFile w).map .change := by
  have notOption : ∀ c cs, w.toList ≠ '-' :: c :: cs := fun c cs same =>
    Bool.eq_false_iff.1 h (looksLikeOption_eq_true_iff.2 ⟨c, cs, same⟩)
  unfold word
  split
  · next same => exact absurd same (notOption _ _)
  · rfl
  · next rest _ alone same =>
    obtain ⟨c, cs, rfl⟩ := List.exists_cons_of_ne_nil alone
    exact absurd same (notOption c cs)
  · rfl

/-- The first letter of an option. -/
theorem first_letter {vs : List Char} (h : Item.IsLetters vs) (rest : List Char) :
    ∃ c cs, vs ++ 'p' :: rest = c :: cs ∧ c ≠ '-' := by
  cases vs with
  | nil => exact ⟨'p', rest, rfl, by decide⟩
  | cons c vs => exact ⟨c, vs ++ 'p' :: rest, rfl, by rw [h c List.mem_cons_self]; decide⟩

theorem map_change (x : Except UsageError Request) :
    (do return Effect.change (← x)) = x.map .change := by
  cases x <;> rfl

theorem change_eq_ok {x : Except UsageError Request} {effect : Effect} :
    (do return Effect.change (← x)) = .ok effect ↔ ∃ r', x = .ok r' ∧ .change r' = effect := by
  cases x <;> simp [bind, Except.bind, pure, Except.pure]

theorem letters_path {path : String} (named : path ≠ "") (notEquals : path.toList.head? ≠ some '=')
    (r : Request) : letters r ('p' :: path.toList) = (r.setProject path).map .change := by
  have same : String.ofList path.toList = path := String.ofList_toList
  have nonempty : path.toList ≠ [] := mt String.toList_eq_nil_iff.1 named
  generalize path.toList = cs at same notEquals nonempty
  rw [← same]
  cases cs with
  | nil => exact absurd rfl nonempty
  | cons c cs =>
    have notEquals : c ≠ '=' := by simpa using notEquals
    have step : letters r ('p' :: c :: cs) =
        (do return .change (← r.setProject (String.ofList (c :: cs)))) := by
      simp [letters, notEquals]
    rw [step]
    exact map_change _

theorem longOption_project (path : String) (r : Request) :
    longOption r ("project=".toList ++ path.toList) = (r.setProject path).map .change := by
  have name : List.takeWhile (· != '=') ("project=".toList ++ path.toList) = "project".toList := by
    simp
  have value :
      List.dropWhile (· != '=') ("project=".toList ++ path.toList) = '=' :: path.toList := by
    simp
  unfold longOption
  rw [name, value]
  dsimp only
  rw [String.ofList_toList, String.ofList_toList, assigned, if_pos rfl]
  exact map_change _

theorem word_of_awaitsPath (h : Item.AwaitsPath w) (r : Request) : word r w = .ok .needsPath := by
  obtain rfl | ⟨vs, isLetters, eq⟩ := h
  · rfl
  · obtain ⟨c, cs, first, notDash⟩ := first_letter isLetters []
    rw [word_letters eq first notDash, letters_append isLetters]
    rfl

theorem word_of_spells {item : Item} (h : item.Spells [w]) (r : Request) :
    word r w = (r.add item).map .change := by
  generalize eq : [w] = ws at h
  cases h with
  | strict | tokens | tree | verbose =>
    obtain rfl := List.singleton_inj.1 eq
    rfl
  | @letters _ vs isLetters some eq' =>
    obtain rfl := List.singleton_inj.1 eq
    obtain ⟨c, cs, rfl⟩ := List.exists_cons_of_ne_nil some
    have notDash : c ≠ '-' := by
      rw [isLetters c List.mem_cons_self]
      decide
    rw [word_letters eq' rfl notDash, ← List.append_nil (c :: cs), letters_append isLetters]
    rfl
  | nextWord => simp at eq
  | @equals _ path eq' named =>
    obtain rfl := List.singleton_inj.1 eq
    have long : word r w = longOption r ("project=".toList ++ path.toList) := by
      unfold word
      rw [eq']
      rfl
    rw [long, longOption_project]
    rfl
  | @letterEquals _ path vs isLetters eq' named =>
    obtain rfl := List.singleton_inj.1 eq
    obtain ⟨c, cs, first, notDash⟩ := first_letter isLetters ('=' :: path.toList)
    rw [word_letters eq' first notDash, letters_append isLetters]
    simp only [letters, String.ofList_toList]
    rfl
  | @letter _ path vs isLetters eq' notEquals named =>
    obtain rfl := List.singleton_inj.1 eq
    obtain ⟨c, cs, first, notDash⟩ := first_letter isLetters path.toList
    rw [word_letters eq' first notDash, letters_append isLetters]
    rw [letters_path named notEquals]
    rfl
  | file notOption named =>
    obtain rfl := List.singleton_inj.1 eq
    exact word_file notOption r

/-- What a word does that is no item for itself. -/
inductive WordEffect (r : Request) (w : String) : Effect → Prop
  | item {item : Item} {r' : Request} : item.Spells [w] → r.add item = .ok r' →
    WordEffect r w (.change r')
  | awaits : Item.AwaitsPath w → WordEffect r w .needsPath
  | help : WordEffect r w (.decide .help)
  | version : WordEffect r w (.decide .version)

theorem effect_of_letters {rest vs : List Char} {effect : Effect} (isLetters : Item.IsLetters vs)
    (eq : w.toList = '-' :: (vs ++ rest)) (some : vs ++ rest ≠ [])
    (ok : letters r rest = .ok effect) : WordEffect r w effect := by
  induction rest generalizing vs with
  | nil =>
    obtain rfl := Except.ok.inj ok
    rw [List.append_nil] at eq some
    exact .item (.letters isLetters some eq) rfl
  | cons c rest ih =>
    unfold letters at ok
    split at ok
    · next empty => cases empty
    · next same =>
      obtain ⟨rfl, rfl⟩ := List.cons.inj same
      have isLetters : Item.IsLetters (vs ++ ['v']) := by
        intro d mem
        obtain mem | rfl : d ∈ vs ∨ d = 'v' := by simpa using mem
        · exact isLetters d mem
        · rfl
      exact ih isLetters (by simpa using eq) (by simp) ok
    · obtain rfl := Except.ok.inj ok
      exact .version
    · obtain rfl := Except.ok.inj ok
      exact .help
    · next same =>
      obtain ⟨rfl, rfl⟩ := List.cons.inj same
      obtain rfl := Except.ok.inj ok
      exact .awaits (.inr ⟨vs, isLetters, eq⟩)
    · next value same =>
      obtain ⟨rfl, rfl⟩ := List.cons.inj same
      obtain ⟨r', set, rfl⟩ := change_eq_ok.1 ok
      have named := (Request.setProject_eq_ok.1 set).1
      exact .item (.letterEquals isLetters (by rw [eq, String.toList_ofList]) named) set
    · next value notEmpty notEquals same =>
      obtain ⟨rfl, rfl⟩ := List.cons.inj same
      obtain ⟨r', set, rfl⟩ := change_eq_ok.1 ok
      have named := (Request.setProject_eq_ok.1 set).1
      refine .item (.letter isLetters (by rw [eq, String.toList_ofList]) ?_ named) set
      rw [String.toList_ofList]
      intro head
      obtain ⟨value, rfl⟩ := List.head?_eq_some_iff.1 head
      exact notEquals value rfl
    · cases ok

/-- A long option without a value. -/
theorem effect_of_flag {name : String} {effect : Effect} (eq : w = "--" ++ name)
    (ok : flag r name = .ok effect) : WordEffect r w effect := by
  subst eq
  unfold flag at ok
  split at ok
  · obtain ⟨r', set, rfl⟩ := change_eq_ok.1 ok
    exact .item .strict set
  · obtain ⟨r', set, rfl⟩ := change_eq_ok.1 ok
    exact .item .tokens set
  · obtain ⟨r', set, rfl⟩ := change_eq_ok.1 ok
    exact .item .tree set
  · obtain rfl := Except.ok.inj ok
    exact .item .verbose rfl
  · obtain rfl := Except.ok.inj ok
    exact .version
  · obtain rfl := Except.ok.inj ok
    exact .help
  · obtain rfl := Except.ok.inj ok
    exact .awaits (.inl rfl)
  · cases ok

theorem effect_of_longOption {option : List Char} {effect : Effect}
    (eq : w.toList = '-' :: '-' :: option) (ok : longOption r option = .ok effect) :
    WordEffect r w effect := by
  have split_eq : option.takeWhile (· != '=') ++ option.dropWhile (· != '=') = option :=
    List.takeWhile_append_dropWhile
  unfold longOption at ok
  dsimp only at ok
  split at ok
  · next c value rest =>
    have isEquals : c = '=' := by
      have stop := List.head?_dropWhile_not (· != '=') option
      rw [rest] at stop
      simpa using stop
    unfold assigned at ok
    split at ok
    · next isProject =>
      obtain ⟨r', set, rfl⟩ := change_eq_ok.1 ok
      have named := (Request.setProject_eq_ok.1 set).1
      refine .item (.equals ?_ named) set
      have name := congrArg String.toList isProject
      rw [String.toList_ofList] at name
      rw [eq, ← split_eq, rest, name, isEquals, String.toList_ofList]
      simp
    · split at ok <;> cases ok
  · next rest =>
    rw [rest, List.append_nil] at split_eq
    rw [split_eq] at ok
    refine effect_of_flag (String.toList_inj.1 ?_) ok
    rw [eq, String.toList_append, String.toList_ofList, String.toList_ofList]
    rfl

theorem effect_of_word {effect : Effect} (ok : word r w = .ok effect) : WordEffect r w effect := by
  have file (notOption : looksLikeOption w = false)
      (ok : (do return Effect.change (← r.addFile w)) = .ok effect) : WordEffect r w effect := by
    obtain ⟨r', added, rfl⟩ := change_eq_ok.1 ok
    exact .item (.file notOption (Request.addFile_eq_ok.1 added).1) added
  unfold word at ok
  split at ok
  · next eq => exact effect_of_longOption eq ok
  · next eq =>
    refine file ?_ ok
    unfold looksLikeOption
    rw [eq]
    rfl
  · next rest notLong notAlone eq =>
    have some : rest ≠ [] := notAlone
    have noLetters : Item.IsLetters [] := nofun
    exact effect_of_letters noLetters eq some ok
  · next notLong notAlone notShort =>
    refine file (Bool.eq_false_iff.2 fun looks => ?_) ok
    obtain ⟨c, cs, eq⟩ := looksLikeOption_eq_true_iff.1 looks
    exact notShort _ eq

/-! ## Command lines -/

theorem Item.Spells.isNamed {item : Item} {ws : List String} (h : item.Spells ws) :
    item.IsNamed := by
  cases h with
  | strict | tokens | tree | verbose | letters => trivial
  | nextWord _ _ named | equals _ named | letterEquals _ _ named | letter _ _ _ named
  | file _ named => exact named

/-- An item is one word, or the path of the project behind an option that awaits it. -/
theorem Item.Spells.cases {item : Item} {ws : List String} (h : item.Spells ws) :
    (∃ w, ws = [w]) ∨ ∃ w path, ws = [w, path] ∧ item = .project path ∧ AwaitsPath w ∧
      looksLikeOption path = false := by
  cases h with
  | nextWord awaits notOption => exact .inr ⟨_, _, rfl, rfl, awaits, notOption⟩
  | _ => exact .inl ⟨_, rfl⟩

theorem Request.add_empty {item : Item} (named : item.IsNamed) : ∃ r, empty.add item = .ok r := by
  cases item with
  | strict | tokens | tree | verbose => exact ⟨_, rfl⟩
  | project path => exact ⟨_, setProject_eq_ok.2 ⟨named, rfl, rfl⟩⟩
  | file name => exact ⟨_, addFile_eq_ok.2 ⟨named, rfl⟩⟩

/-- Two dashes alone are no option. -/
theorem word_dashes (r : Request) : word r "--" = .error (.unknownOption "--") := rfl

theorem ne_dashes_of_awaitsPath (h : Item.AwaitsPath w) : w ≠ "--" := by
  rintro rfl
  have awaits := word_of_awaitsPath h .empty
  rw [word_dashes] at awaits
  cases awaits

theorem ne_dashes_of_spells {item : Item} (h : item.Spells [w]) : w ≠ "--" := by
  rintro rfl
  have spells := word_of_spells h .empty
  obtain ⟨r, added⟩ := Request.add_empty h.isNamed
  rw [word_dashes, added] at spells
  cases spells

theorem addFiles_eq_foldlM (names : List String) (r : Request) :
    r.addFiles names = (names.map Item.file).foldlM Request.add r := by
  induction names generalizing r with
  | nil => rfl
  | cons name names ih =>
    rw [Request.addFiles, List.map_cons, List.foldlM_cons]
    exact bind_congr fun r₁ => ih r₁

theorem parseFrom_dashes (r : Request) (names : List String) :
    parseFrom r ("--" :: names) = (r.addFiles names).map .compile := by
  unfold parseFrom
  rw [if_pos rfl]
  cases r.addFiles names <;> rfl

theorem parseFrom_change (notDashes : w ≠ "--") (h : word r w = .ok (.change r'))
    (words : List String) : parseFrom r (w :: words) = parseFrom r' words := by
  conv => lhs; unfold parseFrom
  rw [if_neg notDashes, h]
  rfl

theorem parseFrom_error {e : UsageError} (notDashes : w ≠ "--") (h : word r w = .error e)
    (words : List String) : parseFrom r (w :: words) = .error e := by
  unfold parseFrom
  rw [if_neg notDashes, h]
  rfl

theorem parseFrom_decide {invocation : Invocation} (notDashes : w ≠ "--")
    (h : word r w = .ok (.decide invocation)) (words : List String) :
    parseFrom r (w :: words) = .ok invocation := by
  unfold parseFrom
  rw [if_neg notDashes, h]
  rfl

theorem parseFrom_path {path : String} (notDashes : w ≠ "--") (h : word r w = .ok .needsPath)
    (notOption : looksLikeOption path = false) (words : List String) :
    parseFrom r (w :: path :: words) = r.setProject path >>= (parseFrom · words) := by
  conv => lhs; unfold parseFrom
  rw [if_neg notDashes, h]
  exact if_neg (Bool.eq_false_iff.1 notOption)

/-- An option that awaits a path is followed by one, or the command line is refused. -/
theorem path_of_awaits {invocation : Invocation} {words : List String} (notDashes : w ≠ "--")
    (h : word r w = .ok .needsPath) (ok : parseFrom r (w :: words) = .ok invocation) :
    ∃ path more, words = path :: more ∧ looksLikeOption path = false := by
  unfold parseFrom at ok
  rw [if_neg notDashes, h] at ok
  cases words with
  | nil => cases ok
  | cons path more =>
    refine ⟨path, more, rfl, Bool.eq_false_iff.2 fun isOption => ?_⟩
    have refused : (Except.error (.missingValue "--project") : Except UsageError Invocation) =
        .ok invocation := (if_pos isOption).symm.trans ok
    cases refused

theorem parseFrom_of_spelled {items : List Item} {words : List String} (h : Spelled items words)
    (r : Request) : parseFrom r words = (items.foldlM Request.add r).map .compile := by
  induction h generalizing r with
  | nil =>
    unfold parseFrom
    rfl
  | @files names named => rw [parseFrom_dashes, addFiles_eq_foldlM]
  | @cons item items ws words spells _ ih =>
    rw [List.foldlM_cons]
    obtain ⟨w, rfl⟩ | ⟨w, path, rfl, rfl, awaits, notOption⟩ := spells.cases
    · have found := word_of_spells spells r
      have notDashes := ne_dashes_of_spells spells
      cases added : r.add item with
      | error e =>
        rw [added] at found
        exact parseFrom_error notDashes found words
      | ok r' =>
        rw [added] at found
        exact (parseFrom_change notDashes found words).trans (ih r')
    · have found := word_of_awaitsPath awaits r
      have step := parseFrom_path (ne_dashes_of_awaitsPath awaits) found notOption words
      rw [List.cons_append, List.singleton_append, step, Request.add]
      cases r.setProject path with
      | error e => rfl
      | ok r' => exact ih r'

theorem spelled_of_parseFrom {words : List String} (ok : parseFrom r words = .ok (.compile r')) :
    ∃ items, Spelled items words ∧ items.foldlM Request.add r = .ok r' := by
  induction size : words.length using Nat.strongRecOn generalizing r words with
  | ind n ih =>
    subst size
    cases words with
    | nil =>
      unfold parseFrom at ok
      obtain ⟨rfl⟩ := Except.ok.inj ok
      exact ⟨[], .nil, rfl⟩
    | cons w words =>
      by_cases dashes : w = "--"
      · subst dashes
        rw [parseFrom_dashes, addFiles_eq_foldlM] at ok
        cases added : (words.map Item.file).foldlM Request.add r with
        | error e =>
          rw [added] at ok
          cases ok
        | ok r₁ =>
          rw [added] at ok
          obtain rfl := Invocation.compile.inj (Except.ok.inj ok)
          have named := (Request.foldlM_add_eq_ok.1 added).1
          refine ⟨_, .files fun name mem => ?_, added⟩
          exact named _ (List.mem_map_of_mem mem)
      · cases found : word r w with
        | error e =>
          rw [parseFrom_error dashes found] at ok
          cases ok
        | ok effect =>
          cases effect_of_word found with
          | @item item r₁ spells added =>
            rw [parseFrom_change dashes found] at ok
            obtain ⟨items, spelled, folded⟩ := ih _ (by simp) ok rfl
            refine ⟨item :: items, .cons spells spelled, ?_⟩
            rw [List.foldlM_cons, added]
            exact folded
          | awaits awaits =>
            obtain ⟨path, more, rfl, notOption⟩ := path_of_awaits dashes found ok
            rw [parseFrom_path dashes found notOption] at ok
            obtain ⟨r₁, set, ok⟩ := Request.bind_eq_ok.1 ok
            obtain ⟨items, spelled, folded⟩ := ih _ (by simp only [List.length_cons]; omega) ok rfl
            have named := (Request.setProject_eq_ok.1 set).1
            refine ⟨.project path :: items, .cons (.nextWord awaits notOption named) spelled, ?_⟩
            rw [List.foldlM_cons, Request.add, set]
            exact folded
          | help | version =>
            rw [parseFrom_decide dashes found] at ok
            cases ok

theorem Request.empty_admits_iff {items : List Item} : empty.Admits items ↔ AtMostOnce items := by
  rw [admits_iff]
  simp only [empty, Bool.toNat_false, Option.toList_none, List.length_nil, Nat.zero_add]
  exact ⟨fun h => ⟨h.1, h.2.1, h.2.2.1, h.2.2.2⟩, fun h => ⟨h.strict, h.tokens, h.tree, h.project⟩⟩

theorem Spelled.isNamed {items : List Item} {words : List String} (h : Spelled items words) :
    ∀ item ∈ items, item.IsNamed := by
  induction h with
  | nil => exact fun _ mem => absurd mem List.not_mem_nil
  | cons spells _ ih => exact List.forall_mem_cons.2 ⟨spells.isNamed, ih⟩
  | files named => exact List.forall_mem_map.2 named

/-- The command lines that are read as requests are the lists of items, each given at most once
unless it may be repeated, and the request is what the items ask for. -/
theorem parse_eq_compile_iff {arguments : List String} :
    parse arguments = .ok (.compile r) ↔
      ∃ items, Spelled items arguments ∧ AtMostOnce items ∧ r = .ofItems items := by
  have join (r : Request) : Request.empty.join r = r := by
    simp [Request.join, Request.empty]
  constructor
  · intro ok
    obtain ⟨items, spelled, folded⟩ := spelled_of_parseFrom ok
    obtain ⟨_, admits, eq⟩ := Request.foldlM_add_eq_ok.1 folded
    exact ⟨items, spelled, Request.empty_admits_iff.1 admits, eq.trans (join _)⟩
  · rintro ⟨items, spelled, once, rfl⟩
    have folded : items.foldlM Request.add .empty = .ok (.ofItems items) :=
      Request.foldlM_add_eq_ok.2
        ⟨spelled.isNamed, Request.empty_admits_iff.2 once, (join _).symm⟩
    rw [parse, parseFrom_of_spelled spelled, folded]
    rfl

end EcmaFront.Command
