import EcmaFront.Proofs.Token.Tiling

/-!
# Tokens of strict sources

Whether a source is strict plays a part for one thing only: the words that are reserved in strict
sources are identifiers elsewhere. `TokenKind.loosened` makes them so.

* `Front.read_loosened`: what a text starts with.
* `Lexer.all_loosened`: the tokens that are left, and the error otherwise.
* `scan_loosened`: the lexemes of a source.
* `scan_strict_kinds`: the tokens of both scans side by side, which differ at nine words.
-/

namespace EcmaFront

/-- The kind of the same text in a source that is not strict. -/
def TokenKind.loosened (kind : TokenKind) : TokenKind :=
  if kind.isStrictOnly then .identifier else kind

def Token.loosened (t : Token) : Token := ⟨t.kind.loosened, t.span⟩

def Lexeme.loosened (l : Lexeme) : Lexeme := ⟨l.kind.loosened, l.span, l.text⟩

namespace Spelling

theorem nameKind_loosened (word : Text) : nameKind false word = (nameKind true word).loosened := by
  unfold nameKind keyword?
  cases (keywords.find? (·.1.toList == word)).map (·.2) with
  | none => rfl
  | some k =>
    cases strictOnly : k.isStrictOnly <;>
      simp [Option.filter, TokenKind.loosened, TokenKind.isStrictOnly_eq, strictOnly]

theorem fitting?_loosened {t : Text} {row : String × TokenKind} (h : fitting? t = some row) :
    row.2.loosened = row.2 := by
  have all : ∀ row ∈ operators, row.2.loosened = row.2 := by decide +kernel
  exact all row (List.mem_of_find?_eq_some h)

end Spelling

def Front.loosened : Front → Front
  | .token kind text rest => .token kind.loosened text rest
  | front => front

theorem Front.read_loosened (c : Char) (cs : Text) : read false c cs = (read true c cs).loosened := by
  unfold read
  split
  · next op => simp only [loosened, Spelling.fitting?_loosened op]
  split
  · simp only [loosened, Spelling.nameKind_loosened]
  split
  · rfl
  split
  · unfold readString
    split <;> rfl
  · rfl

namespace Lexer

/-- The same place in a source that is not strict. -/
def loosened (s : Lexer) : Lexer := { s with strict := false }

theorem skipPieces_loosened (n : Nat) (s : Lexer) :
    skipPieces n s.loosened = (skipPieces n s).loosened := by
  induction n generalizing s with
  | zero => rfl
  | succ n ih =>
    simp only [skipPieces]
    rw [show s.loosened.rest = s.rest from rfl]
    split
    · exact ih (s.move ..)
    · rfl

theorem strict_skipTrivia (s : Lexer) : s.skipTrivia.strict = s.strict := by
  obtain ⟨gap, rest, _, _, skip, _⟩ := s.skipTrivia_eq
  rw [skip]
  rfl

theorem strict_next (s : Lexer) : s.next.2.strict = s.strict := by
  rw [← s.strict_skipTrivia]
  unfold next nextAfterTrivia
  split
  · rfl
  · split <;> rfl

theorem next_loosened {s : Lexer} (strict : s.strict = true) :
    s.loosened.next = (s.next.1.map (Option.map Token.loosened), s.next.2.loosened) := by
  have kept : s.skipTrivia.strict = true := s.strict_skipTrivia.trans strict
  have skip : s.loosened.skipTrivia = s.skipTrivia.loosened := skipPieces_loosened ..
  unfold next
  rw [skip]
  generalize s.skipTrivia = s at kept
  unfold nextAfterTrivia
  rw [show s.loosened.rest = s.rest from rfl]
  split
  · rfl
  · next c cs _ =>
    rw [show s.loosened.strict = false from rfl, kept, Front.read_loosened]
    cases Front.read true c cs <;> rfl

theorem all_loosened {s : Lexer} (strict : s.strict = true) :
    s.loosened.all = s.all.map (List.map Token.loosened) := by
  induction size : s.rest.length using Nat.strongRecOn generalizing s with
  | ind n ih =>
    have kept : s.next.2.strict = true := s.strict_next.trans strict
    rw [all_eq, all_eq s, next_loosened strict]
    cases step : s.next with
    | mk answer after =>
      rw [step] at kept
      match answer with
      | .error e => rfl
      | .ok none => rfl
      | .ok (some t) =>
        have shorter := length_lt_of_next step
        simp only [Except.map, Option.map]
        rw [ih _ (size ▸ shorter) kept rfl]
        cases after.all <;> rfl

end Lexer

/-- The text of a lexeme of a scanned source is the piece of source that its span denotes. -/
theorem slice_of_scan {strict : Bool} {source : Text} {tokens : TokenSequence}
    (h : scan strict source = .ok tokens) : ∀ t ∈ tokens.toList,
      t.span.slice source = some (tokens.text t) :=
  fun _ mem => (tiling_of_scan h).slice_eq [] rfl _ (List.mem_map_of_mem mem)

/-- Scanning a source that is not strict is scanning a strict one, with the words that are reserved
there as identifiers. -/
theorem scan_eq_map (source : Text) :
    scan false source = (scan true source).map fun tokens =>
      .ofList source (tokens.toList.map Token.loosened) := by
  have all := (Lexer.start true source).all_loosened rfl
  have start : (Lexer.start true source).loosened = .start false source := rfl
  rw [start] at all
  unfold scan
  rw [all]
  cases checkSize source with
  | error e => rfl
  | ok _ =>
    cases (Lexer.start true source).all with
    | error e => rfl
    | ok list => simp [bind, Except.bind, pure, Except.pure, Except.map]

/-- The texts are the same as well. -/
theorem text_loosened {source : Text} {tokens : TokenSequence} (h : scan true source = .ok tokens)
    {t : Token} (mem : t ∈ tokens.toList) :
    (TokenSequence.ofList source (tokens.toList.map Token.loosened)).text t.loosened =
      tokens.text t := by
  have both := scan_eq_map source
  rw [h] at both
  have mem' : t.loosened ∈ (TokenSequence.ofList source
      (tokens.toList.map Token.loosened)).toList := by
    rw [TokenSequence.toList_ofList]
    exact List.mem_map_of_mem mem
  exact Option.some.inj ((slice_of_scan both _ mem').symm.trans (slice_of_scan h t mem))

/-- A source that can be scanned as a strict one can be scanned as any other; the words that are
reserved in strict sources become identifiers. -/
theorem scan_loosened {source : Text} {tokens : TokenSequence} (h : scan true source = .ok tokens) :
    ∃ tokens', scan false source = .ok tokens' ∧ tokens'.source = tokens.source ∧
      tokens'.lexemes = tokens.lexemes.map Lexeme.loosened := by
  have both := scan_eq_map source
  rw [h] at both
  refine ⟨_, both, ?_, ?_⟩
  · obtain ⟨_, list, _, rfl⟩ := scan_eq_ok.1 h
    simp
  · simp only [TokenSequence.lexemes, TokenSequence.toList_ofList, List.map_map]
    refine List.map_congr_left fun t mem => ?_
    simp only [Function.comp_apply, text_loosened h mem]
    rfl

/-! ## The words -/

/-- The words that are reserved in strict sources only, with their keywords. -/
def Spelling.strictWords : List (String × Keyword) :=
  [("as", .asKw), ("implements", .implementsKw), ("interface", .interfaceKw),
   ("package", .packageKw), ("private", .privateKw), ("protected", .protectedKw),
   ("public", .publicKw), ("static", .staticKw), ("yield", .yieldKw)]

theorem Spelling.mem_strictWords {k : Keyword} (h : k.isStrictOnly = true) :
    (k.text, k) ∈ strictWords := by
  rw [Keyword.isStrictOnly_eq] at h
  cases k with
  | asKw | implementsKw | interfaceKw | packageKw | privateKw | protectedKw | publicKw | staticKw
  | yieldKw => simp [strictWords, Keyword.text]
  | _ => cases h

theorem Spelling.of_mem_strictWords {entry : String × Keyword} (mem : entry ∈ strictWords) :
    entry.2.text = entry.1 ∧ entry.2.isStrictOnly = true := by
  revert entry
  decide

namespace Spelled

variable {kind : TokenKind} {text : Text}

/-- In a strict source each of the words is its keyword. -/
theorem eq_keyword (h : Spelled true kind text) {entry : String × Keyword}
    (mem : entry ∈ Spelling.strictWords) (word : text = entry.1.toList) :
    kind = .keyword entry.2 := by
  obtain ⟨same, _⟩ := Spelling.of_mem_strictWords mem
  have keyword : Spelled true (.keyword entry.2) text := by
    rw [word, ← same]
    exact .keyword rfl
  exact h.unique keyword

theorem isStrictOnly_iff (h : Spelled true kind text) :
    kind.isStrictOnly = true ↔ ∃ entry ∈ Spelling.strictWords, text = entry.1.toList := by
  constructor
  · intro strictOnly
    rw [TokenKind.isStrictOnly_eq] at strictOnly
    cases kind with
    | keyword k => exact ⟨_, Spelling.mem_strictWords strictOnly, h.eq_text rfl⟩
    | _ => cases strictOnly
  · rintro ⟨entry, mem, word⟩
    rw [h.eq_keyword mem word]
    exact (Spelling.of_mem_strictWords mem).2

end Spelled

theorem TokenKind.ne_loosened_iff {kind : TokenKind} :
    kind ≠ kind.loosened ↔ kind.isStrictOnly = true := by
  unfold loosened
  split
  · next strictOnly =>
    refine iff_of_true ?_ strictOnly
    rintro rfl
    cases strictOnly
  · next other => exact iff_of_false (fun different => different rfl) other

/-- Whether a source is strict changes kinds only. Both scans fail with the same error, or they give
as many tokens with the same spans and texts. The kinds differ where the text is one of nine words;
there the strict scan gives the keyword of the word, and the other one an identifier. -/
theorem scan_strict_kinds (source : Text) :
    (∃ e, scan true source = .error e ∧ scan false source = .error e) ∨
    ∃ tokens tokens', scan true source = .ok tokens ∧ scan false source = .ok tokens' ∧
      tokens.length = tokens'.length ∧
      ∀ i t t', tokens.get? i = some t → tokens'.get? i = some t' →
        t.span = t'.span ∧ t.span.slice source = some (tokens.text t) ∧
        tokens'.text t' = tokens.text t ∧
        (t.kind ≠ t'.kind ↔
          ∃ entry ∈ Spelling.strictWords, tokens.text t = entry.1.toList) ∧
        ∀ entry ∈ Spelling.strictWords, tokens.text t = entry.1.toList →
          t.kind = .keyword entry.2 ∧ t'.kind = .identifier := by
  have both := scan_eq_map source
  cases h : scan true source with
  | error e =>
    rw [h] at both
    exact .inl ⟨e, rfl, both⟩
  | ok tokens =>
    rw [h] at both
    refine .inr ⟨tokens, _, rfl, both, ?_, fun i t t' here there => ?_⟩
    · have size (s : TokenSequence) : s.length = s.toList.length := Array.length_toList.symm
      rw [size, size, TokenSequence.toList_ofList, List.length_map]
    rw [TokenSequence.get?, ← Array.getElem?_toList, ← TokenSequence.toList] at here there
    rw [TokenSequence.toList_ofList, List.getElem?_map, here] at there
    obtain rfl : t.loosened = t' := Option.some.inj there
    have mem := List.mem_of_getElem? here
    have spelled : Spelled true t.kind (tokens.text t) :=
      (tiling_of_scan h).spelled _ (List.mem_map_of_mem mem)
    have differ : t.kind ≠ t.loosened.kind ↔ t.kind.isStrictOnly = true :=
      TokenKind.ne_loosened_iff
    refine ⟨rfl, slice_of_scan h t mem, text_loosened h mem,
      differ.trans spelled.isStrictOnly_iff, fun entry isWord word => ?_⟩
    have strictOnly := spelled.isStrictOnly_iff.2 ⟨entry, isWord, word⟩
    exact ⟨spelled.eq_keyword isWord word, if_pos strictOnly⟩

end EcmaFront
