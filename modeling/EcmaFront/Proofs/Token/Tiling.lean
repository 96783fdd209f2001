import EcmaFront.Proofs.Token.Gap
import EcmaFront.Proofs.Token.Spelled
import EcmaFront.Tree.Cursor

/-!
# Tokens tile their source

A scanned source is a gap, a token, a gap and so on, up to a last gap: `Tiling` says so, with the
position of each token, and with the spelling of its kind as its text. A lexeme is a token with its
text, which is the piece of source that its span denotes.

* `tiling_of_scan`: the lexemes of a scanned source tile it.
* `scan_tiles`: so the spans of its tokens are not empty, lie in the source, divide no character and
  follow one another.
-/

namespace EcmaFront

/-- The position stands between two characters of the text, or at one of its ends. -/
def Text.IsBoundary (t : Text) (position : Nat) : Prop :=
  ∃ before after, t = before ++ after ∧ Text.size before = position

def Lexeme.token (l : Lexeme) : Token := ⟨l.kind, l.span⟩

/-- The text, which stands at `offset`, is made of the lexemes with gaps around them. -/
inductive Tiling (strict : Bool) : Nat → List Lexeme → Text → Prop
  | done {offset : Nat} {gap : Text} : Gap gap [] → Tiling strict offset [] gap
  | lexeme {offset : Nat} {kind : TokenKind} {gap text rest : Text} {more : List Lexeme} :
    Gap gap (text ++ rest) → Spelled strict kind text →
    Tiling strict (offset + Text.size gap + Text.size text) more rest →
    Tiling strict offset (⟨kind, ⟨offset + Text.size gap, Text.size text⟩, text⟩ :: more)
      (gap ++ (text ++ rest))

namespace Lexer

/-- Where no trivia stands, the next token is the front of the rest. -/
theorem nextAfterTrivia_eq_some {s after : Lexer} {t : Token}
    (h : s.nextAfterTrivia = (.ok (some t), after)) :
    ∃ text rest, s.rest = text ++ rest ∧ Spelled s.strict t.kind text ∧
      t.span = ⟨s.offset, Text.size text⟩ ∧ after = s.move text rest := by
  unfold nextAfterTrivia at h
  split at h
  · cases h
  · next c cs rest_eq =>
    split at h
    · next kind text rest front =>
      obtain ⟨found, rfl⟩ := Prod.mk.inj h
      obtain rfl := Option.some.inj (Except.ok.inj found)
      refine ⟨text, rest, ?_, .of_read front, ?_, rfl⟩
      · rw [rest_eq, Front.append_of_read front]
      · simp [Span.ofBounds, move]
    all_goals cases h

theorem nextAfterTrivia_eq_none {s after : Lexer} (h : s.nextAfterTrivia = (.ok none, after)) :
    s.rest = [] := by
  unfold nextAfterTrivia at h
  split at h
  · assumption
  · split at h <;> cases h

/-- All tokens that are left tile the rest. -/
theorem tiling_of_all {s : Lexer} {tokens : List Token} (h : s.all = .ok tokens) :
    ∃ lexemes, tokens = lexemes.map Lexeme.token ∧ Tiling s.strict s.offset lexemes s.rest := by
  induction size : s.rest.length using Nat.strongRecOn generalizing s tokens with
  | ind n ih =>
    obtain ⟨gap, left, rest_eq, hg, skip, _⟩ := s.skipTrivia_eq
    rw [all_eq] at h
    split at h
    · next t after found =>
      have shorter := length_lt_of_next found
      rw [next, skip] at found
      obtain ⟨text, rest, left_eq, spelled, span, rfl⟩ := nextAfterTrivia_eq_some found
      rw [rest_move] at left_eq
      subst left_eq
      cases others : (((s.move gap (text ++ rest)).move text rest).all) with
      | error e => simp [others, Except.map] at h
      | ok more =>
        obtain ⟨lexemes, rfl, tiling⟩ := ih _ (size ▸ shorter) others rfl
        rw [others] at h
        obtain rfl := Except.ok.inj h
        refine ⟨⟨t.kind, t.span, text⟩ :: lexemes, rfl, ?_⟩
        rw [rest_eq, span]
        exact .lexeme hg spelled tiling
    · next after found =>
      rw [next, skip] at found
      have nothing := nextAfterTrivia_eq_none found
      rw [rest_move] at nothing
      subst nothing
      obtain rfl := Except.ok.inj h
      refine ⟨[], rfl, ?_⟩
      rw [rest_eq, List.append_nil]
      exact .done hg
    · cases h

end Lexer

/-- A token that the grammar spells has the same text in each sequence over its source. -/
theorem TokenSequence.text_eq {strict : Bool} {tokens : TokenSequence} {t : Token} {text : Text}
    (spelled : Spelled strict t.kind text) (slice : t.span.slice tokens.source = some text) :
    tokens.text t = text := by
  cases own : t.kind.text? with
  | some spelling => rw [text_of_fixed own, spelled.eq_text own]
  | none => rw [text_of_free own, slice, Option.getD_some]

namespace Tiling

variable {strict : Bool} {offset : Nat} {lexemes : List Lexeme} {text : Text}

theorem spelled (h : Tiling strict offset lexemes text) :
    ∀ l ∈ lexemes, Spelled strict l.kind l.text := by
  induction h with
  | done => simp
  | lexeme _ spelled _ ih => exact List.forall_mem_cons.2 ⟨spelled, ih⟩

/-- The text of a lexeme is the piece of source that its span denotes. -/
theorem slice_eq (h : Tiling strict offset lexemes text) (before : Text)
    (hb : Text.size before = offset) :
    ∀ l ∈ lexemes, l.span.slice (before ++ text) = some l.text := by
  induction h generalizing before with
  | done => simp
  | @lexeme offset _ gap text rest more _ _ _ ih =>
    refine List.forall_mem_cons.2 ⟨?_, ?_⟩
    · exact Span.slice_eq_some_iff.2 ⟨before ++ gap, rest, by simp, by simp [hb], rfl⟩
    · have := ih (before ++ gap ++ text) (by simp [hb, Nat.add_assoc])
      simpa using this

theorem start_le (h : Tiling strict offset lexemes text) :
    ∀ l ∈ lexemes, offset ≤ l.span.start := by
  induction h with
  | done => simp
  | lexeme _ _ _ ih =>
    refine List.forall_mem_cons.2 ⟨Nat.le_add_right .., fun l mem => ?_⟩
    have := ih l mem
    omega

theorem inOrder (h : Tiling strict offset lexemes text) :
    lexemes.Pairwise fun l m => l.span.stop ≤ m.span.start := by
  induction h with
  | done => exact .nil
  | lexeme _ _ tiling ih => exact .cons (fun m mem => tiling.start_le m mem) ih

theorem stop_le (h : Tiling strict offset lexemes text) :
    ∀ l ∈ lexemes, l.span.stop ≤ offset + Text.size text := by
  induction h with
  | done => simp
  | lexeme _ _ _ ih =>
    refine List.forall_mem_cons.2 ⟨?_, fun l mem => ?_⟩
    · simp only [Span.stop, Text.size_append]
      omega
    · have := ih l mem
      simp only [Text.size_append]
      omega

/-- A sequence of the tokens gives the lexemes back. -/
theorem lexemes_ofList {source : Text} (h : Tiling strict 0 lexemes source) :
    (TokenSequence.ofList source (lexemes.map Lexeme.token)).lexemes = lexemes := by
  have slices := h.slice_eq [] rfl
  have texts : ∀ l ∈ lexemes,
      (TokenSequence.ofList source (lexemes.map Lexeme.token)).text l.token = l.text := by
    intro l mem
    refine TokenSequence.text_eq (h.spelled l mem) ?_
    rw [TokenSequence.source_ofList]
    exact slices l mem
  rw [TokenSequence.lexemes, TokenSequence.toList_ofList, List.map_map]
  refine (List.map_congr_left fun l mem => ?_).trans lexemes.map_id
  rw [Function.comp_apply, texts l mem]
  rfl

end Tiling

/-- A source of a size that positions cover is scanned by its lexer. -/
theorem scan_eq_ok {strict : Bool} {source : Text} {tokens : TokenSequence} :
    scan strict source = .ok tokens ↔ Text.size source ≤ maxPosition ∧
      ∃ list, (Lexer.start strict source).all = .ok list ∧ tokens = .ofList source list := by
  unfold scan checkSize
  split
  · next fits =>
    cases (Lexer.start strict source).all <;>
      simp [fits, bind, Except.bind, pure, Except.pure, eq_comm]
  · next large => simp [large, bind, Except.bind]

/-- The lexemes of a scanned source tile it. -/
theorem tiling_of_scan {strict : Bool} {source : Text} {tokens : TokenSequence}
    (h : scan strict source = .ok tokens) : Tiling strict 0 tokens.lexemes source := by
  obtain ⟨_, list, all, rfl⟩ := scan_eq_ok.1 h
  obtain ⟨lexemes, rfl, tiling⟩ := Lexer.tiling_of_all all
  have tiling : Tiling strict 0 lexemes source := tiling
  rwa [tiling.lexemes_ofList]

/-- The tokens of a scanned source tile it: their spans are not empty, lie in the source, divide no
character and follow one another, and between them stand gaps only. -/
theorem scan_tiles {strict : Bool} {source : Text} {tokens : TokenSequence}
    (h : scan strict source = .ok tokens) :
    Tiling strict 0 tokens.lexemes source ∧
      (∀ t ∈ tokens.toList, 0 < t.span.length ∧ t.span.stop ≤ Text.size source ∧
        Text.IsBoundary source t.span.start ∧ Text.IsBoundary source t.span.stop) ∧
      tokens.toList.Pairwise fun t u => t.span.start < u.span.start ∧ t.span.stop ≤ u.span.start := by
  have tiling := tiling_of_scan h
  have slices := tiling.slice_eq [] rfl
  have spans : ∀ t ∈ tokens.toList, ∃ l ∈ tokens.lexemes, l.span = t.span :=
    fun t mem => ⟨_, List.mem_map_of_mem mem, rfl⟩
  have positive : ∀ l ∈ tokens.lexemes, 0 < l.span.length := by
    intro l mem
    obtain ⟨_, _, _, _, size⟩ := Span.slice_eq_some_iff.1 (slices l mem)
    have nonempty := (tiling.spelled l mem).ne_nil
    rw [← size]
    exact Nat.pos_of_ne_zero fun zero => nonempty (Text.size_eq_zero_iff.1 zero)
  refine ⟨tiling, fun t mem => ?_, ?_⟩
  · obtain ⟨l, mem', same⟩ := spans t mem
    obtain ⟨before, after, source_eq, start, length⟩ := Span.slice_eq_some_iff.1 (slices l mem')
    rw [List.nil_append] at source_eq
    subst source_eq
    have inside := tiling.stop_le l mem'
    rw [Nat.zero_add] at inside
    rw [← same]
    exact ⟨positive l mem', inside, ⟨before, l.text ++ after, by simp, start⟩,
      ⟨before ++ l.text, after, rfl, by simp [start, length, Span.stop]⟩⟩
  · have inOrder := tiling.inOrder
    rw [TokenSequence.lexemes, List.pairwise_map] at inOrder
    refine inOrder.imp_of_mem fun {t u} mem _ le => ⟨?_, le⟩
    obtain ⟨l, mem', same⟩ := spans t mem
    have := positive l mem'
    simp only [Span.stop, same] at le this
    omega

/-- A string with a character of two bytes, and comments around a semicolon. -/
theorem scan_tiles_between_comments :
    ∃ tokens, scan false "'é'/**/;//".toList = .ok tokens ∧
      tokens.toList = [⟨.string, ⟨0, 4⟩⟩, ⟨.punctuator .semicolon, ⟨8, 1⟩⟩] ∧
      Tiling false 0 tokens.lexemes "'é'/**/;//".toList := by
  have scanned : scan false "'é'/**/;//".toList = .ok (.ofList "'é'/**/;//".toList
      [⟨.string, ⟨0, 4⟩⟩, ⟨.punctuator .semicolon, ⟨8, 1⟩⟩]) := by
    have text : "'é'/**/;//".toList =
        ['\'', 'é', '\'', '/', '*', '*', '/', ';', '/', '/'] := String.toList_ofList ..
    rw [text]
    rfl
  exact ⟨_, scanned, TokenSequence.toList_ofList .., (scan_tiles scanned).1⟩

end EcmaFront
