import EcmaFront.Proofs.Tree.Filled

/-!
# What errors say about tokens

An error names tokens that stand where reading stopped: `SyntaxError.Blames` tells, for each error,
which tokens they are. A reader reports if it keeps to the tokens of a sequence and if its errors
blame the right ones (`Reader.Reports`). Sequences and loops of readers that report do so, too.

* `SyntaxError.Blames`: the token that stands next, or the one just taken, or some tokens in a row.
* `ReportsAt.bind`, `ReportsAt.loop`: the rules for readers.
-/

namespace EcmaFront

open Reader

namespace Cursor

/-- The cursor is `c` after some tokens. -/
def Reaches (c c' : Cursor) : Prop := ∃ ts, c.Took ts c'

/-- The span goes from the start of the first to the end of the last of some tokens in a row. -/
def Covers (c : Cursor) (span : Span) : Prop := ∃ us, us <:+: c.rest ∧ Bounds span us

theorem Reaches.took {c₀ c c' : Cursor} {ts : List Lexeme} (h : c₀.Reaches c)
    (took : c.Took ts c') : c₀.Reaches c' := by
  obtain ⟨front, reaches⟩ := h
  exact ⟨front ++ ts, reaches.trans took⟩

theorem Reaches.covers_head {c₀ c : Cursor} {t : Lexeme} (h : c₀.Reaches c)
    (head : c.rest.head? = some t) : c₀.Covers t.span := by
  obtain ⟨front, reaches⟩ := h
  obtain ⟨more, rest⟩ := List.head?_eq_some_iff.1 head
  exact ⟨[t], ⟨front, more, by rw [reaches.rest, rest]; simp⟩, .single t⟩

end Cursor

/-- The name that may stand behind the word and a dot. -/
def TokenKind.metaName? : TokenKind → Option String
  | .keyword .newKw => some "target"
  | .keyword .importKw => some "meta"
  | _ => none

/-- The last token taken is an identifier behind `new.` or `import.`, but not the right one. -/
def Misnames (taken : List Lexeme) (t : Lexeme) : Prop :=
  ∃ front w d name, taken = front ++ [w, d, t] ∧ w.kind.metaName? = some name ∧
    d.kind = .punctuator .dot ∧ t.kind = .identifier ∧ t.text ≠ name.toList

/-- The error blames the right tokens of those behind `c₀`, if reading stopped at `c`. -/
inductive SyntaxError.Blames (c₀ c : Cursor) : SyntaxError → Prop
  | declaration {expected : TokenKind} {t : Lexeme} : c.rest.head? = some t → t.kind ≠ expected →
    Blames c₀ c (.malformedDeclaration expected t.kind t.span)
  | token {expected : TokenKind} {t : Lexeme} : c.rest.head? = some t → t.kind ≠ expected →
    Blames c₀ c (.unexpectedToken expected t.kind t.span)
  | name {taken : List Lexeme} {t : Lexeme} : c₀.Took taken c → Misnames taken t →
    Blames c₀ c (.unexpectedToken .identifier t.kind t.span)
  | expression {t : Lexeme} : c.rest.head? = some t →
    Blames c₀ c (.expressionExpected t.kind t.span)
  | ended {expected : Option TokenKind} : c.rest = [] →
    Blames c₀ c (.unexpectedEnd expected c.sourceStop)
  | unsupported {kind : TokenKind} {span : Span} : c₀.Covers span →
    Blames c₀ c (.unsupported kind span)
  | target {span : Span} : c₀.Covers span → Blames c₀ c (.invalidTarget span)
  | number {span : Span} : c₀.Covers span → Blames c₀ c (.invalidNumber span)
  | mixed {span : Span} : c₀.Covers span → Blames c₀ c (.mixedCoalescing span)
  | deep : Blames c₀ c (.nestingTooDeep c.nextSpan)

namespace Reader

variable {α β σ : Type} {c₀ c c' : Cursor}

/-- From the cursor the reader keeps to the tokens behind `c₀`, and its error blames the right
ones. -/
structure ReportsAt (c₀ : Cursor) (r : Reader α) (c : Cursor) : Prop where
  reaches : ∀ {a c'}, r c = .ok a c' → c₀.Reaches c'
  error : ∀ {e c'}, r c = .error e c' → c₀.Reaches c' ∧ e.Blames c₀ c'

/-- The same from all cursors between the tokens. -/
structure Reports (c₀ : Cursor) (r : Reader α) : Prop where
  here : ∀ {c}, c₀.Reaches c → r.ReportsAt c₀ c

namespace ReportsAt

theorem of_ok {r : Reader α} {a : α} (ok : r c = .ok a c') (reaches : c₀.Reaches c') :
    r.ReportsAt c₀ c where
  reaches ok' := by
    obtain ⟨_, rfl⟩ := EStateM.Result.ok.inj (ok.symm.trans ok')
    exact reaches
  error failed := by rw [ok] at failed; cases failed

theorem of_error {r : Reader α} {e : SyntaxError} (failed : r c = .error e c')
    (reaches : c₀.Reaches c') (blames : e.Blames c₀ c') : r.ReportsAt c₀ c where
  reaches ok := by rw [failed] at ok; cases ok
  error failed' := by
    obtain ⟨rfl, rfl⟩ := EStateM.Result.error.inj (failed.symm.trans failed')
    exact ⟨reaches, blames⟩

theorem throw {e : SyntaxError} (reaches : c₀.Reaches c) (blames : e.Blames c₀ c) :
    (throw e : Reader α).ReportsAt c₀ c := of_error rfl reaches blames

theorem pure (a : α) (reaches : c₀.Reaches c) : (pure a : Reader α).ReportsAt c₀ c :=
  of_ok rfl reaches

theorem failAtEnd {expected : Option TokenKind} (reaches : c₀.Reaches c) (done : c.rest = []) :
    (failAtEnd expected : Reader α).ReportsAt c₀ c := of_error rfl reaches (.ended done)

theorem congr {r r' : Reader α} (same : r c = r' c') (h : r'.ReportsAt c₀ c') :
    r.ReportsAt c₀ c where
  reaches ok := h.reaches (same ▸ ok)
  error failed := h.error (same ▸ failed)

theorem bind {x : Reader α} {f : α → Reader β} (first : x.ReportsAt c₀ c)
    (more : ∀ a c', x c = .ok a c' → c₀.Reaches c' → (f a).ReportsAt c₀ c') :
    (x >>= f).ReportsAt c₀ c := by
  cases answer : x c with
  | ok a c' => exact congr (bind_of_ok answer f) (more a c' answer (first.reaches answer))
  | error e c' =>
    obtain ⟨reaches, blames⟩ := first.error answer
    exact of_error (bind_of_error answer f) reaches blames

/-- What comes behind the first reader reports from everywhere. -/
theorem andThen {x : Reader α} {f : α → Reader β} (first : x.ReportsAt c₀ c)
    (more : ∀ a, Reports c₀ (f a)) : (x >>= f).ReportsAt c₀ c :=
  bind first fun a _ _ => (more a).here

/-- The cursor is looked at. -/
theorem afterGet {f : Cursor → Reader β} (more : (f c).ReportsAt c₀ c) :
    ((get : Reader Cursor) >>= f).ReportsAt c₀ c := congr (bind_of_ok rfl f) more

theorem ite {p : Prop} [Decidable p] {x y : Reader α} (pos : p → x.ReportsAt c₀ c)
    (neg : ¬ p → y.ReportsAt c₀ c) : (if p then x else y).ReportsAt c₀ c := by
  split
  · next h => exact pos h
  · next h => exact neg h

/-- A loop reports if its step does where an invariant holds. Each step that goes on takes a token,
so the bound of the loop is never met. -/
theorem loop {step : σ → Reader (Progress σ β)} {I : σ → Cursor → Prop}
    (progresses : Progresses step) (reports : ∀ s c, I s c → (step s).ReportsAt c₀ c)
    (again : ∀ s s' c c', I s c → step s c = .ok (.again s') c' → I s' c') {s : σ} (init : I s c) :
    (loop step s).ReportsAt c₀ c := by
  induction size : c.rest.length using Nat.strongRecOn generalizing s c with
  | ind n ih =>
    cases answer : step s c with
    | error e c' =>
      obtain ⟨reaches, blames⟩ := (reports s c init).error answer
      exact of_error (loop_error answer) reaches blames
    | ok progress c' =>
      cases progress with
      | done b => exact of_ok (loop_done answer) ((reports s c init).reaches answer)
      | again s' =>
        have rest := ih _ (size ▸ progresses answer) (again s s' c c' init answer) rfl
        exact congr (loop_again progresses answer) rest

end ReportsAt

/-! ## Basic readers -/

namespace Reports

theorem bind {x : Reader α} {f : α → Reader β} (first : Reports c₀ x)
    (more : ∀ a, Reports c₀ (f a)) : Reports c₀ (x >>= f) where
  here reaches := .andThen (first.here reaches) more

theorem ite {p : Prop} [Decidable p] {x y : Reader α} (pos : Reports c₀ x)
    (neg : Reports c₀ y) : Reports c₀ (if p then x else y) where
  here reaches := .ite (fun _ => pos.here reaches) fun _ => neg.here reaches

theorem loop {step : σ → Reader (Progress σ β)} (progresses : Progresses step)
    (reports : ∀ s, Reports c₀ (step s)) (s : σ) : Reports c₀ (loop step s) where
  here := .loop progresses (I := fun _ c => c₀.Reaches c) (fun s _ => (reports s).here)
    fun s _ _ _ reaches answer => ((reports s).here reaches).reaches answer

/-- Readers that only look do not fail. -/
theorem stays {r : Reader α} (h : ∀ c, ∃ a, r c = .ok a c) : Reports c₀ r where
  here {c} reaches := by
    obtain ⟨a, ok⟩ := h c
    exact .of_ok ok reaches

theorem pure (a : α) : Reports c₀ (pure a : Reader α) := stays fun _ => ⟨a, rfl⟩

theorem get : Reports c₀ (get : Reader Cursor) := stays fun c => ⟨c, rfl⟩

theorem peek? : Reports c₀ Reader.peek? := stays fun _ => ⟨_, rfl⟩

theorem nextIs (kind : TokenKind) : Reports c₀ (nextIs kind) := stays fun _ => ⟨_, rfl⟩

theorem peekKind? (ahead : Nat) : Reports c₀ (peekKind? ahead) := stays fun _ => ⟨_, rfl⟩

theorem returnSpan (f : Span → α) (start : Nat) :
    Reports c₀ (do return f (← spanFrom start) : Reader α) := stays fun _ => ⟨_, rfl⟩

theorem advance : Reports c₀ advance := by
  refine ⟨fun {c} reaches => ?_⟩
  obtain ⟨rest, d, s⟩ := c
  cases rest with
  | nil => exact .of_ok rfl reaches
  | cons t rest => exact .of_ok rfl (reaches.took .head)

theorem accept? (kind : TokenKind) : Reports c₀ (accept? kind) := by
  refine ⟨fun {c} reaches => ?_⟩
  obtain ⟨rest, d, s⟩ := c
  cases rest with
  | nil => exact .of_ok rfl reaches
  | cons t rest =>
    by_cases same : t.kind = kind
    · exact .of_ok (accept?_cons same) (reaches.took .head)
    · exact .of_ok (accept?_of_stops (stops_cons.2 (by simpa using same))) reaches

/-- A token of another kind is blamed by `mismatch`. -/
theorem expectOr {mismatch : TokenKind → Span → SyntaxError} {kind : TokenKind}
    (blames : ∀ {c t}, c.rest.head? = some t → t.kind ≠ kind →
      (mismatch t.kind t.span).Blames c₀ c) : Reports c₀ (expectOr mismatch kind) := by
  refine ⟨fun {c} reaches => ?_⟩
  obtain ⟨rest, d, s⟩ := c
  cases rest with
  | nil => exact .of_error rfl reaches (.ended rfl)
  | cons t rest =>
    by_cases same : t.kind = kind
    · exact .of_ok (expectOr_cons same) (reaches.took .head)
    · exact .of_error (if_neg same) reaches (blames rfl same)

theorem expect (kind : TokenKind) : Reports c₀ (expect kind) := expectOr .token

theorem expectInDeclaration (kind : TokenKind) : Reports c₀ (expectInDeclaration kind) :=
  expectOr .declaration

/-- A look at the next token, where there may be none. -/
theorem peek {f : Option Lexeme → Reader β}
    (ended : ∀ {c}, c₀.Reaches c → c.rest = [] → (f none).ReportsAt c₀ c)
    (next : ∀ {t c}, c₀.Reaches c → c.rest.head? = some t → (f (some t)).ReportsAt c₀ c) :
    Reports c₀ (Reader.peek? >>= f) := by
  refine ⟨fun {c} reaches => .bind (peek?.here reaches) fun t? c' look _ => ?_⟩
  obtain ⟨head, rfl⟩ := peek?_eq_ok.1 look
  cases t? with
  | none => exact ended reaches (List.head?_eq_none_iff.1 head)
  | some t => exact next reaches head

/-- Members with commas between them. -/
theorem separatedStep {close : TokenKind} {read : Reader α} (h : Reports c₀ read)
    (before : List α) : Reports c₀ (separatedStep close read before) := by
  refine .bind (.nextIs close) fun isClose => .ite (.pure _) (.bind h fun a => ?_)
  refine .bind (.accept? _) fun comma? => ?_
  cases comma? with
  | none => exact .pure _
  | some => exact .pure _

end Reports

end Reader

end EcmaFront
