import EcmaFront.Tree.Cursor

/-!
# Laws of readers

What a reader does is told by the tokens that it takes: `Cursor.Took c ts c'` says that `c'` is the
cursor `c` after the tokens `ts`. Each basic reader has one law for its success. What the steps of a
`loop` do is told backwards from its end (`loop_rec`) or kept from its start (`loop_invariant`), and
if no step goes on without taking a token, its bound can be forgotten (`loop_again`, `loop_done`).
-/

namespace EcmaFront

/-- Where the last of the lexemes stops; `before`, if there is none. -/
def stopAfter (before : Nat) : List Lexeme → Nat
  | [] => before
  | t :: ts => stopAfter t.span.stop ts

@[simp] theorem stopAfter_append (before : Nat) (ts us : List Lexeme) :
    stopAfter before (ts ++ us) = stopAfter (stopAfter before ts) us := by
  induction ts generalizing before with
  | nil => rfl
  | cons t ts ih => exact ih t.span.stop

theorem Span.ofBounds_max (start stop : Nat) :
    ofBounds start (max stop start) = ofBounds start stop := by
  simp only [ofBounds, Span.mk.injEq, true_and]
  omega

/-- The rest is over, or the next token is of no kind that `p` tells. -/
def Stops (p : TokenKind → Bool) (rest : List Lexeme) : Prop :=
  ∀ t ∈ rest.head?, p t.kind = false

@[simp] theorem Stops.nil (p : TokenKind → Bool) : Stops p [] := nofun

@[simp] theorem stops_cons {p : TokenKind → Bool} {t : Lexeme} {ts : List Lexeme} :
    Stops p (t :: ts) ↔ p t.kind = false := by
  simp [Stops]

theorem stops_of_kind {p : TokenKind → Bool} {t : Lexeme} {kind : TokenKind} {rest : List Lexeme}
    (same : t.kind = kind) (stop : p kind = false) : Stops p (t :: rest) :=
  stops_cons.2 (same ▸ stop)

theorem Stops.mono {p q : TokenKind → Bool} {rest : List Lexeme} (h : Stops q rest)
    (le : ∀ {kind}, p kind = true → q kind = true) : Stops p rest := by
  intro t head
  cases found : p t.kind with
  | false => rfl
  | true => exact absurd (le found) (by simp [h t head])

namespace Cursor

/-- The tokens `ts` have been taken between the two cursors. -/
structure Took (c : Cursor) (ts : List Lexeme) (c' : Cursor) : Prop where
  rest : c.rest = ts ++ c'.rest
  lastStop : c'.lastStop = stopAfter c.lastStop ts
  sourceStop : c'.sourceStop = c.sourceStop

theorem nextSpan_of_head {c : Cursor} {t : Lexeme} (h : c.rest.head? = some t) :
    c.nextSpan = t.span := by
  unfold nextSpan
  split <;> simp_all

namespace Took

variable {c c' c'' : Cursor} {ts us : List Lexeme}

theorem refl (c : Cursor) : c.Took [] c := ⟨rfl, rfl, rfl⟩

theorem head {t : Lexeme} {rest : List Lexeme} {d s : Nat} :
    (⟨t :: rest, d, s⟩ : Cursor).Took [t] ⟨rest, t.span.stop, s⟩ := ⟨rfl, rfl, rfl⟩

theorem trans (h : c.Took ts c') (h' : c'.Took us c'') : c.Took (ts ++ us) c'' where
  rest := by rw [h.rest, h'.rest, List.append_assoc]
  lastStop := by rw [h'.lastStop, h.lastStop, stopAfter_append]
  sourceStop := h'.sourceStop.trans h.sourceStop

theorem cons {t : Lexeme} (h : c.Took [t] c') (h' : c'.Took us c'') : c.Took (t :: us) c'' :=
  h.trans h'

theorem length_eq (h : c.Took ts c') : c.rest.length = ts.length + c'.rest.length := by
  rw [h.rest, List.length_append]

end Took

end Cursor

namespace Reader

variable {α β σ : Type} {c c' c'' : Cursor}

/-! ## Sequences of readers -/

theorem bind_eq_ok {x : Reader α} {f : α → Reader β} {b : β} :
    (x >>= f) c = .ok b c'' ↔ ∃ a c', x c = .ok a c' ∧ f a c' = .ok b c'' := by
  simp only [bind, EStateM.bind]
  cases first : x c with
  | error e c' => simp
  | ok a c' =>
    refine ⟨fun h => ⟨a, c', rfl, h⟩, fun ⟨_, _, same, h⟩ => ?_⟩
    obtain ⟨rfl, rfl⟩ := EStateM.Result.ok.inj same
    exact h

theorem pure_eq_ok {a b : α} : (pure a : Reader α) c = .ok b c' ↔ a = b ∧ c = c' := by
  simp [pure, EStateM.pure]

theorem get_eq_ok {a : Cursor} : (get : Reader Cursor) c = .ok a c' ↔ c = a ∧ c = c' := by
  change EStateM.Result.ok c c = .ok a c' ↔ _
  rw [EStateM.Result.ok.injEq]

theorem throw_ne_ok {e : SyntaxError} {a : α} : (throw e : Reader α) c ≠ .ok a c' := nofun

theorem bind_of_ok {x : Reader α} {a : α} (h : x c = .ok a c') (f : α → Reader β) :
    (x >>= f) c = f a c' := by
  simp [bind, EStateM.bind, h]

theorem bind_of_error {x : Reader α} {e : SyntaxError} (h : x c = .error e c')
    (f : α → Reader β) : (x >>= f) c = .error e c' := by
  simp [bind, EStateM.bind, h]

/-! ## Basic readers -/

theorem advance_took {t : Lexeme} (h : c.rest.head? = some t) {u : Unit}
    (ok : advance c = .ok u c') : c.Took [t] c' := by
  unfold advance at ok
  split at ok
  · next t' rest eq =>
    obtain rfl : t' = t := by simpa [eq] using h
    obtain ⟨_, rfl⟩ := EStateM.Result.ok.inj ok
    exact ⟨eq, rfl, rfl⟩
  · next eq => simp [eq] at h

theorem advance_of_took {t : Lexeme} (h : c.Took [t] c') : advance c = .ok () c' := by
  obtain ⟨rest', d', s'⟩ := c'
  obtain ⟨rest, last, source⟩ := h
  dsimp only at rest last source
  subst last source
  simp only [advance, rest]
  rfl

theorem expectOr_took {mismatch : TokenKind → Span → SyntaxError} {kind : TokenKind} {t : Lexeme}
    (ok : expectOr mismatch kind c = .ok t c') : c.Took [t] c' ∧ t.kind = kind := by
  unfold expectOr at ok
  split at ok
  · next eq =>
    split at ok
    · next same =>
      obtain ⟨rfl, rfl⟩ := EStateM.Result.ok.inj ok
      exact ⟨⟨eq, rfl, rfl⟩, same⟩
    · cases ok
  · cases ok

theorem expect_took {kind : TokenKind} {t : Lexeme} (ok : expect kind c = .ok t c') :
    c.Took [t] c' ∧ t.kind = kind := expectOr_took ok

theorem expectInDeclaration_took {kind : TokenKind} {t : Lexeme}
    (ok : expectInDeclaration kind c = .ok t c') : c.Took [t] c' ∧ t.kind = kind :=
  expectOr_took ok

theorem accept?_took {kind : TokenKind} {t : Lexeme} (ok : accept? kind c = .ok (some t) c') :
    c.Took [t] c' ∧ t.kind = kind := by
  unfold accept? at ok
  split at ok
  · next eq =>
    split at ok
    · next same =>
      obtain ⟨found, rfl⟩ := EStateM.Result.ok.inj ok
      obtain rfl := Option.some.inj found
      exact ⟨⟨eq, rfl, rfl⟩, same⟩
    · cases ok
  · cases ok

theorem accept?_eq_none {kind : TokenKind} (ok : accept? kind c = .ok none c') :
    c = c' ∧ Stops (· == kind) c.rest := by
  unfold accept? at ok
  split at ok
  · next eq =>
    split at ok
    · cases ok
    · next other =>
      obtain ⟨_, rfl⟩ := EStateM.Result.ok.inj ok
      exact ⟨rfl, by simpa [eq] using other⟩
  · next eq =>
    obtain ⟨_, rfl⟩ := EStateM.Result.ok.inj ok
    exact ⟨rfl, by simp [eq]⟩

theorem peek?_eq_ok {t : Option Lexeme} :
    peek? c = .ok t c' ↔ c.rest.head? = t ∧ c = c' := by
  simp [peek?]

theorem nextIs_eq_true {kind : TokenKind} (ok : nextIs kind c = .ok true c') :
    c = c' ∧ ∃ t, c.rest.head? = some t ∧ t.kind = kind := by
  obtain ⟨next, rfl⟩ := EStateM.Result.ok.inj ok
  obtain ⟨t, head, same⟩ := (Option.any_eq_true _ _).1 next
  exact ⟨rfl, t, head, by simpa using same⟩

theorem nextIs_eq_false {kind : TokenKind} (ok : nextIs kind c = .ok false c') :
    c = c' ∧ Stops (· == kind) c.rest := by
  obtain ⟨next, rfl⟩ := EStateM.Result.ok.inj ok
  exact ⟨rfl, fun t head => by simpa [Option.mem_def.1 head] using next⟩

theorem peekKind?_eq_ok {ahead : Nat} {kind : Option TokenKind} :
    peekKind? ahead c = .ok kind c' ↔ c.rest[ahead]?.map (·.kind) = kind ∧ c = c' := by
  simp [peekKind?]

/-- The span ends with the last token taken. -/
theorem returnSpan_eq_ok {start : Nat} {f : Span → α} {a : α} :
    (do return f (← spanFrom start) : Reader α) c = .ok a c' ↔
      f (.ofBounds start c.lastStop) = a ∧ c = c' := by
  simp [bind, EStateM.bind, spanFrom, Span.ofBounds_max, pure_eq_ok]

theorem failAtEnd_ne_ok {expected : Option TokenKind} {a : α} :
    (failAtEnd expected : Reader α) c ≠ .ok a c' := nofun

/-- A form that looks where its first token starts before it takes the token. -/
theorem getAdvance_took {f : Cursor → Reader α} {t : Lexeme} {a : α} (h : c.rest.head? = some t)
    (ok : (do let start ← get; advance; f start : Reader α) c = .ok a c') :
    ∃ c₁, c.Took [t] c₁ ∧ f c c₁ = .ok a c' := by
  obtain ⟨_, _, first, ok⟩ := bind_eq_ok.1 ok
  obtain ⟨rfl, rfl⟩ := get_eq_ok.1 first
  obtain ⟨_, c₁, second, ok⟩ := bind_eq_ok.1 ok
  exact ⟨c₁, advance_took h second, ok⟩

/-! ## Basic readers on a given cursor -/

section

variable {kind : TokenKind} {t : Lexeme} {rest : List Lexeme} {d s : Nat}

theorem accept?_cons (h : t.kind = kind) :
    accept? kind ⟨t :: rest, d, s⟩ = .ok (some t) ⟨rest, t.span.stop, s⟩ := if_pos h

theorem accept?_of_stops (h : Stops (· == kind) rest) :
    accept? kind ⟨rest, d, s⟩ = .ok none ⟨rest, d, s⟩ := by
  cases rest with
  | nil => rfl
  | cons t rest => exact if_neg (by simpa using h)

theorem expectOr_cons {mismatch : TokenKind → Span → SyntaxError} (h : t.kind = kind) :
    expectOr mismatch kind ⟨t :: rest, d, s⟩ = .ok t ⟨rest, t.span.stop, s⟩ := if_pos h

theorem nextIs_cons (h : t.kind = kind) :
    nextIs kind ⟨t :: rest, d, s⟩ = .ok true ⟨t :: rest, d, s⟩ := by
  simp [nextIs, h]

theorem nextIs_of_stops (h : Stops (· == kind) rest) :
    nextIs kind ⟨rest, d, s⟩ = .ok false ⟨rest, d, s⟩ := by
  cases rest with
  | nil => rfl
  | cons t rest => simpa [nextIs] using h

end

/-! ## Loops -/

/-- A relation between the start and the end of a loop holds if the last step gives it and each step
before that carries it backwards. -/
theorem loop_rec {step : σ → Reader (Progress σ β)} {R : σ → Cursor → β → Cursor → Prop}
    (again : ∀ {s s' b c c' c''}, step s c = .ok (.again s') c' → R s' c' b c'' → R s c b c'')
    (done : ∀ {s b c c'}, step s c = .ok (.done b) c' → R s c b c')
    {s : σ} {b : β} (ok : loop step s c = .ok b c') : R s c b c' := by
  unfold loop at ok
  generalize c.rest.length + 1 = n at ok
  induction n generalizing s c with
  | zero => exact absurd ok failAtEnd_ne_ok
  | succ n ih =>
    obtain ⟨progress, c₁, first, ok⟩ := bind_eq_ok.1 ok
    cases progress with
    | again s' => exact again first (ih ok)
    | done b' =>
      obtain ⟨rfl, rfl⟩ := pure_eq_ok.1 ok
      exact done first

/-- What holds at the start and is kept by each step gives what the last step makes of it. -/
theorem loop_invariant {step : σ → Reader (Progress σ β)} {I : σ → Cursor → Prop}
    {Q : β → Cursor → Prop}
    (again : ∀ {s s' c c'}, I s c → step s c = .ok (.again s') c' → I s' c')
    (done : ∀ {s b c c'}, I s c → step s c = .ok (.done b) c' → Q b c')
    {s : σ} {b : β} (init : I s c) (ok : loop step s c = .ok b c') : Q b c' :=
  loop_rec (R := fun s c b c' => I s c → Q b c') (fun first ih init => ih (again init first))
    (fun first init => done init first) ok init

/-- A step of a loop that collects a list in reverse: it takes the tokens of one more member, or of
what is left of the list. `P` tells how a list is written in front of a rest. -/
inductive Collects (P : List α → List Lexeme → List Lexeme → Prop) (before : List α) (c : Cursor) :
    Progress (List α) (List α) → Cursor → Prop
  | again {a : α} {ts : List Lexeme} {c' : Cursor} : ts ≠ [] → c.Took ts c' →
    (∀ {more us rest}, c'.rest = us ++ rest → P more us rest → P (a :: more) (ts ++ us) rest) →
    Collects P before c (.again (a :: before)) c'
  | done {list more : List α} {ts : List Lexeme} {c' : Cursor} : list = before.reverse ++ more →
    c.Took ts c' → P more ts c'.rest → Collects P before c (.done list) c'

theorem loop_collects {step : List α → Reader (Progress (List α) (List α))}
    {P : List α → List Lexeme → List Lexeme → Prop}
    (h : ∀ {before c p c'}, step before c = .ok p c' → Collects P before c p c')
    {before list : List α} (ok : loop step before c = .ok list c') :
    ∃ more ts, list = before.reverse ++ more ∧ c.Took ts c' ∧ P more ts c'.rest := by
  refine loop_rec (R := fun before c list c' => ∃ more ts, list = before.reverse ++ more ∧
    c.Took ts c' ∧ P more ts c'.rest) ?_ ?_ ok
  · intro before before' list c c₁ c' step ⟨more, us, eq, tookRest, rest⟩
    cases h step with
    | again _ took cons =>
      exact ⟨_ :: more, _, by simp [eq], took.trans tookRest, cons tookRest.rest rest⟩
  · intro before list c c' step
    cases h step with
    | done eq took written => exact ⟨_, _, eq, took, written⟩

/-- Each step that goes on takes a token. -/
def Progresses (step : σ → Reader (Progress σ β)) : Prop :=
  ∀ ⦃s s' c c'⦄, step s c = .ok (.again s') c' → c'.rest.length < c.rest.length

theorem progresses_of_collects {step : List α → Reader (Progress (List α) (List α))}
    {P : List α → List Lexeme → List Lexeme → Prop}
    (h : ∀ {before c p c'}, step before c = .ok p c' → Collects P before c p c') :
    Progresses step := by
  intro before before' c c' step
  cases h step with
  | again nonempty took _ =>
    have := took.length_eq
    have := List.length_pos_iff.2 nonempty
    omega

theorem repeatUpTo_eq {step : σ → Reader (Progress σ β)} (h : Progresses step) {n m : Nat} {s : σ}
    (hn : c.rest.length < n) (hm : c.rest.length < m) :
    repeatUpTo step n s c = repeatUpTo step m s c := by
  induction n generalizing m s c with
  | zero => exact absurd hn (Nat.not_lt_zero _)
  | succ n ih =>
    cases m with
    | zero => exact absurd hm (Nat.not_lt_zero _)
    | succ m =>
      simp only [repeatUpTo, bind, EStateM.bind]
      cases first : step s c with
      | error e c' => rfl
      | ok progress c' =>
        cases progress with
        | done b => rfl
        | again s' =>
          have := h first
          exact ih (by omega) (by omega)

theorem loop_again {step : σ → Reader (Progress σ β)} (h : Progresses step) {s s' : σ}
    (first : step s c = .ok (.again s') c') : loop step s c = loop step s' c' := by
  have := h first
  unfold loop
  rw [repeatUpTo, bind_of_ok first]
  exact repeatUpTo_eq h (by omega) (by omega)

theorem loop_done {step : σ → Reader (Progress σ β)} {s : σ} {b : β}
    (first : step s c = .ok (.done b) c') : loop step s c = .ok b c' := by
  unfold loop
  rw [repeatUpTo, bind_of_ok first]
  rfl

theorem loop_error {step : σ → Reader (Progress σ β)} {s : σ} {e : SyntaxError}
    (first : step s c = .error e c') : loop step s c = .error e c' := by
  unfold loop
  rw [repeatUpTo, bind_of_error first]

/-! ## Taking given lexemes -/

/-- The reader takes the lexemes and gives the result. -/
def Takes (r : Reader α) (ts rest : List Lexeme) (a : α) : Prop :=
  ∀ d s, r ⟨ts ++ rest, d, s⟩ = .ok a ⟨rest, stopAfter d ts, s⟩

theorem Takes.loop_done {step : σ → Reader (Progress σ β)} {s : σ} {b : β}
    {ts rest : List Lexeme} (h : Takes (step s) ts rest (.done b)) :
    Takes (loop step s) ts rest b := fun d stop => Reader.loop_done (h d stop)

theorem Takes.loop_again {step : σ → Reader (Progress σ β)} (progresses : Progresses step)
    {s s' : σ} {b : β} {ts us rest : List Lexeme} (h : Takes (step s) ts (us ++ rest) (.again s'))
    (h' : Takes (loop step s') us rest b) : Takes (loop step s) (ts ++ us) rest b := by
  intro d stop
  rw [List.append_assoc, Reader.loop_again progresses (h d stop), h', stopAfter_append]

/-- The reader `first` and some steps of the loop behind it take the lexemes, which leaves the loop
at `a`. -/
def Leads (first : Reader σ) (step : σ → Reader (Progress σ σ)) (ts rest : List Lexeme) (a : σ) :
    Prop :=
  ∀ d s, (first >>= loop step) ⟨ts ++ rest, d, s⟩ = loop step a ⟨rest, stopAfter d ts, s⟩

namespace Leads

variable {first : Reader σ} {step : σ → Reader (Progress σ σ)} {a b : σ} {ts us rest : List Lexeme}

theorem of_takes (h : Takes first ts rest a) : Leads first step ts rest a :=
  fun d s => bind_of_ok (h d s) _

theorem again (h : Leads first step ts (us ++ rest) a) (progresses : Progresses step)
    (h' : Takes (step a) us rest (.again b)) : Leads first step (ts ++ us) rest b := by
  intro d s
  rw [List.append_assoc, h, Reader.loop_again progresses (h' _ _), stopAfter_append]

theorem done (h : Leads first step ts rest a) (h' : Takes (step a) [] rest (.done b)) :
    Takes (first >>= loop step) ts rest b :=
  fun d s => (h d s).trans (Reader.loop_done (h' _ _))

end Leads

/-! ## Lists with commas between their members -/

/-- A step of a loop over members, up to a closing bracket that stays. -/
def separatedStep (close : TokenKind) (read : Reader α) (before : List α) :
    Reader (Progress (List α) (List α)) := do
  if ← nextIs close then
    return .done before.reverse
  else
    let a ← read
    match ← accept? (.punctuator .comma) with
    | some _ => return .again (a :: before)
    | none => return .done (a :: before).reverse

/-- How a list with commas between its members is written, when `item` tells how a member is. -/
structure Separates (item : α → List Lexeme → List Lexeme → Prop)
    (list : List α → List Lexeme → List Lexeme → Prop) : Prop where
  nil : ∀ {rest}, list [] [] rest
  last : ∀ {a ts rest}, item a ts rest → list [a] ts rest
  cons : ∀ {a as k ts us rest}, k.kind = .punctuator .comma → item a ts (k :: (us ++ rest)) →
    list as us rest → list (a :: as) (ts ++ k :: us) rest

theorem collects_separatedStep {item : α → List Lexeme → List Lexeme → Prop}
    {list : List α → List Lexeme → List Lexeme → Prop} (separates : Separates item list)
    {close : TokenKind} {read : Reader α}
    (reads : ∀ {c a c'}, read c = .ok a c' → ∃ ts, c.Took ts c' ∧ item a ts c'.rest)
    {before : List α} {p : Progress (List α) (List α)}
    (ok : separatedStep close read before c = .ok p c') : Collects list before c p c' := by
  obtain ⟨isClose, c₁, look, ok⟩ := bind_eq_ok.1 ok
  cases isClose with
  | true =>
    obtain ⟨rfl, _⟩ := nextIs_eq_true look
    obtain ⟨rfl, rfl⟩ := pure_eq_ok.1 ok
    exact .done (by simp) (.refl _) separates.nil
  | false =>
    obtain ⟨rfl, _⟩ := nextIs_eq_false look
    obtain ⟨a, c₂, first, ok⟩ := bind_eq_ok.1 ok
    obtain ⟨ts, took, written⟩ := reads first
    obtain ⟨comma?, c₃, second, ok⟩ := bind_eq_ok.1 ok
    cases comma? with
    | some k =>
      obtain ⟨took', kind⟩ := accept?_took second
      obtain ⟨rfl, rfl⟩ := pure_eq_ok.1 ok
      refine .again (by simp) (took.trans took') ?_
      intro more us rest eq tail
      rw [took'.rest, eq] at written
      rw [List.append_assoc]
      exact separates.cons kind written tail
    | none =>
      obtain ⟨rfl, _⟩ := accept?_eq_none second
      obtain ⟨rfl, rfl⟩ := pure_eq_ok.1 ok
      exact .done (by simp) took (separates.last written)

section

variable {close : TokenKind} {read : Reader α} {k : Lexeme} {ts us rest : List Lexeme}

theorem takes_separatedNil (kind : k.kind = close) (before : List α) :
    Takes (loop (separatedStep close read) before) [] (k :: rest) (before.reverse ++ []) := by
  refine .loop_done fun d s => ?_
  rw [List.append_nil]
  exact bind_eq_ok.2 ⟨_, _, nextIs_cons kind, rfl⟩

theorem takes_separatedLast {a : α} (notClose : Stops (· == close) (ts ++ k :: rest))
    (notComma : k.kind ≠ .punctuator .comma) (first : Takes read ts (k :: rest) a)
    (before : List α) :
    Takes (loop (separatedStep close read) before) ts (k :: rest) (before.reverse ++ [a]) := by
  refine .loop_done fun d s => ?_
  refine bind_eq_ok.2 ⟨_, _, nextIs_of_stops notClose, bind_eq_ok.2 ⟨_, _, first d s, ?_⟩⟩
  refine bind_eq_ok.2 ⟨_, _, accept?_of_stops (stops_cons.2 (by simpa using notComma)), ?_⟩
  simp [pure_eq_ok]

theorem takes_separatedCons {a : α} {list : List α}
    (progresses : Progresses (separatedStep close read))
    (notClose : Stops (· == close) (ts ++ k :: (us ++ rest)))
    (comma : k.kind = .punctuator .comma) (first : Takes read ts (k :: (us ++ rest)) a)
    (more : ∀ before, Takes (loop (separatedStep close read) before) us rest
      (before.reverse ++ list)) (before : List α) :
    Takes (loop (separatedStep close read) before) (ts ++ k :: us) rest
      (before.reverse ++ a :: list) := by
  have step : Takes (separatedStep close read before) (ts ++ [k]) (us ++ rest)
      (.again (a :: before)) := by
    intro d s
    rw [List.append_assoc, List.singleton_append]
    refine bind_eq_ok.2 ⟨_, _, nextIs_of_stops notClose, bind_eq_ok.2 ⟨_, _, first d s, ?_⟩⟩
    refine bind_eq_ok.2 ⟨_, _, accept?_cons comma, ?_⟩
    rw [stopAfter_append]
    rfl
  have more := more (a :: before)
  rw [List.reverse_cons, List.append_assoc] at more
  have all := step.loop_again progresses more
  rwa [List.append_assoc] at all

end

end Reader

end EcmaFront
