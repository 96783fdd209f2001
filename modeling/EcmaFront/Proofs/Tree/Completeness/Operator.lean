import EcmaFront.Proofs.Tree.Completeness.Primary

/-!
# Links and operators are read as they are written

A loop is told by what leads to its next state (`Reader.Leads`): after the tokens of a chain it goes
on as if the expression of the chain had been there from the start. For operators that needs the
next one to be as loose as the right operand of the last one lets it be, `Expr.rightRank`.
-/

namespace EcmaFront

open Reader

namespace TokenKind

theorem ofKind?_update_eq_none {kind : TokenKind} (h : kind.continuesOperand = false) :
    UpdateOperator.ofKind? kind = none := by
  simp only [continuesOperand, Bool.or_eq_false_iff, Option.isSome_eq_false_iff,
    Option.isNone_iff_eq_none] at h
  exact h.2

theorem access_of_not_continuesCallee {kind : TokenKind} (h : kind.continuesCallee = false) :
    (kind.linkStart == .dot || kind.linkStart == .bracket) = false := by
  unfold continuesCallee at h
  cases start : kind.linkStart <;> simp_all

theorem linkStart_update (op : UpdateOperator) : op.kind.linkStart = .other := by
  cases op <;> rfl

end TokenKind

theorem Lexeme.notNew_of_primaryStart {t : Lexeme} (h : t.primaryStart ≠ .other) :
    t.kind ≠ .keyword .newKw := by
  intro isNew
  exact h (by rw [primaryStart, isNew])

/-- Every primary expression starts with a token that decides on its form. -/
theorem Written.notNew_of_primary {n : Nat} {e : Expr} {ts rest : List Lexeme}
    (h : Written n (.primary e) ts rest) (more : List Lexeme) :
    Stops (· == .keyword .newKw) (ts ++ more) := by
  have notNew {t : Lexeme} {us : List Lexeme} (start : t.primaryStart ≠ .other) :
      Stops (· == .keyword .newKw) (t :: us) :=
    stops_cons.2 (beq_eq_false_iff_ne.2 (Lexeme.notNew_of_primaryStart start))
  cases h with
  | number start | leaf start | importMeta start | parenthesized start | array start
  | object start => exact notNew (by simp [start])

namespace Expr

variable {n : Nat}

/-! ## Links -/

theorem nextLink_cons {t : Lexeme} {link : LinkStart} {rest : List Lexeme} {d s : Nat}
    (start : t.kind.linkStart = link) :
    nextLink ⟨t :: rest, d, s⟩ = .ok link ⟨t :: rest, d, s⟩ := by
  simp [nextLink, start]

theorem takes_finishProperty {object : Expr} {optional : Bool} {i : Lexeme} {rest : List Lexeme}
    (isName : i.kind.isPropertyName = true) :
    Takes (finishProperty object optional) [i] rest
      (.property object ⟨i.text, i.span⟩ optional (.ofBounds object.span.start i.span.stop)) := by
  intro d s
  have first : readPropertyName ⟨i :: rest, d, s⟩ =
      .ok ⟨i.text, i.span⟩ ⟨rest, i.span.stop, s⟩ := by
    refine bind_eq_ok.2 ⟨_, _, rfl, ?_⟩
    simp only [List.head?_cons, if_pos isName]
    exact bind_eq_ok.2 ⟨_, _, rfl, rfl⟩
  exact bind_eq_ok.2 ⟨_, _, first, returnSpan_eq_ok.2 ⟨rfl, rfl⟩⟩

theorem takes_finishElement {object index : Expr} {optional : Bool} {b k : Lexeme}
    {ts rest : List Lexeme} (bracket : b.kind = .punctuator .openBracket)
    (close : k.kind = .punctuator .closeBracket)
    (readIndex : Takes (read (.within n)) ts (k :: rest) index) :
    Takes (finishElement (.within n) object optional) (b :: (ts ++ [k])) rest
      (.element object index optional (.ofBounds object.span.start k.span.stop)) := by
  intro d s
  rw [List.cons_append, List.append_assoc, List.singleton_append]
  refine bind_eq_ok.2 ⟨_, _, expectOr_cons bracket, bind_eq_ok.2 ⟨_, _, readIndex _ _, ?_⟩⟩
  refine bind_eq_ok.2 ⟨_, _, expectOr_cons close, returnSpan_eq_ok.2 ⟨rfl, ?_⟩⟩
  simp [stopAfter]

theorem takes_finishCall {callee : Expr} {list : List Argument} {optional : Bool} {p k : Lexeme}
    {ts rest : List Lexeme}
    (readList : Takes (readArguments (.within n)) (p :: (ts ++ [k])) rest list) :
    Takes (finishCall (.within n) callee optional) (p :: (ts ++ [k])) rest
      (.call callee list optional (.ofBounds callee.span.start k.span.stop)) := by
  intro d s
  refine bind_eq_ok.2 ⟨_, _, readList d s, returnSpan_eq_ok.2 ⟨?_, rfl⟩⟩
  rw [← List.cons_append, stopAfter_append]
  rfl

/-- A link adds at least one token. -/
theorem ne_nil_of_link {object e : Expr} {ts rest : List Lexeme}
    (h : Written n (.link object e) ts rest) : ts ≠ [] := by
  have ofAccess {ts : List Lexeme} (h : Written n (.access object e) ts rest) : ts ≠ [] := by
    cases h with
    | accessName => simp
    | accessElement h => cases h; simp
  cases h with
  | linkAccess h => exact ofAccess h
  | linkCall h => cases h; simp
  | optionalName | optionalElement | optionalCall => simp

theorem progresses_linkStep : Progresses (linkStep (.within n)) := by
  intro object e c c' step
  obtain ⟨done, _⟩ | ⟨_, ts, eq, took, written⟩ := linkStep_reads (Nested.sound_within n) step
  · cases done
  have := took.length_eq
  have := List.length_pos_iff.2 (ne_nil_of_link written)
  omega

theorem progresses_calleeStep : Progresses (calleeStep (.within n)) := by
  intro object e c c' step
  obtain ⟨done, _⟩ | ⟨_, ts, eq, took, written⟩ := calleeStep_reads (Nested.sound_within n) step
  · cases done
  have := took.length_eq
  have := List.length_pos_iff.2 (ne_nil_of_link (.linkAccess written))
  omega

/-- An access is a step of both loops. -/
def AccessTaken (n : Nat) (object e : Expr) (ts rest : List Lexeme) : Prop :=
  Takes (calleeStep (.within n) object) ts rest (.again e) ∧
    Takes (linkStep (.within n) object) ts rest (.again e)

theorem takes_accessName {object : Expr} {dot i : Lexeme} {rest : List Lexeme}
    (isDot : dot.kind = .punctuator .dot) (isName : i.kind.isPropertyName = true) :
    AccessTaken n object (.property object ⟨i.text, i.span⟩ false
      (.ofBounds object.span.start i.span.stop)) [dot, i] rest := by
  have start : dot.kind.linkStart = .dot := by rw [isDot]; rfl
  constructor <;> intro d s
  · refine bind_eq_ok.2 ⟨_, _, nextLink_cons start, bind_eq_ok.2 ⟨_, _, rfl, ?_⟩⟩
    exact bind_eq_ok.2 ⟨_, _, takes_finishProperty isName _ _, rfl⟩
  · refine bind_eq_ok.2 ⟨_, _, nextLink_cons start, bind_eq_ok.2 ⟨_, _, rfl, ?_⟩⟩
    exact bind_eq_ok.2 ⟨_, _, takes_finishProperty isName _ _, rfl⟩

theorem takes_accessElement {object e : Expr} {b : Lexeme} {ts rest : List Lexeme}
    (bracket : b.kind = .punctuator .openBracket)
    (readRest : Takes (finishElement (.within n) object false) (b :: ts) rest e) :
    AccessTaken n object e (b :: ts) rest := by
  have start : b.kind.linkStart = .bracket := by rw [bracket]; rfl
  constructor <;> intro d s
  · exact bind_eq_ok.2 ⟨_, _, nextLink_cons start, bind_eq_ok.2 ⟨_, _, readRest d s, rfl⟩⟩
  · exact bind_eq_ok.2 ⟨_, _, nextLink_cons start, bind_eq_ok.2 ⟨_, _, readRest d s, rfl⟩⟩

theorem takes_linkCall {callee e : Expr} {p : Lexeme} {ts rest : List Lexeme}
    (paren : p.kind = .punctuator .openParen)
    (readRest : Takes (finishCall (.within n) callee false) (p :: ts) rest e) :
    Takes (linkStep (.within n) callee) (p :: ts) rest (.again e) := by
  intro d s
  have start : p.kind.linkStart = .paren := by rw [paren]; rfl
  exact bind_eq_ok.2 ⟨_, _, nextLink_cons start, bind_eq_ok.2 ⟨_, _, readRest d s, rfl⟩⟩

/-- What follows the token `?.` decides how the link goes on. -/
theorem takes_optional {object e : Expr} {q : Lexeme} {ts rest : List Lexeme}
    (isOptional : q.kind = .punctuator .optionalDot)
    (readRest : Takes (finishOptional (.within n) object) ts rest e) :
    Takes (linkStep (.within n) object) (q :: ts) rest (.again e) := by
  intro d s
  have start : q.kind.linkStart = .optionalDot := by rw [isOptional]; rfl
  refine bind_eq_ok.2 ⟨_, _, nextLink_cons start, bind_eq_ok.2 ⟨_, _, rfl, ?_⟩⟩
  exact bind_eq_ok.2 ⟨_, _, readRest _ _, rfl⟩

theorem takes_optionalName {object : Expr} {i : Lexeme} {rest : List Lexeme}
    (isName : i.kind.isPropertyName = true) :
    Takes (finishOptional (.within n) object) [i] rest
      (.property object ⟨i.text, i.span⟩ true (.ofBounds object.span.start i.span.stop)) := by
  intro d s
  have other : i.kind.linkStart = .other := by
    cases kind : i.kind <;> simp_all [TokenKind.isPropertyName_eq, TokenKind.linkStart]
  exact bind_eq_ok.2 ⟨_, _, nextLink_cons other, takes_finishProperty isName d s⟩

theorem takes_optionalElement {object e : Expr} {b : Lexeme} {ts rest : List Lexeme}
    (bracket : b.kind = .punctuator .openBracket)
    (readRest : Takes (finishElement (.within n) object true) (b :: ts) rest e) :
    Takes (finishOptional (.within n) object) (b :: ts) rest e := by
  intro d s
  have start : b.kind.linkStart = .bracket := by rw [bracket]; rfl
  exact bind_eq_ok.2 ⟨_, _, nextLink_cons start, readRest d s⟩

theorem takes_optionalCall {callee e : Expr} {p : Lexeme} {ts rest : List Lexeme}
    (paren : p.kind = .punctuator .openParen)
    (readRest : Takes (finishCall (.within n) callee true) (p :: ts) rest e) :
    Takes (finishOptional (.within n) callee) (p :: ts) rest e := by
  intro d s
  have start : p.kind.linkStart = .paren := by rw [paren]; rfl
  exact bind_eq_ok.2 ⟨_, _, nextLink_cons start, readRest d s⟩

/-! ## Heads -/

theorem takes_headPrimary {e : Expr} {ts rest : List Lexeme}
    (written : Written n (.primary e) ts rest)
    (readPrimary : Takes (readPrimary (.within n)) ts rest e) :
    Takes (readHead (.within n)) ts rest e := fun d s =>
  bind_eq_ok.2 ⟨_, _, nextIs_of_stops (written.notNew_of_primary rest), readPrimary d s⟩

/-- The word `new` is read with the readers one level further in. -/
theorem takes_headNew {w : Lexeme} {e : Expr} {ts rest : List Lexeme}
    (isNew : w.kind = .keyword .newKw)
    (readNew : Takes (readConstruct (.within n)) (w :: ts) rest e) :
    Takes (readHead (.within (n + 1))) (w :: ts) rest e := fun d s =>
  bind_eq_ok.2 ⟨_, _, nextIs_cons isNew, readNew d s⟩

theorem takes_newTarget {w dot t : Lexeme} {rest : List Lexeme}
    (isDot : dot.kind = .punctuator .dot) (kind : t.kind = .identifier)
    (text : t.text = "target".toList) :
    Takes (readConstruct (.within n)) [w, dot, t] rest
      (.leaf .newTarget (.ofBounds w.span.start t.span.stop)) := by
  intro d s
  refine bind_eq_ok.2 ⟨_, _, get_eq_ok.2 ⟨rfl, rfl⟩, bind_eq_ok.2 ⟨_, _, rfl, ?_⟩⟩
  refine bind_eq_ok.2 ⟨_, _, accept?_cons isDot, ?_⟩
  exact bind_eq_ok.2 ⟨_, _, readMetaName_eq_ok kind text, returnSpan_eq_ok.2 ⟨rfl, rfl⟩⟩

theorem notDot_of_opens {ts : List Lexeme} (h : Opens TokenKind.startsHead ts)
    (rest : List Lexeme) : Stops (· == .punctuator .dot) (ts ++ rest) := by
  obtain ⟨t, us, rfl, first, _⟩ := h
  refine stops_cons.2 (beq_eq_false_iff_ne.2 fun isDot => ?_)
  rw [isDot] at first
  cases first

/-- The loop does not go on at a token that is no link. -/
theorem takes_noLink {object : Expr} {rest : List Lexeme}
    (stop : Stops (fun kind => kind.linkStart != .other) rest) :
    Takes (linkStep (.within n) object) [] rest (.done object) := by
  intro d s
  have link : nextLink ⟨rest, d, s⟩ = .ok .other ⟨rest, d, s⟩ := by
    cases rest with
    | nil => rfl
    | cons t rest =>
      have other : t.kind.linkStart = .other := by simpa using stop
      simp [nextLink, other]
  exact bind_eq_ok.2 ⟨_, _, link, rfl⟩

theorem takes_noAccess {object : Expr} {rest : List Lexeme}
    (stop : Stops (fun kind => kind.linkStart == .dot || kind.linkStart == .bracket) rest) :
    Takes (calleeStep (.within n) object) [] rest (.done object) := by
  intro d s
  refine bind_eq_ok.2 ⟨_, _, rfl, ?_⟩
  cases rest with
  | nil => rfl
  | cons t rest =>
    have noAccess := stops_cons.1 stop
    simp only [List.nil_append, List.head?_cons, Option.map_some, Option.getD_some]
    cases start : t.kind.linkStart with
    | dot | bracket => simp [start] at noAccess
    | paren | optionalDot | other => rfl

/-- `new` with a callee; what comes behind it decides on the form. -/
theorem construct_eq {callee e : Expr} {w : Lexeme} {ts rest : List Lexeme}
    (opens : Opens TokenKind.startsHead ts)
    (readCallee : Takes (readHead (.within n) >>= loop (calleeStep (.within n))) ts rest callee)
    {d s : Nat} {c' : Cursor}
    (finish : (do
      if ← nextIs (.punctuator .openParen) then
        let arguments ← readArguments (.within n)
        return .construct callee arguments (← spanFrom w.span.start)
      else
        return .constructBare callee (← spanFrom w.span.start) : Reader Expr)
      ⟨rest, stopAfter w.span.stop ts, s⟩ = .ok e c') :
    readConstruct (.within n) ⟨w :: (ts ++ rest), d, s⟩ = .ok e c' := by
  refine bind_eq_ok.2 ⟨_, _, get_eq_ok.2 ⟨rfl, rfl⟩, bind_eq_ok.2 ⟨_, _, rfl, ?_⟩⟩
  refine bind_eq_ok.2 ⟨_, _, accept?_of_stops (notDot_of_opens opens rest), ?_⟩
  obtain ⟨object, c₁, first, more⟩ := bind_eq_ok.1 (readCallee w.span.stop s)
  exact bind_eq_ok.2 ⟨_, _, first, bind_eq_ok.2 ⟨_, _, more, finish⟩⟩

theorem takes_construct {callee : Expr} {list : List Argument} {w p k : Lexeme}
    {ts us rest : List Lexeme} (opens : Opens TokenKind.startsHead ts)
    (paren : p.kind = .punctuator .openParen)
    (readCallee : Takes (readHead (.within n) >>= loop (calleeStep (.within n))) ts
      (p :: (us ++ k :: rest)) callee)
    (readList : Takes (readArguments (.within n)) (p :: (us ++ [k])) rest list) :
    Takes (readConstruct (.within n)) (w :: (ts ++ p :: (us ++ [k]))) rest
      (.construct callee list (.ofBounds w.span.start k.span.stop)) := by
  intro d s
  have readList := readList (stopAfter w.span.stop ts) s
  simp only [List.cons_append, List.append_assoc] at readList ⊢
  refine construct_eq opens readCallee (bind_eq_ok.2 ⟨_, _, nextIs_cons paren, ?_⟩)
  refine bind_eq_ok.2 ⟨_, _, readList, returnSpan_eq_ok.2 ⟨?_, ?_⟩⟩
  · simp [stopAfter]
  · simp [stopAfter]

theorem takes_constructBare {callee : Expr} {w : Lexeme} {ts rest : List Lexeme}
    (opens : Opens TokenKind.startsHead ts) (stop : Stops TokenKind.continuesCallee rest)
    (readCallee : Takes (readHead (.within n) >>= loop (calleeStep (.within n))) ts rest callee) :
    Takes (readConstruct (.within n)) (w :: ts) rest
      (.constructBare callee (.ofBounds w.span.start (stopAfter w.span.stop ts))) := by
  intro d s
  have notParen : Stops (· == .punctuator .openParen) rest :=
    stop.mono fun isParen => by rw [beq_iff_eq.1 isParen]; rfl
  refine construct_eq opens readCallee (bind_eq_ok.2 ⟨_, _, nextIs_of_stops notParen, ?_⟩)
  exact returnSpan_eq_ok.2 ⟨rfl, rfl⟩

/-! ## Operands -/

theorem takes_updatedLinks {e : Expr} {ts rest : List Lexeme}
    (stop : Stops TokenKind.continuesOperand rest)
    (leads : Leads (readHead (.within n)) (linkStep (.within n)) ts rest e) :
    Takes (readUpdated (.within n)) ts rest e := by
  intro d s
  have noLink : Stops (fun kind => kind.linkStart != .other) rest :=
    stop.mono (by simp +contextual [TokenKind.continuesOperand])
  refine bind_eq_ok.2 ⟨_, _, leads.done (takes_noLink noLink) d s, bind_eq_ok.2 ⟨_, _, rfl, ?_⟩⟩
  cases rest with
  | nil => rfl
  | cons t rest =>
    simp only [List.getElem?_cons_zero, Option.map_some, Option.bind_some,
      TokenKind.ofKind?_update_eq_none (stops_cons.1 stop)]
    rfl

theorem takes_updateBehind {op : UpdateOperator} {e : Expr} {o : Lexeme} {ts rest : List Lexeme}
    (isOp : op.kind = o.kind) (assignable : e.isAssignable = true)
    (leads : Leads (readHead (.within n)) (linkStep (.within n)) ts (o :: rest) e) :
    Takes (readUpdated (.within n)) (ts ++ [o]) rest
      (.update op false e (.ofBounds e.span.start o.span.stop)) := by
  intro d s
  rw [List.append_assoc, List.singleton_append]
  have noLink : Stops (fun kind => kind.linkStart != .other) (o :: rest) :=
    stops_cons.2 (by simp [← isOp, TokenKind.linkStart_update])
  refine bind_eq_ok.2 ⟨_, _, leads.done (takes_noLink noLink) d s, bind_eq_ok.2 ⟨_, _, rfl, ?_⟩⟩
  simp only [List.getElem?_cons_zero, Option.map_some, Option.bind_some,
    UpdateOperator.ofKind?_eq_some_iff.2 isOp, if_pos assignable]
  refine bind_eq_ok.2 ⟨_, _, rfl, returnSpan_eq_ok.2 ⟨rfl, ?_⟩⟩
  simp [Cursor.past, stopAfter]

theorem takes_operandUpdated {e : Expr} {ts rest : List Lexeme}
    (opens : Opens TokenKind.startsHead ts) (readE : Takes (readUpdated (.within n)) ts rest e) :
    Takes (readOperand (.within n)) ts rest e := by
  intro d s
  obtain ⟨t, us, rfl, first, _⟩ := opens
  refine bind_eq_ok.2 ⟨_, _, rfl, ?_⟩
  simp only [List.cons_append, List.head?_cons, TokenKind.operandStart_of_startsHead first]
  exact readE d s

theorem takes_updateAhead {op : UpdateOperator} {e : Expr} {o : Lexeme} {ts rest : List Lexeme}
    (start : o.kind.operandStart = .update op) (assignable : e.isAssignable = true)
    (readE : Takes (readOperand (.within n)) ts rest e) :
    Takes (readOperand (.within (n + 1))) (o :: ts) rest
      (.update op true e (.ofBounds o.span.start (stopAfter o.span.stop ts))) := by
  intro d s
  refine bind_eq_ok.2 ⟨_, _, rfl, ?_⟩
  simp only [List.cons_append, List.head?_cons, start]
  refine bind_eq_ok.2 ⟨_, _, rfl, bind_eq_ok.2 ⟨_, _, readE _ _, ?_⟩⟩
  simp only [if_pos assignable]
  exact returnSpan_eq_ok.2 ⟨rfl, rfl⟩

theorem takes_prefixed {f : Expr → Span → Expr} {e : Expr} {o : Lexeme} {ts rest : List Lexeme}
    (readE : Takes (readOperand (.within n)) ts rest e) :
    Takes (do
      advance
      let e ← (Nested.within (n + 1)).operand
      return f e (← spanFrom o.span.start)) (o :: ts) rest
      (f e (.ofBounds o.span.start (stopAfter o.span.stop ts))) := by
  intro d s
  refine bind_eq_ok.2 ⟨_, _, rfl, bind_eq_ok.2 ⟨_, _, readE _ _, ?_⟩⟩
  exact returnSpan_eq_ok.2 ⟨rfl, rfl⟩

theorem takes_unary {op : UnaryOperator} {e : Expr} {o : Lexeme} {ts rest : List Lexeme}
    (start : o.kind.operandStart = .unary op)
    (readE : Takes (readOperand (.within n)) ts rest e) :
    Takes (readOperand (.within (n + 1))) (o :: ts) rest
      (.unary op e (.ofBounds o.span.start (stopAfter o.span.stop ts))) := by
  intro d s
  refine bind_eq_ok.2 ⟨_, _, rfl, ?_⟩
  simp only [List.cons_append, List.head?_cons, start]
  exact takes_prefixed readE d s

theorem takes_await {e : Expr} {o : Lexeme} {ts rest : List Lexeme}
    (start : o.kind.operandStart = .await)
    (readE : Takes (readOperand (.within n)) ts rest e) :
    Takes (readOperand (.within (n + 1))) (o :: ts) rest
      (.await e (.ofBounds o.span.start (stopAfter o.span.stop ts))) := by
  intro d s
  refine bind_eq_ok.2 ⟨_, _, rfl, ?_⟩
  simp only [List.cons_append, List.head?_cons, start]
  exact takes_prefixed readE d s

end Expr

/-! ## Chains of operators -/

theorem Precedence.le_rightFloor {p q : Precedence} (h : p.leftLeast ≤ q.rank) :
    p.rank ≤ q.rightFloor.rank := by
  revert h
  cases p <;> cases q <;> decide

/-- An operator that takes an expression as its left operand was left over by it. -/
theorem Written.rank_le_rightRank {n least : Nat} {p : Precedence} {e : Expr}
    {ts rest : List Lexeme} (h : Written n (.chain least e) ts rest) (le : p.leftLeast ≤ least) :
    p.rank ≤ e.rightRank := by
  cases h with
  | chainOperand operand =>
    rw [show e.rightRank = _ from operand.isOperand]
    exact p.rank_le_power
  | operationLeft _ _ le' | operationRight _ _ le' =>
    exact Precedence.le_rightFloor (Nat.le_trans le le')

namespace Expr

/-- The loop of operators that bind tighter than `floor`, from its first operand on. -/
def LeadsChain (n height : Nat) (floor : Precedence) (ts rest : List Lexeme) (e : Expr) : Prop :=
  Leads (readOperand (.within n))
    (chainStep (.within n) (readChainWithin (.within n) height) floor) ts rest e

/-- The expression is reached by every loop that takes operators of its ranks. -/
def ChainTaken (n least : Nat) (e : Expr) (ts rest : List Lexeme) : Prop :=
  ∀ (floor : Precedence) (height : Nat), floor.rank < least →
    Precedence.power.rank ≤ floor.rank + (height + 1) → LeadsChain n height floor ts rest e

theorem progresses_chainStep {height : Nat} {floor : Precedence}
    (high : Precedence.power.rank ≤ floor.rank + (height + 1)) :
    Progresses (chainStep (.within n) (readChainWithin (.within n) height) floor) := by
  intro left e c c' step
  obtain ⟨done, _⟩ | ⟨op, o, right, c₁, _, _, tighter, _, _, took, second⟩ := chainStep_reads step
  · cases done
  have isRight : ∃ us, c₁.Took us c' := by
    split at second
    · obtain ⟨m, us, _, took', _⟩ := (Nested.sound_within n).rightOperand second
      exact ⟨us, took'⟩
    · obtain ⟨us, took', _⟩ :=
        readChainWithin_reads (Nested.sound_within n) (by omega) second
      exact ⟨us, took'⟩
  obtain ⟨us, took'⟩ := isRight
  have := (took.cons took').length_eq
  simp only [List.length_cons] at this
  omega

theorem takes_noOperator {inner : Nested} {operandFrom : Precedence → Reader Expr}
    {floor : Precedence} {left : Expr} {rest : List Lexeme}
    (stop : Stops (TokenKind.bindsTighter floor.rank) rest) :
    Takes (chainStep inner operandFrom floor left) [] rest (.done left) := by
  intro d s
  have none : tighterOperator? floor ⟨rest, d, s⟩ = .ok none ⟨rest, d, s⟩ := by
    cases rest with
    | nil => rfl
    | cons t rest =>
      have loose := TokenKind.bindsTighter_eq_false.1 (stops_cons.1 stop)
      cases isOp : InfixOperator.ofKind? t.kind with
      | none => simp [tighterOperator?_eq, isOp]
      | some op => simpa [tighterOperator?_eq, isOp] using loose op isOp
  exact bind_eq_ok.2 ⟨_, _, none, rfl⟩

theorem takes_operator {inner : Nested} {operandFrom : Precedence → Reader Expr}
    {floor : Precedence} {op : InfixOperator} {left right : Expr} {o : Lexeme}
    {us rest : List Lexeme} (isOp : op.kind = o.kind) (tighter : floor.rank < op.precedence.rank)
    (mixLeft : mixesWith op left = false) (mixRight : mixesWith op right = false)
    (readRight : Takes (if op.precedence.groupsRight then inner.rightOperand
      else operandFrom op.precedence) us rest right) :
    Takes (chainStep inner operandFrom floor left) (o :: us) rest
      (.again (.operation op left right (left.span.cover right.span))) := by
  intro d s
  have some : tighterOperator? floor ⟨o :: (us ++ rest), d, s⟩ =
      .ok (some op) ⟨o :: (us ++ rest), d, s⟩ := by
    simp [tighterOperator?_eq, InfixOperator.ofKind?_eq_some_iff.2 isOp, tighter]
  refine bind_eq_ok.2 ⟨_, _, some, bind_eq_ok.2 ⟨_, _, rfl, ?_⟩⟩
  have readRight := readRight o.span.stop s
  have combined (c : Cursor) : combine op left right c =
      .ok (.operation op left right (left.span.cover right.span)) c := by
    simp [combine, mixLeft, mixRight, pure_eq_ok]
  split at readRight
  · next grouping =>
    simp only [if_pos grouping]
    exact bind_eq_ok.2 ⟨_, _, readRight, bind_eq_ok.2 ⟨_, _, combined _, rfl⟩⟩
  · next grouping =>
    simp only [if_neg grouping]
    exact bind_eq_ok.2 ⟨_, _, readRight, bind_eq_ok.2 ⟨_, _, combined _, rfl⟩⟩

theorem chainTaken_operand {least : Nat} {e : Expr} {ts rest : List Lexeme}
    (readE : Takes (readOperand (.within n)) ts rest e) : ChainTaken n least e ts rest :=
  fun _ _ _ _ => .of_takes readE

/-- A loop that can reach the expression gives it, if no operator for the loop follows. -/
theorem ChainTaken.takes {least height : Nat} {floor : Precedence} {e : Expr}
    {ts rest : List Lexeme} (h : ChainTaken n least e ts rest) (le : floor.rank < least)
    (high : Precedence.power.rank ≤ floor.rank + (height + 1))
    (stop : Stops (TokenKind.bindsTighter floor.rank) rest) :
    Takes (readChainWithin (.within n) (height + 1) floor) ts rest e :=
  (h floor height le high).done (takes_noOperator stop)

theorem chainTaken_left {least : Nat} {op : InfixOperator} {left right : Expr} {o : Lexeme}
    {ts us rest : List Lexeme} (isOp : op.kind = o.kind)
    (grouping : op.precedence.groupsRight = false) (le : least ≤ op.precedence.rank)
    (mixLeft : mixesWith op left = false) (mixRight : mixesWith op right = false)
    (stop : Stops (TokenKind.bindsTighter op.precedence.rank) rest)
    (isLeft : ChainTaken n op.precedence.rank left ts (o :: (us ++ rest)))
    (isRight : ChainTaken n (op.precedence.rank + 1) right us rest) :
    ChainTaken n least (.operation op left right (left.span.cover right.span))
      (ts ++ o :: us) rest := by
  intro floor height less high
  refine Leads.again (isLeft floor height (by omega) high) (progresses_chainStep high)
    (takes_operator isOp (by omega) mixLeft mixRight ?_)
  rw [if_neg (by simp [grouping])]
  -- Only `**` has the highest rank, so a level is left for the right operand.
  have notPower : op.precedence.rank < Precedence.power.rank := by
    refine Nat.lt_of_le_of_ne op.precedence.rank_le_power fun same => ?_
    rw [Precedence.rank_inj same] at grouping
    cases grouping
  cases height with
  | zero => omega
  | succ height => exact isRight.takes (by omega) (by omega) stop

theorem chainTaken_right {least : Nat} {op : InfixOperator} {left right : Expr} {o : Lexeme}
    {ts us rest : List Lexeme} (isOp : op.kind = o.kind)
    (grouping : op.precedence.groupsRight = true) (le : least ≤ op.precedence.rank)
    (mixLeft : mixesWith op left = false) (mixRight : mixesWith op right = false)
    (stop : Stops (TokenKind.bindsTighter op.precedence.rightFloor.rank) rest)
    (isLeft : ChainTaken (n + 1) (op.precedence.rank + 1) left ts (o :: (us ++ rest)))
    (isRight : ChainTaken n op.precedence.rank right us rest) :
    ChainTaken (n + 1) least (.operation op left right (left.span.cover right.span))
      (ts ++ o :: us) rest := by
  intro floor height less high
  refine Leads.again (isLeft floor height (by omega) high) (progresses_chainStep high)
    (takes_operator isOp (by omega) mixLeft mixRight ?_)
  rw [if_pos grouping]
  rw [Precedence.eq_power_of_groupsRight grouping] at isRight stop
  change Takes (readChainWithin (.within n) 1 Precedence.power.rightFloor) us rest right
  exact isRight.takes (by decide) (by decide) stop

/-! ## Conditional forms and assignments -/

theorem takes_chain {e : Expr} {ts rest : List Lexeme}
    (h : ChainTaken n (Precedence.conditional.rank + 1) e ts rest)
    (stop : Stops (TokenKind.bindsTighter Precedence.conditional.rank) rest) :
    Takes (readChain (.within n) .conditional) ts rest e :=
  h.takes (Nat.lt_succ_self _) (by decide) stop

theorem takes_unconditional {e : Expr} {ts rest : List Lexeme}
    (stop : Stops TokenKind.continuesConditional rest)
    (readE : Takes (readChain (.within n) .conditional) ts rest e) :
    Takes (readConditional (.within n)) ts rest e := by
  intro d s
  have noQuestion : Stops (· == .punctuator .question) rest :=
    stop.mono (by simp +contextual [TokenKind.continuesConditional])
  exact bind_eq_ok.2 ⟨_, _, readE d s, bind_eq_ok.2 ⟨_, _, accept?_of_stops noQuestion, rfl⟩⟩

theorem takes_conditional {condition whenTrue whenFalse : Expr} {q k : Lexeme}
    {ts us vs rest : List Lexeme} (question : q.kind = .punctuator .question)
    (colon : k.kind = .punctuator .colon)
    (readCondition : Takes (readChain (.within n) .conditional) ts
      (q :: (us ++ k :: (vs ++ rest))) condition)
    (readTrue : Takes (Nested.within n).assignment us (k :: (vs ++ rest)) whenTrue)
    (readFalse : Takes (Nested.within n).assignment vs rest whenFalse) :
    Takes (readConditional (.within n)) (ts ++ q :: (us ++ k :: vs)) rest
      (.conditional condition whenTrue whenFalse
        (.ofBounds condition.span.start (stopAfter k.span.stop vs))) := by
  intro d s
  have readCondition := readCondition d s
  simp only [List.append_assoc, List.cons_append] at readCondition ⊢
  refine bind_eq_ok.2 ⟨_, _, readCondition, bind_eq_ok.2 ⟨_, _, accept?_cons question, ?_⟩⟩
  refine bind_eq_ok.2 ⟨_, _, readTrue _ _, bind_eq_ok.2 ⟨_, _, expectOr_cons colon, ?_⟩⟩
  refine bind_eq_ok.2 ⟨_, _, readFalse _ _, returnSpan_eq_ok.2 ⟨rfl, ?_⟩⟩
  simp [stopAfter]

theorem takes_yield {y : Lexeme} {rest : List Lexeme} (kind : y.kind = .keyword .yieldKw)
    (stop : Stops TokenKind.startsYieldOperand rest) :
    Takes (readAssignment (.within n)) [y] rest (.yield (.ofBounds y.span.start y.span.stop)) := by
  intro d s
  change readAssignment _ ⟨y :: rest, d, s⟩ = _
  refine bind_eq_ok.2 ⟨_, _, nextIs_cons kind, ?_⟩
  refine bind_eq_ok.2 ⟨_, _, get_eq_ok.2 ⟨rfl, rfl⟩, bind_eq_ok.2 ⟨_, _, rfl, ?_⟩⟩
  have noStar : Stops (· == .punctuator .star) rest :=
    stop.mono (by simp +contextual [TokenKind.startsYieldOperand])
  refine bind_eq_ok.2 ⟨_, _, accept?_of_stops noStar, bind_eq_ok.2 ⟨_, _, rfl, ?_⟩⟩
  cases rest with
  | nil => exact returnSpan_eq_ok.2 ⟨rfl, rfl⟩
  | cons t rest =>
    have loose := stops_cons.1 stop
    simp only [List.getElem?_cons_zero, Option.map_some, loose]
    exact returnSpan_eq_ok.2 ⟨rfl, rfl⟩

theorem takes_yieldValue {y : Lexeme} {e : Expr} {ts rest : List Lexeme}
    (kind : y.kind = .keyword .yieldKw) (opens : Opens TokenKind.startsAssignment ts)
    (readE : Takes (Nested.within n).assignment ts rest e) :
    Takes (readAssignment (.within n)) (y :: ts) rest
      (.yieldValue false e (.ofBounds y.span.start (stopAfter y.span.stop ts))) := by
  intro d s
  change readAssignment _ ⟨y :: (ts ++ rest), d, s⟩ = _
  refine bind_eq_ok.2 ⟨_, _, nextIs_cons kind, ?_⟩
  refine bind_eq_ok.2 ⟨_, _, get_eq_ok.2 ⟨rfl, rfl⟩, bind_eq_ok.2 ⟨_, _, rfl, ?_⟩⟩
  obtain ⟨t, us, rfl, first, _⟩ := opens
  obtain ⟨starts, noStar, _⟩ := TokenKind.startsYieldOperand_of_startsAssignment first
  refine bind_eq_ok.2 ⟨_, _, accept?_of_stops (stops_cons.2 (by simpa using noStar)), ?_⟩
  refine bind_eq_ok.2 ⟨_, _, rfl, ?_⟩
  simp only [List.cons_append, List.getElem?_cons_zero, Option.map_some, starts]
  exact bind_eq_ok.2 ⟨_, _, readE _ _, returnSpan_eq_ok.2 ⟨rfl, rfl⟩⟩

theorem takes_yieldAll {y star : Lexeme} {e : Expr} {ts rest : List Lexeme}
    (kind : y.kind = .keyword .yieldKw) (isStar : star.kind = .punctuator .star)
    (opens : Opens TokenKind.startsAssignment ts)
    (readE : Takes (Nested.within n).assignment ts rest e) :
    Takes (readAssignment (.within n)) (y :: star :: ts) rest
      (.yieldValue true e (.ofBounds y.span.start (stopAfter star.span.stop ts))) := by
  intro d s
  change readAssignment _ ⟨y :: star :: (ts ++ rest), d, s⟩ = _
  refine bind_eq_ok.2 ⟨_, _, nextIs_cons kind, ?_⟩
  refine bind_eq_ok.2 ⟨_, _, get_eq_ok.2 ⟨rfl, rfl⟩, bind_eq_ok.2 ⟨_, _, rfl, ?_⟩⟩
  obtain ⟨t, us, rfl, _⟩ := opens
  refine bind_eq_ok.2 ⟨_, _, accept?_cons isStar, bind_eq_ok.2 ⟨_, _, rfl, ?_⟩⟩
  exact bind_eq_ok.2 ⟨_, _, readE _ _, returnSpan_eq_ok.2 ⟨rfl, rfl⟩⟩

theorem startsArrow_eq_false {p : TokenKind → Bool} {ts : List Lexeme} (h : Opens p ts)
    (rest : List Lexeme) : startsArrow (ts ++ rest) = false := by
  obtain ⟨t, us, rfl, _, _, behindParen⟩ := h
  by_cases paren : t.kind = .punctuator .openParen
  · obtain ⟨u, head, other⟩ := behindParen paren
    obtain ⟨vs, rfl⟩ := List.head?_eq_some_iff.1 head
    cases eq : vs ++ rest <;> simp [startsArrow, eq, other]
  · unfold startsArrow
    split
    · next eq =>
      obtain ⟨rfl, _⟩ := List.cons.inj eq
      simp [paren]
    · rfl

/-- A conditional form; what comes behind it decides whether it is a target. -/
theorem readAssignment_eq_ok {target e : Expr} {ts rest : List Lexeme} {d s : Nat} {c' : Cursor}
    (opens : Opens TokenKind.startsOperand ts)
    (readTarget : Takes (readConditional (.within n)) ts rest target)
    (finish : finishAssignment (.within n) target ⟨rest, stopAfter d ts, s⟩ = .ok e c') :
    readAssignment (.within n) ⟨ts ++ rest, d, s⟩ = .ok e c' := by
  have notYield : Stops (· == .keyword .yieldKw) (ts ++ rest) := by
    obtain ⟨t, us, rfl, first, _⟩ := opens
    refine stops_cons.2 (beq_eq_false_iff_ne.2 fun isYield => ?_)
    rw [isYield] at first
    exact absurd first (by decide)
  refine bind_eq_ok.2 ⟨_, _, nextIs_of_stops notYield, ?_⟩
  refine bind_eq_ok.2 ⟨_, _, get_eq_ok.2 ⟨rfl, rfl⟩, ?_⟩
  simp only [startsArrow_eq_false opens]
  exact bind_eq_ok.2 ⟨_, _, readTarget d s, finish⟩

theorem takes_unassigned {e : Expr} {ts rest : List Lexeme}
    (opens : Opens TokenKind.startsOperand ts) (stop : Stops TokenKind.continuesAssignment rest)
    (readE : Takes (readConditional (.within n)) ts rest e) :
    Takes (readAssignment (.within n)) ts rest e := by
  intro d s
  refine readAssignment_eq_ok opens readE (bind_eq_ok.2 ⟨_, _, rfl, ?_⟩)
  cases rest with
  | nil => rfl
  | cons t rest =>
    have loose := stops_cons.1 stop
    simp only [TokenKind.continuesAssignment, Bool.or_eq_false_iff, beq_eq_false_iff_ne] at loose
    simp only [List.head?_cons, if_neg loose.1.2, TokenKind.isAssignment_eq_false loose.2]
    rfl

theorem takes_assigned {op : AssignmentOperator} {target value : Expr} {o : Lexeme}
    {ts us rest : List Lexeme} (opens : Opens TokenKind.startsOperand ts)
    (isOp : o.kind = .assignment op) (assignable : target.isAssignable = true)
    (readTarget : Takes (readConditional (.within n)) ts (o :: (us ++ rest)) target)
    (readValue : Takes (Nested.within n).assignment us rest value) :
    Takes (readAssignment (.within n)) (ts ++ o :: us) rest
      (.assignment op target value
        (.ofBounds target.span.start (stopAfter o.span.stop us))) := by
  intro d s
  rw [List.append_assoc, List.cons_append, stopAfter_append]
  refine readAssignment_eq_ok opens readTarget (bind_eq_ok.2 ⟨_, _, rfl, ?_⟩)
  have notArrow : ¬o.kind = .punctuator .arrow := by simp [isOp]
  have isOp' := AssignmentOperator.ofKind?_eq_some_iff.2 isOp.symm
  simp only [List.head?_cons, if_neg notArrow, isOp', if_pos assignable]
  refine bind_eq_ok.2 ⟨_, _, rfl, bind_eq_ok.2 ⟨_, _, readValue _ _, ?_⟩⟩
  exact returnSpan_eq_ok.2 ⟨rfl, rfl⟩

end Expr

end EcmaFront
