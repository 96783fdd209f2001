import EcmaFront.Proofs.Tree.Blame.Expression

/-!
# Errors in operations and assignments

An operand or a target that is blamed has just been read, so its span covers the tokens taken last
(`Cursor.JustTook`). The loop of operators keeps this of what it has read so far.
-/

namespace EcmaFront

open Reader

namespace Cursor

/-- The span covers the tokens taken last. -/
def JustTook (c₀ : Cursor) (span : Span) (c : Cursor) : Prop :=
  ∃ front us, c₀.Took (front ++ us) c ∧ Bounds span us

variable {c₀ c c₁ c' : Cursor} {strict : Bool} {ts us : List Lexeme}

theorem Reaches.lexed (h : c₀.Reaches c) (lexed : Lexed strict c₀.rest) (took : c.Took ts c') :
    Lexed strict ts := by
  obtain ⟨front, reached⟩ := h
  rw [reached.rest, took.rest] at lexed
  exact lexed.right.left

/-- An expression that has just been read. -/
theorem Reaches.justTook {e : Expr} (h : c₀.Reaches c) (lexed : Lexed strict c₀.rest)
    (took : c.Took ts c') (fills : Lexed strict ts → Filled [e.outline] ts) :
    c₀.JustTook e.span c' := by
  have filled := fills (h.lexed lexed took)
  obtain ⟨front, reached⟩ := h
  exact ⟨front, ts, reached.trans took, filled.bounds⟩

namespace JustTook

variable {span left right : Span}

theorem reaches (h : c₀.JustTook span c) : c₀.Reaches c := by
  obtain ⟨front, us, taken, _⟩ := h
  exact ⟨_, taken⟩

theorem covers (h : c₀.JustTook span c) : c₀.Covers span := by
  obtain ⟨front, us, taken, bounds⟩ := h
  exact ⟨us, ⟨front, c.rest, taken.rest.symm⟩, bounds⟩

/-- The span around what was taken last and what comes behind an operator. -/
theorem cover {o : Lexeme} (h : c₀.JustTook left c) (lexed : Lexed strict c₀.rest)
    (operator : c.Took [o] c₁) (took : c₁.Took us c') (bounds : Bounds right us) :
    c₀.JustTook (left.cover right) c' := by
  obtain ⟨front, ts, taken, boundsLeft⟩ := h
  have all := taken.trans (operator.trans took)
  rw [List.append_assoc] at all
  have inOrder : InOrder (ts ++ o :: us) := by
    rw [all.rest] at lexed
    exact lexed.left.right.inOrder
  exact ⟨front, ts ++ o :: us, all, boundsLeft.cover bounds inOrder⟩

end JustTook

end Cursor

namespace Expr

variable {c₀ : Cursor} {strict : Bool} {n : Nat}

/-! ## Operands -/

section

variable (h : (Nested.within n).Reports c₀) (lexed : Lexed strict c₀.rest)

include h lexed

theorem reports_readUpdated : Reports c₀ (readUpdated (.within n)) := by
  refine ⟨fun {c} reaches => .bind ((reports_readLinks h).here reaches) fun e c₁ first _ => ?_⟩
  obtain ⟨ts, took, written⟩ := reads_readLinks (Nested.sound_within n) first
  have taken : c₀.JustTook e.span c₁ := reaches.justTook lexed took written.fills
  refine .bind ((Reports.peekKind? 0).here taken.reaches) fun kind? c₂ look _ => ?_
  obtain ⟨_, rfl⟩ := peekKind?_eq_ok.1 look
  cases kind?.bind UpdateOperator.ofKind? with
  | none => exact .pure _ taken.reaches
  | some op =>
    refine .ite (fun _ => ?_) fun _ => .throw taken.reaches (.target taken.covers)
    exact .andThen (Reports.advance.here taken.reaches) fun _ => .returnSpan ..

theorem reports_readOperand : Reports c₀ (readOperand (.within n)) := by
  refine .peek .failAtEnd fun {t c} reaches head => ?_
  dsimp only
  cases t.kind.operandStart with
  | plain => exact (reports_readUpdated h lexed).here reaches
  | unary | await =>
    refine .andThen (Reports.advance.here reaches) fun _ => ?_
    exact .bind h.operand fun _ => .returnSpan ..
  | update op =>
    refine .bind (Reports.advance.here reaches) fun _ c₁ _ reaches₁ => ?_
    refine .bind (h.operand.here reaches₁) fun e c₂ second reaches₂ => ?_
    obtain ⟨m, ts, _, took, written⟩ := (Nested.sound_within n).operand second
    have taken : c₀.JustTook e.span c₂ := reaches₁.justTook lexed took written.fills
    refine .ite (fun _ => ?_) fun _ => .throw reaches₂ (.target taken.covers)
    exact (Reports.returnSpan _ _).here reaches₂

end

/-! ## Chains of operators -/

theorem reports_combine {op : InfixOperator} {left right : Expr} {c : Cursor}
    (taken : c₀.JustTook (left.span.cover right.span) c) :
    (combine op left right).ReportsAt c₀ c :=
  .ite (fun _ => .throw taken.reaches (.mixed taken.covers)) fun _ => .pure _ taken.reaches

variable (lexed : Lexed strict c₀.rest)

include lexed

/-- The right operand of an operator covers its tokens. -/
theorem bounds_rightOperand {height : Nat} {op : InfixOperator}
    (high : Precedence.power.rank ≤ op.precedence.rank + height) {right : Expr} {c c' : Cursor}
    (reaches : c₀.Reaches c)
    (ok : (if op.precedence.groupsRight then (Nested.within n).rightOperand
      else readChainWithin (.within n) height op.precedence) c = .ok right c') :
    ∃ us, c.Took us c' ∧ Bounds right.span us := by
  split at ok
  · obtain ⟨m, us, _, took, written, _⟩ := (Nested.sound_within n).rightOperand ok
    have filled : Filled [right.outline] us := written.fills (reaches.lexed lexed took)
    exact ⟨us, took, filled.bounds⟩
  · obtain ⟨us, took, written, _⟩ := readChainWithin_reads (Nested.sound_within n) high ok
    have filled : Filled [right.outline] us := written.fills (reaches.lexed lexed took)
    exact ⟨us, took, filled.bounds⟩

variable (h : (Nested.within n).Reports c₀)

include h

theorem reports_chainStep {height : Nat} {floor : Precedence}
    (high : Precedence.power.rank ≤ floor.rank + (height + 1))
    (operand : ∀ p : Precedence, Precedence.power.rank ≤ p.rank + height →
      Reports c₀ (readChainWithin (.within n) height p))
    {left : Expr} {c : Cursor} (taken : c₀.JustTook left.span c) :
    (chainStep (.within n) (readChainWithin (.within n) height) floor left).ReportsAt c₀ c := by
  have looks : Reports c₀ (tighterOperator? floor) :=
    .stays fun c => ⟨_, tighterOperator?_eq floor c⟩
  refine .bind (looks.here taken.reaches) fun op? c₁ look _ => ?_
  cases op? with
  | none =>
    obtain ⟨rfl, _⟩ := tighterOperator?_eq_none look
    exact .pure _ taken.reaches
  | some op =>
    obtain ⟨rfl, tighter, o, head, _⟩ := tighterOperator?_eq_some look
    refine .bind (Reports.advance.here taken.reaches) fun _ c₁ first reaches₁ => ?_
    have tookOp := advance_took head first
    have high' : Precedence.power.rank ≤ op.precedence.rank + height := by omega
    have combines (right : Expr) (c₂ : Cursor)
        (ok : (if op.precedence.groupsRight then (Nested.within n).rightOperand
          else readChainWithin (.within n) height op.precedence) c₁ = .ok right c₂) :
        (combine op left right >>= fun e => pure (Progress.again e) :
          Reader (Progress Expr Expr)).ReportsAt c₀ c₂ := by
      obtain ⟨us, took, bounds⟩ := bounds_rightOperand lexed high' reaches₁ ok
      refine .andThen (reports_combine ?_) fun _ => .pure _
      exact taken.cover lexed tookOp took bounds
    refine .ite (fun grouping => ?_) fun grouping => ?_
    · exact .bind (h.rightOperand.here reaches₁) fun right c₂ ok _ =>
        combines right c₂ (by rwa [if_pos grouping])
    · exact .bind ((operand _ high').here reaches₁) fun right c₂ ok _ =>
        combines right c₂ (by rwa [if_neg grouping])

theorem reports_readChainWithin {height : Nat} {floor : Precedence}
    (high : Precedence.power.rank ≤ floor.rank + height) :
    Reports c₀ (readChainWithin (.within n) height floor) := by
  induction height generalizing floor with
  | zero => exact reports_readOperand h lexed
  | succ height ih =>
    refine ⟨fun {c} reaches => ?_⟩
    refine .bind ((reports_readOperand h lexed).here reaches) fun first c₁ read _ => ?_
    obtain ⟨ts, took, written⟩ := reads_readOperand (Nested.sound_within n) read
    have init : c₀.JustTook first.span c₁ := reaches.justTook lexed took written.fills
    refine .loop (progresses_chainStep high) (I := fun left c => c₀.JustTook left.span c)
      (fun left c => reports_chainStep lexed h high fun p => ih) ?_ init
    intro left left' c c' taken step
    obtain ⟨done, _⟩ | ⟨op, o, right, c₂, eq, _, tighter, _, _, tookOp, second⟩ :=
      chainStep_reads step
    · cases done
    cases eq
    obtain ⟨us, took, bounds⟩ :=
      bounds_rightOperand lexed (by omega) (taken.reaches.took tookOp) second
    exact taken.cover lexed tookOp took bounds

theorem reports_readChain (floor : Precedence) : Reports c₀ (readChain (.within n) floor) :=
  reports_readChainWithin lexed h (by have := floor.rank_le_power; omega)

/-! ## Assignments -/

theorem reports_readConditional : Reports c₀ (readConditional (.within n)) := by
  refine .bind (reports_readChain lexed h _) fun condition => ?_
  refine .bind (.accept? _) fun question? => ?_
  cases question? with
  | none => exact .pure _
  | some =>
    refine .bind h.assignment fun whenTrue => .bind (.expect _) fun _ => ?_
    exact .bind h.assignment fun _ => .returnSpan ..

omit lexed in
theorem reports_readYield : Reports c₀ (readYield (.within n)) := by
  refine .bind .get fun _ => .bind .advance fun _ => .bind (.accept? _) fun star? => ?_
  refine ⟨fun {c} reaches => ?_⟩
  refine .bind ((Reports.peekKind? 0).here reaches) fun kind? c₁ look reaches => ?_
  obtain ⟨next, rfl⟩ := peekKind?_eq_ok.1 look
  cases kind? with
  | none =>
    have done : c.rest = [] := by simpa [← List.head?_eq_getElem?] using next
    exact .ite (fun _ => .failAtEnd reaches done) fun _ => (Reports.returnSpan _ _).here reaches
  | some kind =>
    refine .ite (fun _ => ?_) fun _ => (Reports.returnSpan _ _).here reaches
    exact .andThen (h.assignment.here reaches) fun _ => .returnSpan ..

omit lexed in
/-- The target has just been read. -/
theorem reports_finishAssignment {target : Expr} {c : Cursor}
    (taken : c₀.JustTook target.span c) :
    (finishAssignment (.within n) target).ReportsAt c₀ c := by
  refine .bind (Reports.peek?.here taken.reaches) fun t? c' look _ => ?_
  obtain ⟨head, rfl⟩ := peek?_eq_ok.1 look
  cases t? with
  | none => exact .pure _ taken.reaches
  | some t =>
    refine .ite (fun _ => ?_) fun _ => ?_
    · exact .throw taken.reaches (.unsupported (taken.reaches.covers_head head))
    cases AssignmentOperator.ofKind? t.kind with
    | none => exact .pure _ taken.reaches
    | some op =>
      refine .ite (fun _ => ?_) fun _ => .throw taken.reaches (.target taken.covers)
      refine .andThen (Reports.advance.here taken.reaches) fun _ => ?_
      exact .bind h.assignment fun _ => .returnSpan ..

omit lexed h in
theorem exists_head_of_startsArrow {rest : List Lexeme} (h : startsArrow rest = true) :
    ∃ t, rest.head? = some t := by
  cases rest with
  | nil => cases h
  | cons t rest => exact ⟨t, rfl⟩

theorem reports_readAssignment : Reports c₀ (readAssignment (.within n)) := by
  refine .bind (.nextIs _) fun isYield => .ite (reports_readYield h) ⟨fun {c} reaches => ?_⟩
  refine .afterGet ?_
  refine .ite (fun arrow => ?_) fun _ => ?_
  · obtain ⟨t, head⟩ := exists_head_of_startsArrow arrow
    refine .afterGet ?_
    rw [Cursor.nextSpan_of_head head]
    refine .bind (Reports.advance.here reaches) fun _ c' _ reaches' => ?_
    exact .throw reaches' (.unsupported (reaches.covers_head head))
  · refine .bind ((reports_readConditional lexed h).here reaches) fun target c' read _ => ?_
    obtain ⟨ts, took, written⟩ := reads_readConditional (Nested.sound_within n) read
    exact reports_finishAssignment h (reaches.justTook lexed took written.fills)

end Expr

end EcmaFront
