import EcmaFront.Proofs.Tree.Soundness.Primary

/-!
# Readers of links and operators

The loops of links keep what has been read so far as an expression that is written with the tokens
taken so far. The loop of operators keeps more: the next operator binds at most as tight as the right
operand of the last one was read for (`Expr.rightRank`), so it takes the whole expression as its left
operand. That makes chains group to the left, and chains of `**` to the right.
-/

namespace EcmaFront

open Reader

namespace TokenKind

theorem eq_of_linkStart_dot {kind : TokenKind} (h : kind.linkStart = .dot) :
    kind = .punctuator .dot := by
  unfold linkStart at h
  split at h <;> first | rfl | cases h

theorem eq_of_linkStart_optionalDot {kind : TokenKind} (h : kind.linkStart = .optionalDot) :
    kind = .punctuator .optionalDot := by
  unfold linkStart at h
  split at h <;> first | rfl | cases h

theorem continuesCallee_eq_false {kind : TokenKind}
    (noAccess : (kind.linkStart == .dot || kind.linkStart == .bracket) = false)
    (notParen : (kind == .punctuator .openParen) = false) : kind.continuesCallee = false := by
  unfold continuesCallee
  cases start : kind.linkStart with
  | dot | bracket => simp [start] at noAccess
  | paren =>
    unfold linkStart at start
    split at start <;> simp_all
  | optionalDot | other => rfl

end TokenKind

namespace Expr

variable {inner : Nested} {n : Nat} (h : inner.Sound n)

/-! ## Links -/

omit h in
theorem readPropertyName_reads {name : Identifier} {c c' : Cursor}
    (ok : readPropertyName c = .ok name c') :
    ∃ t, c.Took [t] c' ∧ t.kind.isPropertyName = true ∧ name = ⟨t.text, t.span⟩ := by
  obtain ⟨next, _, look, ok⟩ := bind_eq_ok.1 ok
  obtain ⟨head, rfl⟩ := peek?_eq_ok.1 look
  cases next with
  | none => exact absurd ok failAtEnd_ne_ok
  | some t =>
    dsimp only at ok
    split at ok
    · next isName =>
      obtain ⟨_, c₁, first, ok⟩ := bind_eq_ok.1 ok
      obtain ⟨rfl, rfl⟩ := pure_eq_ok.1 ok
      exact ⟨t, advance_took head first, isName, rfl⟩
    · exact absurd ok throw_ne_ok

omit h in
/-- A name, with the span of the access that ends with it. -/
theorem finishProperty_reads {object e : Expr} {optional : Bool} {c c' : Cursor}
    (ok : finishProperty object optional c = .ok e c') :
    ∃ i, c.Took [i] c' ∧ i.kind.isPropertyName = true ∧
      e = .property object ⟨i.text, i.span⟩ optional
        (.ofBounds object.span.start i.span.stop) := by
  obtain ⟨name, c₁, first, ok⟩ := bind_eq_ok.1 ok
  obtain ⟨i, took, isName, rfl⟩ := readPropertyName_reads first
  obtain ⟨rfl, rfl⟩ := returnSpan_eq_ok.1 ok
  rw [took.lastStop]
  exact ⟨i, took, isName, rfl⟩

omit h in
/-- A dot and the name behind it. -/
theorem dotAccess_reads {object e : Expr} {d : Lexeme} {c c₁ c' : Cursor} (took : c.Took [d] c₁)
    (start : d.kind.linkStart = .dot) (ok : finishProperty object false c₁ = .ok e c') :
    ∃ ts, c.Took ts c' ∧ Written n (.access object e) ts c'.rest := by
  obtain ⟨i, took', isName, rfl⟩ := finishProperty_reads ok
  exact ⟨[d, i], took.cons took', .accessName (TokenKind.eq_of_linkStart_dot start) isName⟩

include h

theorem reads_finishElement {object : Expr} {optional : Bool} :
    Reads n (.element object optional) (finishElement inner object optional) := by
  intro c e c' ok
  obtain ⟨b, c₁, first, ok⟩ := bind_eq_ok.1 ok
  obtain ⟨took, bracket⟩ := expect_took first
  obtain ⟨index, c₂, second, ok⟩ := bind_eq_ok.1 ok
  obtain ⟨ts, took', written⟩ := reads_read h second
  obtain ⟨k, c₃, third, ok⟩ := bind_eq_ok.1 ok
  obtain ⟨took'', close⟩ := expect_took third
  obtain ⟨rfl, rfl⟩ := returnSpan_eq_ok.1 ok
  rw [took''.rest] at written
  rw [took''.lastStop]
  exact ⟨b :: (ts ++ [k]), took.cons (took'.trans took''), .element bracket close written⟩

theorem reads_finishCall {callee : Expr} {optional : Bool} :
    Reads n (.call callee optional) (finishCall inner callee optional) := by
  intro c e c' ok
  obtain ⟨list, c₁, first, ok⟩ := bind_eq_ok.1 ok
  obtain ⟨p, ts, k, paren, close, took, written⟩ := readArguments_reads h first
  obtain ⟨rfl, rfl⟩ := returnSpan_eq_ok.1 ok
  rw [took.lastStop, ← List.cons_append, stopAfter_append]
  exact ⟨p :: (ts ++ [k]), took, .call paren close written⟩

omit h in
theorem nextLink_eq {link : LinkStart} {c c' : Cursor} (ok : nextLink c = .ok link c') :
    c = c' ∧ (link ≠ .other → ∃ t, c.rest.head? = some t ∧ t.kind.linkStart = link) ∧
      Stops (fun kind => kind.linkStart != link) c.rest := by
  obtain ⟨next, rfl⟩ := EStateM.Result.ok.inj ok
  refine ⟨rfl, ?_, ?_⟩
  · intro isLink
    cases head : c.rest.head? with
    | none => exact absurd (by simpa [head] using next.symm) isLink
    | some t => exact ⟨t, rfl, by simpa [head] using next⟩
  · intro t head
    simpa [Option.mem_def.1 head] using next

theorem finishOptional_reads {q : Lexeme} {object e : Expr} {c c' : Cursor}
    (kind : q.kind = .punctuator .optionalDot) (ok : finishOptional inner object c = .ok e c') :
    ∃ ts, c.Took ts c' ∧ Written n (.link object e) (q :: ts) c'.rest := by
  obtain ⟨link, _, look, ok⟩ := bind_eq_ok.1 ok
  obtain ⟨rfl, _⟩ := nextLink_eq look
  cases link with
  | paren =>
    obtain ⟨ts, took, written⟩ := reads_finishCall h ok
    exact ⟨ts, took, .optionalCall kind written⟩
  | bracket =>
    obtain ⟨ts, took, written⟩ := reads_finishElement h ok
    exact ⟨ts, took, .optionalElement kind written⟩
  | dot | optionalDot | other =>
    obtain ⟨i, took, isName, rfl⟩ := finishProperty_reads ok
    exact ⟨[i], took, .optionalName kind isName⟩

/-- A step of the loop of links adds a link or leaves the expression as it is. -/
theorem linkStep_reads {object : Expr} {p : Progress Expr Expr} {c c' : Cursor}
    (ok : linkStep inner object c = .ok p c') :
    (p = .done object ∧ c = c') ∨
      ∃ e ts, p = .again e ∧ c.Took ts c' ∧ Written n (.link object e) ts c'.rest := by
  obtain ⟨link, _, look, ok⟩ := bind_eq_ok.1 ok
  obtain ⟨rfl, next, _⟩ := nextLink_eq look
  cases link with
  | dot =>
    obtain ⟨d, head, start⟩ := next nofun
    obtain ⟨_, c₁, first, ok⟩ := bind_eq_ok.1 ok
    obtain ⟨e, c₂, second, ok⟩ := bind_eq_ok.1 ok
    obtain ⟨ts, took, written⟩ := dotAccess_reads (advance_took head first) start second
    obtain ⟨rfl, rfl⟩ := pure_eq_ok.1 ok
    exact .inr ⟨e, ts, rfl, took, .linkAccess written⟩
  | bracket =>
    obtain ⟨e, c₁, first, ok⟩ := bind_eq_ok.1 ok
    obtain ⟨ts, took, written⟩ := reads_finishElement h first
    obtain ⟨rfl, rfl⟩ := pure_eq_ok.1 ok
    exact .inr ⟨e, ts, rfl, took, .linkAccess (.accessElement written)⟩
  | paren =>
    obtain ⟨e, c₁, first, ok⟩ := bind_eq_ok.1 ok
    obtain ⟨ts, took, written⟩ := reads_finishCall h first
    obtain ⟨rfl, rfl⟩ := pure_eq_ok.1 ok
    exact .inr ⟨e, ts, rfl, took, .linkCall written⟩
  | optionalDot =>
    obtain ⟨q, head, start⟩ := next nofun
    obtain ⟨_, c₁, first, ok⟩ := bind_eq_ok.1 ok
    have took := advance_took head first
    obtain ⟨e, c₂, second, ok⟩ := bind_eq_ok.1 ok
    obtain ⟨ts, took', written⟩ :=
      finishOptional_reads h (TokenKind.eq_of_linkStart_optionalDot start) second
    obtain ⟨rfl, rfl⟩ := pure_eq_ok.1 ok
    exact .inr ⟨e, q :: ts, rfl, took.cons took', written⟩
  | other =>
    obtain ⟨rfl, rfl⟩ := pure_eq_ok.1 ok
    exact .inl ⟨rfl, rfl⟩

/-- The same for a callee, which stops before parentheses. -/
theorem calleeStep_reads {object : Expr} {p : Progress Expr Expr} {c c' : Cursor}
    (ok : calleeStep inner object c = .ok p c') :
    (p = .done object ∧ c = c' ∧
        Stops (fun kind => kind.linkStart == .dot || kind.linkStart == .bracket) c.rest) ∨
      ∃ e ts, p = .again e ∧ c.Took ts c' ∧ Written n (.access object e) ts c'.rest := by
  obtain ⟨link, _, look, ok⟩ := bind_eq_ok.1 ok
  obtain ⟨rfl, next, same⟩ := nextLink_eq look
  cases link with
  | dot =>
    obtain ⟨d, head, start⟩ := next nofun
    obtain ⟨_, c₁, first, ok⟩ := bind_eq_ok.1 ok
    obtain ⟨e, c₂, second, ok⟩ := bind_eq_ok.1 ok
    obtain ⟨ts, took, written⟩ := dotAccess_reads (advance_took head first) start second
    obtain ⟨rfl, rfl⟩ := pure_eq_ok.1 ok
    exact .inr ⟨e, ts, rfl, took, written⟩
  | bracket =>
    obtain ⟨e, c₁, first, ok⟩ := bind_eq_ok.1 ok
    obtain ⟨ts, took, written⟩ := reads_finishElement h first
    obtain ⟨rfl, rfl⟩ := pure_eq_ok.1 ok
    exact .inr ⟨e, ts, rfl, took, .accessElement written⟩
  | paren | optionalDot | other =>
    obtain ⟨rfl, rfl⟩ := pure_eq_ok.1 ok
    refine .inl ⟨rfl, rfl, fun t head => ?_⟩
    have link := same t head
    simp only [bne_eq_false_iff_eq] at link
    simp [link]

theorem reads_readHead : Reads n .head (readHead inner) := by
  intro c e c' ok
  obtain ⟨isNew, _, look, ok⟩ := bind_eq_ok.1 ok
  cases isNew with
  | true =>
    obtain ⟨rfl, w, head, kind⟩ := nextIs_eq_true look
    obtain ⟨ts, took, written⟩ := h.construct kind head ok
    exact ⟨w :: ts, took, written⟩
  | false =>
    obtain ⟨rfl, _⟩ := nextIs_eq_false look
    obtain ⟨ts, took, written⟩ := reads_readPrimary h ok
    exact ⟨ts, took, .headPrimary written⟩

/-- The callee of a `new` form, up to a token that is no access. -/
theorem readCallee_reads {object e : Expr} {c c₁ c' : Cursor}
    (first : readHead inner c = .ok object c₁)
    (ok : loop (calleeStep inner) object c₁ = .ok e c') :
    ∃ ts, c.Took ts c' ∧ Written n (.callee e) ts c'.rest ∧
      Stops (fun kind => kind.linkStart == .dot || kind.linkStart == .bracket) c'.rest := by
  obtain ⟨ts, took, written⟩ := reads_readHead h first
  refine loop_invariant (I := fun object c' => ∃ ts, c.Took ts c' ∧
    Written n (.callee object) ts c'.rest) (Q := fun e c' => ∃ ts, c.Took ts c' ∧
    Written n (.callee e) ts c'.rest ∧ Stops _ c'.rest) ?_ ?_ ⟨ts, took, .calleeHead written⟩ ok
  · rintro object e c₁ c₂ ⟨ts, took, written⟩ step
    obtain ⟨done, _⟩ | ⟨_, us, eq, took', access⟩ := calleeStep_reads h step
    · cases done
    · cases eq
      rw [took'.rest] at written
      exact ⟨ts ++ us, took.trans took', .calleeAccess written access⟩
  · rintro object e c₁ c₂ ⟨ts, took, written⟩ step
    obtain ⟨done, rfl, stop⟩ | ⟨_, us, eq, _⟩ := calleeStep_reads h step
    · cases done
      exact ⟨ts, took, written, stop⟩
    · cases eq

theorem readConstruct_reads {w : Lexeme} (isNew : w.kind = .keyword .newKw) :
    ReadsFrom w (n + 1) .head (readConstruct inner) := by
  intro c e c' head ok
  obtain ⟨c₁, took, ok⟩ := getAdvance_took head ok
  rw [Cursor.nextSpan_of_head head] at ok
  obtain ⟨dot?, c₂, first, ok⟩ := bind_eq_ok.1 ok
  cases dot? with
  | some d =>
    obtain ⟨took', dot⟩ := accept?_took first
    obtain ⟨_, c₃, second, ok⟩ := bind_eq_ok.1 ok
    obtain ⟨t, took'', kind, isTarget⟩ := readMetaName_reads second
    obtain ⟨rfl, rfl⟩ := returnSpan_eq_ok.1 ok
    rw [(took'.cons took'').lastStop]
    exact ⟨[d, t], took.cons (took'.cons took''), .newTarget isNew dot kind isTarget⟩
  | none =>
    obtain ⟨rfl, _⟩ := accept?_eq_none first
    obtain ⟨object, c₃, second, ok⟩ := bind_eq_ok.1 ok
    obtain ⟨callee, c₄, third, ok⟩ := bind_eq_ok.1 ok
    obtain ⟨ts, took', written, stop⟩ := readCallee_reads h second third
    obtain ⟨paren, _, look, ok⟩ := bind_eq_ok.1 ok
    cases paren with
    | true =>
      obtain ⟨rfl, _⟩ := nextIs_eq_true look
      obtain ⟨list, c₅, fourth, ok⟩ := bind_eq_ok.1 ok
      obtain ⟨p, us, k, isOpen, close, took'', isList⟩ := readArguments_reads h fourth
      obtain ⟨rfl, rfl⟩ := returnSpan_eq_ok.1 ok
      rw [took''.rest] at written
      rw [took''.lastStop, ← List.cons_append, stopAfter_append]
      exact ⟨ts ++ p :: (us ++ [k]), took.cons (took'.trans took''),
        .construct isNew isOpen close (by simpa using written) isList⟩
    | false =>
      obtain ⟨rfl, notParen⟩ := nextIs_eq_false look
      obtain ⟨rfl, rfl⟩ := returnSpan_eq_ok.1 ok
      rw [(took.cons took').lastStop]
      refine ⟨ts, took.cons took', .constructBare isNew written fun t next => ?_⟩
      exact TokenKind.continuesCallee_eq_false (stop t next) (notParen t next)

theorem reads_readLinks : Reads n .links (readLinks inner) := by
  intro c e c' ok
  obtain ⟨object, c₁, first, ok⟩ := bind_eq_ok.1 ok
  obtain ⟨ts, took, written⟩ := reads_readHead h first
  refine loop_invariant (I := fun object c' => ∃ ts, c.Took ts c' ∧
    Written n (.links object) ts c'.rest) (Q := fun e c' => ∃ ts, c.Took ts c' ∧
    Written n (.links e) ts c'.rest) ?_ ?_ ⟨ts, took, .linksHead written⟩ ok
  · rintro object e c₁ c₂ ⟨ts, took, written⟩ step
    obtain ⟨done, _⟩ | ⟨_, us, eq, took', link⟩ := linkStep_reads h step
    · cases done
    · cases eq
      rw [took'.rest] at written
      exact ⟨ts ++ us, took.trans took', .linksLink written link⟩
  · rintro object e c₁ c₂ ⟨ts, took, written⟩ step
    obtain ⟨done, rfl⟩ | ⟨_, us, eq, _⟩ := linkStep_reads h step
    · cases done
      exact ⟨ts, took, written⟩
    · cases eq

/-! ## Operands -/

theorem reads_readUpdated : Reads n .updated (readUpdated inner) := by
  intro c e c' ok
  obtain ⟨e, c₁, first, ok⟩ := bind_eq_ok.1 ok
  obtain ⟨ts, took, written⟩ := reads_readLinks h first
  obtain ⟨kind?, _, look, ok⟩ := bind_eq_ok.1 ok
  obtain ⟨next, rfl⟩ := peekKind?_eq_ok.1 look
  cases isUpdate : kind?.bind UpdateOperator.ofKind? with
  | none =>
    rw [isUpdate] at ok
    obtain ⟨rfl, rfl⟩ := pure_eq_ok.1 ok
    exact ⟨ts, took, .updatedLinks written⟩
  | some op =>
    rw [isUpdate] at ok
    obtain ⟨kind, rfl, isOp⟩ := Option.bind_eq_some_iff.1 isUpdate
    obtain ⟨o, head, rfl⟩ := Option.map_eq_some_iff.1 next
    dsimp only at ok
    split at ok
    · next assignable =>
      obtain ⟨_, c₂, second, ok⟩ := bind_eq_ok.1 ok
      have took' := advance_took (by rwa [List.head?_eq_getElem?]) second
      obtain ⟨rfl, rfl⟩ := returnSpan_eq_ok.1 ok
      rw [took'.rest] at written
      rw [took'.lastStop]
      exact ⟨ts ++ [o], took.trans took',
        .updateBehind (UpdateOperator.ofKind?_eq_some_iff.1 isOp) assignable written⟩
    · exact absurd ok throw_ne_ok

/-- An operator in front of its operand, of which `f` makes the expression. -/
theorem prefixed_reads {f : Expr → Span → Expr} {o : Lexeme} {e : Expr} {c c' : Cursor}
    (head : c.rest.head? = some o)
    (ok : (do advance; let x ← inner.operand; return f x (← spanFrom o.span.start) : Reader Expr) c =
      .ok e c') :
    ∃ m x ts, n = m + 1 ∧ c.Took (o :: ts) c' ∧ Written m (.operand x) ts c'.rest ∧
      e = f x (.ofBounds o.span.start (stopAfter o.span.stop ts)) := by
  obtain ⟨_, c₁, first, ok⟩ := bind_eq_ok.1 ok
  obtain ⟨x, c₂, second, ok⟩ := bind_eq_ok.1 ok
  obtain ⟨m, ts, rfl, took, written⟩ := h.operand second
  obtain ⟨rfl, rfl⟩ := returnSpan_eq_ok.1 ok
  have took' := (advance_took head first).cons took
  rw [took'.lastStop]
  exact ⟨m, x, ts, rfl, took', written, rfl⟩

theorem reads_readOperand : Reads n .operand (readOperand inner) := by
  intro c e c' ok
  obtain ⟨next, _, look, ok⟩ := bind_eq_ok.1 ok
  obtain ⟨head, rfl⟩ := peek?_eq_ok.1 look
  cases next with
  | none => exact absurd ok failAtEnd_ne_ok
  | some o =>
    dsimp only at ok
    cases start : o.kind.operandStart with
    | plain =>
      rw [start] at ok
      obtain ⟨ts, took, written⟩ := reads_readUpdated h ok
      exact ⟨ts, took, .operandUpdated written⟩
    | update op =>
      rw [start] at ok
      obtain ⟨_, c₁, first, ok⟩ := bind_eq_ok.1 ok
      obtain ⟨e, c₂, second, ok⟩ := bind_eq_ok.1 ok
      obtain ⟨m, ts, rfl, took, written⟩ := h.operand second
      split at ok
      · next assignable =>
        obtain ⟨rfl, rfl⟩ := returnSpan_eq_ok.1 ok
        have took' := (advance_took head first).cons took
        rw [took'.lastStop]
        exact ⟨o :: ts, took', .updateAhead start assignable written⟩
      · exact absurd ok throw_ne_ok
    | unary op =>
      rw [start] at ok
      obtain ⟨m, x, ts, rfl, took, written, rfl⟩ := prefixed_reads h head ok
      exact ⟨o :: ts, took, .unary start written⟩
    | await =>
      rw [start] at ok
      obtain ⟨m, x, ts, rfl, took, written, rfl⟩ := prefixed_reads h head ok
      exact ⟨o :: ts, took, .await start written⟩

end Expr

/-! ## Chains of operators -/

/-- The rank above which the right operand of the outermost operator was read. -/
def Expr.rightRank : Expr → Nat
  | .operation op _ _ _ => op.precedence.rightFloor.rank
  | _ => Precedence.power.rank

/-- The expressions that stand between operators are no operations themselves. -/
def Piece.IsOperand : Piece → Prop
  | .primary e | .head e | .callee e | .links e | .element _ _ e | .call _ _ e | .access _ e
  | .link _ e | .updated e | .operand e => e.rightRank = Precedence.power.rank
  | _ => True

theorem Written.isOperand {n : Nat} {p : Piece} {ts rest : List Lexeme} (h : Written n p ts rest) :
    p.IsOperand := by
  induction h with
  | headPrimary _ ih | calleeHead _ ih | linksHead _ ih | updatedLinks _ ih | operandUpdated _ ih
  | accessElement _ ih | linkAccess _ ih | linkCall _ ih | optionalElement _ _ ih
  | optionalCall _ _ ih => exact ih
  | calleeAccess _ _ _ ih | linksLink _ _ _ ih => exact ih
  | _ => trivial

theorem Precedence.leftLeast_le {p q : Precedence} (h : p.rank ≤ q.rightFloor.rank) :
    p.leftLeast ≤ q.rank := by
  revert h
  cases p <;> cases q <;> decide

/-- What has been read becomes the left operand of an operator that the outermost one left over. -/
theorem Written.chain_leftLeast {n least : Nat} {p : Precedence} {e : Expr}
    {ts rest : List Lexeme} (h : Written n (.chain least e) ts rest) (le : p.rank ≤ e.rightRank) :
    Written n (.chain p.leftLeast e) ts rest := by
  cases h with
  | chainOperand operand => exact .chainOperand operand
  | operationLeft kind grouping _ mixLeft mixRight left right =>
    exact .operationLeft kind grouping (Precedence.leftLeast_le le) mixLeft mixRight left right
  | operationRight kind grouping _ mixLeft mixRight left right =>
    exact .operationRight kind grouping (Precedence.leftLeast_le le) mixLeft mixRight left right

theorem Precedence.rank_le_power (p : Precedence) : p.rank ≤ Precedence.power.rank := by
  cases p <;> decide

theorem Precedence.eq_power_of_groupsRight {p : Precedence} (h : p.groupsRight = true) :
    p = .power := by
  simpa [groupsRight] using h

@[simp] theorem TokenKind.bindsTighter_eq_false {k : Nat} {kind : TokenKind} :
    kind.bindsTighter k = false ↔
      ∀ op, InfixOperator.ofKind? kind = some op → op.precedence.rank ≤ k := by
  rw [bindsTighter, Option.any_eq_false]
  simp

/-- An operator of a rank up to `k` does not bind tighter. -/
theorem TokenKind.bindsTighter_infix {k : Nat} {op : InfixOperator} (le : op.precedence.rank ≤ k) :
    op.kind.bindsTighter k = false := by
  rw [bindsTighter_eq_false]
  intro op' isOp
  rw [InfixOperator.ofKind?_eq_some_iff.2 rfl] at isOp
  obtain rfl := Option.some.inj isOp
  exact le

theorem Stops.bindsTighter_mono {j k : Nat} {rest : List Lexeme}
    (h : Stops (TokenKind.bindsTighter j) rest) (le : j ≤ k) :
    Stops (TokenKind.bindsTighter k) rest := by
  intro t head
  rw [TokenKind.bindsTighter_eq_false]
  intro op isOp
  exact Nat.le_trans (TokenKind.bindsTighter_eq_false.1 (h t head) op isOp) le

theorem Stops.bindsTighter_power (rest : List Lexeme) :
    Stops (TokenKind.bindsTighter Precedence.power.rank) rest :=
  fun _ _ => TokenKind.bindsTighter_eq_false.2 fun op _ => op.precedence.rank_le_power

namespace Expr

theorem combine_eq_ok {op : InfixOperator} {left right e : Expr} {c c' : Cursor}
    (ok : combine op left right c = .ok e c') :
    mixesWith op left = false ∧ mixesWith op right = false ∧
      e = .operation op left right (left.span.cover right.span) ∧ c = c' := by
  unfold combine at ok
  split at ok
  · exact absurd ok throw_ne_ok
  · next mixes =>
    obtain ⟨rfl, rfl⟩ := pure_eq_ok.1 ok
    simp only [Bool.or_eq_true, not_or, Bool.not_eq_true] at mixes
    exact ⟨mixes.1, mixes.2, rfl, rfl⟩

theorem tighterOperator?_eq_some {floor : Precedence} {op : InfixOperator} {c c' : Cursor}
    (ok : tighterOperator? floor c = .ok (some op) c') :
    c = c' ∧ floor.rank < op.precedence.rank ∧
      ∃ o, c.rest.head? = some o ∧ InfixOperator.ofKind? o.kind = some op := by
  rw [tighterOperator?_eq] at ok
  obtain ⟨next, rfl⟩ := EStateM.Result.ok.inj ok
  obtain ⟨found, tighter⟩ := Option.filter_eq_some_iff.1 next
  obtain ⟨o, head, isOp⟩ := Option.bind_eq_some_iff.1 found
  exact ⟨rfl, by simpa using tighter, o, head, isOp⟩

theorem tighterOperator?_eq_none {floor : Precedence} {c c' : Cursor}
    (ok : tighterOperator? floor c = .ok none c') :
    c = c' ∧ Stops (TokenKind.bindsTighter floor.rank) c.rest := by
  rw [tighterOperator?_eq] at ok
  obtain ⟨next, rfl⟩ := EStateM.Result.ok.inj ok
  refine ⟨rfl, fun t head => ?_⟩
  rw [TokenKind.bindsTighter_eq_false]
  intro op isOp
  have loose := Option.filter_eq_none_iff.1 next op
  simpa [Option.mem_def.1 head, isOp] using loose

/-- A step of the loop of operators stops before a loose operator, or takes an operator and its
right operand. -/
theorem chainStep_reads {inner : Nested} {operandFrom : Precedence → Reader Expr}
    {floor : Precedence} {left : Expr} {p : Progress Expr Expr} {c c' : Cursor}
    (ok : chainStep inner operandFrom floor left c = .ok p c') :
    (p = .done left ∧ c = c' ∧ Stops (TokenKind.bindsTighter floor.rank) c.rest) ∨
      ∃ op o right c₁, p = .again (.operation op left right (left.span.cover right.span)) ∧
        InfixOperator.ofKind? o.kind = some op ∧ floor.rank < op.precedence.rank ∧
        mixesWith op left = false ∧ mixesWith op right = false ∧ c.Took [o] c₁ ∧
        (if op.precedence.groupsRight then inner.rightOperand else operandFrom op.precedence) c₁ =
          .ok right c' := by
  obtain ⟨op?, _, look, ok⟩ := bind_eq_ok.1 ok
  cases op? with
  | none =>
    obtain ⟨rfl, stop⟩ := tighterOperator?_eq_none look
    obtain ⟨rfl, rfl⟩ := pure_eq_ok.1 ok
    exact .inl ⟨rfl, rfl, stop⟩
  | some op =>
    obtain ⟨rfl, tighter, o, head, isOp⟩ := tighterOperator?_eq_some look
    obtain ⟨_, c₁, first, ok⟩ := bind_eq_ok.1 ok
    have took := advance_took head first
    have second : ∃ right c₂, (if op.precedence.groupsRight then inner.rightOperand
        else operandFrom op.precedence) c₁ = .ok right c₂ ∧
        (combine op left right >>= fun e => pure (Progress.again e)) c₂ = .ok p c' := by
      split at ok
      · next grouping => simpa only [if_pos grouping] using bind_eq_ok.1 ok
      · next grouping => simpa only [if_neg grouping] using bind_eq_ok.1 ok
    obtain ⟨right, c₂, second, ok⟩ := second
    obtain ⟨e, c₃, third, ok⟩ := bind_eq_ok.1 ok
    obtain ⟨mixLeft, mixRight, rfl, rfl⟩ := combine_eq_ok third
    obtain ⟨rfl, rfl⟩ := pure_eq_ok.1 ok
    exact .inr ⟨op, o, right, c₁, rfl, isOp, tighter, mixLeft, mixRight, took, second⟩

/-- What the loop of operators keeps. -/
def IsLeft (n least : Nat) (c : Cursor) (left : Expr) (c' : Cursor) : Prop :=
  ∃ ts, c.Took ts c' ∧ Written n (.chain least left) ts c'.rest ∧
    Stops (TokenKind.bindsTighter left.rightRank) c'.rest

variable {inner : Nested} {n : Nat} (h : inner.Sound n)

include h

theorem readChainWithin_reads {height : Nat} {floor : Precedence}
    (high : Precedence.power.rank ≤ floor.rank + height) {e : Expr} {c c' : Cursor}
    (ok : readChainWithin inner height floor c = .ok e c') :
    ∃ ts, c.Took ts c' ∧ Written n (.chain (floor.rank + 1) e) ts c'.rest ∧
      Stops (TokenKind.bindsTighter floor.rank) c'.rest := by
  induction height generalizing floor e c c' with
  | zero =>
    obtain ⟨ts, took, written⟩ := reads_readOperand h ok
    exact ⟨ts, took, .chainOperand written, (Stops.bindsTighter_power _).bindsTighter_mono high⟩
  | succ height ih =>
    obtain ⟨first, c₁, readFirst, ok⟩ := bind_eq_ok.1 ok
    obtain ⟨ts, took, written⟩ := reads_readOperand h readFirst
    have init : IsLeft n (floor.rank + 1) c first c₁ := by
      refine ⟨ts, took, .chainOperand written, ?_⟩
      rw [show first.rightRank = _ from written.isOperand]
      exact Stops.bindsTighter_power _
    refine loop_invariant (I := IsLeft n (floor.rank + 1) c) (Q := fun e c' => ∃ ts,
      c.Took ts c' ∧ Written n (.chain (floor.rank + 1) e) ts c'.rest ∧
        Stops (TokenKind.bindsTighter floor.rank) c'.rest) ?_ ?_ init ok
    · rintro left e c₁ c₂ ⟨ts, took, written, stop⟩ step
      obtain ⟨done, _⟩ | ⟨op, o, right, c₃, eq, isOp, tighter, mixLeft, mixRight, took', second⟩ :=
        chainStep_reads step
      · cases done
      cases eq
      have kind := InfixOperator.ofKind?_eq_some_iff.1 isOp
      -- The operator is one that the expression so far left over.
      have isLeft : Written n (.chain op.precedence.leftLeast left) ts c₁.rest := by
        refine written.chain_leftLeast ?_
        exact TokenKind.bindsTighter_eq_false.1 (stop o (by simp [took'.rest])) op isOp
      cases grouping : op.precedence.groupsRight with
      | true =>
        rw [if_pos grouping] at second
        obtain ⟨m, us, rfl, took'', isRight, stop'⟩ := h.rightOperand second
        rw [took'.rest, took''.rest, Precedence.leftLeast, if_pos grouping] at isLeft
        have isPower := Precedence.eq_power_of_groupsRight grouping
        refine ⟨ts ++ o :: us, took.trans (took'.cons took''), ?_, ?_⟩
        · exact .operationRight kind grouping tighter mixLeft mixRight isLeft (isPower ▸ isRight)
        · rw [rightRank, isPower]
          exact stop'
      | false =>
        rw [if_neg (by simp [grouping])] at second
        obtain ⟨us, took'', isRight, stop'⟩ := ih (by omega) second
        rw [took'.rest, took''.rest, Precedence.leftLeast, if_neg (by simp [grouping])] at isLeft
        refine ⟨ts ++ o :: us, took.trans (took'.cons took''), ?_, ?_⟩
        · exact .operationLeft kind grouping tighter mixLeft mixRight isLeft isRight
        · rw [rightRank, Precedence.rightFloor, if_neg (by simp [grouping])]
          exact stop'
    · rintro left e c₁ c₂ ⟨ts, took, written, _⟩ step
      obtain ⟨done, rfl, stop⟩ | ⟨_, _, _, _, eq, _⟩ := chainStep_reads step
      · cases done
        exact ⟨ts, took, written, stop⟩
      · cases eq

theorem readChain_reads {floor : Precedence} {e : Expr} {c c' : Cursor}
    (ok : readChain inner floor c = .ok e c') :
    ∃ ts, c.Took ts c' ∧ Written n (.chain (floor.rank + 1) e) ts c'.rest ∧
      Stops (TokenKind.bindsTighter floor.rank) c'.rest :=
  readChainWithin_reads h (by have := floor.rank_le_power; omega) ok

/-! ## Assignments -/

theorem reads_readConditional : Reads n .conditional (readConditional inner) := by
  intro c e c' ok
  obtain ⟨condition, c₁, first, ok⟩ := bind_eq_ok.1 ok
  obtain ⟨ts, took, written, _⟩ := readChain_reads h first
  obtain ⟨question?, c₂, second, ok⟩ := bind_eq_ok.1 ok
  cases question? with
  | none =>
    obtain ⟨rfl, _⟩ := accept?_eq_none second
    obtain ⟨rfl, rfl⟩ := pure_eq_ok.1 ok
    exact ⟨ts, took, .unconditional written⟩
  | some q =>
    obtain ⟨tookQ, question⟩ := accept?_took second
    obtain ⟨whenTrue, c₃, third, ok⟩ := bind_eq_ok.1 ok
    obtain ⟨us, tookTrue, isTrue⟩ := h.assignment third
    obtain ⟨k, c₄, fourth, ok⟩ := bind_eq_ok.1 ok
    obtain ⟨tookK, colon⟩ := expect_took fourth
    obtain ⟨whenFalse, c₅, fifth, ok⟩ := bind_eq_ok.1 ok
    obtain ⟨vs, tookFalse, isFalse⟩ := h.assignment fifth
    obtain ⟨rfl, rfl⟩ := returnSpan_eq_ok.1 ok
    have tookEnd := tookK.cons tookFalse
    have tookArms := tookTrue.trans tookEnd
    rw [(tookQ.cons tookArms).rest] at written
    rw [tookEnd.rest] at isTrue
    rw [tookEnd.lastStop]
    exact ⟨ts ++ q :: (us ++ k :: vs), took.trans (tookQ.cons tookArms),
      .conditional question colon (by simpa using written) isTrue isFalse⟩

theorem readYield_reads {y : Lexeme} (kind : y.kind = .keyword .yieldKw) :
    ReadsFrom y (n + 1) .assignment (readYield inner) := by
  intro c e c' head ok
  obtain ⟨c₁, took, ok⟩ := getAdvance_took head ok
  rw [Cursor.nextSpan_of_head head] at ok
  obtain ⟨star?, c₂, first, ok⟩ := bind_eq_ok.1 ok
  obtain ⟨next, _, look, ok⟩ := bind_eq_ok.1 ok
  obtain ⟨next', rfl⟩ := peekKind?_eq_ok.1 look
  cases star? with
  | some s =>
    obtain ⟨took', star⟩ := accept?_took first
    cases next with
    | none => exact absurd ok failAtEnd_ne_ok
    | some k =>
      obtain ⟨e, c₃, second, ok⟩ := bind_eq_ok.1 ok
      obtain ⟨ts, took'', written⟩ := h.assignment second
      obtain ⟨rfl, rfl⟩ := returnSpan_eq_ok.1 ok
      rw [(took'.cons took'').lastStop]
      exact ⟨s :: ts, took.cons (took'.cons took''), .yieldAll kind star written⟩
  | none =>
    obtain ⟨rfl, _⟩ := accept?_eq_none first
    cases next with
    | none =>
      obtain ⟨rfl, rfl⟩ := returnSpan_eq_ok.1 ok
      rw [took.lastStop]
      refine ⟨[], took, .yield kind fun t head' => ?_⟩
      simp_all [List.head?_eq_getElem?]
    | some k =>
      dsimp only at ok
      split at ok
      · obtain ⟨e, c₃, second, ok⟩ := bind_eq_ok.1 ok
        obtain ⟨ts, took', written⟩ := h.assignment second
        obtain ⟨rfl, rfl⟩ := returnSpan_eq_ok.1 ok
        rw [(took.cons took').lastStop]
        exact ⟨ts, took.cons took', .yieldValue kind written⟩
      · next other =>
        obtain ⟨rfl, rfl⟩ := returnSpan_eq_ok.1 ok
        rw [took.lastStop]
        refine ⟨[], took, .yield kind fun t head' => ?_⟩
        simp_all [List.head?_eq_getElem?]

theorem reads_readAssignment : Reads (n + 1) .assignment (readAssignment inner) := by
  intro c e c' ok
  obtain ⟨isYield, _, look, ok⟩ := bind_eq_ok.1 ok
  cases isYield with
  | true =>
    obtain ⟨rfl, y, head, kind⟩ := nextIs_eq_true look
    obtain ⟨ts, took, written⟩ := readYield_reads h kind head ok
    exact ⟨y :: ts, took, written⟩
  | false =>
    obtain ⟨rfl, _⟩ := nextIs_eq_false look
    obtain ⟨_, _, first, ok⟩ := bind_eq_ok.1 ok
    obtain ⟨rfl, rfl⟩ := get_eq_ok.1 first
    split at ok
    · obtain ⟨_, _, _, ok⟩ := bind_eq_ok.1 ok
      obtain ⟨_, _, _, ok⟩ := bind_eq_ok.1 ok
      exact absurd ok throw_ne_ok
    obtain ⟨target, c₁, second, ok⟩ := bind_eq_ok.1 ok
    obtain ⟨ts, took, written⟩ := reads_readConditional h second
    obtain ⟨next, _, look', ok⟩ := bind_eq_ok.1 ok
    obtain ⟨head, rfl⟩ := peek?_eq_ok.1 look'
    cases next with
    | none =>
      obtain ⟨rfl, rfl⟩ := pure_eq_ok.1 ok
      exact ⟨ts, took, .unassigned written⟩
    | some o =>
      dsimp only at ok
      split at ok
      · exact absurd ok throw_ne_ok
      cases isOp : AssignmentOperator.ofKind? o.kind with
      | none =>
        rw [isOp] at ok
        obtain ⟨rfl, rfl⟩ := pure_eq_ok.1 ok
        exact ⟨ts, took, .unassigned written⟩
      | some op =>
        rw [isOp] at ok
        dsimp only at ok
        split at ok
        · next assignable =>
          obtain ⟨_, c₂, third, ok⟩ := bind_eq_ok.1 ok
          have tookOp := advance_took head third
          obtain ⟨value, c₃, fourth, ok⟩ := bind_eq_ok.1 ok
          obtain ⟨us, tookValue, isValue⟩ := h.assignment fourth
          obtain ⟨rfl, rfl⟩ := returnSpan_eq_ok.1 ok
          have took' := tookOp.cons tookValue
          rw [took'.rest] at written
          rw [took'.lastStop]
          exact ⟨ts ++ o :: us, took.trans took',
            .assigned (AssignmentOperator.ofKind?_eq_some_iff.1 isOp).symm assignable written isValue⟩
        · exact absurd ok throw_ne_ok

end Expr

end EcmaFront
