import EcmaFront.Proofs.Tree.Blame.Reports
import EcmaFront.Proofs.Tree.Completeness.Operator

/-!
# Errors in expressions

The readers of expressions report, if those of the nested forms do (`Nested.Reports`). Most of them
do so by the rules for sequences and loops. Where an error has a span of its own, it comes from
tokens just taken or seen, or from an expression just read, whose span covers its tokens.
-/

namespace EcmaFront

open Reader

/-- The readers of all nested forms report. The one of `new` forms is called at the word `new`. -/
structure Nested.Reports (c₀ : Cursor) (inner : Nested) : Prop where
  assignment : Reader.Reports c₀ inner.assignment
  operand : Reader.Reports c₀ inner.operand
  construct : ∀ {w c}, w.kind = .keyword .newKw → c₀.Reaches c → c.rest.head? = some w →
    inner.construct.ReportsAt c₀ c
  rightOperand : Reader.Reports c₀ inner.rightOperand
  block : Reader.Reports c₀ inner.block

namespace Expr

variable {c₀ : Cursor} {n : Nat}

/-! ## Names and numbers -/

theorem reports_readPropertyName : Reports c₀ readPropertyName := by
  refine .peek .failAtEnd fun reaches head => .ite (fun _ => ?_) fun notName => ?_
  · exact .andThen (Reports.advance.here reaches) fun _ => .pure _
  · refine .throw reaches (.token head fun identifier => notName ?_)
    rw [identifier]
    rfl

/-- The name behind a word and a dot, which have been taken. -/
theorem reports_readMetaName {front : List Lexeme} {w d : Lexeme} {name : String} {c : Cursor}
    (took : c₀.Took (front ++ [w, d]) c) (word : w.kind.metaName? = some name)
    (dot : d.kind = .punctuator .dot) : (readMetaName name).ReportsAt c₀ c := by
  refine .bind ((Reports.expect _).here ⟨_, took⟩) fun t c' found reaches => ?_
  obtain ⟨took', identifier⟩ := expect_took found
  refine .ite (fun other => ?_) fun _ => .pure _ reaches
  have misnames : Misnames (front ++ [w, d] ++ [t]) t :=
    ⟨front, w, d, name, List.append_assoc .., word, dot, identifier, other⟩
  exact .throw reaches (.name (took.trans took') misnames)

theorem reports_readNumeral {t : Lexeme} (covers : c₀.Covers t.span) :
    Reports c₀ (readNumeral t) := by
  unfold readNumeral Numeral.decode
  cases Numeral.value? t.text with
  | none => exact ⟨fun reaches => .throw reaches (.number covers)⟩
  | some value => exact .pure value

/-- What is attached to a number is made of the tokens behind it. -/
theorem bounds_of_attachedSuffix? {t : Lexeme} {rest : List Lexeme} {span : Span}
    (h : attachedSuffix? t rest = some span) : ∃ us, us <+: t :: rest ∧ Bounds span us := by
  unfold attachedSuffix? at h
  split at h
  · cases h
  next next rest =>
  split at h
  · cases h
  split at h
  · cases h
    exact ⟨[t, next], by simp [List.cons_prefix_cons], .cons t [next]⟩
  split at h
  · split at h
    · next digits rest =>
      split at h
      · cases h
        exact ⟨[t, next, digits], by simp [List.cons_prefix_cons], .cons t [next, digits]⟩
      · cases h
    · cases h
  · cases h

/-- The number `t` has been taken. -/
theorem reports_readNumber {t : Lexeme} {c c' : Cursor} (reaches : c₀.Reaches c)
    (took : c.Took [t] c') : (readNumber t).ReportsAt c₀ c' := by
  obtain ⟨front, reached⟩ := reaches
  have all : c₀.rest = front ++ t :: c'.rest := by rw [reached.rest, took.rest]; rfl
  have reaches : c₀.Reaches c' := ⟨_, reached.trans took⟩
  refine .afterGet ?_
  cases suffix : attachedSuffix? t c'.rest with
  | some span =>
    obtain ⟨us, ⟨more, eq⟩, bounds⟩ := bounds_of_attachedSuffix? suffix
    refine .throw reaches (.unsupported ⟨us, ⟨front, more, ?_⟩, bounds⟩)
    rw [List.append_assoc, eq, all]
  | none =>
    have covers : c₀.Covers t.span := ⟨[t], ⟨front, c'.rest, by simp [all]⟩, .single t⟩
    exact .andThen ((reports_readNumeral covers).here reaches) fun _ => .pure _

variable (h : (Nested.within n).Reports c₀)

include h

/-! ## Sequences and arguments -/

theorem reports_read : Reports c₀ (read (.within n)) := by
  have progresses : Progresses (sequenceStep (.within n)) :=
    progresses_of_collects (collects_sequenceStep (Nested.sound_within n))
  refine .bind h.assignment fun first => .bind (.nextIs _) fun comma => .ite ?_ (.pure _)
  refine .bind (.loop progresses (fun before => ?_) _) fun _ => .returnSpan ..
  refine .bind (.accept? _) fun comma? => ?_
  cases comma? with
  | none => exact .pure _
  | some => exact .bind h.assignment fun _ => .pure _

theorem reports_readArgument : Reports c₀ (readArgument (.within n)) := by
  refine .bind (.accept? _) fun dots? => ?_
  cases dots? with
  | none => exact .bind h.assignment fun _ => .pure _
  | some => exact .bind h.assignment fun _ => .returnSpan ..

theorem reports_readArguments : Reports c₀ (readArguments (.within n)) := by
  refine .bind (.expect _) fun _ => .bind (.loop progresses_argumentsStep ?_ _) fun _ => ?_
  · exact .separatedStep (reports_readArgument h)
  · exact .bind (.expect _) fun _ => .pure _

/-! ## Arrays and objects -/

theorem reports_arrayStep (before : List ArrayElement) :
    Reports c₀ (arrayStep (.within n) before) := by
  refine .peek .failAtEnd fun reaches _ => ?_
  refine .ite (fun _ => ?_) fun _ => .ite (fun _ => ?_) fun _ => ?_
  · exact .andThen (Reports.advance.here reaches) fun _ => .pure _
  · exact .andThen (Reports.advance.here reaches) fun _ => .pure _
  · refine .andThen ((reports_readArgument h).here reaches) fun _ => ?_
    refine .bind (.accept? _) fun comma? => ?_
    cases comma? with
    | some => exact .pure _
    | none => exact .bind (.expect _) fun _ => .pure _

theorem reports_readArray : Reports c₀ (readArray (.within n)) := by
  refine .bind .get fun _ => .bind .advance fun _ => ?_
  exact .bind (.loop progresses_arrayStep (reports_arrayStep h) _) fun _ => .returnSpan ..

theorem reports_readPropertyKey {t : Lexeme} {c : Cursor} (reaches : c₀.Reaches c)
    (head : c.rest.head? = some t) : (readPropertyKey (.within n) t).ReportsAt c₀ c := by
  have advances := Reports.advance.here reaches
  unfold readPropertyKey
  cases start : t.kind.keyStart with
  | name => exact .andThen advances fun _ => .pure _
  | string => exact .andThen advances fun _ => .pure _
  | number =>
    have covers := reaches.covers_head head
    exact .andThen advances fun _ => .bind (reports_readNumeral covers) fun _ => .pure _
  | computed =>
    refine .andThen advances fun _ => .bind h.assignment fun _ => ?_
    exact .bind (.expect _) fun _ => .pure _
  | other =>
    refine .throw reaches (.token head fun identifier => ?_)
    rw [identifier] at start
    cases start

theorem reports_readPropertyValue (key : PropertyKey) (start : Nat) :
    Reports c₀ (readPropertyValue (.within n) key start) := by
  refine ⟨fun {c} reaches => ?_⟩
  refine .bind ((Reports.nextIs _).here reaches) fun paren c' look reaches => ?_
  refine .ite (fun isParen => ?_) fun _ => ?_
  · subst isParen
    obtain ⟨rfl, t, head, _⟩ := nextIs_eq_true look
    refine .afterGet ?_
    rw [Cursor.nextSpan_of_head head]
    exact .throw reaches (.unsupported (reaches.covers_head head))
  · refine .andThen ((Reports.expect _).here reaches) fun _ => ?_
    exact .bind h.assignment fun _ => .returnSpan ..

theorem reports_readMember : Reports c₀ (readMember (.within n)) := by
  refine .bind (.accept? _) fun dots? => ?_
  cases dots? with
  | some => exact .bind h.assignment fun _ => .returnSpan ..
  | none =>
    refine .peek .failAtEnd fun reaches head => ?_
    refine .afterGet ?_
    refine .ite (fun _ => ?_) fun _ => ?_
    · exact .andThen (Reports.advance.here reaches) fun _ => .pure _
    · exact .andThen (reports_readPropertyKey h reaches head) fun key =>
        reports_readPropertyValue h key _

theorem reports_readObject : Reports c₀ (readObject (.within n)) := by
  refine .bind .get fun _ => .bind .advance fun _ => ?_
  refine .bind (.loop progresses_objectStep ?_ _) fun _ => ?_
  · exact .separatedStep (reports_readMember h)
  · exact .bind (.expect _) fun _ => .returnSpan ..

/-! ## Heads and links -/

omit h in
theorem reports_readImportMeta {t : Lexeme} {c : Cursor} (word : t.kind = .keyword .importKw)
    (reaches : c₀.Reaches c) (head : c.rest.head? = some t) :
    (readImportMeta t).ReportsAt c₀ c := by
  refine .bind ((Reports.peekKind? 1).here reaches) fun kind c' look _ => ?_
  obtain ⟨second, rfl⟩ := peekKind?_eq_ok.1 look
  refine .ite (fun isDot => ?_) fun _ => ?_
  · refine .bind (Reports.advance.here reaches) fun _ c₁ first reaches₁ => ?_
    have took := advance_took head first
    rw [took.rest, isDot] at second
    obtain ⟨d, head', dot⟩ := Option.map_eq_some_iff.1 second
    refine .bind (Reports.advance.here reaches₁) fun _ c₂ skip _ => ?_
    have took' := advance_took (by simpa [List.head?_eq_getElem?] using head') skip
    obtain ⟨front, reached⟩ := reaches
    have taken := reached.trans (took.trans took')
    exact .andThen (reports_readMetaName taken (by rw [word]; rfl) dot) fun _ => .returnSpan ..
  · exact .throw reaches (.unsupported (reaches.covers_head head))

theorem reports_readPrimary : Reports c₀ (readPrimary (.within n)) := by
  refine .peek .failAtEnd fun {t c} reaches head => ?_
  have advances := Reports.advance.here reaches
  dsimp only
  cases start : t.primaryStart with
  | number =>
    exact .bind advances fun _ _ first _ => reports_readNumber reaches (advance_took head first)
  | leaf l => exact .andThen advances fun _ => .pure _
  | importWord =>
    exact reports_readImportMeta (Lexeme.primaryStart_eq_importWord start) reaches head
  | parenthesized =>
    refine .andThen (Reports.get.here reaches) fun _ => .bind .advance fun _ => ?_
    exact .bind (reports_read h) fun _ => .bind (.expect _) fun _ => .returnSpan ..
  | array => exact (reports_readArray h).here reaches
  | object => exact (reports_readObject h).here reaches
  | unsupported => exact .throw reaches (.unsupported (reaches.covers_head head))
  | other => exact .throw reaches (.expression head)

omit h in
theorem reports_finishProperty (e : Expr) (optional : Bool) :
    Reports c₀ (finishProperty e optional) :=
  .bind reports_readPropertyName fun _ => .returnSpan ..

theorem reports_finishElement (e : Expr) (optional : Bool) :
    Reports c₀ (finishElement (.within n) e optional) := by
  refine .bind (.expect _) fun _ => .bind (reports_read h) fun _ => ?_
  exact .bind (.expect _) fun _ => .returnSpan ..

theorem reports_finishCall (e : Expr) (optional : Bool) :
    Reports c₀ (finishCall (.within n) e optional) :=
  .bind (reports_readArguments h) fun _ => .returnSpan ..

omit h in
theorem reports_nextLink : Reports c₀ nextLink := .stays fun _ => ⟨_, rfl⟩

theorem reports_linkStep (e : Expr) : Reports c₀ (linkStep (.within n) e) := by
  refine .bind reports_nextLink fun link => ?_
  cases link with
  | dot => exact .bind .advance fun _ => .bind (reports_finishProperty e false) fun _ => .pure _
  | bracket => exact .bind (reports_finishElement h e false) fun _ => .pure _
  | paren => exact .bind (reports_finishCall h e false) fun _ => .pure _
  | optionalDot =>
    refine .bind .advance fun _ => .bind (.bind reports_nextLink fun next => ?_) fun _ => .pure _
    cases next with
    | paren => exact reports_finishCall h e true
    | bracket => exact reports_finishElement h e true
    | _ => exact reports_finishProperty e true
  | other => exact .pure _

theorem reports_calleeStep (e : Expr) : Reports c₀ (calleeStep (.within n) e) := by
  refine .bind reports_nextLink fun link => ?_
  cases link with
  | dot => exact .bind .advance fun _ => .bind (reports_finishProperty e false) fun _ => .pure _
  | bracket => exact .bind (reports_finishElement h e false) fun _ => .pure _
  | _ => exact .pure _

theorem reports_readHead : Reports c₀ (readHead (.within n)) := by
  refine ⟨fun {c} reaches => ?_⟩
  refine .bind ((Reports.nextIs _).here reaches) fun isNew c' look reaches => ?_
  refine .ite (fun word => ?_) fun _ => (reports_readPrimary h).here reaches
  subst word
  obtain ⟨rfl, w, head, word⟩ := nextIs_eq_true look
  exact h.construct word reaches head

theorem reports_readConstruct {w : Lexeme} {c : Cursor} (word : w.kind = .keyword .newKw)
    (reaches : c₀.Reaches c) (head : c.rest.head? = some w) :
    (readConstruct (.within n)).ReportsAt c₀ c := by
  refine .afterGet ?_
  refine .bind (Reports.advance.here reaches) fun _ c₁ first reaches₁ => ?_
  refine .bind ((Reports.accept? _).here reaches₁) fun dot? c₂ look reaches₂ => ?_
  cases dot? with
  | some d =>
    obtain ⟨took, dot⟩ := accept?_took look
    obtain ⟨front, reached⟩ := reaches
    have taken := reached.trans ((advance_took head first).trans took)
    exact .andThen (reports_readMetaName taken (by rw [word]; rfl) dot) fun _ => .returnSpan ..
  | none =>
    refine .andThen ((reports_readHead h).here reaches₂) fun head => ?_
    refine .bind (.loop progresses_calleeStep (reports_calleeStep h) head) fun callee => ?_
    refine .bind (.nextIs _) fun paren => .ite ?_ (.returnSpan ..)
    exact .bind (reports_readArguments h) fun _ => .returnSpan ..

theorem reports_readLinks : Reports c₀ (readLinks (.within n)) :=
  .bind (reports_readHead h) (.loop progresses_linkStep (reports_linkStep h))

end Expr

end EcmaFront
