import EcmaFront.Proofs.Tree.Completeness.Operator

/-!
# What is written is read

Whatever is written with tokens is what the readers make of them (`Written.taken`), by induction on
how it is written: in front of a token that would not continue it, or of the one that closes it. With
the soundness of the readers, the programs of a sequence of tokens are those that are written with
it (`Program.ofTokens_eq_ok`).
-/

namespace EcmaFront

open Reader

namespace TokenKind

theorem statementStart_of_startsAssignment {kind : TokenKind} (h : kind.startsAssignment = true)
    (notBrace : kind ≠ .punctuator .openBrace) :
    kind.statementStart = .expression ∨
      kind = .keyword .importKw ∧ kind.statementStart = .importWord := by
  revert kind
  decide +kernel

theorem statementStart_declaration (kind : DeclarationKind) :
    kind.kind.statementStart = .declaration kind := by
  cases kind <;> rfl

end TokenKind

/-- A statement starts with a token that does not close a block. -/
theorem Written.exists_of_statement {n : Nat} {s : Statement} {ts rest : List Lexeme}
    (h : Written n (.statement s) ts rest) :
    ∃ t us, ts = t :: us ∧ t.kind ≠ .punctuator .closeBrace := by
  cases h with
  | declaration kind =>
    refine ⟨_, _, rfl, fun close => ?_⟩
    rw [kind] at close
    exact absurd close (by cases ‹DeclarationKind› <;> decide)
  | block kind | empty kind | debugger kind => exact ⟨_, _, rfl, by simp [kind]⟩
  | expression _ _ e =>
    obtain ⟨t, us, eq, first, _⟩ := e.opening
    obtain ⟨rfl, rfl⟩ := List.cons.inj eq
    refine ⟨_, _, rfl, fun close => ?_⟩
    rw [close] at first
    cases first

namespace Statement

variable {n : Nat}

theorem takes_declaration {kind : DeclarationKind} {value : Expr} {w i q z : Lexeme}
    {ts rest : List Lexeme} (isKind : w.kind = kind.kind) (name : i.kind = .identifier)
    (assign : q.kind = .assignment .assign) (semicolon : z.kind = .punctuator .semicolon)
    (readValue : Takes (Nested.within n).assignment ts (z :: rest) value) :
    Takes (readFrom (.within n) w) (w :: i :: q :: (ts ++ [z])) rest
      (.declaration kind ⟨i.text, i.span⟩ value (.ofBounds w.span.start z.span.stop)) := by
  intro d s
  simp only [List.cons_append, List.append_assoc, List.nil_append]
  rw [readFrom, isKind, TokenKind.statementStart_declaration]
  refine bind_eq_ok.2 ⟨_, _, get_eq_ok.2 ⟨rfl, rfl⟩, bind_eq_ok.2 ⟨_, _, rfl, ?_⟩⟩
  refine bind_eq_ok.2 ⟨_, _, expectOr_cons name, bind_eq_ok.2 ⟨_, _, expectOr_cons assign, ?_⟩⟩
  refine bind_eq_ok.2 ⟨_, _, readValue _ _, bind_eq_ok.2 ⟨_, _, expectOr_cons semicolon, ?_⟩⟩
  refine returnSpan_eq_ok.2 ⟨rfl, ?_⟩
  simp [stopAfter]

theorem takes_empty {z : Lexeme} {rest : List Lexeme} (semicolon : z.kind = .punctuator .semicolon) :
    Takes (readFrom (.within n) z) [z] rest (.empty z.span) := by
  intro d s
  rw [readFrom, semicolon]
  exact bind_eq_ok.2 ⟨_, _, rfl, rfl⟩

theorem takes_debugger {w z : Lexeme} {rest : List Lexeme} (kind : w.kind = .keyword .debuggerKw)
    (semicolon : z.kind = .punctuator .semicolon) :
    Takes (readFrom (.within n) w) [w, z] rest
      (.debugger (.ofBounds w.span.start z.span.stop)) := by
  intro d s
  rw [readFrom, kind]
  refine bind_eq_ok.2 ⟨_, _, rfl, bind_eq_ok.2 ⟨_, _, expectOr_cons semicolon, ?_⟩⟩
  exact returnSpan_eq_ok.2 ⟨rfl, rfl⟩

theorem takes_expression {e : Expr} {t z : Lexeme} {ts rest : List Lexeme}
    (opens : Opens TokenKind.startsAssignment (t :: ts))
    (notBrace : t.kind ≠ .punctuator .openBrace) (semicolon : z.kind = .punctuator .semicolon)
    (readE : Takes (Expr.read (.within n)) (t :: ts) (z :: rest) e) :
    Takes (readFrom (.within n) t) (t :: (ts ++ [z])) rest
      (.expression e (.ofBounds e.span.start z.span.stop)) := by
  have takes : Takes (readExpression (.within n)) (t :: (ts ++ [z])) rest
      (.expression e (.ofBounds e.span.start z.span.stop)) := by
    intro d s
    rw [List.cons_append, List.append_assoc, List.singleton_append]
    refine bind_eq_ok.2 ⟨_, _, readE d s, bind_eq_ok.2 ⟨_, _, expectOr_cons semicolon, ?_⟩⟩
    refine returnSpan_eq_ok.2 ⟨rfl, ?_⟩
    simp [stopAfter]
  obtain ⟨t', us, eq, first, behindImport, _⟩ := opens
  obtain ⟨rfl, rfl⟩ := List.cons.inj eq
  obtain start | ⟨isImport, start⟩ :=
    TokenKind.statementStart_of_startsAssignment first notBrace
  · rwa [readFrom, start]
  · intro d s
    rw [readFrom, start]
    -- An expression that starts with `import` goes on with a dot.
    obtain ⟨dot, head, isDot⟩ := behindImport isImport
    obtain ⟨vs, rfl⟩ := List.head?_eq_some_iff.1 head
    refine bind_eq_ok.2 ⟨_, _, rfl, ?_⟩
    simp only [List.cons_append, List.getElem?_cons_succ, List.getElem?_cons_zero,
      Option.map_some, isDot]
    exact takes d s

theorem takes_block {list : List Statement} {b k : Lexeme} {ts rest : List Lexeme}
    (brace : b.kind = .punctuator .openBrace)
    (readList : ∀ before, Takes (loop (blockStep (.within n)) before) (ts ++ [k]) rest
      (before.reverse ++ list)) :
    Takes (readFrom (.within (n + 1)) b) (b :: (ts ++ [k])) rest
      (.block list (.ofBounds b.span.start k.span.stop)) := by
  intro d s
  rw [readFrom, brace]
  refine bind_eq_ok.2 ⟨_, _, get_eq_ok.2 ⟨rfl, rfl⟩, bind_eq_ok.2 ⟨_, _, expectOr_cons brace, ?_⟩⟩
  refine bind_eq_ok.2 ⟨_, _, readList [] _ _, returnSpan_eq_ok.2 ⟨?_, ?_⟩⟩
  · simp [stopAfter, Cursor.nextSpan]
  · simp [stopAfter]

/-! ## Lists of statements -/

theorem takes_blockNil {k : Lexeme} {rest : List Lexeme} (close : k.kind = .punctuator .closeBrace)
    (before : List Statement) :
    Takes (loop (blockStep (.within n)) before) [k] rest (before.reverse ++ []) := by
  refine .loop_done fun d s => ?_
  rw [List.append_nil]
  refine bind_eq_ok.2 ⟨_, _, rfl, ?_⟩
  simp only [List.singleton_append, List.head?_cons, if_pos close]
  exact bind_eq_ok.2 ⟨_, _, rfl, rfl⟩

theorem takes_blockCons {statement : Statement} {list : List Statement} {t : Lexeme}
    {ts us rest : List Lexeme} (notClose : t.kind ≠ .punctuator .closeBrace)
    (readFirst : Takes (readFrom (.within n) t) (t :: ts) (us ++ rest) statement)
    (readMore : ∀ before, Takes (loop (blockStep (.within n)) before) us rest
      (before.reverse ++ list)) (before : List Statement) :
    Takes (loop (blockStep (.within n)) before) (t :: ts ++ us) rest
      (before.reverse ++ statement :: list) := by
  have step : Takes (blockStep (.within n) before) (t :: ts) (us ++ rest)
      (.again (statement :: before)) := by
    intro d s
    refine bind_eq_ok.2 ⟨_, _, rfl, ?_⟩
    simp only [List.cons_append, List.head?_cons, if_neg notClose]
    exact bind_eq_ok.2 ⟨_, _, readFirst d s, rfl⟩
  have more := readMore (statement :: before)
  rw [List.reverse_cons, List.append_assoc] at more
  exact step.loop_again (progresses_of_collects (collects_blockStep (Nested.sound_within n))) more

end Statement

namespace Program

variable {n : Nat}

theorem takes_programNil (before : List Statement) :
    Takes (loop (step (.within n)) before) [] [] (before.reverse ++ []) := by
  refine .loop_done fun d s => ?_
  refine bind_eq_ok.2 ⟨none, _, bind_eq_ok.2 ⟨_, _, rfl, rfl⟩, ?_⟩
  simp [pure_eq_ok, stopAfter]

theorem takes_programStep {statement : Statement} {t : Lexeme} {ts rest : List Lexeme}
    (read : Takes (Statement.readFrom (.within n) t) (t :: ts) rest statement)
    (before : List Statement) :
    Takes (step (.within n) before) (t :: ts) rest (.again (statement :: before)) := by
  intro d s
  have read? : Statement.read? (.within n) ⟨t :: ts ++ rest, d, s⟩ =
      .ok (some statement) ⟨rest, stopAfter d (t :: ts), s⟩ :=
    bind_eq_ok.2 ⟨_, _, rfl, bind_eq_ok.2 ⟨_, _, read d s, rfl⟩⟩
  exact bind_eq_ok.2 ⟨_, _, read?, rfl⟩

theorem progresses_step : Progresses (step (.within n)) :=
  progresses_of_collects (collects_step (Nested.sound_within n))

theorem takes_programCons {statement : Statement} {list : List Statement} {t : Lexeme}
    {ts us rest : List Lexeme}
    (readFirst : Takes (Statement.readFrom (.within n) t) (t :: ts) (us ++ rest) statement)
    (readMore : ∀ before, Takes (loop (step (.within n)) before) us rest
      (before.reverse ++ list)) (before : List Statement) :
    Takes (loop (step (.within n)) before) (t :: ts ++ us) rest
      (before.reverse ++ statement :: list) := by
  have more := readMore (statement :: before)
  rw [List.reverse_cons, List.append_assoc] at more
  exact (takes_programStep readFirst before).loop_again progresses_step more

end Program

/-! ## Everything that is written -/

/-- What the readers do with the lexemes of a piece in front of a rest. -/
def Piece.Taken (n : Nat) : Piece → List Lexeme → List Lexeme → Prop
  | .assignment e, ts, rest => Stops TokenKind.continuesAssignment rest →
    Takes (Nested.within n).assignment ts rest e
  | .expression e, ts, rest => Stops TokenKind.continuesExpression rest →
    Takes (Expr.read (.within n)) ts rest e
  | .tail es, ts, rest => Stops TokenKind.continuesExpression rest → ∀ before,
    Takes (loop (Expr.sequenceStep (.within n)) before) ts rest (before.reverse ++ es)
  | .argument a, ts, rest => Stops TokenKind.continuesAssignment rest →
    Takes (Expr.readArgument (.within n)) ts rest a
  | .arguments list, ts, rest => ∀ k rest', rest = k :: rest' → k.kind = .punctuator .closeParen →
    ∀ before, Takes (loop (Expr.argumentsStep (.within n)) before) ts rest (before.reverse ++ list)
  | .elements es, ts, rest => ∀ k rest', rest = k :: rest' → k.kind = .punctuator .closeBracket →
    ∀ before,
      Takes (loop (Expr.arrayStep (.within n)) before) (ts ++ [k]) rest' (before.reverse ++ es)
  | .key k, ts, rest => ∀ t ∈ ts.head?, Takes (Expr.readPropertyKey (.within n) t) ts rest k
  | .member m, ts, rest => Stops TokenKind.continuesAssignment rest →
    Takes (Expr.readMember (.within n)) ts rest m
  | .members ms, ts, rest => ∀ k rest', rest = k :: rest' → k.kind = .punctuator .closeBrace →
    ∀ before, Takes (loop (Expr.objectStep (.within n)) before) ts rest (before.reverse ++ ms)
  | .primary e, ts, rest => Takes (Expr.readPrimary (.within n)) ts rest e
  | .head e, ts, rest => Takes (Expr.readHead (.within n)) ts rest e
  | .callee e, ts, rest =>
    Leads (Expr.readHead (.within n)) (Expr.calleeStep (.within n)) ts rest e
  | .links e, ts, rest => Leads (Expr.readHead (.within n)) (Expr.linkStep (.within n)) ts rest e
  | .element object optional e, ts, rest =>
    Takes (Expr.finishElement (.within n) object optional) ts rest e
  | .call object optional e, ts, rest =>
    Takes (Expr.finishCall (.within n) object optional) ts rest e
  | .access object e, ts, rest => Expr.AccessTaken n object e ts rest
  | .link object e, ts, rest => Takes (Expr.linkStep (.within n) object) ts rest (.again e)
  | .updated e, ts, rest => Stops TokenKind.continuesOperand rest →
    Takes (Expr.readUpdated (.within n)) ts rest e
  | .operand e, ts, rest => Stops TokenKind.continuesOperand rest →
    Takes (Expr.readOperand (.within n)) ts rest e
  | .chain least e, ts, rest => Stops TokenKind.continuesOperand rest →
    Stops (TokenKind.bindsTighter e.rightRank) rest → Expr.ChainTaken n least e ts rest
  | .conditional e, ts, rest => Stops TokenKind.continuesConditional rest →
    e.isAssignable = true ∨ Stops TokenKind.continuesAssignment rest →
      Takes (Expr.readConditional (.within n)) ts rest e
  | .statement s, ts, rest => ∀ t ∈ ts.head?, Takes (Statement.readFrom (.within n) t) ts rest s
  | .statements list, ts, rest =>
    (∀ k rest', rest = k :: rest' → k.kind = .punctuator .closeBrace → ∀ before,
      Takes (loop (Statement.blockStep (.within n)) before) (ts ++ [k]) rest'
        (before.reverse ++ list)) ∧
    (rest = [] → ∀ before,
      Takes (loop (Program.step (.within n)) before) ts rest (before.reverse ++ list))

theorem Written.taken {n : Nat} {p : Piece} {ts rest : List Lexeme} (h : Written n p ts rest) :
    p.Taken n ts rest := by
  induction h with
  | yield kind stop => exact fun _ => Expr.takes_yield kind stop
  | yieldValue kind e ih => exact fun stop => Expr.takes_yieldValue kind e.opening (ih stop)
  | yieldAll kind star e ih => exact fun stop => Expr.takes_yieldAll kind star e.opening (ih stop)
  | unassigned e ih =>
    exact fun stop => Expr.takes_unassigned e.opening stop
      (ih (stop.mono TokenKind.continuesAssignment_of_conditional) (.inr stop))
  | assigned isOp assignable target _ ihTarget ihValue =>
    intro stop
    refine Expr.takes_assigned target.opening isOp assignable (ihTarget ?_ (.inl assignable))
      (ihValue stop)
    exact stops_of_kind isOp rfl
  | single _ ih =>
    exact fun stop => Expr.takes_single stop
      (ih (stop.mono TokenKind.continuesExpression_of_assignment))
  | sequence first tail ihFirst ihTail =>
    intro stop
    cases tail with
    | tailCons comma =>
      exact Expr.takes_sequence comma (ihFirst (stops_of_kind comma rfl)) (ihTail stop)
  | tailNil => exact fun stop before => Expr.takes_tailNil stop before
  | tailCons comma first tail ihFirst ihTail =>
    intro stop
    refine Expr.takes_tailCons comma (ihFirst ?_) (ihTail stop)
    cases tail with
    | tailNil => exact stop.mono TokenKind.continuesExpression_of_assignment
    | tailCons comma => exact stops_of_kind comma rfl
  | plain e ih => exact fun stop => Expr.takes_plain e.opening (ih stop)
  | spread kind _ ih => exact fun stop => Expr.takes_spread kind (ih stop)
  | argumentsNil =>
    rintro k rest rfl close
    exact takes_separatedNil close
  | argumentsLast a ih =>
    rintro k rest rfl close
    obtain ⟨t, us, rfl, notClose, _⟩ := Expr.exists_of_argument a
    exact takes_separatedLast (stops_cons.2 (by simpa using notClose)) (by simp [close])
      (ih (stops_of_kind close rfl))
  | argumentsCons comma a _ ihFirst ihMore =>
    rintro k rest rfl close
    obtain ⟨t, us, rfl, notClose, _⟩ := Expr.exists_of_argument a
    exact takes_separatedCons Expr.progresses_argumentsStep
      (stops_cons.2 (by simpa using notClose)) comma
      (ihFirst (stops_of_kind comma rfl)) (ihMore k rest rfl close)
  | elementsNil =>
    rintro k rest rfl close
    exact Expr.takes_elementsNil close
  | elementsHole comma _ ih =>
    rintro k rest rfl close
    exact Expr.takes_elementsHole comma (ih k rest rfl close)
  | elementsLast a ih =>
    rintro k rest rfl close
    exact Expr.takes_elementsLast a close (ih (stops_of_kind close rfl))
  | elementsCons comma a _ ihFirst ihMore =>
    rintro k rest rfl close before
    have readFirst := ihFirst (stops_of_kind comma rfl)
    rw [List.append_assoc, List.cons_append]
    exact Expr.takes_elementsCons (by simpa using a) comma (by simpa using readFirst)
      (ihMore k rest rfl close) before
  | keyName start =>
    rintro t ⟨⟩
    exact Expr.takes_keyName start
  | keyString start =>
    rintro t ⟨⟩
    exact Expr.takes_keyString start
  | keyNumber start isValue =>
    rintro t ⟨⟩
    exact Expr.takes_keyNumber start isValue
  | keyComputed start close _ ih =>
    rintro t ⟨⟩
    exact Expr.takes_keyComputed start close (ih (stops_of_kind close rfl))
  | property colon key _ ihKey ihValue =>
    exact fun stop => Expr.takes_property key colon (ihKey _ rfl) (ihValue stop)
  | shorthand short => exact fun _ => Expr.takes_shorthand short
  | memberSpread kind _ ih => exact fun stop => Expr.takes_memberSpread kind (ih stop)
  | membersNil =>
    rintro k rest rfl close
    exact takes_separatedNil close
  | membersLast m ih =>
    rintro k rest rfl close
    exact takes_separatedLast (Expr.notClose_of_member m _) (by simp [close])
      (ih (stops_of_kind close rfl))
  | membersCons comma m _ ihFirst ihMore =>
    rintro k rest rfl close
    exact takes_separatedCons Expr.progresses_objectStep (Expr.notClose_of_member m _) comma
      (ihFirst (stops_of_kind comma rfl)) (ihMore k rest rfl close)
  | number start isValue detached => exact Expr.takes_number start isValue detached
  | leaf start => exact Expr.takes_leaf start
  | importMeta start dot kind text => exact Expr.takes_importMeta start dot kind text
  | parenthesized start close _ ih =>
    exact Expr.takes_parenthesized start close (ih (stops_of_kind close rfl))
  | array start close _ ih => exact Expr.takes_array start (ih _ _ rfl close)
  | object start close _ ih => exact Expr.takes_object start close (ih _ _ rfl close)
  | headPrimary e ih => exact Expr.takes_headPrimary e ih
  | newTarget isNew dot kind text =>
    exact Expr.takes_headNew isNew (Expr.takes_newTarget dot kind text)
  | construct isNew paren close callee _ ihCallee ihList =>
    have readCallee := ihCallee.done (Expr.takes_noAccess (stops_of_kind paren rfl))
    have readList := Expr.takes_readArguments paren close (ihList _ _ rfl close)
    exact Expr.takes_headNew isNew
      (Expr.takes_construct callee.opening paren readCallee readList)
  | constructBare isNew callee stop ih =>
    have readCallee := ih.done (Expr.takes_noAccess fun t head =>
      TokenKind.access_of_not_continuesCallee (stop t head))
    exact Expr.takes_headNew isNew (Expr.takes_constructBare callee.opening stop readCallee)
  | calleeHead _ ih => exact .of_takes ih
  | calleeAccess _ _ ihObject ihAccess => exact ihObject.again Expr.progresses_calleeStep ihAccess.1
  | linksHead _ ih => exact .of_takes ih
  | linksLink _ _ ihObject ihLink => exact ihObject.again Expr.progresses_linkStep ihLink
  | element bracket close _ ih =>
    exact Expr.takes_finishElement bracket close (ih (stops_of_kind close rfl))
  | call paren close _ ih =>
    exact Expr.takes_finishCall (Expr.takes_readArguments paren close (ih _ _ rfl close))
  | accessName dot isName => exact Expr.takes_accessName dot isName
  | accessElement e ih =>
    cases e with
    | element bracket => exact Expr.takes_accessElement bracket ih
  | linkAccess _ ih => exact ih.2
  | linkCall e ih =>
    cases e with
    | call paren => exact Expr.takes_linkCall paren ih
  | optionalName isOptional isName =>
    exact Expr.takes_optional isOptional (Expr.takes_optionalName isName)
  | optionalElement isOptional e ih =>
    cases e with
    | element bracket =>
      exact Expr.takes_optional isOptional (Expr.takes_optionalElement bracket ih)
  | optionalCall isOptional e ih =>
    cases e with
    | call paren => exact Expr.takes_optional isOptional (Expr.takes_optionalCall paren ih)
  | updatedLinks _ ih => exact fun stop => Expr.takes_updatedLinks stop ih
  | updateBehind isOp assignable _ ih => exact fun _ => Expr.takes_updateBehind isOp assignable ih
  | operandUpdated e ih => exact fun stop => Expr.takes_operandUpdated e.opening (ih stop)
  | updateAhead start assignable _ ih =>
    exact fun stop => Expr.takes_updateAhead start assignable (ih stop)
  | unary start _ ih => exact fun stop => Expr.takes_unary start (ih stop)
  | await start _ ih => exact fun stop => Expr.takes_await start (ih stop)
  | chainOperand _ ih => exact fun stop _ => Expr.chainTaken_operand (ih stop)
  | @operationLeft n least op _ _ o _ _ _ isOp grouping le mixLeft mixRight left right ihLeft
      ihRight =>
    intro stop tight
    have floor : op.precedence.rightFloor = op.precedence := if_neg (by simp [grouping])
    rw [Expr.rightRank, floor] at tight
    have leftOver := left.rank_le_rightRank (Nat.le_of_eq (if_neg (by simp [grouping])))
    refine Expr.chainTaken_left isOp grouping le mixLeft mixRight tight (ihLeft ?_ ?_)
      (ihRight stop ?_)
    · exact stops_of_kind isOp.symm (TokenKind.continuesOperand_infix op)
    · exact stops_of_kind isOp.symm (TokenKind.bindsTighter_infix leftOver)
    · refine tight.bindsTighter_mono (right.rank_le_rightRank ?_)
      rw [Precedence.leftLeast, if_neg (by simp [grouping])]
      exact Nat.le_succ _
  | @operationRight n least op _ _ o _ _ _ isOp grouping le mixLeft mixRight left right ihLeft
      ihRight =>
    intro stop tight
    have leftOver := left.rank_le_rightRank (Nat.le_of_eq (if_pos grouping))
    refine Expr.chainTaken_right isOp grouping le mixLeft mixRight tight (ihLeft ?_ ?_)
      (ihRight stop ?_)
    · exact stops_of_kind isOp.symm (TokenKind.continuesOperand_infix op)
    · exact stops_of_kind isOp.symm (TokenKind.bindsTighter_infix leftOver)
    · refine tight.bindsTighter_mono (right.rank_le_rightRank ?_)
      rw [Precedence.eq_power_of_groupsRight grouping]
      decide
  | unconditional _ ih =>
    intro stop _
    refine Expr.takes_unconditional stop (Expr.takes_chain (ih ?_ ?_) ?_)
    · exact stop.mono TokenKind.continuesConditional_of_operand
    · exact stop.mono TokenKind.continuesConditional_of_bindsTighter
    · exact stop.mono TokenKind.continuesConditional_of_bindsTighter
  | conditional question colon _ _ _ ihCondition ihTrue ihFalse =>
    -- The last arm would take an assignment operator behind it, but the form is no target.
    rintro _ (assignable | stop)
    · cases assignable
    refine Expr.takes_conditional question colon
      (Expr.takes_chain (ihCondition ?_ ?_) ?_) (ihTrue ?_) (ihFalse stop)
    · exact stops_of_kind question rfl
    · exact stops_of_kind question rfl
    · exact stops_of_kind question rfl
    · exact stops_of_kind colon rfl
  | declaration kind name assign semicolon _ ih =>
    rintro t ⟨⟩
    exact Statement.takes_declaration kind name assign semicolon
      (ih (stops_of_kind semicolon rfl))
  | block brace close _ ih =>
    rintro t ⟨⟩
    exact Statement.takes_block brace (ih.1 _ _ rfl close)
  | empty semicolon =>
    rintro t ⟨⟩
    exact Statement.takes_empty semicolon
  | expression notBrace semicolon e ih =>
    rintro t ⟨⟩
    exact Statement.takes_expression e.opening notBrace semicolon
      (ih (stops_of_kind semicolon rfl))
  | debugger kind semicolon =>
    rintro t ⟨⟩
    exact Statement.takes_debugger kind semicolon
  | statementsNil =>
    constructor
    · rintro k rest rfl close
      exact Statement.takes_blockNil close
    · rintro rfl
      exact Program.takes_programNil
  | statementsCons statement _ ihFirst ihMore =>
    obtain ⟨t, us, rfl, notClose⟩ := statement.exists_of_statement
    constructor
    · rintro k rest rfl close before
      have readFirst := ihFirst t rfl
      rw [List.append_assoc]
      exact Statement.takes_blockCons notClose (by simpa using readFirst)
        (ihMore.1 k rest rfl close) before
    · rintro rfl
      exact Program.takes_programCons (ihFirst t rfl) (ihMore.2 rfl)

namespace Program

/-- What is written with a sequence of tokens is read from it. -/
theorem ofTokens_of_written {limit : Nat} {tokens : TokenSequence} {list : List Statement}
    (written : Written limit (.statements list) tokens.lexemes []) :
    ofTokens limit tokens = .ok ⟨list, .ofBounds 0 (Text.size tokens.source)⟩ := by
  have readList := written.taken.2 rfl [] 0 (Text.size tokens.source)
  rw [List.append_nil] at readList
  have ok : read (.within limit) (Cursor.start tokens) = _ :=
    bind_eq_ok.2 ⟨_, _, readList, bind_eq_ok.2 ⟨_, _, get_eq_ok.2 ⟨rfl, rfl⟩, rfl⟩⟩
  rw [ofTokens, ok]
  rfl

/-- The programs of a sequence of tokens are those that are written with it. -/
theorem ofTokens_eq_ok {limit : Nat} {tokens : TokenSequence} {p : Program} :
    ofTokens limit tokens = .ok p ↔
      Written limit (.statements p.statements) tokens.lexemes [] ∧
        p.span = .ofBounds 0 (Text.size tokens.source) := by
  constructor
  · exact written_of_ofTokens
  · rintro ⟨written, span⟩
    rw [ofTokens_of_written written, ← span]

end Program

end EcmaFront
