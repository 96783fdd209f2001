import EcmaFront.Proofs.Token.Strictness
import EcmaFront.Proofs.Tree.Completeness.Program
import EcmaFront.Proofs.Tree.Filled
import EcmaFront.Proofs.Tree.Grammar.Realizable
import EcmaFront.Proofs.Tree.Inside

/-!
# Trees of strict sources

The words that are reserved in strict sources stand in a tree as names of properties only, the word
`yield` of a `yield` form apart. So what is written with the tokens of a strict source and holds no
`yield` form is written with the same tokens when those words are identifiers (`Written.loosened`).

* `parse_of_parse_strict`: a strict source without `yield` forms has the same tree if it is not
  strict.
-/

namespace EcmaFront

/-- Whether the expression is a `yield` form. -/
def Expr.isYield : Expr → Bool
  | .yield _ | .yieldValue _ _ _ => true
  | _ => false

/-- No expression of the piece is a `yield` form. -/
def Piece.YieldFree (p : Piece) : Prop := ∀ e ∈ p.expressions, e.isYield = false

namespace TokenKind

theorem loosened_of_not_strictOnly {kind : TokenKind} (h : kind.isStrictOnly = false) :
    kind.loosened = kind := by
  simp [loosened, h]

theorem keyStart_loosened : ∀ kind : TokenKind, kind.loosened.keyStart = kind.keyStart := by
  decide +kernel

theorem isPropertyName_loosened : ∀ kind : TokenKind,
    kind.loosened.isPropertyName = kind.isPropertyName := by
  decide +kernel

theorem continuesCallee_loosened : ∀ kind : TokenKind,
    kind.loosened.continuesCallee = kind.continuesCallee := by
  decide +kernel

/-- A kind that is not that of an identifier is that of a token if it is that of the token in a
source that is not strict. -/
theorem loosened_eq_iff {kind kind' : TokenKind} (h : kind'.isStrictOnly = false)
    (notIdentifier : kind' ≠ .identifier) : kind.loosened = kind' ↔ kind = kind' := by
  unfold loosened
  split
  · next strictOnly =>
    refine ⟨fun eq => absurd eq.symm notIdentifier, ?_⟩
    rintro rfl
    simp [h] at strictOnly
  · rfl

end TokenKind

namespace Lexeme

variable {t : Lexeme}

theorem keyStart_loosened {start : KeyStart} (h : t.kind.keyStart = start) :
    t.loosened.kind.keyStart = start := t.kind.keyStart_loosened.trans h

theorem isPropertyName_loosened (h : t.kind.isPropertyName = true) :
    t.loosened.kind.isPropertyName = true := t.kind.isPropertyName_loosened.trans h

theorem kind_loosened {kind : TokenKind} (h : t.kind = kind) (free : kind.isStrictOnly = false) :
    t.loosened.kind = kind := by
  rw [← h] at free ⊢
  exact TokenKind.loosened_of_not_strictOnly free

theorem loosened_of_not_strictOnly (h : t.kind.isStrictOnly = false) : t.loosened = t := by
  rw [loosened, TokenKind.loosened_of_not_strictOnly h]

theorem loosened_of_primaryStart {start : PrimaryStart} (h : t.primaryStart = start)
    (isStart : start ≠ .other) : t.loosened = t := by
  refine loosened_of_not_strictOnly ?_
  rw [← h] at isStart
  unfold primaryStart at isStart
  split at isStart <;> simp_all [TokenKind.isStrictOnly_eq, Keyword.isStrictOnly_eq]

theorem loosened_of_operandStart {start : OperandStart} (h : t.kind.operandStart = start)
    (isOperator : start ≠ .plain) : t.loosened = t := by
  rw [← h] at isOperator
  have free : ∀ kind : TokenKind, kind.operandStart ≠ .plain → kind.isStrictOnly = false := by
    decide +kernel
  exact loosened_of_not_strictOnly (free _ isOperator)

end Lexeme

@[simp] theorem stopAfter_loosened (before : Nat) (ts : List Lexeme) :
    stopAfter before (ts.map Lexeme.loosened) = stopAfter before ts := by
  induction ts generalizing before with
  | nil => rfl
  | cons t ts ih => exact ih t.span.stop

theorem Expr.attachedSuffix?_loosened (t : Lexeme) (ts : List Lexeme) :
    attachedSuffix? t.loosened (ts.map Lexeme.loosened) = attachedSuffix? t ts := by
  have dot (u : Lexeme) : u.loosened.kind = .punctuator .dot ↔ u.kind = .punctuator .dot :=
    TokenKind.loosened_eq_iff rfl (by decide)
  have number (u : Lexeme) : u.loosened.kind = .number ↔ u.kind = .number :=
    TokenKind.loosened_eq_iff rfl (by decide)
  have name (u : Lexeme) : u.loosened.kind.isPropertyName = u.kind.isPropertyName :=
    u.kind.isPropertyName_loosened
  have span (u : Lexeme) : u.loosened.span = u.span := rfl
  rcases ts with _ | ⟨next, _ | ⟨digits, rest⟩⟩ <;>
    simp only [attachedSuffix?, List.map_nil, List.map_cons, dot, number, name, span]

theorem Expr.isShorthand_loosened {ts : List Lexeme} (h : isShorthand ts = true) :
    isShorthand (ts.map Lexeme.loosened) = true := by
  match ts with
  | [] | [_] => cases h
  | t :: next :: rest =>
    simp only [isShorthand, Bool.and_eq_true, Bool.or_eq_true, beq_iff_eq] at h
    simp only [List.map_cons, isShorthand, Bool.and_eq_true, Bool.or_eq_true, beq_iff_eq]
    refine ⟨Lexeme.kind_loosened h.1 rfl, h.2.imp ?_ ?_⟩
    · exact fun comma => Lexeme.kind_loosened comma rfl
    · exact fun close => Lexeme.kind_loosened close rfl

theorem Stops.loosened {p : TokenKind → Bool} {rest : List Lexeme} (h : Stops p rest)
    (same : ∀ kind, p (TokenKind.loosened kind) = p kind) : Stops p (rest.map Lexeme.loosened) := by
  cases rest with
  | nil => exact .nil p
  | cons t rest => exact stops_cons.2 ((same t.kind).trans (stops_cons.1 h))

/-- The words that are reserved in strict sources may as well be identifiers. -/
theorem Written.loosened {n : Nat} {p : Piece} {ts rest : List Lexeme} (h : Written n p ts rest)
    (free : p.YieldFree) : Written n p (ts.map Lexeme.loosened) (rest.map Lexeme.loosened) := by
  induction h with
  | yield | yieldValue | yieldAll => exact absurd (free _ List.mem_cons_self) (by simp [Expr.isYield])
  | unassigned _ ih => exact .unassigned (ih free)
  | assigned isOp assignable _ _ ihTarget ihValue =>
    have target := ihTarget fun e mem => free e (by grind)
    have value := ihValue fun e mem => free e (by grind)
    simp only [List.map_append, List.map_cons] at target value ⊢
    rw [← stopAfter_loosened]
    have isOp := Lexeme.kind_loosened isOp (TokenKind.isStrictOnly_assignment _)
    exact .assigned isOp assignable target value
  | single _ ih => exact .single (ih free)
  | sequence _ _ ihFirst ihTail =>
    have first := ihFirst fun e mem => free e (by grind)
    have tail := ihTail fun e mem => free e (by grind)
    simp only [List.map_append, List.map_cons] at first tail ⊢
    rw [← stopAfter_loosened]
    exact .sequence first tail
  | tailNil => exact .tailNil
  | tailCons comma _ _ ihFirst ihTail =>
    have first := ihFirst fun e mem => free e (by grind)
    have tail := ihTail fun e mem => free e (by grind)
    simp only [List.map_append, List.map_cons] at first ⊢
    exact .tailCons (Lexeme.kind_loosened comma rfl) first tail
  | plain _ ih => exact .plain (ih free)
  | spread dots _ ih =>
    rw [← stopAfter_loosened]
    exact .spread (Lexeme.kind_loosened dots rfl) (ih free)
  | argumentsNil => exact .argumentsNil
  | argumentsLast _ ih => exact .argumentsLast (ih fun e mem => free e (by grind))
  | argumentsCons comma _ _ ihFirst ihMore =>
    have first := ihFirst fun e mem => free e (by grind)
    have more := ihMore fun e mem => free e (by grind)
    simp only [List.map_append, List.map_cons] at first ⊢
    exact .argumentsCons (Lexeme.kind_loosened comma rfl) first more
  | elementsNil => exact .elementsNil
  | elementsHole comma _ ih =>
    exact .elementsHole (Lexeme.kind_loosened comma rfl) (ih fun e mem => free e (by grind))
  | elementsLast _ ih => exact .elementsLast (ih fun e mem => free e (by grind))
  | elementsCons comma _ _ ihFirst ihMore =>
    have first := ihFirst fun e mem => free e (by grind)
    have more := ihMore fun e mem => free e (by grind)
    simp only [List.map_append, List.map_cons] at first ⊢
    exact .elementsCons (Lexeme.kind_loosened comma rfl) first more
  | keyName start => exact .keyName (Lexeme.keyStart_loosened start)
  | keyString start => exact .keyString (Lexeme.keyStart_loosened start)
  | keyNumber start value => exact .keyNumber (Lexeme.keyStart_loosened start) value
  | keyComputed start close _ ih =>
    have inner := ih free
    simp only [List.map_append, List.map_cons, List.map_nil] at inner ⊢
    exact .keyComputed (Lexeme.keyStart_loosened start) (Lexeme.kind_loosened close rfl) inner
  | property colon _ _ ihKey ihValue =>
    have key := ihKey fun e mem => free e (by grind)
    have value := ihValue fun e mem => free e (by grind)
    simp only [List.map_append, List.map_cons] at key ⊢
    rw [← stopAfter_loosened]
    exact .property (Lexeme.kind_loosened colon rfl) key value
  | shorthand short => exact .shorthand (Expr.isShorthand_loosened short)
  | memberSpread dots _ ih =>
    rw [← stopAfter_loosened]
    exact .memberSpread (Lexeme.kind_loosened dots rfl) (ih free)
  | membersNil => exact .membersNil
  | membersLast _ ih => exact .membersLast (ih fun e mem => free e (by grind))
  | membersCons comma _ _ ihFirst ihMore =>
    have first := ihFirst fun e mem => free e (by grind)
    have more := ihMore fun e mem => free e (by grind)
    simp only [List.map_append, List.map_cons] at first ⊢
    exact .membersCons (Lexeme.kind_loosened comma rfl) first more
  | number start value detached =>
    have same := Lexeme.loosened_of_primaryStart start nofun
    have detached := (Expr.attachedSuffix?_loosened ..).trans detached
    rw [same] at detached
    rw [List.map_singleton, same]
    exact .number start value detached
  | leaf start =>
    rw [List.map_singleton, Lexeme.loosened_of_primaryStart start nofun]
    exact .leaf start
  | importMeta start dot kind text =>
    rw [List.map_cons, Lexeme.loosened_of_primaryStart start nofun]
    exact .importMeta start (Lexeme.kind_loosened dot rfl) (Lexeme.kind_loosened kind rfl) text
  | parenthesized start close _ ih =>
    have inner := ih fun e mem => free e (by grind)
    have same := Lexeme.loosened_of_primaryStart start nofun
    simp only [List.map_append, List.map_cons, List.map_nil, same] at inner ⊢
    exact .parenthesized start (Lexeme.kind_loosened close rfl) inner
  | array start close _ ih =>
    have inner := ih fun e mem => free e (by grind)
    have same := Lexeme.loosened_of_primaryStart start nofun
    simp only [List.map_append, List.map_cons, List.map_nil, same] at inner ⊢
    exact .array start (Lexeme.kind_loosened close rfl) inner
  | object start close _ ih =>
    have inner := ih fun e mem => free e (by grind)
    have same := Lexeme.loosened_of_primaryStart start nofun
    simp only [List.map_append, List.map_cons, List.map_nil, same] at inner ⊢
    exact .object start (Lexeme.kind_loosened close rfl) inner
  | headPrimary _ ih => exact .headPrimary (ih free)
  | newTarget isNew dot kind text =>
    exact .newTarget (Lexeme.kind_loosened isNew rfl) (Lexeme.kind_loosened dot rfl)
      (Lexeme.kind_loosened kind rfl) text
  | construct isNew paren close _ _ ihCallee ihList =>
    have callee := ihCallee fun e mem => free e (by grind)
    have list := ihList fun e mem => free e (by grind)
    simp only [List.map_append, List.map_cons, List.map_nil] at callee list ⊢
    exact .construct (Lexeme.kind_loosened isNew rfl) (Lexeme.kind_loosened paren rfl)
      (Lexeme.kind_loosened close rfl) callee list
  | constructBare isNew _ stop ih =>
    rw [← stopAfter_loosened]
    exact .constructBare (Lexeme.kind_loosened isNew rfl) (ih fun e mem => free e (by grind))
      (stop.loosened TokenKind.continuesCallee_loosened)
  | calleeHead _ ih => exact .calleeHead (ih free)
  | calleeAccess _ access ihObject ihAccess =>
    have inside := access.object_inside
    have object := ihObject fun e mem => free e (List.mem_cons_of_mem _ (inside mem))
    rw [List.map_append] at object ⊢
    exact .calleeAccess object (ihAccess free)
  | linksHead _ ih => exact .linksHead (ih free)
  | linksLink _ link ihObject ihLink =>
    have inside := link.object_inside
    have object := ihObject fun e mem => free e (List.mem_cons_of_mem _ (inside mem))
    rw [List.map_append] at object ⊢
    exact .linksLink object (ihLink free)
  | element bracket close _ ih =>
    have index := ih fun e mem => free e (by grind)
    simp only [List.map_append, List.map_cons, List.map_nil] at index ⊢
    exact .element (Lexeme.kind_loosened bracket rfl) (Lexeme.kind_loosened close rfl) index
  | call paren close _ ih =>
    have list := ih fun e mem => free e (by grind)
    simp only [List.map_append, List.map_cons, List.map_nil] at list ⊢
    exact .call (Lexeme.kind_loosened paren rfl) (Lexeme.kind_loosened close rfl) list
  | accessName dot name =>
    exact .accessName (Lexeme.kind_loosened dot rfl) (Lexeme.isPropertyName_loosened name)
  | accessElement _ ih => exact .accessElement (ih free)
  | linkAccess _ ih => exact .linkAccess (ih free)
  | linkCall _ ih => exact .linkCall (ih free)
  | optionalName dot name =>
    exact .optionalName (Lexeme.kind_loosened dot rfl) (Lexeme.isPropertyName_loosened name)
  | optionalElement dot _ ih => exact .optionalElement (Lexeme.kind_loosened dot rfl) (ih free)
  | optionalCall dot _ ih => exact .optionalCall (Lexeme.kind_loosened dot rfl) (ih free)
  | updatedLinks _ ih => exact .updatedLinks (ih free)
  | @updateBehind _ op _ _ _ _ isOp assignable _ ih =>
    have links := ih fun e mem => free e (by grind)
    simp only [List.map_append, List.map_cons, List.map_nil] at links ⊢
    have kind := Lexeme.kind_loosened isOp.symm (by cases op <;> rfl)
    exact .updateBehind kind.symm assignable links
  | operandUpdated _ ih => exact .operandUpdated (ih free)
  | updateAhead start assignable _ ih =>
    rw [← stopAfter_loosened, List.map_cons, Lexeme.loosened_of_operandStart start nofun]
    exact .updateAhead start assignable (ih fun e mem => free e (by grind))
  | unary start _ ih =>
    rw [← stopAfter_loosened, List.map_cons, Lexeme.loosened_of_operandStart start nofun]
    exact .unary start (ih fun e mem => free e (by grind))
  | await start _ ih =>
    rw [← stopAfter_loosened, List.map_cons, Lexeme.loosened_of_operandStart start nofun]
    exact .await start (ih fun e mem => free e (by grind))
  | chainOperand _ ih => exact .chainOperand (ih free)
  | operationLeft isOp grouping le mixLeft mixRight _ _ ihLeft ihRight =>
    have left := ihLeft fun e mem => free e (by grind)
    have right := ihRight fun e mem => free e (by grind)
    simp only [List.map_append, List.map_cons] at left ⊢
    have kind := Lexeme.kind_loosened isOp.symm (TokenKind.isStrictOnly_infix _)
    exact .operationLeft kind.symm grouping le mixLeft mixRight left right
  | operationRight isOp grouping le mixLeft mixRight _ _ ihLeft ihRight =>
    have left := ihLeft fun e mem => free e (by grind)
    have right := ihRight fun e mem => free e (by grind)
    simp only [List.map_append, List.map_cons] at left ⊢
    have kind := Lexeme.kind_loosened isOp.symm (TokenKind.isStrictOnly_infix _)
    exact .operationRight kind.symm grouping le mixLeft mixRight left right
  | unconditional _ ih => exact .unconditional (ih free)
  | conditional question colon _ _ _ ihCondition ihTrue ihFalse =>
    have condition := ihCondition fun e mem => free e (by grind)
    have whenTrue := ihTrue fun e mem => free e (by grind)
    have whenFalse := ihFalse fun e mem => free e (by grind)
    simp only [List.map_append, List.map_cons] at condition whenTrue ⊢
    rw [← stopAfter_loosened]
    exact .conditional (Lexeme.kind_loosened question rfl) (Lexeme.kind_loosened colon rfl)
      condition whenTrue whenFalse
  | @declaration _ kind _ _ _ _ _ _ _ isKind name assign semicolon _ ih =>
    have value := ih free
    simp only [List.map_append, List.map_cons, List.map_nil] at value ⊢
    exact .declaration (Lexeme.kind_loosened isKind (by cases kind <;> rfl))
      (Lexeme.kind_loosened name rfl) (Lexeme.kind_loosened assign rfl)
      (Lexeme.kind_loosened semicolon rfl) value
  | block brace close _ ih =>
    have statements := ih free
    simp only [List.map_append, List.map_cons, List.map_nil] at statements ⊢
    exact .block (Lexeme.kind_loosened brace rfl) (Lexeme.kind_loosened close rfl) statements
  | empty semicolon => exact .empty (Lexeme.kind_loosened semicolon rfl)
  | expression notBrace semicolon _ ih =>
    have e := ih free
    simp only [List.map_append, List.map_cons, List.map_nil] at e ⊢
    have notBrace := mt (TokenKind.loosened_eq_iff rfl (by decide)).1 notBrace
    exact .expression notBrace (Lexeme.kind_loosened semicolon rfl) e
  | debugger kind semicolon =>
    exact .debugger (Lexeme.kind_loosened kind rfl) (Lexeme.kind_loosened semicolon rfl)
  | statementsNil => exact .statementsNil
  | statementsCons _ _ ihFirst ihMore =>
    have first := ihFirst fun e mem => free e (by grind)
    have more := ihMore fun e mem => free e (by grind)
    rw [List.map_append] at first ⊢
    exact .statementsCons first more

/-- A strict source whose tree holds no `yield` form has the same tree, spans included, if it is not
strict. -/
theorem parse_of_parse_strict {source : Text} {p : Program} (h : parse true source = .ok p)
    (free : ∀ e ∈ p.expressions, e.isYield = false) : parse false source = .ok p := by
  obtain ⟨tokens, scanned, read⟩ := parse_eq_ok.1 h
  obtain ⟨tokens', scanned', source_eq, lexemes_eq⟩ := scan_loosened scanned
  obtain ⟨written, span⟩ := Program.ofTokens_eq_ok.1 read
  refine parse_eq_ok.2 ⟨tokens', scanned', Program.ofTokens_eq_ok.2 ⟨?_, ?_⟩⟩
  · rw [lexemes_eq]
    exact written.loosened free
  · rw [source_eq, span]

/-- In `a.as={as:1};` the reserved word `as` names two properties. -/
theorem parse_of_parse_strict_names :
    ∃ p, parse true ['a', '.', 'a', 's', '=', '\x7b', 'a', 's', ':', '1', '\x7d', ';'] = .ok p ∧
      (∀ e ∈ p.expressions, e.isYield = false) ∧
      parse false ['a', '.', 'a', 's', '=', '\x7b', 'a', 's', ':', '1', '\x7d', ';'] = .ok p := by
  let target : Expr := .property (.leaf (.identifier ['a']) ⟨0, 1⟩) ⟨['a', 's'], ⟨2, 2⟩⟩ false ⟨0, 4⟩
  let value : Expr := .object [.property (.name ⟨['a', 's'], ⟨6, 2⟩⟩) (.leaf (.number 1) ⟨9, 1⟩) ⟨6, 4⟩]
    ⟨5, 6⟩
  let p : Program := ⟨[.expression (.assignment .assign target value ⟨0, 11⟩) ⟨0, 12⟩], ⟨0, 12⟩⟩
  have parsed : parse true ['a', '.', 'a', 's', '=', '\x7b', 'a', 's', ':', '1', '\x7d', ';'] =
      .ok p := rfl
  have free : ∀ e ∈ p.expressions, e.isYield = false := by
    simp [p, target, value, Program.expressions, insideStatements, Statement.inside, Expr.inside,
      insideMembers, ObjectMember.inside, PropertyKey.inside, Expr.isYield]
  exact ⟨p, parsed, free, parse_of_parse_strict parsed free⟩

end EcmaFront
