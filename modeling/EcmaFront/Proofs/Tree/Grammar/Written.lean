import EcmaFront.Proofs.Tree.Grammar

/-!
# What is written is in the grammar

Three facts about whatever is written with tokens: it is in the grammar when its spans are forgotten
(`Written.grammatical`), it nests no deeper than the readers may (`Written.nests`), and no number in
it runs into what follows (`Written.detached`).
-/

namespace EcmaFront

/-! ## Words -/

namespace Spelled

variable {strict : Bool} {kind : TokenKind} {text : Text}

theorem notOperator : ∀ row ∈ Spelling.operators,
    row.2.isPropertyName = false ∧ row.2 ≠ .string := by
  decide +kernel

theorem isName (h : Spelled strict kind text) (name : kind.isPropertyName = true) :
    text.IsName := by
  cases h with
  | operator mem => simp [(notOperator _ mem).1] at name
  | name word => exact word
  | number | string => cases name

theorem isIdentifier (h : Spelled strict kind text) (identifier : kind = .identifier) :
    text.IsIdentifier strict := by
  cases h with
  | operator mem =>
    have := (notOperator _ mem).1
    simp [identifier, TokenKind.isPropertyName_eq] at this
  | name word =>
    refine ⟨word, ?_⟩
    unfold Spelling.nameKind at identifier
    split at identifier
    · cases identifier
    · assumption
  | number | string => cases identifier

theorem isString (h : Spelled strict kind text) (string : kind = .string) :
    Quoted.IsString text := by
  cases h with
  | operator mem => exact absurd string (notOperator _ mem).2
  | name => exact absurd string (Spelling.nameKind_ne rfl)
  | number => cases string
  | string raw => exact raw

/-- The word `yield` is reserved in strict sources only. -/
theorem strict_of_yield (h : Spelled strict kind text) (isYield : kind = .keyword .yieldKw) :
    strict = true := by
  cases h with
  | operator mem =>
    have := (notOperator _ mem).1
    simp [isYield, TokenKind.isPropertyName_eq] at this
  | name word =>
    unfold Spelling.nameKind at isYield
    split at isYield
    · next k found =>
      cases isYield
      have reserved := (Spelling.keyword?_eq_some_iff.1 found).2
      simpa [Keyword.isStrictOnly_eq] using reserved
    · cases isYield
  | number | string => cases isYield

end Spelled

/-! ## Properties of bare trees -/

namespace Expr

@[simp] theorem isAssignable_bare : (e : Expr) → e.bare.isAssignable = e.isAssignable
  | .parenthesized inside _ => isAssignable_bare inside
  | .leaf l _ => by cases l <;> rfl
  | .property .. | .element .. | .array .. | .object .. | .call .. | .construct ..
  | .constructBare .. | .update .. | .unary .. | .await .. | .operation .. | .conditional ..
  | .assignment .. | .sequence .. | .yield .. | .yieldValue .. => rfl

@[simp] theorem isBareNew_bare (e : Expr) : e.bare.isBareNew = e.isBareNew := by
  cases e <;> rfl

@[simp] theorem mixesWith_bare (op : InfixOperator) (e : Expr) :
    mixesWith op e.bare = mixesWith op e := by
  cases op with
  | binary op => rfl
  | logical op =>
    cases e with
    | operation below => cases below <;> rfl
    | _ => rfl

@[simp] theorem startsWithBrace_bare : (e : Expr) → e.bare.startsWithBrace = e.startsWithBrace
  | .property e .. | .element e .. | .call e .. | .update _ false e _ | .operation _ e ..
  | .conditional e .. | .assignment _ e .. | .sequence (e :: _) _ => startsWithBrace_bare e
  | .leaf .. | .parenthesized .. | .array .. | .object .. | .construct .. | .constructBare ..
  | .update _ true .. | .unary .. | .await .. | .sequence [] _ | .yield .. | .yieldValue .. => rfl

end Expr

/-! ## Forms with `new` and braces -/

theorem Stops.left {p : TokenKind → Bool} {ts rest : List Lexeme} (h : Stops p (ts ++ rest)) :
    Stops p ts := by
  intro t head
  exact h t (by simp [List.head?_append, Option.mem_def.1 head])

/-- What follows a `new` form without arguments does not belong to its callee. -/
theorem Written.stops_of_isBareNew {n : Nat} {p : Piece} {e : Expr} {ts rest : List Lexeme}
    (h : Written n p ts rest) (bare : e.isBareNew = true)
    (piece : p = .head e ∨ p = .callee e ∨ p = .links e) :
    Stops TokenKind.continuesCallee rest := by
  have ofHead {n : Nat} {ts : List Lexeme} (h : Written n (.head e) ts rest) :
      Stops TokenKind.continuesCallee rest := by
    cases h with
    | headPrimary h => cases h <;> cases bare
    | newTarget | construct => cases bare
    | constructBare _ _ stop => exact stop
  have notAccess {object : Expr} {us rest : List Lexeme} :
      ¬Written n (.access object e) us rest := by
    intro h
    cases h with
    | accessName => cases bare
    | accessElement h => cases h; cases bare
  obtain rfl | rfl | rfl := piece
  · exact ofHead h
  · cases h with
    | calleeHead h => exact ofHead h
    | calleeAccess _ h => exact absurd h notAccess
  · cases h with
    | linksHead h => exact ofHead h
    | linksLink _ h =>
      cases h with
      | linkAccess h => exact absurd h notAccess
      | linkCall h | optionalCall _ h | optionalElement _ h => cases h; cases bare
      | optionalName => cases bare

/-- Whether the first token is a brace. A link does not change it. -/
def Piece.Braces : Piece → List Lexeme → Prop
  | .assignment e, ts | .expression e, ts | .primary e, ts | .head e, ts | .callee e, ts
  | .links e, ts | .updated e, ts | .operand e, ts | .chain _ e, ts | .conditional e, ts =>
    ∀ t ∈ ts.head?, t.kind = .punctuator .openBrace ↔ e.startsWithBrace = true
  | .element object _ e, _ | .call object _ e, _ | .access object e, _ | .link object e, _ =>
    e.startsWithBrace = object.startsWithBrace
  | _, _ => True

theorem mem_head?_of_append {p : TokenKind → Bool} {ts us : List Lexeme} (h : Opens p ts)
    {t : Lexeme} (head : t ∈ (ts ++ us).head?) : t ∈ ts.head? := by
  obtain ⟨t', vs, rfl, _⟩ := h
  exact head

theorem Written.braces {n : Nat} {p : Piece} {ts rest : List Lexeme} (h : Written n p ts rest) :
    p.Braces ts := by
  induction h with
  | yield k | yieldValue k | yieldAll k | newTarget k | construct k | constructBare k =>
    rintro t ⟨⟩
    simp [k, Expr.startsWithBrace]
  | unassigned _ ih | single _ ih | headPrimary _ ih | calleeHead _ ih | linksHead _ ih
  | updatedLinks _ ih | operandUpdated _ ih | chainOperand _ ih | unconditional _ ih
  | accessElement _ ih | linkAccess _ ih | linkCall _ ih | optionalElement _ _ ih
  | optionalCall _ _ ih => exact ih
  | assigned _ _ e _ ih | operationLeft _ _ _ _ _ e _ ih | operationRight _ _ _ _ _ e _ ih
  | sequence e _ ih | conditional _ _ e _ _ ih | updateBehind _ _ e ih =>
    exact fun t head => ih t (mem_head?_of_append e.opening head)
  | calleeAccess object _ ih link | linksLink object _ ih link =>
    intro t head
    rw [link]
    exact ih t (mem_head?_of_append object.opening head)
  | element | call | accessName | optionalName => rfl
  | updateAhead o | unary o | await o =>
    rintro t ⟨⟩
    refine ⟨fun brace => ?_, by simp [Expr.startsWithBrace]⟩
    rw [brace] at o
    cases o
  | number o | leaf o | importMeta o | parenthesized o | array o =>
    rintro t ⟨⟩
    refine ⟨fun brace => ?_, by simp [Expr.startsWithBrace]⟩
    rw [Lexeme.primaryStart, brace] at o
    cases o
  | object o =>
    rintro t ⟨⟩
    refine ⟨fun _ => rfl, fun _ => ?_⟩
    unfold Lexeme.primaryStart at o
    split at o <;> first | assumption | cases o
  | _ => trivial

/-! ## The grammar -/

/-- The piece is in the grammar without its spans. A link keeps what it continues in the grammar,
unless that is a `new` form that would have taken the link itself. -/
def Piece.Sound (strict : Bool) : Piece → List Lexeme → Prop
  | .assignment e, _ => Grammatical strict (.assignment e.bare)
  | .expression e, _ => Grammatical strict (.expression e.bare)
  | .tail es, _ => ∀ e ∈ bareExpressions es, Grammatical strict (.assignment e)
  | .argument a, _ => Grammatical strict (.argument a.bare)
  | .arguments list, _ => ∀ a ∈ bareArguments list, Grammatical strict (.argument a)
  | .elements es, _ => (∀ span, .hole span ∈ bareElements es → span = .unset) ∧
    ∀ a, .item a ∈ bareElements es → Grammatical strict (.argument a)
  | .key k, _ => Grammatical strict (.key k.bare)
  | .member m, _ => Grammatical strict (.member m.bare)
  | .members ms, _ => ∀ m ∈ bareMembers ms, Grammatical strict (.member m)
  | .primary e, _ => Grammatical strict (.primary e.bare)
  | .head e, _ => Grammatical strict (.head e.bare)
  | .callee e, _ => Grammatical strict (.callee e.bare)
  | .links e, _ => Grammatical strict (.links e.bare)
  | .element object optional e, _ => ∃ index span, e = .element object index optional span ∧
    Grammatical strict (.expression index.bare)
  | .call object optional e, _ => ∃ list span, e = .call object list optional span ∧
    ∀ a ∈ bareArguments list, Grammatical strict (.argument a)
  | .access object e, ts => (object.isBareNew = true → Stops TokenKind.continuesCallee ts) →
    (Grammatical strict (.callee object.bare) → Grammatical strict (.callee e.bare)) ∧
      (Grammatical strict (.links object.bare) → Grammatical strict (.links e.bare))
  | .link object e, ts => (object.isBareNew = true → Stops TokenKind.continuesCallee ts) →
    Grammatical strict (.links object.bare) → Grammatical strict (.links e.bare)
  | .updated e, _ => Grammatical strict (.updated e.bare)
  | .operand e, _ => Grammatical strict (.operand e.bare)
  | .chain least e, _ => Grammatical strict (.chain least e.bare)
  | .conditional e, _ => Grammatical strict (.conditional e.bare)
  | .statement s, _ => Grammatical strict (.statement s.bare)
  | .statements list, _ => ∀ s ∈ bareStatements list, Grammatical strict (.statement s)

/-- A `new` form without arguments takes the links that it can have. -/
theorem notBareNew {object : Expr} {t : Lexeme} {us : List Lexeme}
    (h : object.isBareNew = true → Stops TokenKind.continuesCallee (t :: us))
    (continues : t.kind.continuesCallee = true) : object.bare.isBareNew = false := by
  rw [Expr.isBareNew_bare, Bool.eq_false_iff]
  intro bare
  rw [stops_cons.1 (h bare)] at continues
  cases continues

theorem grammatical_leaf {strict : Bool} {l : Leaf} {t : Lexeme} (start : t.primaryStart = .leaf l)
    (spelled : Spelled strict t.kind t.text) : Grammatical strict (.primary (.leaf l .unset)) := by
  unfold Lexeme.primaryStart at start
  split at start <;> cases start
  case h_2 kind => exact .string (spelled.isString kind)
  case h_3 kind => exact .identifier (spelled.isIdentifier kind)
  all_goals exact .word (by simp)

theorem Written.grammatical {strict : Bool} {n : Nat} {p : Piece} {ts rest : List Lexeme}
    (h : Written n p ts rest) (spelled : ∀ t ∈ ts, Spelled strict t.kind t.text) :
    p.Sound strict ts := by
  induction h with
  | yield k => exact .yield ((spelled _ (by simp)).strict_of_yield k)
  | yieldValue k _ ih | yieldAll k _ _ ih =>
    exact .yieldValue ((spelled _ (by simp)).strict_of_yield k) (ih (by simp_all))
  | unassigned _ ih => exact .unassigned (ih spelled)
  | assigned _ assignable _ _ target value =>
    exact .assigned (by simpa using assignable) (target (by simp_all)) (value (by simp_all))
  | single _ ih => exact .single (ih spelled)
  | sequence _ _ first tail =>
    refine .sequence (by simp [bareExpressions]) (List.forall_mem_cons.2 ⟨?_, ?_⟩)
    · exact first (by simp_all)
    · exact tail (by simp_all)
  | tailNil | argumentsNil | membersNil | statementsNil => exact List.forall_mem_nil _
  | tailCons _ _ _ ih more | argumentsCons _ _ _ ih more | membersCons _ _ _ ih more
  | statementsCons _ _ ih more =>
    exact List.forall_mem_cons.2 ⟨ih (by simp_all), more (by simp_all)⟩
  | argumentsLast _ ih | membersLast _ ih =>
    exact List.forall_mem_cons.2 ⟨ih spelled, List.forall_mem_nil _⟩
  | plain _ ih => exact .plain (ih spelled)
  | spread _ _ ih => exact .spread (ih (by simp_all))
  | elementsNil => exact ⟨nofun, nofun⟩
  | elementsHole _ _ ih =>
    obtain ⟨holes, items⟩ := ih (by simp_all)
    exact ⟨by simpa [bareElements, ArrayElement.bare] using holes,
      by simpa [bareElements, ArrayElement.bare] using items⟩
  | elementsLast _ ih =>
    refine ⟨by simp [bareElements, ArrayElement.bare], ?_⟩
    simpa [bareElements, ArrayElement.bare] using show Grammatical strict _ from ih spelled
  | elementsCons _ _ _ ih more =>
    have first : Grammatical strict _ := ih (by simp_all)
    obtain ⟨holes, items⟩ := more (by simp_all)
    refine ⟨by simpa [bareElements, ArrayElement.bare] using holes, ?_⟩
    simpa [bareElements, ArrayElement.bare] using ⟨first, items⟩
  | @keyName _ t _ start =>
    refine .keyName ((spelled t (by simp)).isName ?_)
    unfold TokenKind.keyStart at start
    split at start <;> simp_all [TokenKind.isPropertyName_eq]
  | @keyString _ t _ start =>
    refine .keyString ((spelled t (by simp)).isString ?_)
    unfold TokenKind.keyStart at start
    split at start <;> first | assumption | cases start
  | keyNumber _ value => exact .keyNumber (Numeral.value?_lt value)
  | keyComputed _ _ _ ih => exact .keyComputed (ih (by simp_all))
  | property _ _ _ key value => exact .property (key (by simp_all)) (value (by simp_all))
  | shorthand short =>
    exact .shorthand ((spelled _ (by simp)).isIdentifier (Expr.kind_of_isShorthand short))
  | memberSpread _ _ ih => exact .memberSpread (ih (by simp_all))
  | number _ value => exact .number (Numeral.value?_lt value)
  | leaf start => exact grammatical_leaf start (spelled _ (by simp))
  | importMeta => exact .word (by simp)
  | parenthesized _ _ _ ih => exact .parenthesized (ih (by simp_all))
  | array _ _ _ ih =>
    obtain ⟨holes, items⟩ := ih (by simp_all)
    exact .array holes items
  | object _ _ _ ih => exact .object (ih (by simp_all))
  | headPrimary _ ih => exact .headPrimary (ih spelled)
  | newTarget => exact .newTarget
  | construct _ p _ callee _ ih list =>
    have bare := notBareNew (fun bare => callee.stops_of_isBareNew bare (.inr (.inl rfl)))
      (by rw [p]; rfl)
    exact .construct bare (ih (by simp_all)) (list (by simp_all))
  | constructBare _ _ _ ih => exact .constructBare (ih (by simp_all))
  | calleeHead _ ih => exact .calleeHead (ih spelled)
  | calleeAccess object _ ih access =>
    have stop bare := (object.stops_of_isBareNew bare (.inr (.inl rfl))).left
    exact (access (by simp_all) stop).1 (ih (by simp_all))
  | linksHead _ ih => exact .linksHead (ih spelled)
  | linksLink object _ ih link =>
    have stop bare := (object.stops_of_isBareNew bare (.inr (.inr rfl))).left
    exact link (by simp_all) stop (ih (by simp_all))
  | element _ _ _ ih => exact ⟨_, _, rfl, ih (by simp_all)⟩
  | call _ _ _ ih => exact ⟨_, _, rfl, ih (by simp_all)⟩
  | accessName dot isName =>
    intro stop
    have bare := notBareNew stop (by rw [dot]; rfl)
    have name := (spelled _ (by simp)).isName isName
    exact ⟨fun object => .calleeProperty bare object name,
      fun object => .linksProperty (by simp [bare]) object name⟩
  | accessElement e ih =>
    intro stop
    obtain ⟨index, span, rfl, inside⟩ := ih spelled
    cases e with
    | element b =>
      have bare := notBareNew stop (by rw [b]; rfl)
      exact ⟨fun object => .calleeElement bare object inside,
        fun object => .linksElement (by simp [bare]) object inside⟩
  | linkAccess _ ih => exact fun stop => (ih spelled stop).2
  | linkCall e ih =>
    intro stop callee
    obtain ⟨list, span, rfl, inside⟩ := ih spelled
    cases e with
    | call p =>
      have bare := notBareNew stop (by rw [p]; rfl)
      exact .linksCall (by simp [bare]) callee inside
  | optionalName _ isName =>
    exact fun _ object => .linksProperty rfl object ((spelled _ (by simp)).isName isName)
  | optionalElement _ _ ih =>
    intro _ object
    obtain ⟨index, span, rfl, inside⟩ := ih (by simp_all)
    exact .linksElement rfl object inside
  | optionalCall _ _ ih =>
    intro _ callee
    obtain ⟨list, span, rfl, inside⟩ := ih (by simp_all)
    exact .linksCall rfl callee inside
  | updatedLinks _ ih => exact .updatedLinks (ih spelled)
  | updateBehind _ assignable _ ih =>
    exact .updateBehind (by simpa using assignable) (ih (by simp_all))
  | operandUpdated _ ih => exact .operandUpdated (ih spelled)
  | updateAhead _ assignable _ ih =>
    exact .updateAhead (by simpa using assignable) (ih (by simp_all))
  | unary _ _ ih => exact .unary (ih (by simp_all))
  | await _ _ ih => exact .await (ih (by simp_all))
  | chainOperand _ ih => exact .chainOperand (ih spelled)
  | operationLeft _ grouping le mixLeft mixRight _ _ left right
  | operationRight _ grouping le mixLeft mixRight _ _ left right =>
    have left := left (by simp_all)
    have right := right (by simp_all)
    refine .operation le (by simpa using mixLeft) (by simpa using mixRight) ?_ ?_
    · simpa [Precedence.leftLeast, grouping, Piece.Sound] using left
    · simpa [Precedence.rightLeast, grouping, Piece.Sound] using right
  | unconditional _ ih => exact .unconditional (ih spelled)
  | conditional _ _ _ _ _ condition whenTrue whenFalse =>
    exact .conditional (condition (by simp_all)) (whenTrue (by simp_all)) (whenFalse (by simp_all))
  | declaration _ name _ _ _ ih =>
    exact .declaration ((spelled _ (by simp)).isIdentifier name) (ih (by simp_all))
  | block _ _ _ ih => exact .block (ih (by simp_all))
  | empty => exact .empty
  | expression notBrace _ e ih =>
    refine .expression ?_ (ih (by simp_all))
    have first := e.braces _ rfl
    simp_all
  | debugger => exact .debugger

/-! ## Levels of nesting -/

/-- The piece enters at most `n` levels of nesting. -/
def Piece.NestsWithin (n : Nat) : Piece → Prop
  | .assignment e | .expression e => e.nesting + 1 ≤ n
  | .tail es => ∀ e ∈ es, e.nesting + 1 ≤ n
  | .argument a => a.nesting ≤ n
  | .arguments list => ∀ a ∈ list, a.nesting ≤ n
  | .elements es => ∀ e ∈ es, e.nesting ≤ n
  | .key k => k.nesting ≤ n
  | .member m => m.nesting ≤ n
  | .members ms => ∀ m ∈ ms, m.nesting ≤ n
  | .primary e | .head e | .callee e | .links e | .updated e | .operand e | .chain _ e
  | .conditional e => e.nesting ≤ n
  | .element object _ e | .call object _ e | .access object e | .link object e =>
    object.nesting ≤ n → e.nesting ≤ n
  | .statement s => s.nesting ≤ n
  | .statements list => ∀ s ∈ list, s.nesting ≤ n

section

variable {n : Nat}

@[simp] theorem nestingExpressions_le {es : List Expr} :
    nestingExpressions es ≤ n ↔ ∀ e ∈ es, e.nesting ≤ n := by
  induction es with
  | nil => simp [nestingExpressions]
  | cons e es ih => simp [nestingExpressions, ih]

@[simp] theorem nestingArguments_le {list : List Argument} :
    nestingArguments list ≤ n ↔ ∀ a ∈ list, a.nesting ≤ n := by
  induction list with
  | nil => simp [nestingArguments]
  | cons a list ih => simp [nestingArguments, ih]

@[simp] theorem nestingElements_le {es : List ArrayElement} :
    nestingElements es ≤ n ↔ ∀ e ∈ es, e.nesting ≤ n := by
  induction es with
  | nil => simp [nestingElements]
  | cons e es ih => simp [nestingElements, ih]

@[simp] theorem nestingMembers_le {ms : List ObjectMember} :
    nestingMembers ms ≤ n ↔ ∀ m ∈ ms, m.nesting ≤ n := by
  induction ms with
  | nil => simp [nestingMembers]
  | cons m ms ih => simp [nestingMembers, ih]

@[simp] theorem nestingStatements_le {list : List Statement} :
    nestingStatements list ≤ n ↔ ∀ s ∈ list, s.nesting ≤ n := by
  induction list with
  | nil => simp [nestingStatements]
  | cons s list ih => simp [nestingStatements, ih]

end

theorem Written.nestsWithin {n : Nat} {p : Piece} {ts rest : List Lexeme}
    (h : Written n p ts rest) : p.NestsWithin n := by
  induction h with
  | leaf start =>
    unfold Lexeme.primaryStart at start
    split at start <;> cases start <;> exact Nat.zero_le _
  | @sequence n _ _ _ _ _ _ _ _ _ first tail =>
    have first : Expr.nesting _ + 1 ≤ n := first
    cases n with
    | zero => omega
    | succ n => simp_all [Piece.NestsWithin, Expr.nesting, nestingExpressions]
  | _ =>
    simp_all [Piece.NestsWithin, Expr.nesting, Argument.nesting, ArrayElement.nesting,
      PropertyKey.nesting, ObjectMember.nesting, Statement.nesting]
    try omega

/-! ## Numbers -/

theorem detached_cons {t : Lexeme} {ts : List Lexeme} (h : t.kind ≠ .number) :
    Detached (t :: ts) ↔ Detached ts := by
  simp [Detached, h]

namespace Lexeme

variable {t : Lexeme}

/-- What a function of kinds tells of a token and not of numbers. -/
theorem notNumber_of_kind {α : Type} {f : TokenKind → α} {a : α} (h : f t.kind = a)
    (other : f .number ≠ a) : t.kind ≠ .number := by
  intro isNumber
  rw [isNumber] at h
  exact other h

theorem notNumber_of_text? {spelling : String} (h : t.kind.text? = some spelling) :
    t.kind ≠ .number := notNumber_of_kind h nofun

theorem notNumber_of_primaryStart (h : t.primaryStart ≠ .number) : t.kind ≠ .number := by
  intro isNumber
  exact h (by rw [primaryStart, isNumber])

end Lexeme

/-- What stands behind the key of a property ends a numeral. -/
theorem attachedSuffix?_colon {t k : Lexeme} (colon : k.kind = .punctuator .colon)
    (rest : List Lexeme) : Expr.attachedSuffix? t (k :: rest) = none := by
  simp [Expr.attachedSuffix?, colon, TokenKind.isPropertyName_eq]

theorem Written.detached {n : Nat} {p : Piece} {ts rest : List Lexeme} (h : Written n p ts rest)
    (key : ∀ k, p = .key k → ∃ c us, rest = c :: us ∧ c.kind = .punctuator .colon)
    (behind : Detached rest) : Detached (ts ++ rest) := by
  induction h with
  | keyName start | keyString start =>
    exact (detached_cons (Lexeme.notNumber_of_kind start nofun)).2 behind
  | keyNumber =>
    obtain ⟨c, us, rfl, colon⟩ := key _ rfl
    exact ⟨fun _ => attachedSuffix?_colon colon us, behind⟩
  | keyComputed start =>
    have notNumber := Lexeme.notNumber_of_kind start nofun
    simp_all [detached_cons]
  | shorthand short =>
    exact (detached_cons (by simp [Expr.kind_of_isShorthand short])).2 behind
  | number _ _ detached => exact ⟨fun _ => detached, behind⟩
  | leaf start | importMeta start | parenthesized start | array start | object start =>
    have notNumber := Lexeme.notNumber_of_primaryStart (by rw [start]; exact nofun)
    simp_all [detached_cons]
  | accessName dot isName | optionalName dot isName =>
    have notNumber := Lexeme.notNumber_of_kind isName nofun
    simp_all [detached_cons]
  | updateAhead start | unary start | await start =>
    have notNumber := Lexeme.notNumber_of_kind start nofun
    simp_all [detached_cons]
  | @updateBehind _ op _ _ _ _ isOp =>
    have notNumber := Lexeme.notNumber_of_text? (isOp ▸ op.text?_kind)
    simp_all [detached_cons]
  | @operationLeft _ _ op _ _ _ _ _ _ isOp | @operationRight _ _ op _ _ _ _ _ _ isOp =>
    have notNumber := Lexeme.notNumber_of_text? (isOp ▸ op.text?_kind)
    simp_all [detached_cons]
  | @declaration _ kind _ _ _ _ _ _ _ isKind =>
    have notNumber := Lexeme.notNumber_of_text? (isKind.symm ▸ kind.text?_kind)
    simp_all [detached_cons]
  | _ => simp_all [detached_cons]

end EcmaFront
