import EcmaFront.Proofs.Token.Spelled
import EcmaFront.Proofs.Tree.Decimal
import EcmaFront.Proofs.Tree.Reading
import EcmaFront.Tree.Basic

/-!
# Outlines of trees

The outline of a tree lists the lexemes that the tree asks for, in order, and keeps the spans of its
nodes around them. `Filled outlines ts` says that the lexemes `ts` fill the outlines: each lexeme
fills one slot, and the span of each node goes from the start of the first lexeme inside to the end
of the last one.

* `Slot`, `Outline`, `Program.outlines`.
* `Prints`: which texts fill a list of slots.
* `Filled.prints`, `Filled.exists_of_inside`, `Filled.nests`: texts, runs of lexemes and spans.
-/

namespace EcmaFront

/-- A place for a lexeme. -/
inductive Slot where
  /-- An operator, a reserved word, a bracket or a separator. -/
  | fixed (kind : TokenKind)
  /-- A name or a string as it is written. -/
  | word (text : Text)
  | numeral (value : Nat)
  /-- The comma that may stand before a closing bracket. -/
  | lastComma

inductive Outline where
  | slot (s : Slot)
  /-- An element left out of an array, with the comma after it. -/
  | hole (span : Span)
  | node (span : Span) (parts : List Outline)

namespace Outline

@[match_pattern] def punctuator (p : Punctuator) : Outline := .slot (.fixed (.punctuator p))

@[match_pattern] def keyword (k : Keyword) : Outline := .slot (.fixed (.keyword k))

/-- The span of an outline that is no lexeme. -/
def span? : Outline → Option Span
  | .slot _ => none
  | .hole span | .node span _ => some span

mutual

/-- The slots of an outline in order. -/
def slots : Outline → List Slot
  | .slot s => [s]
  | .hole _ => [.fixed (.punctuator .comma)]
  | .node _ parts => slotsOf parts

def slotsOf : List Outline → List Slot
  | [] => []
  | l :: ls => l.slots ++ slotsOf ls

end

/-- Commas between the outlines. -/
def joined : List Outline → List Outline
  | [] => []
  | [l] => [l]
  | l :: ls => l :: .punctuator .comma :: joined ls

/-- Commas between the outlines; one may follow the last of them. -/
def separated : List Outline → List Outline
  | [] => []
  | [l] => [l, .slot .lastComma]
  | l :: ls => l :: .punctuator .comma :: separated ls

/-- The outline is one of the list, or stands inside one of it. -/
inductive Inside (l : Outline) : List Outline → Prop
  | here {ls : List Outline} : l ∈ ls → Inside l ls
  | deeper {span : Span} {parts ls : List Outline} : .node span parts ∈ ls → Inside l parts →
    Inside l ls

end Outline

/-! ## The outlines of trees -/

def Identifier.outline (i : Identifier) : Outline := .node i.span [.slot (.word i.name)]

def Leaf.outlines : Leaf → List Outline
  | .number value => [.slot (.numeral value)]
  | .string raw => [.slot (.word raw)]
  | .boolean true => [.keyword .trueKw]
  | .boolean false => [.keyword .falseKw]
  | .null => [.keyword .nullKw]
  | .identifier name => [.slot (.word name)]
  | .this => [.keyword .thisKw]
  | .super => [.keyword .superKw]
  | .newTarget => [.keyword .newKw, .punctuator .dot, .slot (.word "target".toList)]
  | .importMeta => [.keyword .importKw, .punctuator .dot, .slot (.word "meta".toList)]

mutual

def Expr.outline : Expr → Outline
  | .leaf l span => .node span l.outlines
  | .parenthesized inside span =>
    .node span [.punctuator .openParen, inside.outline, .punctuator .closeParen]
  | .array elements span =>
    .node span (.punctuator .openBracket :: outlineElements elements ++ [.punctuator .closeBracket])
  | .object members span =>
    .node span (.punctuator .openBrace :: Outline.separated (outlineMembers members) ++
      [.punctuator .closeBrace])
  | .property object name true span =>
    .node span [object.outline, .punctuator .optionalDot, name.outline]
  | .property object name false span =>
    .node span [object.outline, .punctuator .dot, name.outline]
  | .element object index true span =>
    .node span [object.outline, .punctuator .optionalDot, .punctuator .openBracket, index.outline,
      .punctuator .closeBracket]
  | .element object index false span =>
    .node span [object.outline, .punctuator .openBracket, index.outline, .punctuator .closeBracket]
  | .call callee arguments true span =>
    .node span (callee.outline :: .punctuator .optionalDot :: .punctuator .openParen ::
      Outline.separated (outlineArguments arguments) ++ [.punctuator .closeParen])
  | .call callee arguments false span =>
    .node span (callee.outline :: .punctuator .openParen ::
      Outline.separated (outlineArguments arguments) ++ [.punctuator .closeParen])
  | .construct callee arguments span =>
    .node span (.keyword .newKw :: callee.outline :: .punctuator .openParen ::
      Outline.separated (outlineArguments arguments) ++ [.punctuator .closeParen])
  | .constructBare callee span => .node span [.keyword .newKw, callee.outline]
  | .update op true operand span => .node span [.slot (.fixed op.kind), operand.outline]
  | .update op false operand span => .node span [operand.outline, .slot (.fixed op.kind)]
  | .unary op operand span => .node span [.slot (.fixed op.kind), operand.outline]
  | .await operand span => .node span [.keyword .awaitKw, operand.outline]
  | .operation op left right span =>
    .node span [left.outline, .slot (.fixed op.kind), right.outline]
  | .conditional condition whenTrue whenFalse span =>
    .node span [condition.outline, .punctuator .question, whenTrue.outline, .punctuator .colon,
      whenFalse.outline]
  | .assignment op target value span =>
    .node span [target.outline, .slot (.fixed (.assignment op)), value.outline]
  | .sequence expressions span => .node span (Outline.joined (outlineExpressions expressions))
  | .yield span => .node span [.keyword .yieldKw]
  | .yieldValue true operand span =>
    .node span [.keyword .yieldKw, .punctuator .star, operand.outline]
  | .yieldValue false operand span => .node span [.keyword .yieldKw, operand.outline]

def Argument.outline : Argument → Outline
  | .plain e => e.outline
  | .spread e span => .node span [.punctuator .ellipsis, e.outline]

/-- A key is no node; a computed one has the span of its expression. -/
def PropertyKey.outlines : PropertyKey → List Outline
  | .name identifier => [identifier.outline]
  | .string raw span => [.node span [.slot (.word raw)]]
  | .number value span => [.node span [.slot (.numeral value)]]
  | .computed e => [.punctuator .openBracket, e.outline, .punctuator .closeBracket]

def ObjectMember.outline : ObjectMember → Outline
  | .property key value span => .node span (key.outlines ++ [.punctuator .colon, value.outline])
  | .shorthand identifier => identifier.outline
  | .spread e span => .node span [.punctuator .ellipsis, e.outline]

def outlineExpressions : List Expr → List Outline
  | [] => []
  | e :: es => e.outline :: outlineExpressions es

def outlineArguments : List Argument → List Outline
  | [] => []
  | a :: as => a.outline :: outlineArguments as

/-- Elements with commas between them. A comma may follow the last one unless it is a hole. -/
def outlineElements : List ArrayElement → List Outline
  | [] => []
  | .hole span :: es => .hole span :: outlineElements es
  | [.item a] => [a.outline, .slot .lastComma]
  | .item a :: es => a.outline :: .punctuator .comma :: outlineElements es

def outlineMembers : List ObjectMember → List Outline
  | [] => []
  | m :: ms => m.outline :: outlineMembers ms

end

mutual

def Statement.outline : Statement → Outline
  | .declaration kind name value span =>
    .node span [.slot (.fixed kind.kind), name.outline, .slot (.fixed (.assignment .assign)),
      value.outline, .punctuator .semicolon]
  | .block statements span =>
    .node span (.punctuator .openBrace :: outlineStatements statements ++ [.punctuator .closeBrace])
  | .empty span => .node span [.punctuator .semicolon]
  | .expression e span => .node span [e.outline, .punctuator .semicolon]
  | .debugger span => .node span [.keyword .debuggerKw, .punctuator .semicolon]

def outlineStatements : List Statement → List Outline
  | [] => []
  | s :: ss => s.outline :: outlineStatements ss

end

def Program.outlines (p : Program) : List Outline := outlineStatements p.statements

/-- The slots of a program in order. -/
def Program.slots (p : Program) : List Slot := Outline.slotsOf p.outlines

/-! ## Filled outlines -/

/-- The span goes from the start of the first lexeme to the end of the last one. -/
def Bounds (span : Span) (ts : List Lexeme) : Prop :=
  ∃ t us, ts = t :: us ∧ span = .ofBounds t.span.start (stopAfter t.span.stop us)

/-- The lexemes fill the outlines. -/
inductive Filled : List Outline → List Lexeme → Prop
  | nil : Filled [] []
  | fixed {kind : TokenKind} {t : Lexeme} {ls : List Outline} {ts : List Lexeme} : t.kind = kind →
    t.text = kind.label.toList → Filled ls ts → Filled (.slot (.fixed kind) :: ls) (t :: ts)
  | word {t : Lexeme} {ls : List Outline} {ts : List Lexeme} : Filled ls ts →
    Filled (.slot (.word t.text) :: ls) (t :: ts)
  | numeral {value : Nat} {t : Lexeme} {ls : List Outline} {ts : List Lexeme} :
    Numeral.value? t.text = some value → Filled ls ts →
    Filled (.slot (.numeral value) :: ls) (t :: ts)
  | noComma {ls : List Outline} {ts : List Lexeme} : Filled ls ts →
    Filled (.slot .lastComma :: ls) ts
  | lastComma {t : Lexeme} {ls : List Outline} {ts : List Lexeme} : t.kind = .punctuator .comma →
    t.text = ",".toList → Filled ls ts → Filled (.slot .lastComma :: ls) (t :: ts)
  | hole {t : Lexeme} {ls : List Outline} {ts : List Lexeme} : t.kind = .punctuator .comma →
    t.text = ",".toList → Filled ls ts → Filled (.hole (.empty t.span.start) :: ls) (t :: ts)
  | node {span : Span} {parts ls : List Outline} {ts us : List Lexeme} : Bounds span ts →
    Filled parts ts → Filled ls us → Filled (.node span parts :: ls) (ts ++ us)

/-- The texts that fill the slots. A numeral may have zeros in front, and a last comma may be
missing. -/
inductive Prints : List Slot → List Text → Prop
  | nil : Prints [] []
  | fixed {kind : TokenKind} {slots : List Slot} {texts : List Text} : Prints slots texts →
    Prints (.fixed kind :: slots) (kind.label.toList :: texts)
  | word {text : Text} {slots : List Slot} {texts : List Text} : Prints slots texts →
    Prints (.word text :: slots) (text :: texts)
  | numeral {value : Nat} {slots : List Slot} {texts : List Text} (zeros : Nat) :
    Prints slots texts →
    Prints (.numeral value :: slots)
      ((List.replicate zeros '0' ++ Nat.toDigits 10 value) :: texts)
  | noComma {slots : List Slot} {texts : List Text} : Prints slots texts →
    Prints (.lastComma :: slots) texts
  | lastComma {slots : List Slot} {texts : List Text} : Prints slots texts →
    Prints (.lastComma :: slots) (",".toList :: texts)

theorem Prints.append {slots slots' : List Slot} {texts texts' : List Text}
    (h : Prints slots texts) (h' : Prints slots' texts') :
    Prints (slots ++ slots') (texts ++ texts') := by
  induction h with
  | nil => exact h'
  | fixed _ ih => exact .fixed ih
  | word _ ih => exact .word ih
  | numeral zeros _ ih => exact .numeral zeros ih
  | noComma _ ih => exact .noComma ih
  | lastComma _ ih => exact .lastComma ih

namespace Filled

variable {ls ms : List Outline} {ts us : List Lexeme}

theorem append (h : Filled ls ts) (h' : Filled ms us) : Filled (ls ++ ms) (ts ++ us) := by
  induction h with
  | nil => exact h'
  | fixed kind text _ ih => exact .fixed kind text ih
  | word _ ih => exact .word ih
  | numeral value _ ih => exact .numeral value ih
  | noComma _ ih => exact .noComma ih
  | lastComma kind text _ ih => exact .lastComma kind text ih
  | hole kind text _ ih => exact .hole kind text ih
  | node bounds parts _ _ ih =>
    rw [List.append_assoc]
    exact .node bounds parts ih

/-- The texts of the lexemes fill the slots in order. -/
theorem prints (h : Filled ls ts) : Prints (Outline.slotsOf ls) (ts.map (·.text)) := by
  induction h with
  | nil => exact .nil
  | fixed _ text _ ih =>
    rw [List.map_cons, text]
    exact .fixed ih
  | word _ ih => exact .word ih
  | numeral value _ ih =>
    obtain ⟨zeros, eq⟩ := Numeral.eq_of_value? value
    rw [List.map_cons, eq]
    exact .numeral zeros ih
  | noComma _ ih => exact .noComma ih
  | lastComma _ text _ ih =>
    rw [List.map_cons, text]
    exact .lastComma ih
  | hole _ text _ ih =>
    rw [List.map_cons, text]
    exact .fixed ih
  | node _ _ _ parts rest =>
    rw [List.map_append]
    exact parts.append rest

/-- A node in the list has a run of the lexemes for itself. -/
theorem exists_of_mem (h : Filled ls ts) {span : Span} {parts : List Outline}
    (mem : .node span parts ∈ ls) : ∃ us, us <:+: ts ∧ Bounds span us ∧ Filled parts us := by
  induction h with
  | nil => cases mem
  | fixed _ _ _ ih | word _ ih | numeral _ _ ih | lastComma _ _ _ ih | hole _ _ _ ih =>
    obtain ⟨us, run, found⟩ := ih (by simpa using mem)
    exact ⟨us, run.trans (List.suffix_cons _ _).isInfix, found⟩
  | noComma _ ih => exact ih (by simpa using mem)
  | @node _ _ _ ts us bounds inside _ _ ih =>
    rcases List.mem_cons.1 mem with same | mem
    · cases same
      exact ⟨ts, (List.prefix_append ts us).isInfix, bounds, inside⟩
    · obtain ⟨vs, run, found⟩ := ih mem
      exact ⟨vs, run.trans (List.suffix_append ts us).isInfix, found⟩

/-- Each node has a run of the lexemes, which its span goes around and which fills its parts. -/
theorem exists_of_inside (h : Filled ls ts) {span : Span} {parts : List Outline}
    (inside : Outline.Inside (.node span parts) ls) :
    ∃ us, us <:+: ts ∧ Bounds span us ∧ Filled parts us := by
  induction inside generalizing ts with
  | here mem => exact h.exists_of_mem mem
  | deeper mem _ ih =>
    obtain ⟨us, run, _, parts⟩ := h.exists_of_mem mem
    obtain ⟨vs, run', found⟩ := ih parts
    exact ⟨vs, run'.trans run, found⟩

/-- A hole stands at its comma. -/
theorem hole_of_mem (h : Filled ls ts) {span : Span} (mem : .hole span ∈ ls) :
    ∃ k ∈ ts, k.kind = .punctuator .comma ∧ span = .empty k.span.start := by
  induction h with
  | nil => cases mem
  | fixed _ _ _ ih | word _ ih | numeral _ _ ih | lastComma _ _ _ ih =>
    obtain ⟨k, mem', found⟩ := ih (by simpa using mem)
    exact ⟨k, List.mem_cons_of_mem _ mem', found⟩
  | noComma _ ih => exact ih (by simpa using mem)
  | hole kind _ _ ih =>
    rcases List.mem_cons.1 mem with same | mem
    · cases same
      exact ⟨_, List.mem_cons_self, kind, rfl⟩
    · obtain ⟨k, mem', found⟩ := ih mem
      exact ⟨k, List.mem_cons_of_mem _ mem', found⟩
  | node _ _ _ _ ih =>
    obtain ⟨k, mem', found⟩ := ih (by simpa using mem)
    exact ⟨k, List.mem_append_right _ mem', found⟩

theorem hole_of_inside (h : Filled ls ts) {span : Span} (inside : Outline.Inside (.hole span) ls) :
    ∃ k ∈ ts, k.kind = .punctuator .comma ∧ span = .empty k.span.start := by
  induction inside generalizing ts with
  | here mem => exact h.hole_of_mem mem
  | deeper mem _ ih =>
    obtain ⟨us, run, _, parts⟩ := h.exists_of_mem mem
    obtain ⟨k, mem', found⟩ := ih parts
    exact ⟨k, run.subset mem', found⟩

end Filled

/-! ## Spans inside spans -/

/-- The spans lie in `s`, one after the other. -/
def Span.Nests (s : Span) (children : List Span) : Prop :=
  (∀ c ∈ children, s.start ≤ c.start ∧ c.stop ≤ s.stop) ∧
    children.Pairwise fun c d => c.stop ≤ d.start

/-- Lexemes follow one another. -/
def InOrder (ts : List Lexeme) : Prop := ts.Pairwise fun t u => t.span.stop ≤ u.span.start

theorem exists_stopAfter (t : Lexeme) (us : List Lexeme) :
    ∃ u ∈ t :: us, stopAfter t.span.stop us = u.span.stop := by
  induction us generalizing t with
  | nil => exact ⟨t, List.mem_cons_self, rfl⟩
  | cons u us ih =>
    obtain ⟨v, mem, eq⟩ := ih u
    exact ⟨v, List.mem_cons_of_mem _ mem, eq⟩

theorem InOrder.stop_le {t : Lexeme} {us : List Lexeme} (h : InOrder (t :: us)) :
    ∀ u ∈ t :: us, u.span.stop ≤ stopAfter t.span.stop us := by
  induction us generalizing t with
  | nil => simp [stopAfter]
  | cons v us ih =>
    obtain ⟨first, rest⟩ := List.pairwise_cons.1 h
    refine List.forall_mem_cons.2 ⟨?_, ih rest⟩
    have := first v List.mem_cons_self
    have := ih rest v List.mem_cons_self
    have := v.span.start_le_stop
    simp only [stopAfter]
    omega

namespace Bounds

variable {span : Span} {ts : List Lexeme}

theorem le_start (h : Bounds span ts) {lo : Nat} (all : ∀ t ∈ ts, lo ≤ t.span.start) :
    lo ≤ span.start := by
  obtain ⟨t, us, rfl, rfl⟩ := h
  exact all t List.mem_cons_self

theorem stop_le (h : Bounds span ts) {hi : Nat} (all : ∀ t ∈ ts, t.span.stop ≤ hi) :
    span.stop ≤ hi := by
  obtain ⟨t, us, rfl, rfl⟩ := h
  obtain ⟨u, mem, eq⟩ := exists_stopAfter t us
  have first := all t List.mem_cons_self
  have last := all u mem
  have := t.span.start_le_stop
  rw [eq]
  simp only [Span.ofBounds, Span.stop] at *
  omega

/-- The span goes around all lexemes. -/
theorem around (h : Bounds span ts) (inOrder : InOrder ts) :
    ∀ t ∈ ts, span.start ≤ t.span.start ∧ t.span.stop ≤ span.stop := by
  obtain ⟨t, us, rfl, rfl⟩ := h
  intro u mem
  have stop := inOrder.stop_le u mem
  have start : t.span.start ≤ u.span.start := by
    rcases List.mem_cons.1 mem with rfl | mem
    · exact Nat.le_refl _
    · exact Nat.le_trans t.span.start_le_stop ((List.pairwise_cons.1 inOrder).1 u mem)
  refine ⟨start, ?_⟩
  simp only [Span.ofBounds, Span.stop] at *
  omega

end Bounds

namespace Filled

variable {ls : List Outline} {ts : List Lexeme}

theorem le_start (h : Filled ls ts) {lo : Nat} (all : ∀ t ∈ ts, lo ≤ t.span.start) :
    ∀ c ∈ ls.filterMap Outline.span?, lo ≤ c.start := by
  induction h with
  | nil => simp
  | fixed _ _ _ ih | word _ ih | numeral _ _ ih | lastComma _ _ _ ih =>
    exact ih fun t mem => all t (List.mem_cons_of_mem _ mem)
  | noComma _ ih => exact ih all
  | hole _ _ _ ih =>
    exact List.forall_mem_cons.2
      ⟨all _ List.mem_cons_self, ih fun t mem => all t (List.mem_cons_of_mem _ mem)⟩
  | node bounds _ _ _ ih =>
    exact List.forall_mem_cons.2
      ⟨bounds.le_start fun t mem => all t (List.mem_append_left _ mem),
        ih fun t mem => all t (List.mem_append_right _ mem)⟩

theorem stop_le (h : Filled ls ts) {hi : Nat} (all : ∀ t ∈ ts, t.span.stop ≤ hi) :
    ∀ c ∈ ls.filterMap Outline.span?, c.stop ≤ hi := by
  induction h with
  | nil => simp
  | fixed _ _ _ ih | word _ ih | numeral _ _ ih | lastComma _ _ _ ih =>
    exact ih fun t mem => all t (List.mem_cons_of_mem _ mem)
  | noComma _ ih => exact ih all
  | @hole t _ _ _ _ _ ih =>
    exact List.forall_mem_cons.2
      ⟨Nat.le_trans t.span.start_le_stop (all t List.mem_cons_self),
        ih fun t mem => all t (List.mem_cons_of_mem _ mem)⟩
  | node bounds _ _ _ ih =>
    exact List.forall_mem_cons.2
      ⟨bounds.stop_le fun t mem => all t (List.mem_append_left _ mem),
        ih fun t mem => all t (List.mem_append_right _ mem)⟩

theorem siblings (h : Filled ls ts) (inOrder : InOrder ts) :
    (ls.filterMap Outline.span?).Pairwise fun c d => c.stop ≤ d.start := by
  induction h with
  | nil => exact .nil
  | fixed _ _ _ ih | word _ ih | numeral _ _ ih | lastComma _ _ _ ih =>
    exact ih (List.pairwise_cons.1 inOrder).2
  | noComma _ ih => exact ih inOrder
  | @hole t _ _ _ _ rest ih =>
    obtain ⟨first, others⟩ := List.pairwise_cons.1 inOrder
    refine List.pairwise_cons.2 ⟨rest.le_start fun u mem => ?_, ih others⟩
    exact Nat.le_trans t.span.start_le_stop (first u mem)
  | node bounds _ rest _ ih =>
    obtain ⟨_, others, across⟩ := List.pairwise_append.1 inOrder
    refine List.pairwise_cons.2 ⟨rest.le_start fun u mem => ?_, ih others⟩
    exact bounds.stop_le fun t mem' => across t mem' u mem

/-- The spans of the parts of a node lie in its span, one after the other. -/
theorem nests (h : Filled ls ts) (inOrder : InOrder ts) {span : Span} {parts : List Outline}
    (inside : Outline.Inside (.node span parts) ls) :
    span.Nests (parts.filterMap Outline.span?) := by
  obtain ⟨us, run, bounds, filled⟩ := h.exists_of_inside inside
  have ordered : InOrder us := inOrder.sublist run.sublist
  have around := bounds.around ordered
  refine ⟨fun c mem => ⟨?_, ?_⟩, filled.siblings ordered⟩
  · exact filled.le_start (fun t mem => (around t mem).1) c mem
  · exact filled.stop_le (fun t mem => (around t mem).2) c mem

end Filled

end EcmaFront
