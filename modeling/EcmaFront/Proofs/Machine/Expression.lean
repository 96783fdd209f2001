import EcmaFront.Proofs.Machine.Agreement

/-!
# The parser reads expressions as the readers do

One lemma for each production: where the steps of the nested forms agree with their readers
(`FormsAgree`), so does the production that uses them.

* `Reads`, `Takes`, `Extends`: the agreements of this module, for a step that gives an expression, for
  one that takes a token, and for the steps of a loop over an expression.
* `reads_expression`, `reads_assignment`, `reads_chain`, `reads_operand`, `reads_construct`: the forms
  that others nest.
-/

namespace EcmaFront.Parser

open Agrees
open Checked (check check_run bind_ok)

variable {tokens : TokenSequence} {depth : Nat} {p₀ p p' : Parser} {c c' : Cursor}

/-- The step gives an expression as the reader does, and takes a token for it. -/
abbrev Reads (tokens : TokenSequence) (depth : Nat) (x : Step Expr) (r : Reader Expr) (p : Parser)
    (c : Cursor) : Prop := Agrees tokens depth x r p c (Parsed tokens depth p)

/-- The step reads something as the reader does, and takes a token for it. -/
abbrev Takes {α : Type} (tokens : TokenSequence) (depth : Nat) (x : Step α) (r : Reader α)
    (p : Parser) (c : Cursor) : Prop :=
  Agrees tokens depth x r p c fun _ p' c' => After tokens depth p p' c'

/-- The steps of the nested forms give what the readers of these forms give. -/
structure FormsAgree (tokens : TokenSequence) (depth : Nat) (forms : Forms) (readers : Nested) :
    Prop where
  assignment : ∀ {p c}, Stands tokens depth p c →
    Reads tokens depth forms.assignment readers.assignment p c
  operand : ∀ {p c}, Stands tokens depth p c → Reads tokens depth forms.operand readers.operand p c
  construct : ∀ {p c t}, Stands tokens depth p c → c.rest.head? = some t →
    Reads tokens depth forms.construct readers.construct p c
  rightOperand : ∀ {p c}, Stands tokens depth p c →
    Reads tokens depth (forms.rightOperand Precedence.power.rightFloor) readers.rightOperand p c
  block : ∀ {p c}, Stands tokens depth p c → Takes tokens depth forms.block readers.block p c

/-! ## Forms without nested ones -/

theorem takes_propertyName (h : Stands tokens depth p c) :
    Takes tokens depth propertyName Expr.readPropertyName p c := by
  refine .current h (fun _ => .failAtEnd h) fun {t} head => ?_
  by_cases name : t.kind.isPropertyName
  · simp only [name, if_true]
    exact .bump h head fun moves moved _ => .pure moves.stands moved
  · simp only [name]
    exact .throw h (h.covers_head head).start_le

theorem takes_metaName (h : Stands tokens depth p c) (name : String) :
    Takes tokens depth (metaName name) (Expr.readMetaName name) p c := by
  refine (expect h).bind fun {t p' c'} moves ⟨moved, head⟩ => ?_
  have covers := h.covers_head head
  by_cases same : t.text = name.toList
  · simp only [same, ne_eq, not_true_eq_false, if_false]
    exact .pure moves.stands moved
  · simp only [same, ne_eq, not_false_eq_true, if_true]
    exact .throw moves.stands covers.start_le

theorem agrees_numeral (h : Stands tokens depth p c) (t : Lexeme) (covers : tokens.Covers t.span) :
    Agrees tokens depth (numeral t) (Expr.readNumeral t) p c fun _ _ _ => True := by
  unfold numeral Expr.readNumeral Numeral.decode
  cases Numeral.value? t.text with
  | some value => exact .pure h trivial
  | none => exact .throw h covers.start_le

theorem spanThrough_eq (h : Stands tokens depth p c) {first last : Span}
    (le : first.start ≤ last.stop) (covers : tokens.Covers last) :
    spanThrough first last = .ok (.ofBounds first.start last.stop) := by
  rw [spanThrough, Span.checkedStop_eq (Nat.le_trans covers h.fits.size_le)]
  exact Span.checkedOfBounds_eq le

theorem start_of_attachedSuffix {t : Lexeme} {rest : List Lexeme} {span : Span}
    (h : Expr.attachedSuffix? t rest = some span) : span.start = t.span.start := by
  unfold Expr.attachedSuffix? at h
  split at h
  · cases h
  split at h
  · cases h
  split at h
  · cases h
    rfl
  split at h
  · split at h
    · split at h
      · cases h
        rfl
      · cases h
    · cases h
  · cases h

theorem attachedSuffix_run (h : Stands tokens depth p c) {t : Lexeme} (covers : tokens.Covers t.span) :
    attachedSuffix? t p = .ok (.ok (Expr.attachedSuffix? t c.rest), p) := by
  have stop_run {span : Span} (covers : tokens.Covers span) :
      (check span.checkedStop : Step Nat) p = .ok (.ok span.stop, p) :=
    check_run (Span.checkedStop_eq (Nat.le_trans covers h.fits.size_le)) p
  have through_run {last : Span} (le : t.span.start ≤ last.stop) (covers : tokens.Covers last) :
      (check (spanThrough t.span last) : Step Span) p =
        .ok (.ok (.ofBounds t.span.start last.stop), p) :=
    check_run (spanThrough_eq h le covers) p
  refine (bind_ok (current_run h)).trans ?_
  cases rest : c.rest with
  | nil => rfl
  | cons next rest' =>
    have nextCovers : tokens.Covers next.span := h.covers_head (by rw [rest]; rfl)
    have start_le := t.span.start_le_stop
    have next_le := next.span.start_le_stop
    refine (bind_ok (stop_run covers)).trans ?_
    unfold Expr.attachedSuffix?
    dsimp only
    by_cases apart : next.span.start ≠ t.span.stop
    · rw [if_pos apart, if_pos apart]
      rfl
    rw [if_neg apart, if_neg apart]
    by_cases name : next.kind.isPropertyName
    · rw [if_pos name, if_pos name]
      exact bind_ok (through_run (by omega) nextCovers)
    rw [if_neg name, if_neg name]
    by_cases dot : next.kind = .punctuator .dot
    · rw [if_pos dot, if_pos dot]
      have found := h.getElem?_rest 1
      refine (bind_ok (x := second) rfl).trans ?_
      cases look : p.tokens.get? (p.position + 1) with
      | none =>
        rw [look, rest] at found
        have last : rest' = [] := by simpa using found
        rw [last]
        rfl
      | some digits =>
        rw [look, rest] at found
        obtain ⟨rest'', rfl⟩ : ∃ rest'', rest' = ⟨digits.kind, digits.span, p.tokens.text digits⟩ :: rest'' :=
          List.head?_eq_some_iff.1 (by simpa [List.head?_eq_getElem?] using found)
        have digitsCovers : tokens.Covers digits.span := h.covers (i := 1) (by rw [rest]; rfl)
        have digits_le := digits.span.start_le_stop
        refine (bind_ok (stop_run nextCovers)).trans ?_
        by_cases attached : digits.kind = .number ∧ digits.span.start = next.span.stop
        · simp only [attached, and_self, if_true]
          exact bind_ok (through_run (by omega) digitsCovers)
        · simp only [attached, if_false]
          rfl
    · rw [if_neg dot, if_neg dot]
      rfl

theorem reads_number (after : After tokens depth p₀ p c) {t : Lexeme} (covers : tokens.Covers t.span) :
    Agrees tokens depth (number t) (Expr.readNumber t) p c (Parsed tokens depth p₀) := by
  refine after_ok (r := get) after.stands.moves (attachedSuffix_run after.stands covers) rfl ?_
  cases suffix : Expr.attachedSuffix? t c.rest with
  | some span =>
    refine .throw after.stands ?_
    rw [SyntaxError.offset, SyntaxError.span, start_of_attachedSuffix suffix]
    exact covers.start_le
  | none =>
    refine .andThen after (agrees_numeral after.stands t covers) fun after _ => ?_
    exact .pure after.stands ⟨after, covers⟩

variable {inner : Forms} {readers : Nested} (forms : FormsAgree tokens depth inner readers)

include forms

/-! ## Lists -/

theorem collects_sequenceStep (before : List Expr) (after : After tokens depth p₀ p c) :
    Collects tokens depth p₀ (sequenceStep inner before) (Expr.sequenceStep readers before) p c := by
  refine .accept after.stands (fun moves moved _ => ?_) (.pure after.stands after)
  refine .andThen moved (forms.assignment moves.stands) fun moved _ => ?_
  exact .pure moved.stands (goes_again after moved)

theorem reads_expression (h : Stands tokens depth p c) :
    Reads tokens depth (expression inner) (Expr.read readers) p c := by
  refine (forms.assignment h).bind fun _ ⟨after, covers⟩ => ?_
  refine .ifNextIs after.stands (fun _ _ _ => ?_) (.pure after.stands ⟨after, covers⟩)
  refine (collect after fun before => collects_sequenceStep forms before).bind fun _ after => ?_
  exact .parsed after covers.start_le fun _ => rfl

theorem takes_argument (h : Stands tokens depth p c) :
    Takes tokens depth (argument inner) (Expr.readArgument readers) p c := by
  refine .accept h (fun moves moved covers => ?_) ?_
  · refine .andThen moved (forms.assignment moves.stands) fun moved _ => ?_
    exact .spanFrom moved covers.start_le fun _ _ => .pure moved.stands moved
  · exact (forms.assignment h).bind fun _ parsed => .pure parsed.1.stands parsed.1

theorem collects_argumentsStep (before : List Argument) (after : After tokens depth p₀ p c) :
    Collects tokens depth p₀ (argumentsStep inner before) (Expr.argumentsStep readers before)
      p c := by
  refine .ifNextIs after.stands (fun _ _ _ => .pure after.stands after) ?_
  refine (takes_argument forms after.stands).bind fun moves moved => ?_
  have after' := after.step moves
  refine .accept after'.stands (fun moves' _ _ => ?_) (.pure after'.stands after')
  exact .pure moves'.stands (goes_again after (moved.step moves'))

theorem takes_arguments (h : Stands tokens depth p c) :
    Takes tokens depth (arguments inner) (Expr.readArguments readers) p c := by
  refine (expect h).bind fun _ ⟨after, _⟩ => ?_
  refine (collect after fun before => collects_argumentsStep forms before).bind fun _ after => ?_
  refine .andThen after (expect after.stands) fun after _ => ?_
  exact .pure after.stands after

theorem collects_arrayStep (before : List ArrayElement) (after : After tokens depth p₀ p c) :
    Collects tokens depth p₀ (arrayStep inner before) (Expr.arrayStep readers before) p c := by
  refine .current after.stands (fun _ => .failAtEnd after.stands) fun {t} head => ?_
  by_cases close : t.kind = .punctuator .closeBracket
  · simp only [close, if_true]
    exact .bump after.stands head fun moves _ _ => .pure moves.stands (after.step moves)
  by_cases comma : t.kind = .punctuator .comma
  · simp only [comma, if_true]
    exact .bump after.stands head fun moves moved _ => .pure moves.stands (goes_again after moved)
  simp only [close, comma, if_false]
  refine (takes_argument forms after.stands).bind fun moves moved => ?_
  have after' := after.step moves
  refine .accept after'.stands (fun moves' _ _ => ?_) ?_
  · exact .pure moves'.stands (goes_again after (moved.step moves'))
  · exact (expect after'.stands).bind fun moves' _ => .pure moves'.stands (after'.step moves')

theorem reads_array (h : Stands tokens depth p c) {t : Lexeme} (head : c.rest.head? = some t) :
    Reads tokens depth (array inner) (Expr.readArray readers) p c := by
  refine .get ?_
  rw [Cursor.nextSpan_of_head head]
  refine .bump h head fun _ after _ => ?_
  refine (collect after fun before => collects_arrayStep forms before).bind fun _ after => ?_
  exact .parsed after (h.covers_head head).start_le fun _ => rfl

theorem takes_propertyValue (key : PropertyKey) (after : After tokens depth p₀ p c) {t : Lexeme}
    (covers : tokens.Covers t.span) :
    Agrees tokens depth (propertyValue inner key t)
      (Expr.readPropertyValue readers key t.span.start) p c
      fun _ p' c' => After tokens depth p₀ p' c' := by
  refine .ifNextIs after.stands (fun t head _ => ?_) ?_
  · refine after_ok (x := get) (r := get) after.stands.moves rfl rfl ?_
    rw [after.stands.nextSpan_eq]
    exact .throw_bind after.stands after.stands.covers_nextSpan
  · refine .andThen after (expect after.stands) fun after _ => ?_
    refine .andThen after (forms.assignment after.stands) fun after _ => ?_
    exact .spanFrom after covers.start_le fun _ _ => .pure after.stands after

omit forms in
/-- Whether a name has no value is told by the kinds of two tokens. -/
theorem isShorthand_cons (t : Lexeme) (rest : List Lexeme) :
    Expr.isShorthand (t :: rest) = decide (t.kind = .identifier ∧
      (rest[0]?.map (·.kind) = some (.punctuator .comma) ∨
        rest[0]?.map (·.kind) = some (.punctuator .closeBrace))) := by
  cases rest with
  | nil => simp [Expr.isShorthand]
  | cons next rest => simp [Expr.isShorthand, Bool.beq_eq_decide_eq]

theorem takes_memberFrom (h : Stands tokens depth p c) {t : Lexeme} (head : c.rest.head? = some t) :
    Takes tokens depth (memberFrom inner t)
      (do
        if Expr.isShorthand (← get).rest then
          Reader.advance
          return .shorthand ⟨t.text, t.span⟩
        else
          let key ← Expr.readPropertyKey readers t
          Expr.readPropertyValue readers key t.span.start) p c := by
  have covers := h.covers_head head
  obtain ⟨rest, rest_eq⟩ := List.head?_eq_some_iff.1 head
  have long (other : t.kind.keyStart ≠ .name) : ¬ (t.kind = .identifier ∧
      (rest[0]?.map (·.kind) = some (.punctuator .comma) ∨
        rest[0]?.map (·.kind) = some (.punctuator .closeBrace))) :=
    fun ⟨name, _⟩ => other (by rw [name]; rfl)
  refine .get ?_
  rw [rest_eq, isShorthand_cons]
  unfold memberFrom Expr.readPropertyKey
  cases start : t.kind.keyStart with
  | name =>
    by_cases short : t.kind = .identifier ∧ (rest[0]?.map (·.kind) = some (.punctuator .comma) ∨
        rest[0]?.map (·.kind) = some (.punctuator .closeBrace))
    · rw [if_pos (decide_eq_true short)]
      refine .bump h head fun moves after tail => .lookAhead moves.stands ?_
      rw [tail, rest_eq, List.tail_cons, if_pos short]
      exact .pure moves.stands after
    · rw [if_neg (by simpa using short), bind_assoc]
      refine .bump h head fun moves after tail => .lookAhead moves.stands ?_
      rw [tail, rest_eq, List.tail_cons, if_neg short, pure_bind]
      exact takes_propertyValue forms _ after covers
  | string =>
    rw [if_neg (by simpa using long (by simp [start])), bind_assoc]
    refine .bump h head fun _ after _ => ?_
    exact takes_propertyValue forms _ after covers
  | number =>
    rw [if_neg (by simpa using long (by simp [start])), bind_assoc]
    refine .bump h head fun moves after _ => ?_
    rw [bind_assoc]
    refine .andThen after (agrees_numeral moves.stands t covers) fun after _ => ?_
    exact takes_propertyValue forms _ after covers
  | computed =>
    rw [if_neg (by simpa using long (by simp [start])), bind_assoc]
    refine .bump h head fun moves after _ => ?_
    rw [bind_assoc]
    refine .andThen after (forms.assignment moves.stands) fun after _ => ?_
    rw [bind_assoc]
    refine .andThen after (expect after.stands) fun after _ => ?_
    exact takes_propertyValue forms _ after covers
  | other =>
    rw [if_neg (by simpa using long (by simp [start]))]
    exact .throw_bind_right h covers.start_le

theorem takes_member (h : Stands tokens depth p c) :
    Takes tokens depth (member inner) (Expr.readMember readers) p c := by
  refine .accept h (fun moves after covers => ?_) ?_
  · refine .andThen after (forms.assignment moves.stands) fun after _ => ?_
    exact .spanFrom after covers.start_le fun _ _ => .pure after.stands after
  · exact .current h (fun _ => .failAtEnd h) fun head => takes_memberFrom forms h head

theorem collects_objectStep (before : List ObjectMember) (after : After tokens depth p₀ p c) :
    Collects tokens depth p₀ (objectStep inner before) (Expr.objectStep readers before) p c := by
  refine .ifNextIs after.stands (fun _ _ _ => .pure after.stands after) ?_
  refine (takes_member forms after.stands).bind fun moves moved => ?_
  have after' := after.step moves
  refine .accept after'.stands (fun moves' _ _ => ?_) (.pure after'.stands after')
  exact .pure moves'.stands (goes_again after (moved.step moves'))

theorem reads_object (h : Stands tokens depth p c) {t : Lexeme} (head : c.rest.head? = some t) :
    Reads tokens depth (object inner) (Expr.readObject readers) p c := by
  refine .get ?_
  rw [Cursor.nextSpan_of_head head]
  refine .bump h head fun _ after _ => ?_
  refine (collect after fun before => collects_objectStep forms before).bind fun _ after => ?_
  refine .andThen after (expect after.stands) fun after _ => ?_
  exact .parsed after (h.covers_head head).start_le fun _ => rfl

theorem reads_parenthesized (h : Stands tokens depth p c) {t : Lexeme}
    (head : c.rest.head? = some t) :
    Reads tokens depth (parenthesized inner) (Expr.readParenthesized readers) p c := by
  refine .get ?_
  rw [Cursor.nextSpan_of_head head]
  refine .bump h head fun moves after _ => ?_
  refine .andThen after (reads_expression forms moves.stands) fun after _ => ?_
  refine .andThen after (expect after.stands) fun after _ => ?_
  exact .parsed after (h.covers_head head).start_le fun _ => rfl

omit forms in
theorem reads_importMeta (h : Stands tokens depth p c) {t : Lexeme}
    (head : c.rest.head? = some t) :
    Reads tokens depth (importMeta t) (Expr.readImportMeta t) p c := by
  have start_le := (h.covers_head head).start_le
  refine .peekKind h fun kind second => ?_
  by_cases dot : kind = some (.punctuator .dot)
  · simp only [dot, if_true]
    subst dot
    obtain ⟨dot, found, _⟩ := Option.map_eq_some_iff.1 second
    refine .bump h head fun {p' c'} moves after rest => ?_
    have head' : c'.rest.head? = some dot := by rw [rest, List.head?_tail, found]
    refine .bump moves.stands head' fun moves' _ _ => ?_
    have after := after.step moves'
    refine .andThen after (takes_metaName after.stands "meta") fun after _ => ?_
    exact .parsed after start_le fun _ => rfl
  · simp only [dot, if_false]
    exact .throw h start_le

theorem reads_primary (h : Stands tokens depth p c) :
    Reads tokens depth (primary inner) (Expr.readPrimary readers) p c := by
  refine .current h (fun _ => .failAtEnd h) fun {t} head => ?_
  have covers := h.covers_head head
  dsimp only
  cases t.primaryStart with
  | number => exact .bump h head fun _ after _ => reads_number after covers
  | leaf l => exact .bump h head fun _ after _ => .pure after.stands ⟨after, covers⟩
  | importWord => exact reads_importMeta h head
  | parenthesized => exact reads_parenthesized forms h head
  | array => exact reads_array forms h head
  | object => exact reads_object forms h head
  | unsupported => exact .throw h covers.start_le
  | other => exact .throw h covers.start_le

/-! ## Chains of accesses and calls -/

/-- What a loop over an expression keeps. -/
abbrev Extends (tokens : TokenSequence) (depth : Nat) (p₀ : Parser)
    (x : Step (Reader.Progress Expr Expr)) (r : Reader (Reader.Progress Expr Expr)) (p : Parser)
    (c : Cursor) : Prop :=
  Agrees tokens depth x r p c (Goes (Parsed tokens depth p₀) (Parsed tokens depth p₀) p)

omit forms in
theorem reads_finishProperty (optional : Bool) {e : Expr} (parsed : Parsed tokens depth p₀ e p c) :
    Reads tokens depth (finishProperty e optional) (Expr.finishProperty e optional) p c := by
  refine (takes_propertyName parsed.1.stands).bind fun _ after => ?_
  exact .parsed after parsed.2.start_le fun _ => rfl

theorem reads_finishElement (optional : Bool) {e : Expr} (parsed : Parsed tokens depth p₀ e p c) :
    Reads tokens depth (finishElement inner e optional) (Expr.finishElement readers e optional)
      p c := by
  refine (expect parsed.1.stands).bind fun _ ⟨after, _⟩ => ?_
  refine .andThen after (reads_expression forms after.stands) fun after _ => ?_
  refine .andThen after (expect after.stands) fun after _ => ?_
  exact .parsed after parsed.2.start_le fun _ => rfl

theorem reads_finishCall (optional : Bool) {e : Expr} (parsed : Parsed tokens depth p₀ e p c) :
    Reads tokens depth (finishCall inner e optional) (Expr.finishCall readers e optional) p c := by
  refine (takes_arguments forms parsed.1.stands).bind fun _ after => ?_
  exact .parsed after parsed.2.start_le fun _ => rfl

omit forms in
theorem nextLink_run (h : Stands tokens depth p c) :
    nextLink p = .ok (.ok ((c.rest.head?.map (·.kind.linkStart)).getD .other), p) := by
  refine (bind_ok (peekKind_run h 0)).trans ?_
  rw [← List.head?_eq_getElem?, Option.map_map]
  rfl

omit forms in
theorem agrees_nextLink {α : Type} {f : LinkStart → Step α} {g : LinkStart → Reader α}
    {Q : α → Parser → Cursor → Prop} (h : Stands tokens depth p c)
    (other : Agrees tokens depth (f .other) (g .other) p c Q)
    (link : ∀ {t}, c.rest.head? = some t →
      Agrees tokens depth (f t.kind.linkStart) (g t.kind.linkStart) p c Q) :
    Agrees tokens depth (nextLink >>= f) (Expr.nextLink >>= g) p c Q := by
  refine after_ok h.moves (nextLink_run h) rfl ?_
  cases head : c.rest.head? with
  | none => exact other
  | some t => exact link head

theorem reads_finishOptional {e : Expr} (parsed : Parsed tokens depth p₀ e p c) :
    Reads tokens depth (finishOptional inner e) (Expr.finishOptional readers e) p c := by
  refine agrees_nextLink parsed.1.stands (reads_finishProperty true parsed) fun {t} _ => ?_
  cases t.kind.linkStart with
  | paren => exact reads_finishCall forms true parsed
  | bracket => exact reads_finishElement forms true parsed
  | dot | optionalDot | other => exact reads_finishProperty true parsed

omit forms in
/-- One more link of an expression that is already read. -/
theorem extends_again {x : Step Expr} {r : Reader Expr} {e : Expr}
    (parsed : Parsed tokens depth p₀ e p c) (h : Reads tokens depth x r p c) :
    Extends tokens depth p₀ (do return .again (← x)) (do return .again (← r)) p c :=
  h.bind fun _ ⟨after, covers⟩ => .pure after.stands
    ⟨after.lt, after.of_le (Nat.le_of_lt parsed.1.lt), covers⟩

omit forms in
/-- One more link behind a token of its own. -/
theorem extends_bump {x : Lexeme → Step Expr} {r : Reader Expr} {e : Expr} {t : Lexeme}
    (parsed : Parsed tokens depth p₀ e p c) (head : c.rest.head? = some t)
    (h : ∀ {p c}, Parsed tokens depth p₀ e p c → Reads tokens depth (x t) r p c) :
    Extends tokens depth p₀ (do return .again (← x (← Step.bump)))
      (do Reader.advance; return .again (← r)) p c := by
  refine .bump parsed.1.stands head fun moves moved _ => ?_
  refine (h ⟨parsed.1.step moves, parsed.2⟩).bind fun _ ⟨after, covers⟩ => ?_
  exact .pure after.stands ⟨Nat.lt_trans moved.lt after.lt,
    after.of_le (Nat.le_of_lt (Nat.lt_trans parsed.1.lt moved.lt)), covers⟩

theorem extends_linkStep (e : Expr) (parsed : Parsed tokens depth p₀ e p c) :
    Extends tokens depth p₀ (linkStep inner e) (Expr.linkStep readers e) p c := by
  have done : Extends tokens depth p₀ (pure (.done e)) (pure (.done e)) p c :=
    .pure parsed.1.stands parsed
  refine agrees_nextLink parsed.1.stands done fun {t} head => ?_
  cases t.kind.linkStart with
  | dot =>
    exact extends_bump (x := fun _ => finishProperty e false) parsed head
      fun parsed => reads_finishProperty false parsed
  | bracket => exact extends_again parsed (reads_finishElement forms false parsed)
  | paren => exact extends_again parsed (reads_finishCall forms false parsed)
  | optionalDot =>
    exact extends_bump (x := fun _ => finishOptional inner e) parsed head
      fun parsed => reads_finishOptional forms parsed
  | other => exact done

theorem extends_calleeStep (e : Expr) (parsed : Parsed tokens depth p₀ e p c) :
    Extends tokens depth p₀ (calleeStep inner e) (Expr.calleeStep readers e) p c := by
  have done : Extends tokens depth p₀ (pure (.done e)) (pure (.done e)) p c :=
    .pure parsed.1.stands parsed
  refine agrees_nextLink parsed.1.stands done fun {t} head => ?_
  cases t.kind.linkStart with
  | dot =>
    exact extends_bump (x := fun _ => finishProperty e false) parsed head
      fun parsed => reads_finishProperty false parsed
  | bracket => exact extends_again parsed (reads_finishElement forms false parsed)
  | paren | optionalDot | other => exact done

theorem reads_head (h : Stands tokens depth p c) :
    Reads tokens depth (head inner) (Expr.readHead readers) p c :=
  .ifNextIs h (fun _ next _ => forms.construct h next) (reads_primary forms h)

omit forms in
theorem extend {step : Expr → Step (Reader.Progress Expr Expr)}
    {step' : Expr → Reader (Reader.Progress Expr Expr)} {e : Expr}
    (parsed : Parsed tokens depth p₀ e p c)
    (each : ∀ e {p c}, Parsed tokens depth p₀ e p c →
      Extends tokens depth p₀ (step e) (step' e) p c) :
    Agrees tokens depth (Step.loop step e) (Reader.loop step' e) p c (Parsed tokens depth p₀) :=
  loop parsed.1.stands parsed fun e _ _ _ parsed => each e parsed

theorem reads_construct (h : Stands tokens depth p c) {t : Lexeme} (next : c.rest.head? = some t) :
    Reads tokens depth (construct inner) (Expr.readConstruct readers) p c := by
  have start_le := (h.covers_head next).start_le
  refine .get ?_
  rw [Cursor.nextSpan_of_head next]
  refine .bump h next fun moves after _ => .accept moves.stands (fun moves' _ _ => ?_) ?_
  · have after := after.step moves'
    refine .andThen after (takes_metaName after.stands "target") fun after _ => ?_
    exact .parsed after start_le fun _ => rfl
  · refine (reads_head forms moves.stands).bind fun moves' parsed => ?_
    have parsed : Parsed tokens depth p _ _ _ :=
      ⟨parsed.1.of_le (Nat.le_of_lt after.lt), parsed.2⟩
    refine (extend parsed fun e => extends_calleeStep forms e).bind fun _ parsed => ?_
    refine .ifNextIs parsed.1.stands (fun _ _ _ => ?_) (.parsed parsed.1 start_le fun _ => rfl)
    refine .andThen parsed.1 (takes_arguments forms parsed.1.stands) fun after _ => ?_
    exact .parsed after start_le fun _ => rfl

theorem reads_links (h : Stands tokens depth p c) :
    Reads tokens depth (links inner) (Expr.readLinks readers) p c :=
  (reads_head forms h).bind fun _ parsed => extend parsed fun e => extends_linkStep forms e

theorem reads_updated (h : Stands tokens depth p c) :
    Reads tokens depth (updated inner) (Expr.readUpdated readers) p c := by
  refine (reads_links forms h).bind fun {e p' c'} _ parsed => ?_
  refine .peekKind parsed.1.stands fun kind next => ?_
  cases found : kind.bind UpdateOperator.ofKind? with
  | none => exact .pure parsed.1.stands parsed
  | some op =>
    obtain ⟨_, isKind, _⟩ := Option.bind_eq_some_iff.1 found
    rw [isKind] at next
    obtain ⟨t, head, _⟩ := Option.map_eq_some_iff.1 next
    rw [← List.head?_eq_getElem?] at head
    dsimp only
    by_cases assignable : e.isAssignable
    · rw [if_pos assignable, if_pos assignable]
      refine .bump parsed.1.stands head fun moves _ _ => ?_
      exact .parsed (parsed.1.step moves) parsed.2.start_le fun _ => rfl
    · rw [if_neg assignable, if_neg assignable]
      exact .throw parsed.1.stands parsed.2.start_le

/-! ## Operators -/

theorem reads_operand (h : Stands tokens depth p c) :
    Reads tokens depth (operand inner) (Expr.readOperand readers) p c := by
  refine .current h (fun _ => .failAtEnd h) fun {t} head => ?_
  have start_le := (h.covers_head head).start_le
  dsimp only
  cases t.kind.operandStart with
  | update op =>
    refine .bump h head fun moves after _ => .andThen after (forms.operand moves.stands) ?_
    intro e p' c' after parsed
    by_cases assignable : e.isAssignable
    · rw [if_pos assignable, if_pos assignable]
      exact .parsed after start_le fun _ => rfl
    · rw [if_neg assignable, if_neg assignable]
      exact .throw after.stands parsed.2.start_le
  | unary op =>
    refine .bump h head fun moves after _ => .andThen after (forms.operand moves.stands) ?_
    exact fun after _ => .parsed after start_le fun _ => rfl
  | await =>
    refine .bump h head fun moves after _ => .andThen after (forms.operand moves.stands) ?_
    exact fun after _ => .parsed after start_le fun _ => rfl
  | plain => exact reads_updated forms h

omit forms in
/-- The operation that a step of a chain goes on with, behind the step's start at `p'`. -/
theorem extends_combine {op : InfixOperator} {kind : TokenKind} {left right : Expr}
    (isOp : InfixOperator.ofKind? kind = some op) (after : After tokens depth p₀ p c)
    (lt : p'.position < p.position) (covers : tokens.Covers left.span)
    (covers' : tokens.Covers right.span) :
    Agrees tokens depth
      (do
        match ← combine? kind left right with
        | some e => return .again e
        | none => return .done left)
      (do return .again (← Expr.combine op left right)) p c
      (Goes (Parsed tokens depth p₀) (Parsed tokens depth p₀) p') := by
  have h := after.stands
  have cover_eq : left.span.checkedCover right.span = .ok (left.span.cover right.span) :=
    Span.checkedCover_eq (Nat.le_trans covers h.fits.size_le) (Nat.le_trans covers' h.fits.size_le)
  have covered : tokens.Covers (left.span.cover right.span) := by
    rw [TokenSequence.Covers, Span.stop_cover]
    exact Nat.max_le.2 ⟨covers, covers'⟩
  unfold combine? Expr.combine
  rw [bind_assoc]
  refine .check cover_eq h ?_
  unfold InfixOperator.ofKind? at isOp
  cases logical : LogicalOperator.ofKind? kind with
  | some l =>
    rw [logical] at isOp
    obtain rfl := Option.some.inj isOp
    dsimp only
    split
    · exact .error rfl rfl h.moves covered.start_le
    · exact .pure h ⟨lt, after, covered⟩
  | none =>
    rw [logical] at isOp
    obtain ⟨b, binary, rfl⟩ := Option.map_eq_some_iff.1 isOp
    simp only [binary, Expr.mixesWith]
    exact .pure h ⟨lt, after, covered⟩

theorem extends_chainStep {operandFrom : Precedence → Step Expr}
    {operandFrom' : Precedence → Reader Expr} {floor : Precedence}
    (operands : ∀ {level p c}, floor.rank < level.rank → Stands tokens depth p c →
      Reads tokens depth (operandFrom level) (operandFrom' level) p c)
    (e : Expr) (parsed : Parsed tokens depth p₀ e p c) :
    Extends tokens depth p₀ (chainStep inner operandFrom floor e)
      (Expr.chainStep readers operandFrom' floor e) p c := by
  have h := parsed.1.stands
  have done : Extends tokens depth p₀ (pure (.done e)) (pure (.done e)) p c := .pure h parsed
  refine after_ok h.moves (peekKind_run h 0) (Expr.tighterOperator?_eq floor c) ?_
  rw [← List.head?_eq_getElem?]
  cases head : c.rest.head? with
  | none => exact done
  | some t =>
    simp only [Option.map_some, Option.bind_some, TokenKind.precedence?_eq]
    cases isOp : InfixOperator.ofKind? t.kind with
    | none => exact done
    | some op =>
      by_cases tight : floor.rank < op.precedence.rank
      · rw [Option.filter_some_pos (by simpa using tight)]
        dsimp only [Option.map_some]
        rw [if_neg (Nat.not_le_of_lt tight)]
        refine .bump h head fun moves moved _ => ?_
        have combined {right : Expr} {p' : Parser} {c' : Cursor} (moves' : Moves tokens depth _ _ p' c')
            (right' : Parsed tokens depth _ right p' c') :=
          extends_combine isOp ((parsed.1.step moves).step moves')
            (Nat.lt_trans moved.lt right'.1.lt) parsed.2 right'.2
        by_cases right : op.precedence.groupsRight
        · have isPower : op.precedence = .power := by simpa [Precedence.groupsRight] using right
          rw [if_pos (by rw [isPower]; decide), if_pos right, isPower]
          exact (forms.rightOperand moves.stands).bind combined
        · have same : op.precedence.rightFloor = op.precedence := if_neg right
          rw [same, if_neg (Nat.lt_irrefl _), if_neg right]
          exact (operands tight moves.stands).bind combined
      · rw [Option.filter_some_neg (by simpa using tight)]
        dsimp only [Option.map_some]
        rw [if_pos (Nat.le_of_not_lt tight)]
        exact done

omit forms in
/-- No operator binds tighter than the tightest level. -/
theorem chain_over (operandFrom : Precedence → Reader Expr) {floor : Precedence}
    (le : Precedence.power.rank ≤ floor.rank) (e : Expr) (c : Cursor) :
    Reader.loop (Expr.chainStep readers operandFrom floor) e c = .ok e c := by
  have loose (op : InfixOperator) : ¬ floor.rank < op.precedence.rank := by
    have : op.precedence.rank ≤ Precedence.power.rank := by cases op.precedence <;> decide
    omega
  have loosest : Expr.tighterOperator? floor c = .ok none c := by
    rw [Expr.tighterOperator?_eq]
    cases c.rest.head?.bind fun t => InfixOperator.ofKind? t.kind with
    | none => rfl
    | some op => rw [Option.filter_some_neg (by simpa using loose op)]
  exact Reader.loop_done (Reader.bind_of_ok loosest _)

theorem reads_chainWithin {height : Nat} {floor : Precedence}
    (le : Precedence.power.rank ≤ floor.rank + height) (h : Stands tokens depth p c) :
    Reads tokens depth (chainWithin inner (height + 1) floor)
      (Expr.readChainWithin readers height floor) p c := by
  induction height generalizing floor p c with
  | zero =>
    have top (level : Precedence) : level.rank ≤ Precedence.power.rank := by cases level <;> decide
    rw [Expr.readChainWithin, ← bind_pure (Expr.readOperand readers)]
    refine (reads_operand forms h).bind fun {e p' c'} moves parsed => ?_
    -- The reader stops here; the parser looks for an operator, and there is none.
    have none : ∀ {level : Precedence}, ¬ floor.rank < level.rank := fun {level} lt => by
      have := top level
      omega
    have each (e : Expr) {p'' : Parser} {c'' : Cursor} (parsed : Parsed tokens depth p e p'' c'') :
        Extends tokens depth p (chainStep inner (chainWithin inner 0) floor e)
          (Expr.chainStep readers (fun _ => Expr.readOperand readers) floor e) p'' c'' :=
      extends_chainStep forms (fun lt _ => absurd lt none) e parsed
    exact of_moves moves.stands.moves rfl (chain_over _ le e c').symm (extend parsed each)
  | succ height ih =>
    refine (reads_operand forms h).bind fun _ parsed => ?_
    refine extend parsed fun e => extends_chainStep forms ?_ e
    exact fun lt h => ih (by omega) h

theorem reads_chain (floor : Precedence) (h : Stands tokens depth p c) :
    Reads tokens depth (chain inner floor) (Expr.readChain readers floor) p c :=
  reads_chainWithin forms (by omega) h

theorem reads_conditional (h : Stands tokens depth p c) :
    Reads tokens depth (conditional inner) (Expr.readConditional readers) p c := by
  refine (reads_chain forms .conditional h).bind fun _ parsed => ?_
  refine .accept parsed.1.stands (fun moves _ _ => ?_) (.pure parsed.1.stands parsed)
  refine .andThen (parsed.1.step moves) (forms.assignment moves.stands) fun after _ => ?_
  refine .andThen after (expect after.stands) fun after _ => ?_
  refine .andThen after (forms.assignment after.stands) fun after _ => ?_
  exact .parsed after parsed.2.start_le fun _ => rfl

/-! ## Assignments -/

/-- What the parser does behind the word `yield` and its star, if there is one. -/
def yieldBehind (inner : Forms) (start : Nat) (delegates : Bool) : Step Expr := do
  match ← Step.peekKind? 0 with
  | none => if delegates then Step.failAtEnd none else return .yield (← Step.spanFrom start)
  | some kind =>
    if delegates || kind.startsYieldOperand then
      let e ← inner.assignment
      return .yieldValue delegates e (← Step.spanFrom start)
    else
      return .yield (← Step.spanFrom start)

/-- What the reader does there. -/
def readYieldBehind (readers : Nested) (start : Nat) (delegates : Bool) : Reader Expr := do
  match ← Reader.peekKind? 0 with
  | none => if delegates then Reader.failAtEnd none else return .yield (← Reader.spanFrom start)
  | some kind =>
    if delegates || kind.startsYieldOperand then
      let e ← readers.assignment
      return .yieldValue delegates e (← Reader.spanFrom start)
    else
      return .yield (← Reader.spanFrom start)

theorem reads_yieldBehind {start : Nat} (start_le : start ≤ Text.size tokens.source)
    (delegates : Bool) (after : After tokens depth p p' c') :
    Agrees tokens depth (yieldBehind inner start delegates) (readYieldBehind readers start delegates)
      p' c' (Parsed tokens depth p) := by
  refine .peekKind after.stands fun kind _ => ?_
  cases kind with
  | none =>
    cases delegates with
    | true => exact .failAtEnd after.stands
    | false => exact .parsed after start_le fun _ => rfl
  | some kind =>
    dsimp only
    by_cases operand : delegates || kind.startsYieldOperand
    · rw [if_pos operand, if_pos operand]
      refine .andThen after (forms.assignment after.stands) fun after _ => ?_
      exact .parsed after start_le fun _ => rfl
    · rw [if_neg operand, if_neg operand]
      exact .parsed after start_le fun _ => rfl

theorem reads_yieldForm (h : Stands tokens depth p c) {t : Lexeme} (head : c.rest.head? = some t) :
    Reads tokens depth (yieldForm inner) (Expr.readYield readers) p c := by
  have start_le := (h.covers_head head).start_le
  refine .get ?_
  rw [Cursor.nextSpan_of_head head]
  refine .bump h head fun moves after _ => ?_
  exact .accept moves.stands
    (fun moves' _ _ => reads_yieldBehind forms start_le true (after.step moves'))
    (reads_yieldBehind forms start_le false after)

theorem reads_finishAssignment {e : Expr} (parsed : Parsed tokens depth p₀ e p c) :
    Agrees tokens depth (finishAssignment inner e) (Expr.finishAssignment readers e) p c
      (Parsed tokens depth p₀) := by
  have ⟨after, covers⟩ := parsed
  refine .current after.stands (fun _ => .pure after.stands parsed) fun {t} head => ?_
  dsimp only
  by_cases arrow : t.kind = .punctuator .arrow
  · rw [if_pos arrow, if_pos arrow]
    exact .throw after.stands (after.stands.covers_head head).start_le
  · rw [if_neg arrow, if_neg arrow]
    cases AssignmentOperator.ofKind? t.kind with
    | none => exact .pure after.stands parsed
    | some op =>
      dsimp only
      by_cases assignable : e.isAssignable
      · rw [if_pos assignable, if_pos assignable]
        refine .bump after.stands head fun moves _ _ => ?_
        refine .andThen (after.step moves) (forms.assignment moves.stands) fun after _ => ?_
        exact .parsed after covers.start_le fun _ => rfl
      · rw [if_neg assignable, if_neg assignable]
        exact .throw after.stands covers.start_le

omit forms in
theorem startsArrow_run (h : Stands tokens depth p c) :
    startsArrow p = .ok (.ok (Expr.startsArrow c.rest), p) := by
  refine (bind_ok (peekKind_run h 0)).trans ?_
  refine (bind_ok (peekKind_run h 1)).trans ?_
  refine (bind_ok (peekKind_run h 2)).trans ?_
  rcases c.rest with _ | ⟨t, _ | ⟨u, _ | ⟨v, rest⟩⟩⟩ <;>
    simp [Expr.startsArrow, Bool.beq_eq_decide_eq] <;> rfl

theorem reads_assignment (h : Stands tokens depth p c) :
    Reads tokens depth (assignment inner) (Expr.readAssignment readers) p c := by
  refine .ifNextIs h (fun t head _ => reads_yieldForm forms h head) ?_
  refine after_ok (r := get) h.moves (startsArrow_run h) rfl ?_
  by_cases arrow : Expr.startsArrow c.rest
  · rw [if_pos arrow, if_pos arrow]
    obtain ⟨t, head⟩ : ∃ t, c.rest.head? = some t := by
      cases rest : c.rest with
      | nil => simp [rest, Expr.startsArrow] at arrow
      | cons t _ => exact ⟨t, rfl⟩
    refine .get ?_
    rw [Cursor.nextSpan_of_head head]
    exact .bump h head fun moves _ _ => .throw moves.stands (h.covers_head head).start_le
  · rw [if_neg arrow, if_neg arrow]
    exact (reads_conditional forms h).bind fun _ parsed => reads_finishAssignment forms parsed

end EcmaFront.Parser
