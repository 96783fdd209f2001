import EcmaFront.Proofs.Tree.Grammar.Realizable

/-!
# Forms with separators and brackets are realizable

Each lemma takes the lexemes of one form apart, slot by slot, and puts what it finds into the rule of
`Written` for the form. Numbers are the only leaves that mind what follows them.
-/

namespace EcmaFront

/-! ## Assignments and expressions -/

section

variable {strict : Bool} {n : Nat}

theorem realizable_yield (isStrict : strict = true) :
    (Piece.assignment (.yield .unset)).Realizable strict (n + 1) := by
  intro ts rest lays detached ends
  simp only [Piece.slots, Expr.outline, Outline.slots_node, Outline.slotsOf_cons,
    Outline.slots_keyword, Outline.slotsOf_nil, List.append_nil] at lays
  obtain ⟨y, us, rfl, kind, lays⟩ := lays.fixed rfl (by simp [isStrict])
  obtain rfl := lays.eq_nil
  exact ⟨_, rfl, .yield kind (Ends.stopsYield ends)⟩

theorem realizable_yieldValue {delegates : Bool} {e : Expr} (isStrict : strict = true)
    (value : (Piece.assignment e).Realizable strict n) :
    (Piece.assignment (.yieldValue delegates e .unset)).Realizable strict (n + 1) := by
  intro ts rest lays detached ends
  cases delegates with
  | false =>
    simp only [Piece.slots, Expr.outline, Outline.slots_node, Outline.slotsOf_cons,
      Outline.slots_keyword, Outline.slotsOf_nil, List.append_nil, List.singleton_append] at lays
    obtain ⟨y, us, rfl, kind, lays⟩ := lays.fixed rfl (by simp [isStrict])
    obtain ⟨e, rfl, written⟩ := value lays detached.2 ends
    exact ⟨_, rfl, .yieldValue kind written⟩
  | true =>
    simp only [Piece.slots, Expr.outline, Outline.slots_node, Outline.slotsOf_cons,
      Outline.slots_keyword, Outline.slots_punctuator, Outline.slotsOf_nil, List.append_nil,
      List.singleton_append] at lays
    obtain ⟨y, us, rfl, kind, lays⟩ := lays.fixed rfl (by simp [isStrict])
    obtain ⟨star, us, rfl, isStar, lays⟩ := lays.punctuator
    obtain ⟨e, rfl, written⟩ := value lays detached.2.2 ends
    exact ⟨_, rfl, .yieldAll kind isStar written⟩

theorem realizable_assigned {op : AssignmentOperator} {target value : Expr}
    (assignable : target.isAssignable = true)
    (left : (Piece.conditional target).Realizable strict n)
    (right : (Piece.assignment value).Realizable strict n) :
    (Piece.assignment (.assignment op target value .unset)).Realizable strict (n + 1) := by
  intro ts rest lays detached ends
  simp only [Piece.slots, Expr.outline, Outline.slots_node, Outline.slotsOf_cons,
    Outline.slots_slot, Outline.slotsOf_nil, List.append_nil, List.singleton_append] at lays
  obtain ⟨us, vs, rfl, first, lays⟩ := lays.exists_append
  obtain ⟨o, vs, rfl, kind, last⟩ := lays.always rfl (TokenKind.isStrictOnly_assignment op)
  rw [List.append_assoc] at detached
  obtain ⟨target, rfl, written⟩ := left first detached ⟨stops_of_kind kind rfl, .inl assignable⟩
  obtain ⟨value, rfl, written'⟩ := right last detached.right.2 ends
  exact ⟨_, rfl, .assigned kind (by simpa using assignable) written written'⟩

theorem realizable_unassigned {e : Expr} (h : (Piece.conditional e).Realizable strict n) :
    (Piece.assignment e).Realizable strict (n + 1) := by
  intro ts rest lays detached ends
  obtain ⟨e, rfl, written⟩ := h lays detached ⟨Ends.stops ends, .inr ends⟩
  exact ⟨e, rfl, .unassigned written⟩

theorem realizable_single {e : Expr} (h : (Piece.assignment e).Realizable strict n) :
    (Piece.expression e).Realizable strict n := by
  intro ts rest lays detached ends
  obtain ⟨e, rfl, written⟩ := h lays detached ends
  exact ⟨e, rfl, .single written⟩

theorem realizable_sequence {es : List Expr} (two : 2 ≤ es.length)
    (all : ∀ e ∈ es, (Piece.assignment e).Realizable strict n) :
    (Piece.expression (.sequence es .unset)).Realizable strict n := by
  intro ts rest lays detached ends
  match es, two with
  | e :: f :: es, _ =>
    simp only [Piece.slots, Expr.outline, Outline.slots_node, outlineExpressions, Outline.joined,
      Outline.slotsOf_cons, Outline.slots_punctuator, List.singleton_append] at lays
    obtain ⟨us, vs, rfl, first, more⟩ := lays.exists_append
    obtain ⟨k, ws, rfl, kind, more⟩ := more.punctuator
    rw [List.append_assoc] at detached
    obtain ⟨e, rfl, written⟩ := all e List.mem_cons_self first detached (Ends.of_kind kind rfl)
    obtain ⟨f, es, xs, ys, rfl, rfl, rfl, second, tail⟩ :=
      realized_tail (fun g mem => all g (List.mem_cons_of_mem _ mem)) more detached.right.2 ends
    exact ⟨_, rfl, .sequence written (.tailCons kind second tail)⟩

theorem realizable_plain {e : Expr} (h : (Piece.assignment e).Realizable strict n) :
    (Piece.argument (.plain e)).Realizable strict n := by
  intro ts rest lays detached ends
  obtain ⟨e, rfl, written⟩ := h lays detached ends
  exact ⟨_, rfl, .plain written⟩

theorem realizable_spread {e : Expr} (h : (Piece.assignment e).Realizable strict n) :
    (Piece.argument (.spread e .unset)).Realizable strict n := by
  intro ts rest lays detached ends
  simp only [Piece.slots, Argument.outline, Outline.slots_node, Outline.slotsOf_cons,
    Outline.slots_punctuator, Outline.slotsOf_nil, List.append_nil, List.singleton_append] at lays
  obtain ⟨d, us, rfl, kind, lays⟩ := lays.punctuator
  obtain ⟨e, rfl, written⟩ := h lays detached.2 ends
  exact ⟨_, rfl, .spread kind written⟩

/-! ## Members of objects -/

theorem realizable_keyName {name : Text} (isName : name.IsName) :
    (Piece.key (.name ⟨name, .unset⟩)).Realizable strict n := by
  intro ts rest lays detached _
  simp only [Piece.slots, PropertyKey.outlines, Outline.slotsOf_cons, Identifier.slots_outline,
    Outline.slotsOf_nil, List.append_nil] at lays
  obtain ⟨t, us, rfl, rfl, spelled, lays⟩ := lays.word
  obtain rfl := lays.eq_nil
  refine ⟨.name ⟨t.text, t.span⟩, rfl, .keyName ?_⟩
  exact TokenKind.keyStart_name (spelled.isPropertyName isName)

theorem realizable_keyString {raw : Text} (isString : Quoted.IsString raw) :
    (Piece.key (.string raw .unset)).Realizable strict n := by
  intro ts rest lays detached _
  simp only [Piece.slots, PropertyKey.outlines, Outline.slotsOf_cons, Outline.slots_node,
    Outline.slots_slot, Outline.slotsOf_nil, List.append_nil] at lays
  obtain ⟨t, us, rfl, rfl, spelled, lays⟩ := lays.word
  obtain rfl := lays.eq_nil
  exact ⟨.string t.text t.span, rfl, .keyString (by rw [spelled.unique (.string isString)]; rfl)⟩

theorem realizable_keyNumber {value : Nat} (small : value < Numeral.bound) :
    (Piece.key (.number value .unset)).Realizable strict n := by
  intro ts rest lays detached _
  simp only [Piece.slots, PropertyKey.outlines, Outline.slotsOf_cons, Outline.slots_node,
    Outline.slots_slot, Outline.slotsOf_nil, List.append_nil] at lays
  obtain ⟨t, us, rfl, kind, isValue, lays⟩ := lays.numeral small
  obtain rfl := lays.eq_nil
  exact ⟨.number value t.span, rfl, .keyNumber (by rw [kind]; rfl) isValue⟩

theorem realizable_keyComputed {e : Expr} (h : (Piece.assignment e).Realizable strict n) :
    (Piece.key (.computed e)).Realizable strict n := by
  intro ts rest lays detached _
  simp only [Piece.slots, PropertyKey.outlines, Outline.slotsOf_cons, Outline.slots_punctuator,
    Outline.slotsOf_nil, List.append_nil, List.singleton_append] at lays
  obtain ⟨b, us, k, rfl, bracket, close, inside⟩ := lays.between
  rw [List.cons_append, List.append_assoc] at detached
  obtain ⟨e, rfl, written⟩ := h inside detached.2 (Ends.of_kind close rfl)
  exact ⟨.computed e, rfl, .keyComputed (by rw [bracket]; rfl) close written⟩

theorem realizable_property {key : PropertyKey} {value : Expr}
    (isKey : (Piece.key key).Realizable strict n)
    (isValue : (Piece.assignment value).Realizable strict n) :
    (Piece.member (.property key value .unset)).Realizable strict n := by
  intro ts rest lays detached ends
  simp only [Piece.slots, ObjectMember.outline, Outline.slots_node, Outline.slotsOf_append,
    Outline.slotsOf_cons, Outline.slots_punctuator, Outline.slotsOf_nil, List.append_nil,
    List.singleton_append] at lays
  obtain ⟨us, vs, rfl, first, lays⟩ := lays.exists_append
  obtain ⟨k, vs, rfl, colon, last⟩ := lays.punctuator
  rw [List.append_assoc] at detached
  obtain ⟨key, rfl, written⟩ := isKey first detached trivial
  obtain ⟨value, rfl, written'⟩ := isValue last detached.right.2 (EndsMember.ends ends)
  obtain ⟨t, us, rfl⟩ := written.exists_of_key
  exact ⟨_, rfl, .property colon written written'⟩

theorem realizable_shorthand {name : Text} (isName : name.IsIdentifier strict) :
    (Piece.member (.shorthand ⟨name, .unset⟩)).Realizable strict n := by
  intro ts rest lays detached ends
  simp only [Piece.slots, ObjectMember.outline, Identifier.slots_outline] at lays
  obtain ⟨t, us, rfl, rfl, spelled, lays⟩ := lays.word
  obtain rfl := lays.eq_nil
  obtain ⟨k, vs, rfl, kind⟩ := ends
  refine ⟨.shorthand ⟨t.text, t.span⟩, rfl, .shorthand ?_⟩
  simpa [Expr.isShorthand, spelled.kind_eq_identifier isName] using kind

theorem realizable_memberSpread {e : Expr} (h : (Piece.assignment e).Realizable strict n) :
    (Piece.member (.spread e .unset)).Realizable strict n := by
  intro ts rest lays detached ends
  simp only [Piece.slots, ObjectMember.outline, Outline.slots_node, Outline.slotsOf_cons,
    Outline.slots_punctuator, Outline.slotsOf_nil, List.append_nil, List.singleton_append] at lays
  obtain ⟨d, us, rfl, kind, lays⟩ := lays.punctuator
  obtain ⟨e, rfl, written⟩ := h lays detached.2 (EndsMember.ends ends)
  exact ⟨_, rfl, .memberSpread kind written⟩

/-! ## Primary expressions -/

theorem realizable_number {value : Nat} (small : value < Numeral.bound) :
    (Piece.primary (.leaf (.number value) .unset)).Realizable strict n := by
  intro ts rest lays detached _
  simp only [Piece.slots, Expr.outline, Leaf.outlines, Outline.slots_node, Outline.slotsOf_cons,
    Outline.slots_slot, Outline.slotsOf_nil, List.append_nil] at lays
  obtain ⟨t, us, rfl, kind, isValue, lays⟩ := lays.numeral small
  obtain rfl := lays.eq_nil
  have start : t.primaryStart = .number := by rw [Lexeme.primaryStart, kind]
  exact ⟨_, rfl, .number start isValue (detached.1 kind)⟩

theorem realizable_string {raw : Text} (isString : Quoted.IsString raw) :
    (Piece.primary (.leaf (.string raw) .unset)).Realizable strict n := by
  intro ts rest lays detached _
  simp only [Piece.slots, Expr.outline, Leaf.outlines, Outline.slots_node, Outline.slotsOf_cons,
    Outline.slots_slot, Outline.slotsOf_nil, List.append_nil] at lays
  obtain ⟨t, us, rfl, rfl, spelled, lays⟩ := lays.word
  obtain rfl := lays.eq_nil
  have start : t.primaryStart = .leaf (.string t.text) := by
    rw [Lexeme.primaryStart, spelled.unique (.string isString)]
  exact ⟨_, rfl, .leaf start⟩

theorem realizable_identifier {name : Text} (isName : name.IsIdentifier strict) :
    (Piece.primary (.leaf (.identifier name) .unset)).Realizable strict n := by
  intro ts rest lays detached _
  simp only [Piece.slots, Expr.outline, Leaf.outlines, Outline.slots_node, Outline.slotsOf_cons,
    Outline.slots_slot, Outline.slotsOf_nil, List.append_nil] at lays
  obtain ⟨t, us, rfl, rfl, spelled, lays⟩ := lays.word
  obtain rfl := lays.eq_nil
  have start : t.primaryStart = .leaf (.identifier t.text) := by
    rw [Lexeme.primaryStart, spelled.kind_eq_identifier isName]
  exact ⟨_, rfl, .leaf start⟩

/-- A leaf that is one reserved word. -/
theorem realizable_keyword {l : Leaf} {k : Keyword} (outlines : l.outlines = [.keyword k])
    (notStrict : k.isStrictOnly = false)
    (start : ∀ t : Lexeme, t.kind = .keyword k → t.primaryStart = .leaf l) :
    (Piece.primary (.leaf l .unset)).Realizable strict n := by
  intro ts rest lays detached _
  simp only [Piece.slots, Expr.outline, outlines, Outline.slots_node, Outline.slotsOf_cons,
    Outline.slots_keyword, Outline.slotsOf_nil, List.append_nil] at lays
  obtain ⟨t, us, rfl, kind, lays⟩ := lays.always rfl notStrict
  obtain rfl := lays.eq_nil
  exact ⟨_, rfl, .leaf (start t kind)⟩

theorem realizable_importMeta :
    (Piece.primary (.leaf .importMeta .unset)).Realizable strict n := by
  intro ts rest lays detached _
  simp only [Piece.slots, Expr.outline, Leaf.outlines, Outline.slots_node, Outline.slotsOf_cons,
    Outline.slots_keyword, Outline.slots_punctuator, Outline.slots_slot, Outline.slotsOf_nil,
    List.append_nil, List.singleton_append] at lays
  obtain ⟨i, us, rfl, kind, lays⟩ := lays.always rfl rfl
  obtain ⟨d, us, rfl, dot, lays⟩ := lays.punctuator
  obtain ⟨m, us, rfl, word, spelled, lays⟩ := lays.word
  obtain rfl := lays.eq_nil
  have name : m.kind = .identifier :=
    spelled.kind_eq_identifier (word ▸ (isIdentifier_meta strict).1)
  have start : i.primaryStart = .importWord := by rw [Lexeme.primaryStart, kind]
  exact ⟨_, rfl, .importMeta start dot name word⟩

theorem realizable_word {l : Leaf}
    (mem : l ∈ [.boolean true, .boolean false, .null, .this, .super, .importMeta]) :
    (Piece.primary (.leaf l .unset)).Realizable strict n := by
  simp only [List.mem_cons, List.not_mem_nil, or_false] at mem
  rcases mem with rfl | rfl | rfl | rfl | rfl | rfl
  case inr.inr.inr.inr.inr => exact realizable_importMeta
  all_goals exact realizable_keyword rfl rfl fun t kind => by rw [Lexeme.primaryStart, kind]

theorem realizable_parenthesized {e : Expr} (h : (Piece.expression e).Realizable strict n) :
    (Piece.primary (.parenthesized e .unset)).Realizable strict n := by
  intro ts rest lays detached _
  simp only [Piece.slots, Expr.outline, Outline.slots_node, Outline.slotsOf_cons,
    Outline.slots_punctuator, Outline.slotsOf_nil, List.append_nil, List.singleton_append] at lays
  obtain ⟨p, us, k, rfl, paren, close, inside⟩ := lays.between
  rw [List.cons_append, List.append_assoc] at detached
  obtain ⟨e, rfl, written⟩ := h inside detached.2 (Ends.of_kind close rfl)
  have start : p.primaryStart = .parenthesized := by rw [Lexeme.primaryStart, paren]
  exact ⟨_, rfl, .parenthesized start close written⟩

theorem realizable_array {es : List ArrayElement} (holes : ∀ span, .hole span ∈ es → span = .unset)
    (all : ∀ a, .item a ∈ es → (Piece.argument a).Realizable strict n) :
    (Piece.primary (.array es .unset)).Realizable strict n := by
  intro ts rest lays detached _
  simp only [Piece.slots, Expr.outline, Outline.slots_node, List.cons_append, Outline.slotsOf_cons,
    Outline.slotsOf_append, Outline.slots_punctuator, Outline.slotsOf_nil, List.append_nil,
    List.nil_append] at lays
  obtain ⟨b, us, k, rfl, bracket, close, inside⟩ := lays.between
  rw [List.cons_append, List.append_assoc] at detached
  obtain ⟨es, rfl, written⟩ :=
    realized_elements holes all inside detached.2 (Ends.of_kind close rfl)
  have start : b.primaryStart = .array := by rw [Lexeme.primaryStart, bracket]
  exact ⟨_, rfl, .array start close written⟩

theorem realizable_object {ms : List ObjectMember}
    (all : ∀ m ∈ ms, (Piece.member m).Realizable strict n) :
    (Piece.primary (.object ms .unset)).Realizable strict n := by
  intro ts rest lays detached _
  simp only [Piece.slots, Expr.outline, Outline.slots_node, List.cons_append, Outline.slotsOf_cons,
    Outline.slotsOf_append, Outline.slots_punctuator, Outline.slotsOf_nil, List.append_nil,
    List.nil_append] at lays
  obtain ⟨b, us, k, rfl, brace, close, inside⟩ := lays.between
  rw [List.cons_append, List.append_assoc] at detached
  obtain ⟨ms, rfl, written⟩ := realized_members all inside detached.2 ⟨k, _, rfl, .inr close⟩
  have start : b.primaryStart = .object := by rw [Lexeme.primaryStart, brace]
  exact ⟨_, rfl, .object start close written⟩

end

end EcmaFront
