import EcmaFront.Proofs.Token.Digits
import EcmaFront.Proofs.Tree.Filled
import EcmaFront.Proofs.Tree.Inside

/-!
# What readers check of the nodes they build

Some nodes are built only after a look at more than the form of their parts: the target of an
assignment or an update must be assignable, and a number must not go on behind its digits.

* `Expr.Checked`: the conditions, node by node.
* `Written.checked`: they hold of every expression in a written tree.
* `target_of_parse`: what assignments and updates change.
* `number_of_parse`: what stands behind a number.
-/

namespace EcmaFront

open Reader

/-- What is checked when the node is built from some of the lexemes. -/
def Expr.Checked (lexemes : List Lexeme) : Expr → Prop
  | .leaf (.number value) span => ∃ t after, t :: after <:+ lexemes ∧ t.kind = .number ∧
      t.span = span ∧ Numeral.value? t.text = some value ∧ attachedSuffix? t after = none
  | .assignment _ target _ _ => target.isAssignable = true
  | .update _ _ operand _ => operand.isAssignable = true
  | _ => True

/-- All expressions of the piece are checked. A link does not hold what stands in front of it. -/
def Piece.Checked (lexemes : List Lexeme) : Piece → Prop
  | .element object _ e | .call object _ e | .access object e | .link object e =>
    (∀ x ∈ object :: object.inside, x.Checked lexemes) → ∀ x ∈ e :: e.inside, x.Checked lexemes
  | p => ∀ x ∈ p.expressions, x.Checked lexemes

attribute [grind =] Expr.Checked Piece.Checked

@[grind →]
theorem suffix_of_cons {α : Type} {a : α} {l m : List α} (h : a :: l <:+ m) : l <:+ m :=
  (List.suffix_cons a l).trans h

@[grind →]
theorem suffix_of_append {α : Type} {k l m : List α} (h : k ++ l <:+ m) : l <:+ m :=
  (List.suffix_append k l).trans h

theorem Lexeme.kind_of_primaryStart {t : Lexeme} (h : t.primaryStart = .number) :
    t.kind = .number := by
  unfold primaryStart at h
  split at h <;> first | assumption | cases h

theorem Lexeme.not_number_of_primaryStart {t : Lexeme} {l : Leaf} (h : t.primaryStart = .leaf l)
    (value : Nat) : l ≠ .number value := by
  rintro rfl
  unfold primaryStart at h
  split at h <;> cases h

/-- The induction is on how the piece is written. What is left of the lexemes behind each part is a
suffix of what is left behind the whole. -/
theorem Written.checked {n : Nat} {p : Piece} {ts rest lexemes : List Lexeme}
    (h : Written n p ts rest) (suffix : ts ++ rest <:+ lexemes) : p.Checked lexemes := by
  induction h with
  | number start value detached =>
    refine List.forall_mem_singleton.2 ?_
    exact ⟨_, _, suffix, Lexeme.kind_of_primaryStart start, rfl, value, detached⟩
  | @leaf _ l t _ start =>
    refine List.forall_mem_singleton.2 ?_
    cases l with
    | number value => exact absurd rfl (Lexeme.not_number_of_primaryStart start value)
    | _ => trivial
  | linksLink object link ihObject ihLink | calleeAccess object link ihObject ihLink =>
    -- The expressions of the link are those of the object and its own.
    rw [List.append_assoc] at suffix
    exact ihLink (suffix_of_append suffix) (ihObject suffix)
  | _ => grind

theorem parse_checked {strict : Bool} {source : Text} {p : Program}
    (h : parse strict source = .ok p) :
    ∃ tokens, scan strict source = .ok tokens ∧ ∀ e ∈ p.expressions, e.Checked tokens.lexemes := by
  obtain ⟨tokens, scanned, read⟩ := parse_eq_ok.1 h
  have written := (Program.written_of_ofTokens read).1
  refine ⟨tokens, scanned, written.checked ?_⟩
  rw [List.append_nil]

/-! ## Targets -/

/-- What an assignment or an update changes. -/
def Expr.target? : Expr → Option Expr
  | .assignment _ target _ _ => some target
  | .update _ _ operand _ => some operand
  | _ => none

/-- The expression without the parentheses around it. -/
def Expr.unwrapped : Expr → Expr
  | .parenthesized inside _ => inside.unwrapped
  | e => e

/-- Whether a link of the chain is optional. A chain goes on through no parentheses. -/
def Expr.isOptionalChain : Expr → Bool
  | .property e _ optional _ | .element e _ optional _ | .call e _ optional _ =>
    optional || e.isOptionalChain
  | _ => false

/-- The expression is `object` with a name or an index behind it, which is not optional itself. -/
def Expr.IsAccess (e object : Expr) : Prop :=
  (∃ name span, e = .property object name false span) ∨
    ∃ index span, e = .element object index false span

namespace Expr

theorem IsAccess.isOptionalChain_eq {e object : Expr} (h : e.IsAccess object) :
    e.isOptionalChain = object.isOptionalChain := by
  obtain ⟨name, span, rfl⟩ | ⟨index, span, rfl⟩ := h
  · rw [isOptionalChain, Bool.false_or]
  · rw [isOptionalChain, Bool.false_or]

theorem unwrapped_of_isAssignable {e : Expr} (h : e.isAssignable = true) :
    (∃ name span, e.unwrapped = .leaf (.identifier name) span) ∨
      ∃ object, e.unwrapped.IsAccess object := by
  fun_induction unwrapped e with
  | case1 inside span ih => exact ih h
  | case2 e notWrapped =>
    unfold isAssignable at h
    split at h
    · exact .inl ⟨_, _, rfl⟩
    · next optional _ =>
      obtain rfl : optional = false := by simpa using h
      exact .inr ⟨_, .inl ⟨_, _, rfl⟩⟩
    · next optional _ =>
      obtain rfl : optional = false := by simpa using h
      exact .inr ⟨_, .inr ⟨_, _, rfl⟩⟩
    · next inside span => exact absurd rfl (notWrapped inside span)
    · cases h

theorem Checked.target {lexemes : List Lexeme} {e target : Expr} (h : e.Checked lexemes)
    (isTarget : e.target? = some target) : target.isAssignable = true := by
  unfold target? at isTarget
  split at isTarget
  · exact Option.some.inj isTarget ▸ h
  · exact Option.some.inj isTarget ▸ h
  · cases isTarget

end Expr

/-- What an assignment or an update changes is a name or an access that is not itself optional, seen
through parentheses. The access is in an optional chain exactly if what stands in front of it is. -/
theorem target_of_parse {strict : Bool} {source : Text} {p : Program} {e target : Expr}
    (h : parse strict source = .ok p) (mem : e ∈ p.expressions)
    (isTarget : e.target? = some target) :
    (∃ name span, target.unwrapped = .leaf (.identifier name) span) ∨
      ∃ object, target.unwrapped.IsAccess object ∧
        target.unwrapped.isOptionalChain = object.isOptionalChain := by
  obtain ⟨tokens, _, checked⟩ := parse_checked h
  have assignable := (checked e mem).target isTarget
  obtain isName | ⟨object, access⟩ := Expr.unwrapped_of_isAssignable assignable
  · exact .inl isName
  · exact .inr ⟨object, access, access.isOptionalChain_eq⟩

/-- In `(a.b)++;` the operand is an access in parentheses. -/
theorem target_of_parse_parenthesized :
    ∃ p, parse false ['(', 'a', '.', 'b', ')', '+', '+', ';'] = .ok p ∧
      ∃ e ∈ p.expressions, ∃ target, e.target? = some target ∧
        ((∃ name span, target.unwrapped = .leaf (.identifier name) span) ∨
          ∃ object, target.unwrapped.IsAccess object ∧
            target.unwrapped.isOptionalChain = object.isOptionalChain) := by
  let access : Expr := .property (.leaf (.identifier ['a']) ⟨1, 1⟩) ⟨['b'], ⟨3, 1⟩⟩ false ⟨1, 3⟩
  let e : Expr := .update .increment false (.parenthesized access ⟨0, 5⟩) ⟨0, 7⟩
  have parsed : parse false ['(', 'a', '.', 'b', ')', '+', '+', ';'] =
      .ok ⟨[.expression e ⟨0, 8⟩], ⟨0, 8⟩⟩ := rfl
  have mem : e ∈ (⟨[.expression e ⟨0, 8⟩], ⟨0, 8⟩⟩ : Program).expressions :=
    List.mem_cons_self
  exact ⟨_, parsed, e, mem, _, rfl, target_of_parse parsed mem rfl⟩

/-- In `a?.b.c=1;` an access in an optional chain is assigned to. -/
theorem optional_chain_assigned :
    ∃ p, parse false ['a', '?', '.', 'b', '.', 'c', '=', '1', ';'] = .ok p ∧
      ∃ e ∈ p.expressions, ∃ target, e.target? = some target ∧
        target.unwrapped.isOptionalChain = true := by
  let chain : Expr := .property (.leaf (.identifier ['a']) ⟨0, 1⟩) ⟨['b'], ⟨3, 1⟩⟩ true ⟨0, 4⟩
  let target : Expr := .property chain ⟨['c'], ⟨5, 1⟩⟩ false ⟨0, 6⟩
  let e : Expr := .assignment .assign target (.leaf (.number 1) ⟨7, 1⟩) ⟨0, 8⟩
  have parsed : parse false ['a', '?', '.', 'b', '.', 'c', '=', '1', ';'] =
      .ok ⟨[.expression e ⟨0, 9⟩], ⟨0, 9⟩⟩ := rfl
  exact ⟨_, parsed, e, List.mem_cons_self, target, rfl, rfl⟩

/-! ## Numbers -/

/-- The character right behind a number goes on with no name, and if it is a dot, no digit is
behind it. -/
theorem number_of_parse {strict : Bool} {source : Text} {p : Program} {value : Nat} {span : Span}
    (h : parse strict source = .ok p) (mem : .leaf (.number value) span ∈ p.expressions) :
    (∃ digits, span.slice source = some digits ∧ Numeral.value? digits = some value) ∧
      ∃ front rest, source = front ++ rest ∧ Text.size front = span.stop ∧
        (∀ c ∈ rest.head?, Text.isNamePart c = false) ∧
        ∀ more, rest = '.' :: more → ∀ d ∈ more.head?, d.isDigit = false := by
  obtain ⟨tokens, scanned, checked⟩ := parse_checked h
  obtain ⟨t, after, suffix, isNumber, rfl, decoded, detached⟩ := checked _ mem
  have inside : t ∈ tokens.lexemes := suffix.subset List.mem_cons_self
  have slice := (tiling_of_scan scanned).slice_eq [] rfl t inside
  exact ⟨⟨t.text, slice, decoded⟩, scan_behind_number scanned suffix isNumber detached⟩

/-- In `1 .e5;` a space keeps the dot apart from the number. -/
theorem number_of_parse_apart :
    ∃ p, parse false ['1', ' ', '.', 'e', '5', ';'] = .ok p ∧
      .leaf (.number 1) ⟨0, 1⟩ ∈ p.expressions ∧
      ∃ front rest, ['1', ' ', '.', 'e', '5', ';'] = front ++ rest ∧ Text.size front = 1 ∧
        (∀ c ∈ rest.head?, Text.isNamePart c = false) ∧
        ∀ more, rest = '.' :: more → ∀ d ∈ more.head?, d.isDigit = false := by
  let number : Expr := .leaf (.number 1) ⟨0, 1⟩
  let e : Expr := .property number ⟨['e', '5'], ⟨3, 2⟩⟩ false ⟨0, 5⟩
  let p : Program := ⟨[.expression e ⟨0, 6⟩], ⟨0, 6⟩⟩
  have parsed : parse false ['1', ' ', '.', 'e', '5', ';'] = .ok p := rfl
  have mem : number ∈ p.expressions := List.mem_cons_of_mem _ List.mem_cons_self
  exact ⟨p, parsed, mem, (number_of_parse parsed mem).2⟩

/-- In `1.e5;` the dot stands right behind the number, and the number is an object. -/
theorem number_before_dot :
    ∃ p, parse false ['1', '.', 'e', '5', ';'] = .ok p ∧
      .leaf (.number 1) ⟨0, 1⟩ ∈ p.expressions ∧
      ∃ front rest, ['1', '.', 'e', '5', ';'] = front ++ rest ∧ Text.size front = 1 ∧
        rest.head? = some '.' := by
  let number : Expr := .leaf (.number 1) ⟨0, 1⟩
  let e : Expr := .property number ⟨['e', '5'], ⟨2, 2⟩⟩ false ⟨0, 4⟩
  let p : Program := ⟨[.expression e ⟨0, 5⟩], ⟨0, 5⟩⟩
  have parsed : parse false ['1', '.', 'e', '5', ';'] = .ok p := rfl
  have mem : number ∈ p.expressions := List.mem_cons_of_mem _ List.mem_cons_self
  exact ⟨p, parsed, mem, ['1'], _, rfl, rfl, rfl⟩

end EcmaFront
