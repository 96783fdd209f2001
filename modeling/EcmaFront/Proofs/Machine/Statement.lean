import EcmaFront.Proofs.Machine.Expression

/-!
# The parser reads statements and programs as the readers do

* `formsAgree_within`: at every depth, the steps of the nested forms agree with the readers that may
  enter the levels that are left.
* `agrees_call`: whatever a parser is asked for, it meets no fault and answers what the readers do.
-/

namespace EcmaFront.Parser

open Agrees
open Checked (bind_ok)

variable {tokens : TokenSequence} {depth : Nat} {p₀ p p' : Parser} {c c' : Cursor}

section

variable {inner : Forms} {readers : Nested} (forms : FormsAgree tokens depth inner readers)

include forms

/-! ## Statements -/

theorem takes_declaration (kind : DeclarationKind) (h : Stands tokens depth p c) {t : Lexeme}
    (head : c.rest.head? = some t) :
    Takes tokens depth (declaration inner kind) (Statement.readDeclaration readers kind) p c := by
  refine .get ?_
  rw [Cursor.nextSpan_of_head head]
  refine .bump h head fun moves after _ => ?_
  refine .andThen after (expectInDeclaration moves.stands) fun after _ => ?_
  refine .andThen after (expectInDeclaration after.stands) fun after _ => ?_
  refine .andThen after (forms.assignment after.stands) fun after _ => ?_
  refine .andThen after (expectInDeclaration after.stands) fun after _ => ?_
  exact .spanFrom after (h.covers_head head).start_le fun _ _ => .pure after.stands after

theorem takes_expressionStatement (h : Stands tokens depth p c) :
    Takes tokens depth (expressionStatement inner) (Statement.readExpression readers) p c := by
  refine (reads_expression forms h).bind fun _ ⟨after, covers⟩ => ?_
  refine .andThen after (expect after.stands) fun after _ => ?_
  exact .spanFrom after covers.start_le fun _ _ => .pure after.stands after

theorem takes_statementFrom (h : Stands tokens depth p c) {t : Lexeme}
    (head : c.rest.head? = some t) :
    Takes tokens depth (statementFrom inner t) (Statement.readFrom readers t) p c := by
  have start_le := (h.covers_head head).start_le
  unfold statementFrom Statement.readFrom
  cases t.kind.statementStart with
  | declaration kind => exact takes_declaration forms kind h head
  | empty => exact .bump h head fun _ after _ => .pure after.stands after
  | block => exact forms.block h
  | debugger =>
    refine .bump h head fun moves after _ => ?_
    refine .andThen after (expect moves.stands) fun after _ => ?_
    exact .spanFrom after start_le fun _ _ => .pure after.stands after
  | importWord =>
    refine .peekKind h fun kind _ => ?_
    by_cases dot : kind = some (.punctuator .dot)
    · rw [if_pos dot, if_pos dot]
      exact takes_expressionStatement forms h
    · rw [if_neg dot, if_neg dot]
      exact .throw h start_le
  | unsupported => exact .throw h start_le
  | expression => exact takes_expressionStatement forms h

/-- A statement takes a token, and there is none only after the last token. -/
theorem agrees_statement (h : Stands tokens depth p c) :
    Agrees tokens depth (statement? inner) (Statement.read? readers) p c fun s p' c' =>
      s.elim (c' = c ∧ p' = p ∧ c.rest = []) fun _ => After tokens depth p p' c' := by
  refine .current h (fun atEnd => ?_) fun {t} head => ?_
  · exact .pure h ⟨rfl, rfl, List.head?_eq_none_iff.1 atEnd⟩
  · exact (takes_statementFrom forms h head).bind fun _ after => .pure after.stands after

theorem collects_blockStep (before : List Statement) (after : After tokens depth p₀ p c) :
    Collects tokens depth p₀ (blockStep inner before) (Statement.blockStep readers before) p c := by
  have h := after.stands
  refine after_ok (r := Reader.peek?) h.moves (peekKind_run h 0) rfl ?_
  rw [← List.head?_eq_getElem?]
  cases head : c.rest.head? with
  | none => exact .failAtEnd h
  | some t =>
    dsimp only [Option.map_some]
    by_cases close : t.kind = .punctuator .closeBrace
    · rw [if_pos close, if_pos close]
      exact .bump h head fun moves _ _ => .pure moves.stands (after.step moves)
    · rw [if_neg close, if_neg close]
      -- There is a next token, so the parser is not told that there is no statement.
      unfold statement?
      rw [bind_assoc]
      have look := current_run h
      rw [head] at look
      refine of_moves h.moves (bind_ok look) rfl ?_
      rw [bind_assoc]
      refine (takes_statementFrom forms h head).bind fun _ moved => ?_
      exact .pure moved.stands (goes_again after moved)

theorem takes_block (h : Stands tokens depth p c) :
    Takes tokens depth (block inner) (Statement.readBlock readers) p c := by
  refine .get ?_
  refine (expect h).bind fun _ ⟨after, head⟩ => ?_
  rw [Cursor.nextSpan_of_head head]
  refine (collect after fun before => collects_blockStep forms before).bind fun _ after => ?_
  exact .spanFrom after (h.covers_head head).start_le fun _ _ => .pure after.stands after

/-! ## Programs -/

theorem agrees_programStep (before : List Statement) (h : Stands tokens depth p c) :
    Agrees tokens depth (programStep inner before) (Program.step readers before) p c
      (Goes (fun _ _ _ => True) (fun _ _ c => c.rest = []) p) := by
  refine (agrees_statement forms h).bind fun {s p' c'} moves post => ?_
  cases s with
  | none =>
    obtain ⟨rfl, rfl, atEnd⟩ := post
    exact .pure h atEnd
  | some s => exact .pure moves.stands ⟨post.lt, trivial⟩

theorem agrees_program (h : Stands tokens depth p c) :
    Agrees tokens depth (program inner) (Program.read readers) p c fun _ _ c' => c'.rest = [] := by
  have all := loop h (s := []) trivial fun before _ _ h _ => agrees_programStep forms before h
  refine all.bind fun {statements p' c'} moves atEnd => ?_
  have h := moves.stands
  refine .get ?_
  refine of_moves h.moves (bind_ok (x := Step.endOfInput) rfl) rfl ?_
  refine .check (Span.checkedOfBounds_eq (Nat.zero_le _)) h ?_
  rw [h.tokens_eq, h.sourceStop_eq]
  exact .pure h atEnd

end

/-! ## Nested forms -/

theorem reads_nested {x : Step Expr} {r : Reader Expr} (h : Stands tokens depth p c)
    (lt : depth < maxNesting)
    (inside : Reads tokens (depth + 1) x r (p.withDepth (depth + 1)) c) :
    Reads tokens depth (Step.nested x) r p c :=
  .nested h lt inside fun ⟨after, covers⟩ =>
    ⟨⟨after.stands.withDepth depth, after.lt, after.lastStop⟩, covers⟩

theorem formsAgree_within {n : Nat} (le : depth + n = maxNesting) :
    FormsAgree tokens depth (Forms.within (n + 1)) (Nested.within n) := by
  induction n generalizing depth with
  | zero =>
    obtain rfl : depth = maxNesting := le
    exact ⟨.nested_over, .nested_over, fun h _ => .nested_over h, .nested_over, .nested_over⟩
  | succ n ih =>
    have next : depth + 1 + n = maxNesting := by omega
    have forms := ih next
    have lt : depth < maxNesting := by omega
    constructor
    · exact fun h => reads_nested h lt (reads_assignment forms (h.withDepth _))
    · exact fun h => reads_nested h lt (reads_operand forms (h.withDepth _))
    · exact fun h next => reads_nested h lt (reads_construct forms (h.withDepth _) next)
    · exact fun h => reads_nested h lt (reads_chain forms _ (h.withDepth _))
    · exact fun h => .nested h lt (takes_block forms (h.withDepth _)) fun after =>
        ⟨after.stands.withDepth depth, after.lt, after.lastStop⟩

/-- Whatever a parser is asked for, it meets no fault and answers what the readers do. An answer that
is no error takes a token, if one is left. -/
theorem agrees_call (h : Stands tokens 0 p c) (k : Call) :
    Agrees tokens 0 (call k) (k.read maxNesting) p c fun _ p' _ =>
      p.position < tokens.length → p.position < p'.position := by
  have forms : FormsAgree tokens 0 (.within (maxNesting + 1)) (.within maxNesting) :=
    formsAgree_within (Nat.zero_add _)
  have left (lt : p.position < tokens.length) : c.rest ≠ [] := by
    have := h.length_rest
    exact List.ne_nil_of_length_pos (by omega)
  cases k with
  | statement =>
    refine (agrees_statement forms h).mono fun {s _ _} _ post lt => ?_
    cases s with
    | none => exact absurd post.2.2 (left lt)
    | some s => exact post.lt
  | expression => exact (reads_expression forms h).mono fun _ parsed _ => parsed.1.lt
  | program =>
    refine (agrees_program forms h).mono fun {_ p' c'} moves atEnd lt => ?_
    have all := moves.stands.length_rest
    rw [atEnd, List.length_nil] at all
    omega

end EcmaFront.Parser
