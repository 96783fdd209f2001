import EcmaFront.Proofs.Machine.Calls
import EcmaFront.Proofs.Tree.Ahead
import EcmaFront.Proofs.Tree.Completeness.Program

/-!
# Programs one after the other

Statements that are written end by themselves, so they are read in the same way in front of any
other tokens.

* `Program.answer_of_written`: a program with more tokens behind it is read to its end, and what is
  answered for the others is answered for all, with its statements in front.
* `ofTokens_append`: so an accepted program can be put in front of any tokens.
-/

namespace EcmaFront

open Reader

namespace Program

variable {n : Nat}

theorem repeatUpTo_step (inner : Nested) (k : Nat) (before : List Statement) :
    repeatUpTo (step inner) k before =
      (before.reverse ++ ·) <$> repeatUpTo (step inner) k [] := by
  induction k generalizing before with
  | zero => rfl
  | succ k ih =>
    simp only [repeatUpTo, step, bind_assoc, map_bind]
    congr 1
    funext s?
    cases s? with
    | none => simp
    | some s =>
      simp only [pure_bind]
      rw [ih (s :: before), ih [s], Functor.map_map]
      simp

/-- The statements that have been read are only kept. -/
theorem loop_step (inner : Nested) (before : List Statement) :
    loop (step inner) before = (before.reverse ++ ·) <$> loop (step inner) [] := by
  funext c
  exact congrFun (repeatUpTo_step inner _ before) c

/-- Behind statements that are written, the loop goes on with what follows them. -/
theorem loop_of_written {list : List Statement} {ts rest : List Lexeme}
    (h : Written n (.statements list) ts rest) (before : List Statement) (d s : Nat) :
    loop (step (.within n)) before ⟨ts ++ rest, d, s⟩ =
      loop (step (.within n)) (list.reverse ++ before) ⟨rest, stopAfter d ts, s⟩ := by
  induction list generalizing ts before d with
  | nil =>
    cases h
    rfl
  | cons statement list ih =>
    cases h with
    | statementsCons first more =>
      obtain ⟨t, us, rfl, _⟩ := first.exists_of_statement
      have taken := takes_programStep (first.taken t rfl) before
      rw [List.append_assoc, loop_again progresses_step (taken d s), ih more, stopAfter_append,
        List.reverse_cons, List.append_assoc]
      rfl

theorem answer_of_written {list : List Statement} {ts rest : List Lexeme}
    (h : Written n (.statements list) ts rest) (d s : Nat) :
    (read (.within n)).answer ⟨ts ++ rest, d, s⟩ =
      ((read (.within n)).answer ⟨rest, stopAfter d ts, s⟩).map fun q =>
        ⟨list ++ q.statements, q.span⟩ := by
  have all := loop_of_written h [] d s
  rw [List.append_nil, loop_step _ list.reverse, List.reverse_reverse] at all
  simp only [Functor.map, EStateM.map] at all
  simp only [answer, read, bind, EStateM.bind, all]
  cases loop (step (.within n)) [] ⟨rest, stopAfter d ts, s⟩ <;> rfl

/-- What has been taken in front does not show in the answer. -/
theorem answer_of_rest {tokens : TokenSequence} (fits : tokens.Fits) {c : Cursor}
    (rest : c.rest = tokens.lexemes) (sourceStop : c.sourceStop = Text.size tokens.source) :
    (read (.within maxNesting)).answer c = ofTokens maxNesting tokens := by
  -- A fresh parser stands at both cursors, whatever their last tokens were.
  have stands : Parser.Stands tokens 0 (.start tokens) c :=
    ⟨fits, rfl, rfl, Nat.zero_le _, rfl, rest, sourceStop⟩
  obtain ⟨_, run, _⟩ := (Parser.agrees_call stands .program).answer_eq
  obtain ⟨_, run', _⟩ := (Parser.agrees_call (.start fits) .program).answer_eq
  rw [ofTokens_eq_answer]
  exact (Prod.mk.inj (Except.ok.inj (run.symm.trans run'))).1

end Program

theorem TokenSequence.lexemes_append (source : Text) (front back : List Token) :
    (ofList source (front ++ back)).lexemes =
      (ofList source front).lexemes ++ (ofList source back).lexemes := by
  simp [lexemes, text]

/-- The tokens of a source are split in two. If the first ones are a program by themselves, its
statements are read from all of them as well, in front of those of the others; and if the others are
no program, the error is the one that they have by themselves. -/
theorem ofTokens_append {strict : Bool} {source : Text} {tokens : TokenSequence}
    {front back : List Token} {p : Program} (scanned : scan strict source = .ok tokens)
    (split : tokens.toList = front ++ back)
    (accepted : Program.ofTokens maxNesting (.ofList source front) = .ok p) :
    (∀ q, Program.ofTokens maxNesting (.ofList source back) = .ok q →
      Program.ofTokens maxNesting tokens = .ok ⟨p.statements ++ q.statements, q.span⟩) ∧
    ∀ e, Program.ofTokens maxNesting (.ofList source back) = .error e →
      Program.ofTokens maxNesting tokens = .error e := by
  have fits := (TokenSequence.fits_of_scan scanned).dropFirst front.length
  obtain ⟨_, list, _, rfl⟩ := scan_eq_ok.1 scanned
  rw [TokenSequence.toList_ofList] at split
  subst split
  rw [TokenSequence.dropFirst, TokenSequence.toList_ofList, TokenSequence.source_ofList,
    List.drop_left] at fits
  obtain ⟨alone, _⟩ := Program.ofTokens_eq_ok.1 accepted
  have written : Written maxNesting (.statements p.statements)
      (TokenSequence.ofList source front).lexemes (TokenSequence.ofList source back).lexemes :=
    alone.transfer alone.nestsWithin trivial
  have all : Program.ofTokens maxNesting (.ofList source (front ++ back)) =
      (Program.ofTokens maxNesting (.ofList source back)).map fun q =>
        ⟨p.statements ++ q.statements, q.span⟩ := by
    rw [Program.ofTokens_eq_answer, Cursor.start, TokenSequence.lexemes_append,
      Program.answer_of_written written, Program.answer_of_rest fits rfl (by simp)]
  rw [all]
  refine ⟨fun q read => ?_, fun e failed => ?_⟩
  · rw [read]
    rfl
  · rw [failed]
    rfl

/-- Behind `a;` stands the statement `b;`, or else a number that goes on after its dot. -/
theorem ofTokens_append_number :
    (∃ tokens, scan false ['a', ';', 'b', ';'] = .ok tokens ∧
      Program.ofTokens maxNesting tokens =
        .ok ⟨[.expression (.leaf (.identifier ['a']) ⟨0, 1⟩) ⟨0, 2⟩,
          .expression (.leaf (.identifier ['b']) ⟨2, 1⟩) ⟨2, 2⟩], ⟨0, 4⟩⟩) ∧
    ∃ tokens, scan false ['a', ';', '1', '.', '5'] = .ok tokens ∧
      Program.ofTokens maxNesting tokens = .error (.unsupported .number ⟨2, 3⟩) := by
  let front : List Token := [⟨.identifier, ⟨0, 1⟩⟩, ⟨.punctuator .semicolon, ⟨1, 1⟩⟩]
  let first : Statement := .expression (.leaf (.identifier ['a']) ⟨0, 1⟩) ⟨0, 2⟩
  refine ⟨?_, ?_⟩
  · let back : List Token := [⟨.identifier, ⟨2, 1⟩⟩, ⟨.punctuator .semicolon, ⟨3, 1⟩⟩]
    let source : Text := ['a', ';', 'b', ';']
    have scanned : scan false source = .ok (.ofList source (front ++ back)) := rfl
    have accepted : Program.ofTokens maxNesting (.ofList source front) =
        .ok ⟨[first], ⟨0, 4⟩⟩ := rfl
    have other : Program.ofTokens maxNesting (.ofList source back) =
        .ok ⟨[.expression (.leaf (.identifier ['b']) ⟨2, 1⟩) ⟨2, 2⟩], ⟨0, 4⟩⟩ := rfl
    exact ⟨_, scanned, (ofTokens_append scanned rfl accepted).1 _ other⟩
  · let back : List Token :=
      [⟨.number, ⟨2, 1⟩⟩, ⟨.punctuator .dot, ⟨3, 1⟩⟩, ⟨.number, ⟨4, 1⟩⟩]
    let source : Text := ['a', ';', '1', '.', '5']
    have scanned : scan false source = .ok (.ofList source (front ++ back)) := rfl
    have accepted : Program.ofTokens maxNesting (.ofList source front) =
        .ok ⟨[first], ⟨0, 5⟩⟩ := rfl
    have other : Program.ofTokens maxNesting (.ofList source back) =
        .error (.unsupported .number ⟨2, 3⟩) := rfl
    exact ⟨_, scanned, (ofTokens_append scanned rfl accepted).2 _ other⟩

end EcmaFront
