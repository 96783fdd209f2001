import EcmaFront.Diagnostic.Basic

/-!
# Filling a template at once

The arguments of a template are filled in one after the other, over the whole text. Where an opening
brace stands in a template only at a place, and in the arguments only in the last one, no place is
made by what is filled in, so that all places might as well be filled at once.

* `Template.replace_filled`: with the next argument, one more argument is filled in at once.
* `format_eq_filled`: so the message of a template has each argument at its places, and a
  message of the catalogue with one place shows its argument as it is.
-/

namespace EcmaFront

namespace Template

/-- A template is made of places and of other characters. An opening brace is none of these. -/
inductive Piece where
  | character (c : Char) (notBrace : c ≠ '\x7b')
  | place (i : Nat)

namespace Piece

/-- A place is written as its number in braces. -/
def text : Piece → List Char
  | character c _ => [c]
  | place i => '\x7b' :: ((toString i).toList ++ ['\x7d'])

/-- The argument of a place, if there is one, and else the piece as it is written. -/
def filled (arguments : List (List Char)) : Piece → List Char
  | character c _ => [c]
  | place i => arguments[i]?.getD (place i).text

theorem text_place (i : Nat) : (place i).text = Template.place i := by
  rw [text, Nat.toString_eq_ofList_toDigits, String.toList_ofList]
  rfl

theorem filled_nil : filled [] = text := by
  funext piece
  cases piece <;> rfl

end Piece

/-! ## One replacement -/

variable {old new s t : List Char} {i k : Nat}

theorem replaceFrom_length (old new s t : List Char) :
    replaceFrom old new s.length (s ++ t) = replace old new t := by
  induction s with
  | nil => rfl
  | cons c s ih => exact ih

theorem replace_cons_of_differs {c : Char} (h : ¬ old <+: c :: t) :
    replace old new (c :: t) = c :: replace old new t := by
  have differs : old.isPrefixOf (c :: t) ≠ true := fun found => h (List.isPrefixOf_iff_prefix.1 found)
  rw [replace, replaceFrom, if_neg differs]
  rfl

/-- A place starts with an opening brace, so it stands nowhere among other characters. -/
theorem replace_place_append (notBrace : '\x7b' ∉ s) (t : List Char) :
    replace (place i) new (s ++ t) = s ++ replace (place i) new t := by
  induction s with
  | nil => rfl
  | cons c s ih =>
    obtain ⟨first, others⟩ := not_or.1 (mt List.mem_cons.2 notBrace)
    have differs : ¬ place i <+: c :: (s ++ t) := fun found =>
      first (List.cons_prefix_cons.1 found).1
    rw [List.cons_append, replace_cons_of_differs differs, ih others, List.cons_append]

theorem replace_place (i : Nat) (new t : List Char) :
    replace (place i) new (place i ++ t) = new ++ replace (place i) new t := by
  have found : (place i).isPrefixOf (place i ++ t) = true :=
    List.isPrefixOf_iff_prefix.2 (List.prefix_append ..)
  have behind := replaceFrom_length (place i) new (Nat.toDigits 10 i ++ ['\x7d']) t
  rw [place, List.cons_append] at found ⊢
  rw [replace, replaceFrom, if_pos found]
  exact congrArg (new ++ ·) behind

/-! ## The number of a place -/

theorem toDigits_injective (h : Nat.toDigits 10 i = Nat.toDigits 10 k) : i = k := by
  have values := congrArg (Nat.ofDigitChars 10 · 0) h
  simpa only [Nat.ofDigitChars_ten_toDigits] using values

/-- The digits of a place are followed by a closing brace, so they are its whole number. -/
theorem eq_of_prefix_place (h : place i <+: place k ++ t) : i = k := by
  have run (n : Nat) (behind : List Char) :
      (Nat.toDigits 10 n ++ '\x7d' :: behind).takeWhile Char.isDigit = Nat.toDigits 10 n := by
    have digits : ∀ c ∈ Nat.toDigits 10 n, c.isDigit = true := fun _ mem =>
      Nat.isDigit_of_mem_toDigits (by decide) (by decide) mem
    rw [List.takeWhile_append_of_pos digits]
    exact List.append_nil _
  obtain ⟨behind, eq⟩ := h
  simp only [place, List.cons_append, List.append_assoc, List.nil_append, List.cons.injEq,
    true_and] at eq
  apply toDigits_injective
  rw [← run i behind, ← run k t, eq]

theorem brace_not_mem_toDigits (k : Nat) : '\x7b' ∉ Nat.toDigits 10 k ++ ['\x7d'] := by
  intro mem
  rcases List.mem_append.1 mem with digit | close
  · exact absurd (Nat.isDigit_of_mem_toDigits (by decide) (by decide) digit) (by decide)
  · exact absurd close (by decide)

theorem replace_other_place (differ : i ≠ k) (new t : List Char) :
    replace (place i) new (place k ++ t) = place k ++ replace (place i) new t := by
  have notHere : ¬ place i <+: '\x7b' :: (Nat.toDigits 10 k ++ ['\x7d'] ++ t) := fun found =>
    differ (eq_of_prefix_place found)
  rw [show place k ++ t = '\x7b' :: (Nat.toDigits 10 k ++ ['\x7d'] ++ t) from rfl,
    replace_cons_of_differs notHere, replace_place_append (brace_not_mem_toDigits k)]
  rfl

/-! ## All replacements -/

/-- One argument more is filled in. No place is made by those before it. -/
theorem replace_filled {done : List (List Char)} (notBrace : ∀ a ∈ done, '\x7b' ∉ a)
    (argument : List Char) (pieces : List Piece) :
    replace (place done.length) argument (pieces.flatMap (Piece.filled done)) =
      pieces.flatMap (Piece.filled (done ++ [argument])) := by
  induction pieces with
  | nil => rfl
  | cons piece pieces ih =>
    rw [List.flatMap_cons, List.flatMap_cons, ← ih]
    cases piece with
    | character c plain =>
      exact replace_place_append (by simpa [Piece.filled] using plain.symm) _
    | place k =>
      simp only [Piece.filled, Piece.text_place]
      rcases Nat.lt_trichotomy k done.length with before | rfl | after
      · have plain := notBrace _ (List.getElem_mem before)
        rw [List.getElem?_append_left before, List.getElem?_eq_getElem before, Option.getD_some]
        exact replace_place_append plain _
      · rw [List.getElem?_eq_none (Nat.le_refl _), List.getElem?_concat_length]
        exact replace_place ..
      · have beyond : (done ++ [argument]).length ≤ k := by
          rw [List.length_append]
          exact after
        rw [List.getElem?_eq_none (Nat.le_of_lt after), List.getElem?_eq_none beyond]
        exact replace_other_place (Nat.ne_of_lt after) ..

theorem fillFrom_filled {done arguments : List (List Char)}
    (notBrace : ∀ a ∈ (done ++ arguments).dropLast, '\x7b' ∉ a) (pieces : List Piece) :
    fillFrom done.length arguments (pieces.flatMap (Piece.filled done)) =
      pieces.flatMap (Piece.filled (done ++ arguments)) := by
  induction arguments generalizing done with
  | nil => rw [List.append_nil, fillFrom]
  | cons argument arguments ih =>
    have earlier : ∀ a ∈ done, '\x7b' ∉ a := by
      intro a mem
      apply notBrace
      rw [List.dropLast_append_of_ne_nil (by simp)]
      exact List.mem_append_left _ mem
    rw [List.append_cons done argument arguments] at notBrace ⊢
    rw [fillFrom, replace_filled earlier, ← ih notBrace, List.length_append, List.length_singleton]

/-- A template with one place, the first one, shows its argument there as it is. -/
theorem format_between {before after : String} (notBefore : '\x7b' ∉ before.toList)
    (notAfter : '\x7b' ∉ after.toList) (argument : String) :
    format (before ++ "\x7b0\x7d" ++ after) [argument] = before ++ argument ++ after := by
  have written : (before ++ "\x7b0\x7d" ++ after).toList =
      before.toList ++ (place 0 ++ (after.toList ++ [])) := by
    simp [place]
  have nothing : replace (place 0) argument.toList [] = [] := rfl
  rw [format, written, List.map_singleton, fillFrom, fillFrom, replace_place_append notBefore,
    replace_place, replace_place_append notAfter, nothing]
  simp [String.append_assoc]

end Template

namespace Message

/-- All messages. -/
def catalogue : List Message :=
  [unterminatedString, identifierExpected, tokenExpected, expressionExpected, invalidNumber,
    unexpectedEnd, invalidCharacter, sourceTooLarge, notSupported, nestingTooDeep, invalidTarget,
    mixedOperations, noStatements]

/-- The only brace that the template opens is that of the first place, between the two texts. -/
structure IsAround (m : Message) (before after : String) : Prop where
  template_eq : m.template = before ++ "\x7b0\x7d" ++ after
  notBefore : '\x7b' ∉ before.toList
  notAfter : '\x7b' ∉ after.toList

theorem IsAround.text_make {m : Message} {before after : String} (h : m.IsAround before after)
    (location : Location) (argument : String) :
    (Diagnostic.make location m [argument]).text = before ++ argument ++ after := by
  have text := Template.format_between h.notBefore h.notAfter argument
  rwa [← h.template_eq] at text

theorem exists_around {m : Message} (mem : m ∈ catalogue)
    (one : m.template.toList.count '\x7b' = 1) : ∃ before after, m.IsAround before after := by
  simp only [catalogue, List.mem_cons, List.not_mem_nil, or_false] at mem
  rcases mem with rfl | rfl | rfl | rfl | rfl | rfl | rfl | rfl | rfl | rfl | rfl | rfl | rfl
  · exact absurd one (by decide +kernel)
  · exact absurd one (by decide +kernel)
  · exact ⟨"'", "' expected.", rfl, by decide, by decide⟩
  · exact absurd one (by decide +kernel)
  · exact absurd one (by decide +kernel)
  · exact absurd one (by decide +kernel)
  · exact ⟨"Invalid character '", "'.", rfl, by decide, by decide⟩
  · exact ⟨"Source file is too large (", " bytes).", rfl, by decide, by decide⟩
  · exact ⟨"'", "' is not supported yet.", rfl, by decide, by decide⟩
  · exact ⟨"Expression nesting exceeds ", " levels.", rfl, by decide, by decide⟩
  · exact absurd one (by decide +kernel)
  · exact absurd one (by decide +kernel)
  · exact ⟨"File '", "' contains no statements.", rfl, by decide, by decide⟩

end Message

/-- The message of a template is the template with all places filled at once, if only the last
argument has an opening brace in it. A place whose number is too large stays. So a message of the
catalogue with one place shows its argument there, whatever it is. -/
theorem format_eq_filled :
    (∀ (pieces : List Template.Piece) (arguments : List String),
      (∀ a ∈ arguments.dropLast, '\x7b' ∉ a.toList) →
      Template.format (String.ofList (pieces.flatMap Template.Piece.text)) arguments =
        String.ofList (pieces.flatMap (Template.Piece.filled (arguments.map String.toList)))) ∧
    ∀ m ∈ Message.catalogue, m.template.toList.count '\x7b' = 1 →
      ∃ before after, m.template = before ++ "\x7b0\x7d" ++ after ∧
        ∀ location argument,
          (Diagnostic.make location m [argument]).text = before ++ argument ++ after := by
  constructor
  · intro pieces arguments notBrace
    have plain : ∀ a ∈ ([] ++ arguments.map String.toList).dropLast, '\x7b' ∉ a := by
      rw [List.nil_append, ← List.map_dropLast]
      exact List.forall_mem_map.2 notBrace
    have filled := Template.fillFrom_filled plain pieces
    rw [List.length_nil, List.nil_append, Template.Piece.filled_nil] at filled
    rw [Template.format, String.toList_ofList, filled]
  · intro m mem one
    obtain ⟨before, after, around⟩ := Message.exists_around mem one
    exact ⟨before, after, around.template_eq, around.text_make⟩

/-- A closing brace and a place as arguments, a place that no argument has, and a file name that looks
like a place. -/
theorem format_eq_filled_braces :
    (∀ a ∈ ["\x7d", "\x7b0\x7d"].dropLast, '\x7b' ∉ a.toList) ∧
      Template.format "\x7b1\x7d\x7b0\x7d\x7b12\x7d" ["\x7d", "\x7b0\x7d"] =
        "\x7b0\x7d\x7d\x7b12\x7d" ∧
      .noStatements ∈ Message.catalogue ∧ Message.noStatements.template.toList.count '\x7b' = 1 ∧
      ∃ before after, "File '\x7b0\x7d' contains no statements." = before ++ "\x7b0\x7d" ++ after ∧
        ∀ location, (Diagnostic.make location .noStatements ["\x7b0\x7d.js"]).text =
          before ++ "\x7b0\x7d.js" ++ after := by
  have notBrace : ∀ a ∈ ["\x7d", "\x7b0\x7d"].dropLast, '\x7b' ∉ a.toList := by decide
  have mem : .noStatements ∈ Message.catalogue := by decide
  have one : Message.noStatements.template.toList.count '\x7b' = 1 := by decide
  have filled := format_eq_filled.1 [.place 1, .place 0, .place 12] _ notBrace
  obtain ⟨before, after, eq, shows⟩ := format_eq_filled.2 _ mem one
  exact ⟨notBrace, filled, mem, one, before, after, eq, fun location => shows location _⟩

end EcmaFront
