import EcmaFront.Text.Basic
import EcmaFront.Token.Kind

/-!
# Spellings

Which fixed token a text starts with, and which reserved word a name is. Both are looked up in a
table of spellings. The operators stand in an order in which a spelling comes before each shorter
one that it starts with, so the first row that fits is the longest.

* `Spelling.operators_longest_first`: the order of the operators.
* `Spelling.text?_of_mem_operators`, `Spelling.text?_of_mem_keywords`: a row has the text of its
  kind.
* `Spelling.keyword?_eq_some_iff`: the reserved word that a name is.
-/

namespace EcmaFront.Spelling

/-- Operators and punctuation, longest first. -/
def operators : List (String × TokenKind) :=
  [(">>>=", .assignment .shiftRightUnsigned), ("===", .punctuator .strictEqual),
   ("!==", .punctuator .strictNotEqual), ("...", .punctuator .ellipsis),
   ("**=", .assignment .power), ("<<=", .assignment .shiftLeft), (">>=", .assignment .shiftRight),
   (">>>", .punctuator .shiftRightUnsigned), ("&&=", .assignment .logicalAnd),
   ("||=", .assignment .logicalOr), ("??=", .assignment .coalesce), ("==", .punctuator .equal),
   ("!=", .punctuator .notEqual), ("<=", .punctuator .lessEqual), (">=", .punctuator .greaterEqual),
   ("+=", .assignment .add), ("-=", .assignment .subtract), ("*=", .assignment .multiply),
   ("/=", .assignment .divide), ("%=", .assignment .remainder), ("&=", .assignment .bitAnd),
   ("|=", .assignment .bitOr), ("^=", .assignment .bitXor), ("&&", .punctuator .ampersandAmpersand),
   ("||", .punctuator .barBar), ("??", .punctuator .questionQuestion),
   ("?.", .punctuator .optionalDot), ("++", .punctuator .plusPlus), ("--", .punctuator .minusMinus),
   ("**", .punctuator .starStar), ("<<", .punctuator .shiftLeft), (">>", .punctuator .shiftRight),
   ("=>", .punctuator .arrow), ("=", .assignment .assign), ("+", .punctuator .plus),
   ("-", .punctuator .minus), ("*", .punctuator .star), ("/", .punctuator .slash),
   ("%", .punctuator .percent), ("&", .punctuator .ampersand), ("|", .punctuator .bar),
   ("^", .punctuator .caret), ("~", .punctuator .tilde), ("!", .punctuator .exclamation),
   ("?", .punctuator .question), (":", .punctuator .colon), ("<", .punctuator .less),
   (">", .punctuator .greater), (".", .punctuator .dot), (",", .punctuator .comma),
   (";", .punctuator .semicolon), ("(", .punctuator .openParen), (")", .punctuator .closeParen),
   ("[", .punctuator .openBracket), ("]", .punctuator .closeBracket),
   ("\x7b", .punctuator .openBrace), ("\x7d", .punctuator .closeBrace)]

/-- Reserved and contextual words. -/
def keywords : List (String × Keyword) :=
  [("break", .breakKw), ("case", .caseKw), ("catch", .catchKw), ("class", .classKw),
   ("const", .constKw), ("continue", .continueKw), ("debugger", .debuggerKw),
   ("default", .defaultKw), ("delete", .deleteKw), ("do", .doKw), ("else", .elseKw),
   ("enum", .enumKw), ("export", .exportKw), ("extends", .extendsKw), ("false", .falseKw),
   ("finally", .finallyKw), ("for", .forKw), ("function", .functionKw), ("if", .ifKw),
   ("import", .importKw), ("in", .inKw), ("instanceof", .instanceofKw), ("new", .newKw),
   ("null", .nullKw), ("return", .returnKw), ("super", .superKw), ("switch", .switchKw),
   ("this", .thisKw), ("throw", .throwKw), ("true", .trueKw), ("try", .tryKw),
   ("typeof", .typeofKw), ("var", .varKw), ("void", .voidKw), ("while", .whileKw),
   ("with", .withKw), ("let", .letKw), ("await", .awaitKw), ("as", .asKw),
   ("implements", .implementsKw), ("interface", .interfaceKw), ("package", .packageKw),
   ("private", .privateKw), ("protected", .protectedKw), ("public", .publicKw),
   ("static", .staticKw), ("yield", .yieldKw)]

theorem text?_of_mem_operators : ∀ row ∈ operators, row.2.text? = some row.1 := by
  decide +kernel

theorem text?_of_mem_keywords : ∀ row ∈ keywords, (TokenKind.keyword row.2).text? = some row.1 := by
  decide +kernel

/-- Every kind with one text has a row, the reserved words apart. -/
theorem mem_operators : ∀ kind : TokenKind, kind.isKeyword = false →
    ∀ spelling ∈ kind.text?, (spelling, kind) ∈ operators := by
  decide +kernel

theorem mem_keywords (k : Keyword) : (k.text, k) ∈ keywords := by
  have all : ∀ k ∈ Keyword.all, (k.text, k) ∈ keywords := by decide +kernel
  exact all k k.mem_all

theorem keywords_inj : ∀ row ∈ keywords, ∀ row' ∈ keywords,
    row.1.toList = row'.1.toList → row = row' := by
  decide +kernel

/-- No spelling starts with an earlier one. -/
theorem operators_longest_first :
    operators.Pairwise fun row later => ¬ row.1.toList <+: later.1.toList := by
  decide +kernel

/-- Whether a text starts with an ASCII digit. -/
def startsWithDigit : Text → Bool
  | c :: _ => c.isDigit
  | [] => false

/-- Whether `t` starts with the spelling of the row. An optional dot counts only where no digit
follows, so that `a?.5:b` is a conditional. -/
def fits (row : String × TokenKind) (t : Text) : Bool :=
  row.1.toList.isPrefixOf t && !(row.2 == .punctuator .optionalDot && startsWithDigit (t.drop 2))

/-- The first row of the operators that a text starts with. -/
def fitting? (t : Text) : Option (String × TokenKind) := operators.find? (fits · t)

/-- The operator that a text starts with. -/
def operator? (t : Text) : Option TokenKind := (fitting? t).map (·.2)

theorem append_of_fitting? {t : Text} {row : String × TokenKind} (h : fitting? t = some row) :
    row.1.toList ++ t.drop row.1.toList.length = t := by
  have := List.find?_some h
  simp only [fits, Bool.and_eq_true, List.isPrefixOf_iff_prefix] at this
  obtain ⟨rest, rfl⟩ := this.1
  simp

theorem ne_nil_of_mem_operators : ∀ row ∈ operators, row.1.toList ≠ [] := by
  decide +kernel

/-- The reserved word that a whole name is. Words reserved in strict sources count only there. -/
def keyword? (strict : Bool) (word : Text) : Option Keyword :=
  ((keywords.find? (·.1.toList == word)).map (·.2)).filter fun k => strict || !k.isStrictOnly

theorem keyword?_eq_some_iff {strict : Bool} {word : Text} {k : Keyword} :
    keyword? strict word = some k ↔
      (∃ row ∈ keywords, row.1.toList = word ∧ row.2 = k) ∧ (strict || !k.isStrictOnly) = true := by
  rw [keyword?, Option.filter_eq_some_iff]
  refine and_congr_left fun _ => ⟨fun found => ?_, fun ⟨row, mem, whole, same⟩ => ?_⟩
  · obtain ⟨row, first, rfl⟩ := Option.map_eq_some_iff.1 found
    exact ⟨row, List.mem_of_find?_eq_some first, by simpa using List.find?_some first, rfl⟩
  · cases first : keywords.find? (·.1.toList == word) with
    | none => exact absurd (beq_iff_eq.2 whole) (List.find?_eq_none.1 first row mem)
    | some row' =>
      have whole' : row'.1.toList = word := by simpa using List.find?_some first
      have same' := keywords_inj row' (List.mem_of_find?_eq_some first) row mem
        (whole'.trans whole.symm)
      rw [Option.map_some, same', same]

/-- The kind of a name. -/
def nameKind (strict : Bool) (word : Text) : TokenKind :=
  match keyword? strict word with
  | some k => .keyword k
  | none => .identifier

end EcmaFront.Spelling
