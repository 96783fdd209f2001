import EcmaFront.Proofs.Machine.Lines
import EcmaFront.Proofs.Text.Bytes
import Mathlib.Data.List.Basic

/-!
# Lines and columns count bytes

The index of a text holds the places just behind its line feeds, so the line of a position counts
the line feeds among the bytes in front of it, and the column the bytes behind the last of them. A
later position has a later line or, on the same line, a later column.

* `Text.lineEnds_eq`: the ends of the lines are found among the bytes.
* `LineIndex.startOf_lineOf`: the line of a position starts behind the last line feed before it.
* `LineIndex.lineColumnOf_counts`: what lines and columns count, and how a position is got back.
-/

namespace EcmaFront

/-- The place comes first for a reader. -/
def LineColumn.Before (a b : LineColumn) : Prop :=
  a.line < b.line ∨ a.line = b.line ∧ a.column < b.column

namespace Text

/-- The place just behind the last line feed among the bytes in front of a position, or the start of
the text if there is none. -/
def lineStart (t : Text) (position : Nat) : Nat :=
  match ((t.bytes.take position).idxsOf '\n'.toUInt8).getLast? with
  | some feed => feed + 1
  | none => 0

/-- A line feed is a byte of its own, and no other character has that byte. -/
theorem lineEnds_eq (offset : Nat) (t : Text) :
    t.lineEnds offset = (t.bytes.idxsOf '\n'.toUInt8 offset).map (· + 1) := by
  induction t generalizing offset with
  | nil => rfl
  | cons c cs ih =>
    rw [lineEnds]
    by_cases feed : c = '\n'
    · subst feed
      rw [bytes_ascii (by decide), List.idxsOf_cons, if_pos (beq_self_eq_true _), List.map_cons, ← ih]
      rfl
    · have absent : (String.utf8EncodeChar c).idxsOf '\n'.toUInt8 offset = [] := by
        rw [List.idxsOf_eq_nil_iff]
        intro b mem
        rw [beq_eq_false_iff_ne]
        by_cases ascii : c.toNat < 128
        · rw [(encode_ascii ascii).1, List.mem_singleton] at mem
          rw [mem]
          exact fun same => feed (toUInt8_inj ascii (by decide) same)
        · exact ne_of_mem_encode (Nat.le_of_not_lt ascii) (by decide) mem
      rw [if_neg feed, bytes_cons, List.idxsOf_append, absent, List.nil_append,
        String.length_utf8EncodeChar, ih]

end Text

/-- The indices below a bound are those of the members in front of it. -/
theorem countP_idxsOf {α : Type} [BEq α] (a : α) (as : List α) (start bound : Nat) :
    (as.idxsOf a start).countP (· < start + bound) = (as.take bound).count a := by
  induction as generalizing start bound with
  | nil => simp
  | cons b bs ih =>
    cases bound with
    | zero =>
      rw [List.take_zero, List.count_nil, List.countP_eq_zero]
      intro i mem
      have := List.ge_of_mem_idxsOf i mem
      simpa using this
    | succ bound =>
      have ih := ih (start + 1) bound
      rw [Nat.add_assoc, Nat.add_comm 1] at ih
      rw [List.idxsOf_cons, List.take_succ_cons, List.count_cons, ← ih]
      split
      · rw [List.countP_cons_of_pos (by simp)]
      · rfl

namespace LineIndex

/-- The position at a place of a text. -/
def positionOf (lines : LineIndex) (place : LineColumn) : Nat :=
  lines.startOf (place.line - 1) + (place.column - 1)

variable {t : Text} {position position' : Nat}

theorem lineCount_ofText (t : Text) :
    (ofText t).lineCount = t.bytes.count '\n'.toUInt8 + 1 := by
  rw [lineCount, ofText, List.size_toArray, List.length_cons, Text.lineEnds_eq, List.length_map,
    List.length_idxsOf]

theorem lineOf_eq_count (t : Text) (position : Nat) :
    (ofText t).lineOf position = (t.bytes.take position).count '\n'.toUInt8 + 1 := by
  have before := countP_idxsOf '\n'.toUInt8 t.bytes 0 position
  rw [Nat.zero_add] at before
  rw [lineOf_ofText, Text.lineEnds_eq, List.countP_map, ← before]
  rfl

theorem startOf_succ (t : Text) (i : Nat) :
    (ofText t).startOf (i + 1) = ((t.bytes.idxsOf '\n'.toUInt8)[i]?.map (· + 1)).getD 0 := by
  rw [startOf, ofText, Array.getD_eq_getD_getElem?, List.getElem?_toArray, List.getElem?_cons_succ,
    Text.lineEnds_eq, List.getElem?_map]

theorem startOf_lineOf (t : Text) (position : Nat) :
    (ofText t).startOf ((ofText t).lineOf position - 1) = t.lineStart position := by
  rw [lineOf_eq_count, Nat.add_sub_cancel, Text.lineStart, List.idxsOf_take, List.getLast?_take]
  have few : (t.bytes.take position).count '\n'.toUInt8 ≤
      (t.bytes.idxsOf '\n'.toUInt8).length := by
    rw [List.length_idxsOf]
    exact (List.take_sublist ..).count_le _
  cases feeds : (t.bytes.take position).count '\n'.toUInt8 with
  | zero => rfl
  | succ i =>
    rw [feeds] at few
    rw [startOf_succ, if_neg (Nat.succ_ne_zero i), Nat.add_sub_cancel,
      List.getElem?_eq_getElem few]
    rfl

theorem lineStart_le (t : Text) (position : Nat) : t.lineStart position ≤ position := by
  rw [← startOf_lineOf]
  exact (isLineAt_lineOf t position).start_le

theorem lineColumnOf_eq (t : Text) (position : Nat) : (ofText t).lineColumnOf position =
    ⟨(ofText t).lineOf position, position - t.lineStart position + 1⟩ := by
  rw [← startOf_lineOf]
  rfl

theorem startOf_le (t : Text) (i : Nat) : (ofText t).startOf i ≤ Text.size t := by
  cases i with
  | zero => exact Nat.zero_le _
  | succ i =>
    rw [startOf_succ]
    cases here : (t.bytes.idxsOf '\n'.toUInt8)[i]? with
    | none => exact Nat.zero_le _
    | some feed =>
      have inside := List.lt_add_of_mem_idxsOf feed (List.mem_of_getElem? here)
      rwa [Text.length_bytes] at inside

theorem positionOf_lineColumnOf (t : Text) (position : Nat) :
    (ofText t).positionOf ((ofText t).lineColumnOf position) = position := by
  have start_le := lineStart_le t position
  rw [lineColumnOf_eq, positionOf, startOf_lineOf, Nat.add_sub_cancel, Nat.add_sub_cancel' start_le]

theorem lineOf_mono (t : Text) (le : position ≤ position') :
    (ofText t).lineOf position ≤ (ofText t).lineOf position' := by
  rw [lineOf_eq_count, lineOf_eq_count]
  exact Nat.add_le_add_right ((List.take_sublist_take_left le).count_le _) 1

/-- Two positions of one line have the same start of the line, and so the columns of their order. -/
theorem before_of_lt (t : Text) (lt : position < position') :
    ((ofText t).lineColumnOf position).Before ((ofText t).lineColumnOf position') := by
  rcases Nat.lt_or_eq_of_le (lineOf_mono t (Nat.le_of_lt lt)) with earlier | same
  · exact .inl earlier
  · have start : t.lineStart position = t.lineStart position' := by
      rw [← startOf_lineOf, ← startOf_lineOf, same]
    have start_le := lineStart_le t position
    refine .inr ⟨same, ?_⟩
    rw [lineColumnOf_eq, lineColumnOf_eq, start]
    show position - _ + 1 < position' - _ + 1
    omega

/-- In a text with fewer bytes than the last position, there is one line more than line feeds. The
line of a position counts the line feeds among the bytes in front of it, and the column the bytes
behind the last of these, also behind the end of the text. The search that can hit or miss finds the
same without a fault. The position is got back from the start of the line and the column, and a
later position is at a later place. -/
theorem lineColumnOf_counts (fits : Text.size t < maxPosition) :
    (ofText t).lineCount = t.bytes.count '\n'.toUInt8 + 1 ∧
    (∀ i, (ofText t).startOf i < maxPosition) ∧
    (∀ position < maxPosition,
      (ofText t).lineOf position = (t.bytes.take position).count '\n'.toUInt8 + 1 ∧
      (ofText t).lineColumnOf position =
        ⟨(ofText t).lineOf position, position - t.lineStart position + 1⟩ ∧
      (ofText t).checkedLineOf position = .ok ((ofText t).lineOf position) ∧
      (ofText t).checkedLineColumnOf position = .ok ((ofText t).lineColumnOf position) ∧
      (ofText t).positionOf ((ofText t).lineColumnOf position) = position) ∧
    ∀ position position', position < position' → position' < maxPosition →
      ((ofText t).lineColumnOf position).Before ((ofText t).lineColumnOf position') := by
  refine ⟨lineCount_ofText t, fun i => Nat.lt_of_le_of_lt (startOf_le t i) fits, ?_,
    fun _ _ lt _ => before_of_lt t lt⟩
  intro position lt
  have few := Nat.le_trans (lineOf_le t position) fits
  exact ⟨lineOf_eq_count t position, lineColumnOf_eq t position,
    checkedLineOf_eq (isLineAt_lineOf t position) few, checkedLineColumnOf_eq fits lt,
    positionOf_lineColumnOf t position⟩

/-- Behind the end of a text with two lines. -/
theorem lineColumnOf_counts_end :
    Text.size ['a', '\r', '\n', 'é'] < maxPosition ∧ 100 < maxPosition ∧
      (ofText ['a', '\r', '\n', 'é']).lineColumnOf 100 = ⟨2, 98⟩ ∧
      (ofText ['a', '\r', '\n', 'é']).positionOf ⟨2, 98⟩ = 100 := by
  have fits : Text.size ['a', '\r', '\n', 'é'] < maxPosition := by decide
  have lt : 100 < maxPosition := by decide
  obtain ⟨line, place, _, _, back⟩ := (lineColumnOf_counts fits).2.2.1 100 lt
  have here : (ofText ['a', '\r', '\n', 'é']).lineColumnOf 100 = ⟨2, 98⟩ := by
    rw [place, line]
    decide
  exact ⟨fits, lt, here, here ▸ back⟩

end LineIndex

end EcmaFront
