import EcmaFront.Text.LineIndex

/-!
# The line of a position

A line starts behind each line feed, so the line of a position is found by counting the line feeds
before it.

* `LineIndex.search_spec`: the search by halves meets the last line that starts early enough.
* `LineIndex.lineOf_ofText`: so the line of a position counts the line ends up to it.
* `LineIndex.lineOf_append`: between two parts of a text, it counts the line feeds of the first part.
-/

namespace EcmaFront

namespace Text

variable {offset : Nat} {t : Text}

theorem lt_of_mem_lineEnds {stop : Nat} (h : stop ∈ t.lineEnds offset) : offset < stop := by
  induction t generalizing offset with
  | nil => cases h
  | cons c cs ih =>
    have wide := c.utf8Size_pos
    simp only [lineEnds] at h
    split at h
    · obtain rfl | later := List.mem_cons.1 h
      · omega
      · have := ih later
        omega
    · have := ih h
      omega

theorem lineEnds_pairwise (offset : Nat) (t : Text) : (t.lineEnds offset).Pairwise (· < ·) := by
  induction t generalizing offset with
  | nil => exact .nil
  | cons c cs ih =>
    simp only [lineEnds]
    split
    · exact .cons (fun _ mem => lt_of_mem_lineEnds mem) (ih _)
    · exact ih _

/-- The line ends up to a place in a text are those of the line feeds before it. -/
theorem countP_lineEnds (offset : Nat) (before rest : Text) :
    ((before ++ rest).lineEnds offset).countP (· ≤ offset + size before) = before.count '\n' := by
  induction before generalizing offset with
  | nil =>
    refine List.countP_eq_zero.2 fun stop mem => ?_
    have late : ¬ stop ≤ offset + size [] := Nat.not_le_of_lt (lt_of_mem_lineEnds mem)
    simpa only [decide_eq_true_eq] using late
  | cons c cs ih =>
    have ih := ih (offset + c.utf8Size)
    rw [Nat.add_assoc, ← size_cons] at ih
    simp only [List.cons_append, lineEnds]
    split
    · next feed =>
      rw [List.countP_cons_of_pos (by simp), ih, feed, List.count_cons_self]
    · next other => rw [ih, List.count_cons_of_ne other]

end Text

namespace LineIndex

/-- Whether `i` is the last line that starts no later than the position. -/
structure IsLineAt (lines : LineIndex) (position i : Nat) : Prop where
  lt : i < lines.lineCount
  start_le : lines.startOf i ≤ position
  lt_next : i + 1 < lines.lineCount → position < lines.startOf (i + 1)

variable {lines : LineIndex} {position : Nat}

/-- The search keeps to lines of which the first starts early enough and the one behind the last
does not. -/
theorem search_spec {first count : Nat} (pos : 0 < count) (le : first + count ≤ lines.lineCount)
    (start_le : lines.startOf first ≤ position)
    (lt_next : first + count < lines.lineCount → position < lines.startOf (first + count)) :
    lines.IsLineAt position (lines.search position first count) := by
  fun_induction search lines position first count with
  | case1 first count small =>
    obtain rfl : count = 1 := by omega
    exact ⟨le, start_le, lt_next⟩
  | case2 first count large early ih =>
    have whole : first + count / 2 + (count - count / 2) = first + count := by omega
    exact ih (by omega) (by omega) early (whole ▸ lt_next)
  | case3 first count large late ih =>
    exact ih (by omega) (by omega) start_le fun _ => Nat.lt_of_not_le late

theorem starts_pairwise (t : Text) : (0 :: t.lineEnds 0).Pairwise (· < ·) :=
  .cons (fun _ mem => Text.lt_of_mem_lineEnds mem) (t.lineEnds_pairwise 0)

theorem isLineAt_lineOf (t : Text) (position : Nat) :
    (ofText t).IsLineAt position ((ofText t).lineOf position - 1) :=
  search_spec (Nat.succ_pos _) (Nat.le_of_eq (Nat.zero_add _)) (Nat.zero_le _)
    fun lt => absurd lt (by simp)

/-- In an increasing list, the numbers up to a bound are those up to the last of them. -/
theorem countP_le_eq {starts : List Nat} (ordered : starts.Pairwise (· < ·)) {i : Nat}
    (lt : i < starts.length) (start_le : starts.getD i 0 ≤ position)
    (lt_next : i + 1 < starts.length → position < starts.getD (i + 1) 0) :
    starts.countP (· ≤ position) = i + 1 := by
  induction starts generalizing i with
  | nil => cases lt
  | cons first starts ih =>
    obtain ⟨firstLt, ordered⟩ := List.pairwise_cons.1 ordered
    cases i with
    | zero =>
      have none : starts.countP (· ≤ position) = 0 := by
        refine List.countP_eq_zero.2 fun start mem => ?_
        cases starts with
        | nil => cases mem
        | cons second starts =>
          have next : position < second := lt_next (by simp)
          have := List.pairwise_cons.1 ordered
          obtain rfl | later := List.mem_cons.1 mem
          · simpa using next
          · have := this.1 start later
            simp only [decide_eq_true_eq]
            omega
      rw [List.countP_cons_of_pos (by simpa using start_le), none]
    | succ i =>
      have lt : i < starts.length := Nat.lt_of_succ_lt_succ lt
      have start_le : starts.getD i 0 ≤ position := start_le
      have member : starts.getD i 0 ∈ starts := by
        rw [List.getD_eq_getElem?_getD, List.getElem?_eq_getElem lt]
        exact List.getElem_mem lt
      have := firstLt _ member
      rw [List.countP_cons_of_pos (by simp only [decide_eq_true_eq]; omega),
        ih ordered lt start_le fun lt => lt_next (Nat.succ_lt_succ lt)]

/-- The first line is numbered one, and each line end up to the position adds one. -/
theorem lineOf_ofText (t : Text) (position : Nat) :
    (ofText t).lineOf position = (t.lineEnds 0).countP (· ≤ position) + 1 := by
  obtain ⟨lt, start_le, lt_next⟩ := isLineAt_lineOf t position
  have startOf_eq (i : Nat) : (ofText t).startOf i = (0 :: t.lineEnds 0).getD i 0 := by
    simp [startOf, ofText]
  rw [startOf_eq] at start_le lt_next
  have upTo := countP_le_eq (starts_pairwise t) lt start_le lt_next
  rw [List.countP_cons_of_pos (by simp)] at upTo
  exact upTo.symm

theorem lineOf_append (before rest : Text) :
    (ofText (before ++ rest)).lineOf (Text.size before) = before.count '\n' + 1 := by
  have := Text.countP_lineEnds 0 before rest
  rw [Nat.zero_add] at this
  rw [lineOf_ofText, this]

end LineIndex

end EcmaFront
