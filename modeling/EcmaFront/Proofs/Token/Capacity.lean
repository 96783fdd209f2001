import EcmaFront.Token.Sequence
import Mathlib.Algebra.Group.Nat.Defs
import Mathlib.Order.Bounds.Defs

/-!
# The room of a token sequence

A sequence reserves room before it is full, by doubling what it has. So the room is at every moment
the smallest that doubling can reach and that holds the tokens, and no token is lost on the way.

* `TokenSequence.Rooms`: the rooms that doubling can reach and that are large enough.
* `TokenSequence.isLeast_push`: one token keeps the room the least of them.
* `TokenSequence.foldl_push_stores`: what a sequence holds after any number of tokens.
-/

namespace EcmaFront.TokenSequence

/-- The first room, doubled any number of times, as far as it is enough for `count` tokens. -/
def Rooms (count : Nat) : Set Nat := {room | (∃ k, room = initialCapacity * 2 ^ k) ∧ count ≤ room}

variable {s : TokenSequence} {count room : Nat}

theorem pos_of_mem_rooms (h : room ∈ Rooms count) : 0 < room := by
  obtain ⟨⟨k, rfl⟩, _⟩ := h
  exact Nat.mul_pos (by decide) (Nat.two_pow_pos k)

theorem isLeast_rooms_zero : IsLeast (Rooms 0) initialCapacity := by
  constructor
  · exact ⟨⟨0, (Nat.mul_one _).symm⟩, Nat.zero_le _⟩
  · rintro _ ⟨⟨k, rfl⟩, _⟩
    exact Nat.le_mul_of_pos_right _ (Nat.two_pow_pos k)

/-- A room that is not full stays the least one when a token more arrives. -/
theorem isLeast_rooms_of_lt (h : IsLeast (Rooms count) room) (free : count < room) :
    IsLeast (Rooms (count + 1)) room := by
  obtain ⟨⟨doubled, _⟩, least⟩ := h
  refine ⟨⟨doubled, free⟩, ?_⟩
  rintro other ⟨doubled', enough⟩
  apply least
  exact ⟨doubled', Nat.le_of_succ_le enough⟩

/-- Between a room and its double there is none. -/
theorem isLeast_rooms_of_full (h : IsLeast (Rooms room) room) :
    IsLeast (Rooms (room + 1)) (room + room) := by
  have pos := pos_of_mem_rooms h.1
  obtain ⟨⟨⟨k, rfl⟩, _⟩, _⟩ := h
  have double : initialCapacity * 2 ^ k + initialCapacity * 2 ^ k = initialCapacity * 2 ^ (k + 1) := by
    rw [Nat.pow_succ, ← Nat.mul_assoc, Nat.mul_two]
  constructor
  · exact ⟨⟨k + 1, double⟩, Nat.add_le_add_left pos _⟩
  · rintro _ ⟨⟨j, rfl⟩, more⟩
    have larger : 2 ^ k < 2 ^ j := Nat.lt_of_mul_lt_mul_left more
    have later : k + 1 ≤ j := (Nat.pow_lt_pow_iff_right (by decide)).1 larger
    rw [double]
    exact Nat.mul_le_mul_left _ (Nat.pow_le_pow_right (by decide) later)

theorem isLeast_push (h : IsLeast (Rooms s.length) s.capacity) (t : Token) :
    IsLeast (Rooms (s.push t).length) (s.push t).capacity := by
  have length : (s.push t).length = s.length + 1 := Array.size_push t
  rw [length, push]
  by_cases full : s.length = s.capacity
  · have doubles : s.capacity + max s.capacity 1 = s.capacity + s.capacity := by
      rw [Nat.max_eq_left (pos_of_mem_rooms h.1)]
    rw [full] at h ⊢
    simp only [show s.tokens.size = s.capacity from full, if_true, doubles]
    exact isLeast_rooms_of_full h
  · simp only [show s.tokens.size ≠ s.capacity from full, if_false]
    exact isLeast_rooms_of_lt h (Nat.lt_of_le_of_ne h.1.2 full)

theorem isLeast_foldl_push (h : IsLeast (Rooms s.length) s.capacity) (tokens : List Token) :
    IsLeast (Rooms (tokens.foldl push s).length) (tokens.foldl push s).capacity := by
  induction tokens generalizing s with
  | nil => exact h
  | cons t tokens ih => exact ih (isLeast_push h t)

theorem length_eq (s : TokenSequence) : s.length = s.toList.length := Array.length_toList.symm

theorem get?_eq (s : TokenSequence) (i : Nat) : s.get? i = s.toList[i]? :=
  Array.getElem?_toList.symm

/-- A fresh sequence holds the tokens that were pushed onto it, in their order and at their indices,
over the same source. Its room is the least power of two times the first room that is enough. -/
theorem foldl_push_stores (source : Text) (tokens : List Token) :
    (tokens.foldl push (empty source)).toList = tokens ∧
      (tokens.foldl push (empty source)).source = source ∧
      (tokens.foldl push (empty source)).length = tokens.length ∧
      (∀ i, (tokens.foldl push (empty source)).get? i = tokens[i]?) ∧
      IsLeast {room | (∃ k, room = initialCapacity * 2 ^ k) ∧ tokens.length ≤ room}
        (tokens.foldl push (empty source)).capacity := by
  have stored : (tokens.foldl push (empty source)).toList = tokens := toList_ofList source tokens
  have length : (tokens.foldl push (empty source)).length = tokens.length := by
    rw [length_eq, stored]
  have least := isLeast_foldl_push (s := empty source) isLeast_rooms_zero tokens
  rw [length] at least
  exact ⟨stored, source_ofList source tokens, length, fun i => by rw [get?_eq, stored], least⟩

end EcmaFront.TokenSequence
