/-!
# Source texts

A source text is the list of its characters. Positions count the bytes of its UTF-8 form, so the
size of a text and the cuts at a position are defined here, once for the whole library.

* `Text.size`: how many bytes a text takes.
* `Text.dropBytes?`, `Text.takeBytes?`: the two sides of a cut. There is none past the end of the
  text or inside a character; `dropBytes?_eq_some_iff` and `takeBytes?_eq_some_iff` say so.
-/

namespace EcmaFront

/-- A source text, or a piece of one. -/
abbrev Text := List Char

namespace Text

/-- The number of bytes of the UTF-8 form. -/
def size (t : Text) : Nat := t.foldl (fun n c => n + c.utf8Size) 0

theorem foldl_utf8Size (t : Text) (n : Nat) :
    t.foldl (fun n c => n + c.utf8Size) n = n + size t := by
  induction t generalizing n with
  | nil => rfl
  | cons c t ih =>
    simp only [size, List.foldl_cons, Nat.zero_add]
    rw [ih, ih]
    omega

@[simp] theorem size_nil : size [] = 0 := rfl

@[simp] theorem size_cons (c : Char) (t : Text) : size (c :: t) = c.utf8Size + size t := by
  simp only [size, List.foldl_cons, Nat.zero_add]
  exact foldl_utf8Size t _

@[simp] theorem size_append (s t : Text) : size (s ++ t) = size s + size t := by
  induction s with
  | nil => simp
  | cons c s ih => simp [ih, Nat.add_assoc]

theorem size_eq_zero_iff {t : Text} : size t = 0 ↔ t = [] := by
  cases t with
  | nil => simp
  | cons c t =>
    have := c.utf8Size_pos
    simp
    omega

/-- What follows the first `n` bytes. -/
def dropBytes? : Text → Nat → Option Text
  | t, 0 => some t
  | [], _ + 1 => none
  | c :: cs, n + 1 => if c.utf8Size ≤ n + 1 then dropBytes? cs (n + 1 - c.utf8Size) else none

/-- The first `n` bytes. -/
def takeBytes? : Text → Nat → Option Text
  | _, 0 => some []
  | [], _ + 1 => none
  | c :: cs, n + 1 =>
    if c.utf8Size ≤ n + 1 then (takeBytes? cs (n + 1 - c.utf8Size)).map (c :: ·) else none

theorem dropBytes?_eq_some_iff {t after : Text} {n : Nat} :
    t.dropBytes? n = some after ↔ ∃ before, t = before ++ after ∧ size before = n := by
  fun_induction dropBytes? t n with
  | case1 t => simp [size_eq_zero_iff]
  | case2 n =>
    simp only [reduceCtorEq, false_iff, not_exists, not_and]
    rintro before h
    simp_all
  | case3 c cs n fits ih =>
    rw [ih]
    clear ih
    constructor
    · rintro ⟨before, rfl, h⟩
      exact ⟨c :: before, rfl, by simp; omega⟩
    · rintro ⟨before, h, size_eq⟩
      cases before with
      | nil => simp at size_eq
      | cons b before =>
        obtain ⟨rfl, rfl⟩ := List.cons.inj h
        exact ⟨before, rfl, by simp at size_eq; omega⟩
  | case4 c cs n tooWide =>
    simp only [reduceCtorEq, false_iff, not_exists, not_and]
    rintro before h size_eq
    cases before with
    | nil => simp at size_eq
    | cons b before =>
      obtain ⟨rfl, rfl⟩ := List.cons.inj h
      simp at size_eq
      omega

theorem takeBytes?_eq_some_iff {t before : Text} {n : Nat} :
    t.takeBytes? n = some before ↔ ∃ after, t = before ++ after ∧ size before = n := by
  fun_induction takeBytes? t n generalizing before with
  | case1 t =>
    cases before with
    | nil => simp
    | cons b before =>
      have := b.utf8Size_pos
      simp
      omega
  | case2 n =>
    simp only [reduceCtorEq, false_iff, not_exists, not_and]
    rintro after h
    simp_all
  | case3 c cs n fits ih =>
    simp only [Option.map_eq_some_iff, ih]
    clear ih
    constructor
    · rintro ⟨rest, ⟨after, rfl, h⟩, rfl⟩
      exact ⟨after, rfl, by simp; omega⟩
    · rintro ⟨after, h, size_eq⟩
      cases before with
      | nil => simp at size_eq
      | cons b before =>
        obtain ⟨rfl, rfl⟩ := List.cons.inj h
        exact ⟨before, ⟨after, rfl, by simp at size_eq; omega⟩, rfl⟩
  | case4 c cs n tooWide =>
    simp only [reduceCtorEq, false_iff, not_exists, not_and]
    rintro after h size_eq
    cases before with
    | nil => simp at size_eq
    | cons b before =>
      obtain ⟨rfl, rfl⟩ := List.cons.inj h
      simp at size_eq
      omega

/-- The longest beginning whose characters all satisfy `p`, and the rest. -/
def run (p : Char → Bool) (t : Text) : Text × Text := (t.takeWhile p, t.dropWhile p)

theorem run_append (p : Char → Bool) (t : Text) : (run p t).1 ++ (run p t).2 = t :=
  List.takeWhile_append_dropWhile

end Text

end EcmaFront
