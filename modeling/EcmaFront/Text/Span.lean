import EcmaFront.Text.Basic

/-!
# Spans

A span is a run of bytes of a source text, given by its start and its length. It holds no text of
its own: `Span.slice` reads the text back, and answers nothing where the run leaves the text or
cuts a character in two.
-/

namespace EcmaFront

/-- The bytes from `start` up to, but not including, `start + length`. -/
structure Span where
  start : Nat
  length : Nat
  deriving DecidableEq, Repr, Inhabited

namespace Span

/-- The span from `start` to `stop`, which is the position just past its last byte. -/
def ofBounds (start stop : Nat) : Span := ⟨start, stop - start⟩

/-- The span without bytes at a position. -/
def empty (position : Nat) : Span := ⟨position, 0⟩

/-- The position just past the last byte. -/
def stop (s : Span) : Nat := s.start + s.length

def isEmpty (s : Span) : Bool := s.length == 0

def contains (s : Span) (position : Nat) : Bool :=
  decide (s.start ≤ position) && decide (position < s.stop)

def overlaps (s t : Span) : Bool :=
  decide (s.start < t.stop) && decide (t.start < s.stop)

/-- The smallest span around both. -/
def cover (s t : Span) : Span := ofBounds (min s.start t.start) (max s.stop t.stop)

/-- The piece of `source` that the span denotes. -/
def slice (s : Span) (source : Text) : Option Text :=
  (source.dropBytes? s.start).bind (Text.takeBytes? · s.length)

/-- The span as a half-open interval. -/
def toInterval (s : Span) : String := s!"[{s.start}, {s.stop})"

/-- The span as it stands in the listing of a tree. -/
def toListing (s : Span) : String := s!"{s.start}..{s.stop}"

@[simp] theorem start_ofBounds (a b : Nat) : (ofBounds a b).start = a := rfl

theorem stop_ofBounds {a b : Nat} (h : a ≤ b) : (ofBounds a b).stop = b := by
  simp only [stop, ofBounds]; omega

theorem start_le_stop (s : Span) : s.start ≤ s.stop := Nat.le_add_right ..

/-- A slice is what stands between the two ends of the span. -/
theorem slice_eq_some_iff {s : Span} {source inside : Text} :
    s.slice source = some inside ↔
      ∃ before after, source = before ++ inside ++ after ∧
        Text.size before = s.start ∧ Text.size inside = s.length := by
  simp only [slice, Option.bind_eq_some_iff, Text.dropBytes?_eq_some_iff,
    Text.takeBytes?_eq_some_iff]
  constructor
  · rintro ⟨_, ⟨before, rfl, hb⟩, after, rfl, hi⟩
    exact ⟨before, after, by simp, hb, hi⟩
  · rintro ⟨before, after, rfl, hb, hi⟩
    exact ⟨inside ++ after, ⟨before, by simp, hb⟩, after, rfl, hi⟩

end Span

end EcmaFront
