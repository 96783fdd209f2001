import EcmaFront.Token.Lexer

/-!
# Partial operations

The functions of this library are total: a difference stops at zero, and a place behind the end of a
list holds nothing. The scanner and the parser of the modules below work with positions of 32 bits
and meet a `Fault` where an operation has no result, so that it can be said that they never do.

* `Checked`: a result, or the fault that was met. A step of a machine changes a state on top of
  this, and may also answer with an error.
* `Span.checkedStop_eq`, `Span.checkedOfBounds_eq`, `Span.checkedCover_eq`: within the positions, the
  checked operations on spans are the total ones.
-/

namespace EcmaFront

/-- Why an operation has no result. -/
inductive Fault where
  /-- No token stands at the index. -/
  | noToken
  /-- No line has the number. -/
  | noLine
  /-- A span would stop before it starts. -/
  | reversed
  /-- A text is cut outside of its ends or inside a character. -/
  | noSlice
  /-- A sum is larger than the largest position. -/
  | overflow
  /-- A difference lies below zero. -/
  | underflow
  /-- More steps are asked for than there are tokens or bytes, or more nested forms than allowed. -/
  | endless
  deriving DecidableEq, Repr

/-- A result, unless a fault was met. -/
abbrev Checked := Except Fault

namespace Checked

def add (a b : Nat) : Checked Nat :=
  if a + b ≤ maxPosition then .ok (a + b) else .error .overflow

def sub (a b : Nat) : Checked Nat :=
  if b ≤ a then .ok (a - b) else .error .underflow

theorem add_eq {a b : Nat} (h : a + b ≤ maxPosition) : add a b = .ok (a + b) := if_pos h

theorem add_eq_overflow {a b : Nat} (h : maxPosition < a + b) : add a b = .error .overflow :=
  if_neg (Nat.not_le_of_lt h)

theorem sub_eq {a b : Nat} (h : b ≤ a) : sub a b = .ok (a - b) := if_pos h

@[simp] theorem add_sub_cancel (a b : Nat) : sub (a + b) b = .ok a := by
  rw [sub_eq (Nat.le_add_left b a), Nat.add_sub_cancel]

/-- The result of an operation as that of a step, which changes no state. -/
def check {ε σ α : Type} (x : Checked α) : ExceptT ε (StateT σ Checked) α :=
  fun s => x.map fun a => (.ok a, s)

section Steps

variable {ε σ α β : Type} {x : ExceptT ε (StateT σ Checked) α}
  {f : α → ExceptT ε (StateT σ Checked) β} {s s' : σ}

theorem check_run {x : Checked α} {a : α} (h : x = .ok a) (s : σ) :
    (check x : ExceptT ε (StateT σ Checked) α) s = .ok (.ok a, s) := by
  rw [h]
  rfl

theorem bind_ok {a : α} (run : x s = .ok (.ok a, s')) : (x >>= f) s = f a s' := by
  simp [Bind.bind, ExceptT.bind, ExceptT.mk, ExceptT.bindCont, StateT.bind, Except.bind, run]

theorem bind_error {e : ε} (run : x s = .ok (.error e, s')) :
    (x >>= f) s = .ok (.error e, s') := by
  simp only [Bind.bind, ExceptT.bind, ExceptT.mk, ExceptT.bindCont, StateT.bind, Except.bind, run]
  rfl

theorem bind_fault {fault : Fault} (run : x s = .error fault) : (x >>= f) s = .error fault := by
  simp only [Bind.bind, ExceptT.bind, ExceptT.mk, StateT.bind, Except.bind, run]

end Steps

end Checked

namespace Span

def checkedStop (s : Span) : Checked Nat := Checked.add s.start s.length

def checkedOfBounds (start stop : Nat) : Checked Span :=
  if start ≤ stop then .ok (.ofBounds start stop) else .error .reversed

def checkedCover (s t : Span) : Checked Span := do
  let stop ← s.checkedStop
  let stop' ← t.checkedStop
  checkedOfBounds (min s.start t.start) (max stop stop')

variable {s t : Span}

theorem checkedStop_eq (h : s.stop ≤ maxPosition) : s.checkedStop = .ok s.stop := Checked.add_eq h

theorem checkedOfBounds_eq {start stop : Nat} (h : start ≤ stop) :
    checkedOfBounds start stop = .ok (.ofBounds start stop) := if_pos h

theorem start_cover_le_stop (s t : Span) : min s.start t.start ≤ max s.stop t.stop := by
  have := s.start_le_stop
  omega

theorem stop_cover (s t : Span) : (s.cover t).stop = max s.stop t.stop :=
  stop_ofBounds (start_cover_le_stop s t)

theorem checkedCover_eq (hs : s.stop ≤ maxPosition) (ht : t.stop ≤ maxPosition) :
    s.checkedCover t = .ok (s.cover t) := by
  rw [checkedCover, checkedStop_eq hs, checkedStop_eq ht]
  exact checkedOfBounds_eq (start_cover_le_stop s t)

end Span

end EcmaFront
