import EcmaFront.Diagnostic.Basic

/-!
# Collections of diagnostics

Diagnostics are ordered by the name of their file and then by the start of their span. What has no
file, or no span, comes first; diagnostics that agree in both keep their order.
-/

namespace EcmaFront

/-- The order in which nothing comes before everything else. -/
def optionLe {α : Type} (le : α → α → Bool) : Option α → Option α → Bool
  | none, _ => true
  | some _, none => false
  | some a, some b => le a b

namespace Diagnostic

/-- Whether `a` may stand before `b`. Names compare character by character. -/
def le (a b : Diagnostic) : Bool :=
  if a.location.file? = b.location.file? then
    optionLe (fun m n => decide (m ≤ n)) (a.location.span?.map (·.start))
      (b.location.span?.map (·.start))
  else
    optionLe (fun m n => decide (m ≤ n)) a.location.file? b.location.file?

end Diagnostic

/-- Diagnostics in order of arrival, or sorted. -/
abbrev Diagnostics := List Diagnostic

namespace Diagnostics

def sort (ds : Diagnostics) : Diagnostics := ds.mergeSort Diagnostic.le

def errorCount (ds : Diagnostics) : Nat := ds.countP Diagnostic.isError

def hasErrors (ds : Diagnostics) : Bool := ds.any Diagnostic.isError

end Diagnostics

end EcmaFront
