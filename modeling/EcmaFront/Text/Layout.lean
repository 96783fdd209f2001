/-!
# Layout of listings

A listing shows a value as named records, wrapped values and lists. It is laid out on one line, or
with one item on each line, indented by four spaces for each level and ended by a comma. A `Listing`
is a function of the layout that appends to the text written so far, so that a listing is made in
one pass over its value.
-/

namespace EcmaFront

/-- How a listing is laid out. -/
inductive Layout where
  | oneLine
  /-- One item on each line, at this level of indentation. -/
  | indented (level : Nat)
  deriving DecidableEq, Repr

/-- Appends the listing of a value to a text. -/
abbrev Listing := Layout → String → String

namespace Listing

def atom (s : String) : Listing := fun _ out => out ++ s

def natural (n : Nat) : Listing := atom (toString n)

def flag (b : Bool) : Listing := atom (if b then "true" else "false")

/-- A value behind its name. -/
def field (name : String) (value : Listing) : Listing := fun layout out =>
  value layout (out ++ name ++ ": ")

def indent (level : Nat) (out : String) : String := level.repeat (· ++ "    ") out

/-- Items on one line, with commas between them. -/
def inLine : List Listing → String → String
  | [], out => out
  | [item], out => item .oneLine out
  | item :: items, out => inLine items (item .oneLine out ++ ", ")

/-- Items on lines of their own. -/
def onLines (level : Nat) : List Listing → String → String
  | [], out => out
  | item :: items, out =>
    onLines level items (item (.indented level) (indent level out) ++ ",\n")

/-- Items between two marks, which `padding` keeps off the items on one line. -/
def group (opening padding closing : String) (items : List Listing) : Listing := fun layout out =>
  match layout, items with
  | _, [] => out ++ opening ++ closing
  | .oneLine, items => inLine items (out ++ opening ++ padding) ++ padding ++ closing
  | .indented level, items =>
    indent level (onLines (level + 1) items (out ++ opening ++ "\n")) ++ closing

def list (items : List Listing) : Listing := group "[" "" "]" items

/-- A value wrapped in a name. -/
def wrapped (name : String) (value : Listing) : Listing := group (name ++ "(") "" ")" [value]

/-- Fields behind a name. -/
def record (name : String) (fields : List Listing) : Listing :=
  group (name ++ " \x7b") " " "\x7d" fields

/-- A record wrapped in the name of its case. -/
def wrappedRecord (case name : String) (fields : List Listing) : Listing :=
  wrapped case (record name fields)

/-- A value that may be missing. -/
def option : Option Listing → Listing
  | some value => wrapped "Some" value
  | none => atom "None"

/-- The text of a listing. -/
def render (l : Listing) (layout : Layout) : String := l layout ""

end Listing

end EcmaFront
