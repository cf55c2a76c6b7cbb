/-
# Renaming the characters

A map of characters renames a dialect, by renaming every character of every role and of the blanks,
and it renames whatever holds text: tokens, nodes at every depth, and the errors that name a token.
Places stay as they are.

All that a dialect is asked about a text is decided by comparing the text, or its beginning or end,
with the marks.  So a map that keeps different characters different changes no answer: the renamed
dialect says of a renamed text what the dialect says of the text (`kind_rename` and the other lemmas
of section 2).
-/
import Mathlib.Data.List.Basic
import SharpForms.Form.Reader

namespace SharpForms

/-! ## 1. Dialects, tokens, nodes and errors -/

section

variable (h : Char → Char)

def Dialect.rename (d : Dialect) : Dialect where
  mark r := (d.mark r).map (List.map h)
  extraSpace := d.extraSpace.map (List.map h)

def Token.rename (t : Token) : Token := { t with text := t.text.map h }

def Cell.rename (c : Cell) : Cell := ⟨c.index, c.token.rename h⟩

namespace Node

mutual

/-- A node with its text renamed, and with everything inside it.  Plain values and placeholders
stay. -/
def rename : Node → Node
  | leaf kind text b => leaf kind (text.map h) b
  | string text b => string (text.map h) b
  | group bracket items b => group bracket (renameAll items) b
  | dispatch tag items closer b =>
    dispatch (tag.map h) (renameAll items) (closer.map (List.map h)) b
  | call items b => call (renameAll items) b
  | plain value => plain value
  | placeholder label => placeholder label

/-- The trees of a forest renamed. -/
def renameAll : List Node → List Node
  | [] => []
  | n :: ns => rename n :: renameAll ns

end

theorem renameAll_eq_map (ns : List Node) : renameAll h ns = ns.map (rename h) := by
  induction ns with
  | nil => rfl
  | cons n ns ih => simp [renameAll, ih]

end Node

/-- The same kind of error, at the token of the same index. -/
def ReadError.rename : ReadError → ReadError
  | .unclosedGroup bracket c => .unclosedGroup bracket (c.rename h)
  | .unclosedString c => .unclosedString (c.rename h)
  | .unclosedRegion closer c => .unclosedRegion (closer.map h) (c.rename h)
  | .strayCloser within c => .strayCloser within (c.rename h)
  | .emptyTag c => .emptyTag (c.rename h)

/-- The units of a renamed text are the units of the text, renamed. -/
theorem Text.units_map (t : Text) : units (t.map h) = (units t).map (List.map h) := by
  simp [units, Function.comp_def]

end

/-! ## 2. Questions about a text -/

namespace Dialect

variable {h : Char → Char} {d : Dialect}

@[simp] theorem mark_rename (r : Role) :
    (d.rename h).mark r = (d.mark r).map (List.map h) := rfl

variable (hh : Function.Injective h)
include hh

theorem plays_rename (r : Role) (t : Text) : (d.rename h).plays r (t.map h) = d.plays r t := by
  rw [Bool.eq_iff_iff, plays_iff, plays_iff, mark_rename]
  constructor
  · intro hm
    obtain ⟨u, hu, hut⟩ := Option.map_eq_some_iff.1 hm
    rw [hu, hh.list_map hut]
  · intro hm
    rw [hm]
    rfl

theorem openerOf?_rename (t : Text) : (d.rename h).openerOf? (t.map h) = d.openerOf? t := by
  simp only [openerOf?, plays_rename hh]

theorem closerOf?_rename (t : Text) : (d.rename h).closerOf? (t.map h) = d.closerOf? t := by
  simp only [closerOf?, plays_rename hh]

theorem isBlank_rename (t : Text) : (d.rename h).isBlank (t.map h) = d.isBlank t := by
  have hextra : (d.rename h).extraSpace.contains (t.map h) = d.extraSpace.contains t := by
    rw [Bool.eq_iff_iff, List.contains_iff_mem, List.contains_iff_mem]
    exact List.mem_map_of_injective hh.list_map
  rw [isBlank, isBlank, plays_rename hh, hextra]

theorem isDelimiter_rename (t : Text) : (d.rename h).isDelimiter (t.map h) = d.isDelimiter t := by
  simp only [isDelimiter, openerOf?_rename hh, closerOf?_rename hh, plays_rename hh]

theorem inStringAfter_rename (flag : Bool) (t : Text) :
    (d.rename h).inStringAfter flag (t.map h) = d.inStringAfter flag t := by
  simp only [inStringAfter, entersString, List.length_map, ← List.map_take, ← List.map_drop,
    plays_rename hh]

/-- What the reader makes of a token does not depend on the characters. -/
theorem kind_rename (t : Text) : (d.rename h).kind (t.map h) = d.kind t := by
  simp only [kind, ← List.map_take, openerOf?_rename hh, closerOf?_rename hh, plays_rename hh]

/-- What ends a region is renamed with the text that starts it. -/
theorem regionCloser?_rename (t : Text) :
    (d.rename h).regionCloser? (t.map h) = (d.regionCloser? t).map (List.map h) := by
  rw [regionCloser?, regionCloser?, plays_rename hh, openerOf?_rename hh]
  split
  · rfl
  · cases d.openerOf? t <;> rfl

end Dialect

end SharpForms
