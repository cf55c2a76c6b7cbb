/-
# Tokens, forms and errors that are alike

Given a relation between texts, two tokens are ALIKE if they stand in the same place and their texts
are related.  Forms and errors are alike if they are of one shape, in the same places, with related
texts in corresponding positions.  What the two texts of a string have in common is that they are
joined from related ones.

Nothing is asked of the relation here.  `Proofs/Form/Alike.lean` says when alike tokens are read as
alike forms.
-/
import Mathlib.Data.List.Forall2
import SharpForms.Proofs.Form.Grammar

namespace SharpForms

section

variable (d : Dialect) (T : Text → Text → Prop)

/-! ## 1. Tokens -/

/-- The tokens stand in one place and have related texts. -/
structure Token.Alike (a b : Token) : Prop where
  text : T a.text b.text
  line : a.line = b.line
  char : a.char = b.char

/-- The numbered tokens have one number and are alike. -/
structure Cell.Alike (c e : Cell) : Prop where
  index : c.index = e.index
  token : c.token.Alike T e.token

/-! ## 2. Forms -/

/-- The forms, read in the dialect from alike tokens, are of one shape and in the same places. -/
inductive FormsAlike : List Node → List Node → Prop
  | empty : FormsAlike [] []
  | append {ns ns' ms ms' : List Node} :
      FormsAlike ns ms → FormsAlike ns' ms' → FormsAlike (ns ++ ns') (ms ++ ms')
  | literal {t u : Text} {at_ : Bounds} :
      d.byKind.literal t → T t u →
        FormsAlike [.leaf .literal t at_] [.leaf .literal u at_]
  | string {ts us : List Text} {at_ : Bounds} :
      List.Forall₂ T ts us → FormsAlike [.string ts.flatten at_] [.string us.flatten at_]
  | group {b : Bracket} {ns ms : List Node} {at_ : Bounds} :
      FormsAlike ns ms → FormsAlike [.group b ns at_] [.group b ms at_]
  | tag {t u : Text} {at_ : Bounds} :
      d.byKind.tag t → T t u →
        FormsAlike [.dispatch t [] none at_] [.dispatch u [] none at_]
  | region {t u closer closer' : Text} {ns ms : List Node} {at_ : Bounds} :
      d.byKind.region t closer → T t u → T closer closer' → FormsAlike ns ms →
        FormsAlike [.dispatch t ns (some closer) at_] [.dispatch u ms (some closer') at_]

/-! ## 3. Errors -/

/-- The errors are of one kind and name alike tokens. -/
inductive ReadError.Alike : ReadError → ReadError → Prop
  | unclosedGroup {b : Bracket} {c e : Cell} :
      c.Alike T e → ReadError.Alike (.unclosedGroup b c) (.unclosedGroup b e)
  | unclosedString {c e : Cell} :
      c.Alike T e → ReadError.Alike (.unclosedString c) (.unclosedString e)
  | unclosedRegion {closer closer' : Text} {c e : Cell} :
      T closer closer' → c.Alike T e →
        ReadError.Alike (.unclosedRegion closer c) (.unclosedRegion closer' e)
  | strayCloser {within : Option Bracket} {c e : Cell} :
      c.Alike T e → ReadError.Alike (.strayCloser within c) (.strayCloser within e)
  | emptyTag {c e : Cell} : c.Alike T e → ReadError.Alike (.emptyTag c) (.emptyTag e)

/-- What the reader gives is alike: forms, or errors. -/
def ResultsAlike : Except ReadError (List Node) → Except ReadError (List Node) → Prop
  | .ok ns, .ok ms => FormsAlike d T ns ms
  | .error e, .error e' => e.Alike T e'
  | .ok _, .error _ | .error _, .ok _ => False

end

section

variable {T : Text → Text → Prop} {c c' e e' : Cell}

theorem Cell.Alike.text (h : c.Alike T e) : T c.text e.text := h.token.text

/-- What reaches from one token to another one has its place from their places. -/
theorem Cell.Alike.boundsTo_eq (h : c.Alike T e) (h' : c'.Alike T e') :
    c.boundsTo c' = e.boundsTo e' := by
  rw [boundsTo, boundsTo, h.index, h'.index, h.token.line, h.token.char]

/-- Numbering does not look at texts. -/
theorem Cell.alike_number {ts us : List Token} (h : List.Forall₂ (Token.Alike T) ts us) (i : Nat) :
    List.Forall₂ (Cell.Alike T) (number i ts) (number i us) := by
  induction h generalizing i with
  | nil => exact .nil
  | cons ht _ ih => exact .cons ⟨rfl, ht⟩ (ih (i + 1))

theorem Cell.texts_of_alike {cs es : List Cell} (h : List.Forall₂ (Cell.Alike T) cs es) :
    List.Forall₂ T (cs.map Cell.text) (es.map Cell.text) := by
  rw [List.forall₂_map_left_iff, List.forall₂_map_right_iff]
  exact h.imp fun _ _ hce => hce.text

end

end SharpForms
