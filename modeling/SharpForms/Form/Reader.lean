/-
# The reader

Builds the forms of a token list, or names its first defect.  It goes through the tokens once,
keeping the brackets that are still open on a stack of LEVELS; a closer has to fit the innermost
one.  Two kinds of form take their tokens in one piece:

* a string reaches to the next quote, and its text is the tokens between joined together;
* a dispatch whose tag ends in an opener or the quote has a REGION that reaches to the next token
  equal to the closer, whatever stands between.  The region is then read on its own, as if it were
  the whole text, so nesting inside it does not count when looking for its end.

Tokens come numbered, so slices of the list give the same bounds as the whole.
-/
import SharpForms.Dialect
import SharpForms.Trace

namespace SharpForms

/-! ## 1. Defects -/

/-- Why a token list does not read, with the numbered token that is to blame. -/
inductive ReadError where
  | unclosedGroup (bracket : Bracket) (opener : Cell)
  | unclosedString (quote : Cell)
  | unclosedRegion (closer : Text) (tag : Cell)
  | strayCloser (within : Option Bracket) (closer : Cell)
  | emptyTag (tag : Cell)
  deriving DecidableEq, Repr

namespace ReadError

/-- The token that is to blame. -/
def cell : ReadError → Cell
  | unclosedGroup _ c | unclosedString c | unclosedRegion _ c | strayCloser _ c | emptyTag c => c

/-- What messages call the surroundings of a token. -/
def surroundings : Option Bracket → String
  | none => "top level"
  | some b => b.groupName

/-- The defect in words. -/
def message (e : ReadError) : String :=
  let shown := String.ofList (Text.quoted e.cell.text)
  let place := String.ofList e.cell.place.text
  match e with
  | unclosedGroup b _ => s!"read error: unmatched open {b.groupName} {shown} {place}"
  | unclosedString _ => s!"read error: unmatched open string {place}"
  | unclosedRegion closer _ =>
    let wanted := String.ofList (Text.quoted closer)
    s!"read error: unmatched dispatch closing token {wanted} for {shown} {place}"
  | strayCloser within _ =>
    s!"read error: unmatched closing token {shown} in {surroundings within} {place}"
  | emptyTag _ => "string index out of range"

end ReadError

/-! ## 2. Cutting a token list -/

/-- Cuts a list at its first token with a given text: the tokens before it, the token, and the
tokens after it. -/
def cutAt? (t : Text) : List Cell → Option (List Cell × Cell × List Cell)
  | [] => none
  | c :: cs =>
    if c.text = t then some ([], c, cs)
    else (cutAt? t cs).map fun (before, found, after) => (c :: before, found, after)

/-- A cut loses nothing, finds the text, and finds it first. -/
theorem cutAt?_eq_some_iff {t : Text} {cs before after : List Cell} {c : Cell} :
    cutAt? t cs = some (before, c, after) ↔
      cs = before ++ c :: after ∧ c.text = t ∧ ∀ x ∈ before, x.text ≠ t := by
  induction cs generalizing before with
  | nil => simp [cutAt?]
  | cons x cs ih =>
    by_cases hx : x.text = t
    · simp only [cutAt?, hx, if_true, Option.some.injEq, Prod.mk.injEq]
      constructor
      · rintro ⟨rfl, rfl, rfl⟩
        simp [hx]
      · rintro ⟨h, _, hb⟩
        cases before with
        | nil => simpa using h
        | cons y ys =>
          simp only [List.cons_append, List.cons.injEq] at h
          exact absurd (h.1 ▸ hx) (hb y (by simp))
    · simp only [cutAt?, hx, if_false, Option.map_eq_some_iff, Prod.mk.injEq, Prod.exists]
      constructor
      · rintro ⟨b, c', a, h, rfl, rfl, rfl⟩
        obtain ⟨rfl, ht, hb⟩ := ih.1 h
        exact ⟨rfl, ht, by simpa [hx] using hb⟩
      · rintro ⟨h, ht, hb⟩
        cases before with
        | nil =>
          simp only [List.nil_append, List.cons.injEq] at h
          exact absurd (h.1 ▸ ht) hx
        | cons y ys =>
          simp only [List.cons_append, List.cons.injEq] at h
          obtain ⟨rfl, rfl⟩ := h
          exact ⟨ys, c, after, ih.2 ⟨rfl, ht, fun z hz => hb z (by simp [hz])⟩, rfl, rfl, rfl⟩

/-- There is nothing to cut at exactly when no token has the text. -/
theorem cutAt?_eq_none_iff {t : Text} {cs : List Cell} :
    cutAt? t cs = none ↔ ∀ x ∈ cs, x.text ≠ t := by
  induction cs with
  | nil => simp [cutAt?]
  | cons x cs ih => by_cases hx : x.text = t <;> simp [cutAt?, hx, ih]

/-- Both parts of a cut are shorter than the list. -/
theorem length_of_cutAt? {t : Text} {cs before after : List Cell} {c : Cell}
    (h : cutAt? t cs = some (before, c, after)) :
    before.length < cs.length ∧ after.length < cs.length := by
  obtain ⟨rfl, -, -⟩ := cutAt?_eq_some_iff.1 h
  simp only [List.length_append, List.length_cons]
  omega

/-! ## 3. Reading -/

/-- A bracket that has been opened and not closed yet, and the forms before it on the level around
it, latest first. -/
structure Level where
  bracket : Bracket
  opener : Cell
  before : List Node
  deriving Repr

/-- A form is complete. -/
def Traced.emitForm {ε α : Type} (n : Node) (rest : Traced ε α) : Traced ε α :=
  rest.emit (.form n)

@[simp] theorem Traced.events_emitForm {ε α : Type} (n : Node) (x : Traced ε α) :
    (x.emitForm n).events = .form n :: x.events := rfl

@[simp] theorem Traced.result_emitForm {ε α : Type} (n : Node) (x : Traced ε α) :
    (x.emitForm n).result = x.result := rfl

namespace Dialect

variable (d : Dialect)

/-- Reads on from a token list, inside the open levels (innermost first), with the forms that the
innermost level holds so far (latest first). -/
def readFrom (levels : List Level) (found : List Node) :
    (cs : List Cell) → Traced ReadError (List Node)
  | [] =>
    match levels with
    | [] => .done found.reverse
    | l :: _ => .fail (.unclosedGroup l.bracket l.opener)
  | c :: cs =>
    match d.kind c.text with
    | .opener b => readFrom (⟨b, c, found⟩ :: levels) [] cs
    | .closer b =>
      match levels with
      | [] => .fail (.strayCloser none c)
      | l :: outer =>
        if l.bracket = b then
          let form := Node.group b found.reverse (l.opener.boundsTo c)
          (readFrom outer (form :: l.before) cs).emitForm form
        else .fail (.strayCloser (some l.bracket) c)
    | .leaf =>
      let form := Node.leaf .literal c.text (c.boundsTo c)
      (readFrom levels (form :: found) cs).emitForm form
    | .quote =>
      match _h : cutAt? c.text cs with
      | none => .fail (.unclosedString c)
      | some (inside, last, rest) =>
        let form := Node.string (inside.map Cell.text).flatten (c.boundsTo last)
        (readFrom levels (form :: found) rest).emitForm form
    | .sharp =>
      match c.text.getLast? with
      | none => .fail (.emptyTag c)
      | some last =>
        match d.regionCloser? [last] with
        | none =>
          let form := Node.dispatch c.text [] none (c.boundsTo c)
          (readFrom levels (form :: found) cs).emitForm form
        | some closer =>
          match _h : cutAt? closer cs with
          | none => .fail (.unclosedRegion closer c)
          | some (inside, last, rest) =>
            (readFrom [] [] inside).andThen fun items =>
              let form := Node.dispatch c.text items (some closer) (c.boundsTo last)
              (readFrom levels (form :: found) rest).emitForm form
termination_by cs => cs.length
decreasing_by
  all_goals
    try have := length_of_cutAt? _h
    simp only [List.length_cons]
    omega

/-- The forms of a token list, with the forms made on the way. -/
def read (ts : List Token) : Traced ReadError (List Node) :=
  d.readFrom [] [] (Cell.number 0 ts)

end Dialect

end SharpForms
