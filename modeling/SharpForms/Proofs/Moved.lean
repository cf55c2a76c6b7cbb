/-
# Moving things further down a text

When a text is put in front of another one, what is made of the second text stays the same but for
its place: token indices go up by the number of tokens in front, lines by the number of lines, and
columns stay.  `Offset.move` does this to everything that remembers a place: tokens, nodes at
every depth, and the errors that name a token or a node.
-/
import SharpForms.Pipeline

namespace SharpForms

/-! ## 1. Places, tokens and nodes -/

/-- How many tokens and lines have been put in front. -/
structure Offset where
  tokens : Nat
  lines : Nat
  deriving DecidableEq, Repr

/-- A number that may be unknown, raised. -/
def raise (k : Nat) (n : Option Int) : Option Int := n.map (· + k)

section

variable (o : Offset)

def Token.move (t : Token) : Token := { t with line := raise o.lines t.line }

def Cell.move (c : Cell) : Cell := ⟨c.index + o.tokens, c.token.move o⟩

def Place.move (p : Place) : Place := ⟨raise o.tokens p.token, raise o.lines p.line, p.char⟩

def Bounds.move (b : Bounds) : Bounds :=
  ⟨raise o.tokens b.first, raise o.tokens b.last, raise o.lines b.line, b.char⟩

namespace Node

mutual

/-- A node moved, with everything inside it.  Plain values and placeholders have no place. -/
def move : Node → Node
  | leaf kind text b => leaf kind text (b.move o)
  | string text b => string text (b.move o)
  | group bracket items b => group bracket (moveAll items) (b.move o)
  | dispatch tag items closer b => dispatch tag (moveAll items) closer (b.move o)
  | call items b => call (moveAll items) (b.move o)
  | plain value => plain value
  | placeholder label => placeholder label

/-- The trees of a forest moved. -/
def moveAll : List Node → List Node
  | [] => []
  | n :: ns => move n :: moveAll ns

end

theorem moveAll_eq_map (ns : List Node) : moveAll o ns = ns.map (move o) := by
  induction ns with
  | nil => rfl
  | cons n ns ih => simp [moveAll, ih]

end Node

/-! ## 2. Errors -/

def ReadError.move : ReadError → ReadError
  | .unclosedGroup bracket c => .unclosedGroup bracket (c.move o)
  | .unclosedString c => .unclosedString (c.move o)
  | .unclosedRegion closer c => .unclosedRegion closer (c.move o)
  | .strayCloser within c => .strayCloser within (c.move o)
  | .emptyTag c => .emptyTag (c.move o)

def WalkError.move : WalkError → WalkError
  | .unknownTag tag place => .unknownTag tag (place.move o)
  | .unknownNode n => .unknownNode (n.move o)
  | .emptyLiteral => .emptyLiteral
  | .unfitRule n => .unfitRule (n.move o)

def Failure.move : Failure → Failure
  | .source e => .source e
  | .read e => .read (e.move o)
  | .walk e => .walk (e.move o)

end

/-! ## 3. What moves with what -/

section

variable {o : Offset}

@[simp] theorem raise_some (k : Nat) (n : Int) : raise k (some n) = some (n + k) := rfl

@[simp] theorem Token.text_move (t : Token) : (t.move o).text = t.text := rfl

@[simp] theorem Cell.text_move (c : Cell) : (c.move o).text = c.text := rfl

@[simp] theorem Cell.place_move (c : Cell) : (c.move o).place = c.place.move o := by
  simp [Cell.place, Cell.move, Place.move, Token.move]

@[simp] theorem Cell.boundsTo_move (c z : Cell) :
    (c.move o).boundsTo (z.move o) = (c.boundsTo z).move o := by
  simp [Cell.boundsTo, Cell.move, Bounds.move, Token.move]

@[simp] theorem Bounds.place_move (b : Bounds) : (b.move o).place = b.place.move o := rfl

namespace Node

@[simp] theorem bounds_move (n : Node) : (n.move o).bounds = n.bounds.move o := by
  cases n <;> rfl

@[simp] theorem place_move (n : Node) : (n.move o).place = n.place.move o := by
  rw [place, bounds_move, Bounds.place_move, place]

@[simp] theorem moveAll_reverse (ns : List Node) :
    moveAll o ns.reverse = (moveAll o ns).reverse := by
  simp [moveAll_eq_map]

mutual

/-- A description without bounds does not say where the node is. -/
theorem describe_move : ∀ n : Node, (n.move o).describe false = n.describe false
  | leaf .. | string .. | plain _ | placeholder _ => rfl
  | group _ items _ | call items _ | dispatch _ items none _ | dispatch _ items (some _) _ => by
    simp only [move, describe, describeEach_move items, boundsText]
    rfl

theorem describeEach_move : ∀ ns : List Node,
    describeEach false (moveAll o ns) = describeEach false ns
  | [] => rfl
  | n :: ns => by rw [moveAll, describeEach, describeEach, describe_move n, describeEach_move ns]

end

@[simp] theorem caption_move (n : Node) : (n.move o).caption false = n.caption false := by
  cases n with
  | plain value => rfl
  | string text b => rfl
  | leaf | group | dispatch | call | placeholder => exact describe_move _

end Node

/-- Tokens that come behind others are numbered on from them. -/
theorem Cell.number_move (i : Nat) (ts : List Token) :
    Cell.number (i + o.tokens) (ts.map (Token.move o)) = (Cell.number i ts).map (Cell.move o) := by
  induction ts generalizing i with
  | nil => rfl
  | cons t ts ih =>
    simp only [List.map_cons, Cell.number_cons, ← ih, Cell.move]
    rw [Nat.add_right_comm]

/-- A token that is moved by no lines stays as it is. -/
theorem map_move_tokens (k : Nat) (ts : List Token) : ts.map (Token.move ⟨k, 0⟩) = ts := by
  refine List.map_id'' ?_ ts
  intro t
  simp [Token.move, raise]

/-! ## 4. Messages -/

/-- The place that the message ends in; not every message names one. -/
def ReadError.place? : ReadError → Option Place
  | .unclosedGroup _ c | .unclosedString c | .unclosedRegion _ c | .strayCloser _ c => some c.place
  | .emptyTag _ => none

def WalkError.place? : WalkError → Option Place
  | .unknownTag _ p => some p
  | .unknownNode _ | .emptyLiteral | .unfitRule _ => none

/-- Some words, with a place behind them if there is one. -/
def wordsAt (words : String) (p : Option Place) : String :=
  words ++ p.elim "" fun p => String.ofList p.text

/-- The two messages have the same words, and the place in the second one is that of the first one
moved. -/
def MessageMoved (o : Offset) (p : Option Place) (m m' : String) : Prop :=
  ∃ words, m = wordsAt words p ∧ m' = wordsAt words (p.map (Place.move o))

theorem MessageMoved.refl (m : String) : MessageMoved o none m m :=
  ⟨m, by simp [wordsAt], by simp [wordsAt]⟩

theorem ReadError.message_move (e : ReadError) :
    MessageMoved o e.place? e.message (e.move o).message := by
  cases e with
  | emptyTag c => exact .refl _
  | unclosedGroup b c | unclosedString c | unclosedRegion closer c | strayCloser within c =>
    unfold ReadError.message
    refine ⟨_, rfl, ?_⟩
    rw [place?, Option.map_some, ← Cell.place_move]
    rfl

theorem WalkError.message_move (e : WalkError) :
    MessageMoved o e.place? (e.message false) ((e.move o).message false) := by
  cases e with
  | unknownTag tag place =>
    unfold WalkError.message
    exact ⟨_, rfl, rfl⟩
  | emptyLiteral => exact .refl _
  | unknownNode n | unfitRule n =>
    unfold WalkError.message
    dsimp only [WalkError.move]
    rw [Node.describe_move]
    exact .refl _

end

end SharpForms
