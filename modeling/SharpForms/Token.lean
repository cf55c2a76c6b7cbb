/-
# Tokens

A token is a stretch of the text that the reader takes as one thing: a bracket, a quote, or a run
of other characters.  It remembers where it started when that is known; tokens written by hand
need not.
-/
import SharpForms.Text.Quoted

namespace SharpForms

/-- A stretch of text and the line and column (both from 1) that it started on, when known. -/
structure Token where
  text : Text
  line : Option Int := none
  char : Option Int := none
  deriving DecidableEq, Repr, Inhabited

/-- A list of tokens, shown by their texts. -/
def Token.showAll (tokens : List Token) : Text :=
  Text.listed (tokens.map fun t => Text.quoted t.text)

/-- A token with its index in the whole token list, so that a slice of the list still knows where
it came from. -/
structure Cell where
  index : Nat
  token : Token
  deriving DecidableEq, Repr, Inhabited

namespace Cell

/-- The text of the token. -/
def text (c : Cell) : Text := c.token.text

/-- Numbers tokens from a given index on. -/
def number : (first : Nat) → List Token → List Cell
  | _, [] => []
  | i, t :: ts => ⟨i, t⟩ :: number (i + 1) ts

@[simp] theorem number_nil (i : Nat) : number i [] = [] := rfl

@[simp] theorem number_cons (i : Nat) (t : Token) (ts : List Token) :
    number i (t :: ts) = ⟨i, t⟩ :: number (i + 1) ts := rfl

@[simp] theorem length_number (i : Nat) (ts : List Token) : (number i ts).length = ts.length := by
  induction ts generalizing i with
  | nil => rfl
  | cons t ts ih => simp [ih]

/-- Numbering forgets nothing. -/
@[simp] theorem map_token_number (i : Nat) (ts : List Token) :
    (number i ts).map token = ts := by
  induction ts generalizing i with
  | nil => rfl
  | cons t ts ih => simp [ih]

/-- The texts of numbered tokens are those of the tokens. -/
@[simp] theorem map_text_number (i : Nat) (ts : List Token) :
    (number i ts).map text = ts.map Token.text := by
  induction ts generalizing i with
  | nil => rfl
  | cons t ts ih => simp [ih, text]

/-- The second of two lists is numbered on from the first. -/
theorem number_append (i : Nat) (ts us : List Token) :
    number i (ts ++ us) = number i ts ++ number (i + ts.length) us := by
  induction ts generalizing i with
  | nil => simp
  | cons t ts ih => simp [ih, Nat.add_assoc, Nat.add_comm 1]

/-- A numbered token stands in the list where its number says. -/
theorem getElem?_of_mem_number {i : Nat} {ts : List Token} {c : Cell} (hc : c ∈ number i ts) :
    ∃ j, c.index = i + j ∧ ts[j]? = some c.token := by
  induction ts generalizing i with
  | nil => simp at hc
  | cons t ts ih =>
    rcases List.mem_cons.1 hc with rfl | hc
    · exact ⟨0, rfl, rfl⟩
    · obtain ⟨j, hj, ht⟩ := ih hc
      exact ⟨j + 1, by omega, ht⟩

end Cell

end SharpForms
