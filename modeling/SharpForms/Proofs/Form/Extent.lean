/-
# Where the forms of a forest stand

Each form covers a stretch of the numbered tokens that its forest is made of: `bounds_of_mem` says
that its bounds are the first and last token of such a stretch.  A form that is a string, or whose
tag ends in the quote, QUOTES the tokens behind its first one up to its last one, and `InQuotes`
collects these stretches over all forms at any depth.
-/
import SharpForms.Proofs.Form.Grammar

namespace SharpForms

/-! ## 1. All forms at any depth -/

namespace Node

mutual

/-- A node and all nodes inside it, each behind the nodes inside it. -/
def postorder : Node → List Node
  | group b items at_ => postorderAll items ++ [group b items at_]
  | dispatch tag items closer at_ => postorderAll items ++ [dispatch tag items closer at_]
  | call items at_ => postorderAll items ++ [call items at_]
  | leaf kind text at_ => [leaf kind text at_]
  | string text at_ => [string text at_]
  | plain value => [plain value]
  | placeholder label => [placeholder label]

/-- All nodes of a forest, tree by tree. -/
def postorderAll : List Node → List Node
  | [] => []
  | n :: ns => postorder n ++ postorderAll ns

end

@[simp] theorem postorderAll_append (ns ms : List Node) :
    postorderAll (ns ++ ms) = postorderAll ns ++ postorderAll ms := by
  induction ns with
  | nil => rfl
  | cons n ns ih => simp [postorderAll, ih]

@[simp] theorem postorderAll_singleton (n : Node) : postorderAll [n] = postorder n := by
  simp [postorderAll]

theorem mem_postorder_self (n : Node) : n ∈ postorder n := by
  cases n <;> simp [postorder]

end Node

/-! ## 2. Bounds are tokens of the forest -/

/-- The bounds of a form, at any depth, are two tokens of the stretch that its forest covers. -/
theorem Forest.bounds_of_mem {L : Lexicon} {cs : List Cell} {ns : List Node} (h : Forest L cs ns)
    {n : Node} (hn : n ∈ Node.postorderAll ns) :
    ∃ a ∈ cs, ∃ z ∈ cs, n.bounds = a.boundsTo z := by
  induction h with
  | empty => simp [Node.postorderAll] at hn
  | append _ _ ih ih' =>
    rw [Node.postorderAll_append] at hn
    rcases List.mem_append.1 hn with hn | hn
    · obtain ⟨a, ha, z, hz, hb⟩ := ih hn
      exact ⟨a, List.mem_append_left _ ha, z, List.mem_append_left _ hz, hb⟩
    · obtain ⟨a, ha, z, hz, hb⟩ := ih' hn
      exact ⟨a, List.mem_append_right _ ha, z, List.mem_append_right _ hz, hb⟩
  | @literal c | @tag c =>
    obtain rfl : n = _ := by simpa [Node.postorder, Node.postorderAll] using hn
    exact ⟨c, by simp, c, by simp, rfl⟩
  | @string o c cs =>
    obtain rfl : n = _ := by simpa [Node.postorder] using hn
    exact ⟨o, by simp, c, by simp, rfl⟩
  | @group _ o c cs ns _ _ _ ih | @region o c cs ns _ _ _ ih =>
    rw [Node.postorderAll_singleton, Node.postorder] at hn
    rcases List.mem_append.1 hn with hn | hn
    · obtain ⟨a, ha, z, hz, hb⟩ := ih hn
      exact ⟨a, by simp [ha], z, by simp [hz], hb⟩
    · obtain rfl : n = _ := List.mem_singleton.1 hn
      exact ⟨o, by simp, c, by simp, rfl⟩

/-! ## 3. Quoted tokens -/

/-- The token of this index stands behind the first token and not behind the last one. -/
def Bounds.Spans (b : Bounds) (i : Nat) : Prop :=
  ∃ first last : Nat, b.first = some (first : Int) ∧ b.last = some (last : Int) ∧
    first < i ∧ i ≤ last

@[simp] theorem Cell.spans_boundsTo {a z : Cell} {i : Nat} :
    (a.boundsTo z).Spans i ↔ a.index < i ∧ i ≤ z.index := by
  constructor
  · rintro ⟨first, last, hf, hl, h⟩
    simp only [Cell.boundsTo, Option.some.injEq, Int.natCast_inj] at hf hl
    omega
  · intro h
    exact ⟨a.index, z.index, rfl, rfl, h⟩

/-- The node is a string, or a dispatch whose tag ends in the quote. -/
def Node.Quotes (d : Dialect) : Node → Prop
  | .string .. => True
  | .dispatch tag .. => ∃ last, tag.getLast? = some last ∧ d.mark .quote = some [last]
  | _ => False

/-- Some form of the forest, at any depth, quotes the token of this index. -/
def InQuotes (d : Dialect) (ns : List Node) (i : Nat) : Prop :=
  ∃ n ∈ Node.postorderAll ns, n.Quotes d ∧ n.bounds.Spans i

section

variable {d : Dialect} {L : Lexicon} {cs : List Cell} {ns ns' : List Node} {i : Nat}

theorem inQuotes_append : InQuotes d (ns ++ ns') i ↔ InQuotes d ns i ∨ InQuotes d ns' i := by
  simp only [InQuotes, Node.postorderAll_append, List.mem_append, or_and_right, exists_or]

/-- A form with items quotes a token itself or leaves that to its items. -/
theorem inQuotes_singleton {n : Node} (hn : n.postorder = Node.postorderAll ns ++ [n]) :
    InQuotes d [n] i ↔ InQuotes d ns i ∨ (n.Quotes d ∧ n.bounds.Spans i) := by
  simp only [InQuotes, Node.postorderAll_singleton, hn, List.mem_append, List.mem_singleton,
    or_and_right, exists_or, exists_eq_left]

/-- No form quotes a token in front of its forest, or the forest's first token. -/
theorem Forest.not_inQuotes_of_le (h : Forest L cs ns) (hi : ∀ x ∈ cs, i ≤ x.index) :
    ¬ InQuotes d ns i := by
  rintro ⟨n, hn, -, hs⟩
  obtain ⟨a, ha, z, -, hb⟩ := h.bounds_of_mem hn
  rw [hb, Cell.spans_boundsTo] at hs
  have := hi a ha
  omega

/-- No form quotes a token behind its forest. -/
theorem Forest.not_inQuotes_of_lt (h : Forest L cs ns) (hi : ∀ x ∈ cs, x.index < i) :
    ¬ InQuotes d ns i := by
  rintro ⟨n, hn, -, hs⟩
  obtain ⟨a, -, z, hz, hb⟩ := h.bounds_of_mem hn
  rw [hb, Cell.spans_boundsTo] at hs
  have := hi z hz
  omega

end

end SharpForms
