/-
# The forms of a token list tile it

A form covers a stretch of the token list, and its bounds are the numbers of the first and the last
token there.  Side by side, the forms of a list cover it without gaps and overlaps (`Tiles`); the
items of a group or a region do the same for the tokens between the outer two.

Each form, at whatever depth, is derived from its own stretch alone (`Forest.exists_form_of_mem`).
So nothing outside the stretch has a part in it, and the stretch read by itself gives the form
again, with the numbers counted from its own first token: `read_tiles`.

Nothing here asks for a regular dialect.
-/
import SharpForms.Proofs.Form.Extent
import SharpForms.Proofs.Form.Joined
import SharpForms.Proofs.Unplaced

namespace SharpForms

/-! ## 1. Tilings -/

/-- The first and the last token of the node have these numbers. -/
def Node.StandsOn (n : Node) (first last : Nat) : Prop :=
  n.bounds.first = some (first : Int) ∧ n.bounds.last = some (last : Int)

/-- The trees of the forest stand side by side, on all tokens from one number up to, and without,
another one. -/
def Tiles : (first : Nat) → List Node → (stop : Nat) → Prop
  | first, [], stop => first = stop
  | first, n :: ns, stop =>
    ∃ last, n.StandsOn first last ∧ first ≤ last ∧ Tiles (last + 1) ns stop

theorem Tiles.append {i j k : Nat} {ns ms : List Node} (h : Tiles i ns j) (h' : Tiles j ms k) :
    Tiles i (ns ++ ms) k := by
  induction ns generalizing i with
  | nil =>
    obtain rfl : i = j := h
    exact h'
  | cons n ns ih =>
    obtain ⟨last, hn, hle, hns⟩ := h
    exact ⟨last, hn, hle, ih hns⟩

/-- What a node covers in the token list, by its class: a literal or a tag its one token, a string
its two quotes and the tokens joined in it, a group or a region its two outer tokens and what its
items cover. -/
def Node.Covers (d : Dialect) (ts : List Token) (first last : Nat) : Node → Prop
  | .leaf kind text _ =>
    kind = .literal ∧ first = last ∧ ts[first]?.map Token.text = some text
  | .string text _ =>
    first < last ∧ ts[first]?.map Token.text = d.mark .quote ∧
      ts[last]?.map Token.text = d.mark .quote ∧
      ((ts.extract (first + 1) last).map Token.text).flatten = text ∧
      ∀ t ∈ ts.extract (first + 1) last, d.mark .quote ≠ some t.text
  | .group _ items _ => first < last ∧ Tiles (first + 1) items last
  | .dispatch _ items (some _) _ => first < last ∧ Tiles (first + 1) items last
  | .dispatch _ items none _ => items = [] ∧ first = last
  | _ => False

/-! ## 2. Numbered stretches -/

/-- The cells carry the numbers from the given one on, without gaps. -/
def Numbered (i : Nat) (cs : List Cell) : Prop := cs = Cell.number i (cs.map Cell.token)

section

variable {i : Nat} {c o : Cell} {cs cs' : List Cell}

theorem numbered_number (i : Nat) (ts : List Token) : Numbered i (Cell.number i ts) := by
  simp [Numbered]

@[simp] theorem numbered_nil : Numbered i [] := rfl

@[simp] theorem numbered_cons : Numbered i (c :: cs) ↔ c.index = i ∧ Numbered (i + 1) cs := by
  simp only [Numbered, List.map_cons, Cell.number_cons, List.cons.injEq]
  refine and_congr_left' ?_
  constructor
  · intro h
    rw [h]
  · rintro rfl
    rfl

theorem numbered_append :
    Numbered i (cs ++ cs') ↔ Numbered i cs ∧ Numbered (i + cs.length) cs' := by
  induction cs generalizing i with
  | nil => simp
  | cons c cs ih =>
    rw [List.cons_append, numbered_cons, ih, numbered_cons, and_assoc, List.length_cons,
      Nat.add_assoc, Nat.add_comm 1]

/-- The outer tokens of a stretch have its lowest and its highest number. -/
theorem numbered_between (h : Numbered i (o :: cs ++ [c])) :
    o.index = i ∧ Numbered (i + 1) cs ∧ c.index = i + 1 + cs.length := by
  rw [List.cons_append, numbered_cons, numbered_append, numbered_cons] at h
  exact ⟨h.1, h.2.1, h.2.2.1⟩

end

/-- The forms of a numbered stretch tile it. -/
theorem Forest.tiles {L : Lexicon} {cs : List Cell} {ns : List Node} (h : Forest L cs ns) {i : Nat}
    (hi : Numbered i cs) : Tiles i ns (i + cs.length) := by
  induction h generalizing i with
  | empty => rfl
  | append _ _ ih ih' =>
    obtain ⟨h1, h2⟩ := numbered_append.1 hi
    rw [List.length_append, ← Nat.add_assoc]
    exact (ih h1).append (ih' h2)
  | literal | tag =>
    obtain ⟨hc, -⟩ := numbered_cons.1 hi
    refine ⟨i, ⟨?_, ?_⟩, Nat.le_refl i, rfl⟩
    · exact congrArg (fun k : Nat => some (k : Int)) hc
    · exact congrArg (fun k : Nat => some (k : Int)) hc
  | @group _ o c cs | @string o c cs | @region o c cs =>
    obtain ⟨ho, -, hc⟩ := numbered_between hi
    refine ⟨i + 1 + cs.length, ⟨?_, ?_⟩, ?_, ?_⟩
    · exact congrArg (fun k : Nat => some (k : Int)) ho
    · exact congrArg (fun k : Nat => some (k : Int)) hc
    · omega
    · simp only [Tiles, List.length_append, List.length_cons, List.length_nil]
      omega

/-! ## 3. The stretch of one form -/

/-- The numbered tokens make up this one form, by the rule for its class. -/
inductive Form (L : Lexicon) : List Cell → Node → Prop
  | literal {c : Cell} : L.literal c.text → Form L [c] (.leaf .literal c.text (c.boundsTo c))
  | group {b : Bracket} {o c : Cell} {cs : List Cell} {ns : List Node} :
      L.opener b o.text → Forest L cs ns → L.closer b c.text →
        Form L (o :: cs ++ [c]) (.group b ns (o.boundsTo c))
  | string {o c : Cell} {cs : List Cell} :
      L.quote o.text → (∀ x ∈ cs, ¬ L.quote x.text) → L.quote c.text →
        Form L (o :: cs ++ [c]) (.string (cs.map Cell.text).flatten (o.boundsTo c))
  | tag {c : Cell} : L.tag c.text → Form L [c] (.dispatch c.text [] none (c.boundsTo c))
  | region {o c : Cell} {cs : List Cell} {ns : List Node} :
      L.region o.text c.text → (∀ x ∈ cs, x.text ≠ c.text) → Forest L cs ns →
        Form L (o :: cs ++ [c]) (.dispatch o.text ns (some c.text) (o.boundsTo c))

section

variable {L : Lexicon} {cs : List Cell} {ns : List Node} {n : Node}

/-- One form is a forest of one tree. -/
theorem Form.forest (h : Form L cs n) : Forest L cs [n] := by
  cases h with
  | literal ht => exact .literal ht
  | group ho hf hc => exact .group ho hf hc
  | string ho hcs hc => exact .string ho hcs hc
  | tag ht => exact .tag ht
  | region hr hcs hf => exact .region hr hcs hf

/-- A forest of one tree is one form. -/
theorem Forest.form (h : Forest L cs [n]) : Form L cs n := by
  generalize hns : [n] = ns at h
  induction h with
  | empty => cases hns
  | @append cs cs' ns ns' hf hf' ih ih' =>
    rcases List.append_eq_singleton_iff.1 hns.symm with ⟨h1, h2⟩ | ⟨h1, h2⟩
    · rw [hf.cells_eq_nil h1]
      exact ih' h2.symm
    · rw [hf'.cells_eq_nil h2, List.append_nil]
      exact ih h1.symm
  | literal ht =>
    cases hns
    exact .literal ht
  | group ho hf hc =>
    cases hns
    exact .group ho hf hc
  | string ho hcs hc =>
    cases hns
    exact .string ho hcs hc
  | tag ht =>
    cases hns
    exact .tag ht
  | region hr hcs hf =>
    cases hns
    exact .region hr hcs hf

/-- Somewhere among the cells there is a stretch that makes up the form. -/
def HasStretch (L : Lexicon) (cs : List Cell) (n : Node) : Prop :=
  ∃ before mid after, cs = before ++ mid ++ after ∧ Form L mid n

theorem Form.hasStretch (h : Form L cs n) : HasStretch L cs n :=
  ⟨[], cs, [], by simp, h⟩

/-- A stretch inside a part is one inside the whole. -/
theorem HasStretch.within (h : HasStretch L cs n) (front behind : List Cell) :
    HasStretch L (front ++ cs ++ behind) n := by
  obtain ⟨before, mid, after, rfl, hn⟩ := h
  exact ⟨front ++ before, mid, after ++ behind, by simp, hn⟩

/-- **Each form, at any depth, is made up by a stretch of its own.** -/
theorem Forest.exists_form_of_mem (h : Forest L cs ns) (hn : n ∈ Node.postorderAll ns) :
    HasStretch L cs n := by
  induction h with
  | empty => simp [Node.postorderAll] at hn
  | @append cs cs' _ _ _ _ ih ih' =>
    rw [Node.postorderAll_append] at hn
    rcases List.mem_append.1 hn with hn | hn
    · exact (ih hn).within [] cs'
    · simpa using (ih' hn).within cs []
  | literal ht =>
    obtain rfl : n = _ := by simpa [Node.postorder] using hn
    exact (Form.literal ht).hasStretch
  | tag ht =>
    obtain rfl : n = _ := by simpa [Node.postorder, Node.postorderAll] using hn
    exact (Form.tag ht).hasStretch
  | string ho hcs hc =>
    obtain rfl : n = _ := by simpa [Node.postorder] using hn
    exact (Form.string ho hcs hc).hasStretch
  | @group _ o c _ _ ho hf hc ih =>
    rw [Node.postorderAll_singleton, Node.postorder] at hn
    rcases List.mem_append.1 hn with hn | hn
    · exact (ih hn).within [o] [c]
    · obtain rfl : n = _ := List.mem_singleton.1 hn
      exact (Form.group ho hf hc).hasStretch
  | @region o c _ _ hr hcs hf ih =>
    rw [Node.postorderAll_singleton, Node.postorder] at hn
    rcases List.mem_append.1 hn with hn | hn
    · exact (ih hn).within [o] [c]
    · obtain rfl : n = _ := List.mem_singleton.1 hn
      exact (Form.region hr hcs hf).hasStretch

end

/-! ## 4. A stretch of the token list -/

section

variable {d : Dialect} {front mid behind : List Token} {n : Node}

/-- The middle of three parts, cut out by its numbers. -/
theorem extract_middle : (front ++ mid ++ behind).extract front.length
    (front.length + mid.length) = mid := by
  simp [List.extract_eq_take_drop]

/-- A stretch of cells behind others is one of tokens behind others. -/
theorem HasStretch.exists_tokens {L : Lexicon} {ts : List Token}
    (h : HasStretch L (Cell.number 0 ts) n) :
    ∃ front mid behind, ts = front ++ mid ++ behind ∧ Form L (Cell.number front.length mid) n := by
  obtain ⟨before, cells, after, hcs, hn⟩ := h
  have hnum := numbered_number 0 ts
  rw [hcs] at hnum
  have hmid : Numbered (0 + before.length) cells :=
    (numbered_append.1 (numbered_append.1 hnum).1).2
  refine ⟨before.map Cell.token, cells.map Cell.token, after.map Cell.token, ?_, ?_⟩
  · rw [← List.map_append, ← List.map_append, ← hcs, Cell.map_token_number]
  · rw [Nat.zero_add] at hmid
    rw [List.length_map, ← hmid]
    exact hn

/-- The stretch read by itself gives the form, numbered from its own first token. -/
theorem Form.read_alone (h : Form d.byKind (Cell.number front.length mid) n) :
    ∃ m, (d.read mid).result = .ok [m] ∧ m.move ⟨front.length, 0⟩ = n := by
  have hcells : Cell.number front.length mid =
      (Cell.number 0 mid).map (Cell.move ⟨front.length, 0⟩) := by
    rw [← Cell.number_move, map_move_tokens, Nat.zero_add]
  have hread := h.forest.readFrom_eq
  have hbehind := @Dialect.readFrom_behind d [] [] (Cell.number 0 mid) ⟨front.length, 0⟩ []
  rw [hcells] at hread
  have hmoved : resultBehind ⟨front.length, 0⟩ [] (d.read mid).result = .ok [n] :=
    hbehind.symm.trans hread
  cases hm : (d.read mid).result with
  | error e => rw [hm] at hmoved; cases hmoved
  | ok ms =>
    rw [hm] at hmoved
    have hms : Node.moveAll ⟨front.length, 0⟩ ms = [n] := Except.ok.inj hmoved
    rw [Node.moveAll_eq_map, List.map_eq_singleton_iff] at hms
    obtain ⟨m, rfl, hn⟩ := hms
    exact ⟨m, rfl, hn⟩

/-- The first of the tokens behind some others. -/
theorem getElem?_middle (t : Token) : (front ++ t :: mid ++ behind)[front.length]? = some t := by
  simp

/-- What the rule for its class says about a form, in terms of the whole token list. -/
theorem Form.covers {cs : List Cell} (h : Form d.byKind cs n) (hnum : Numbered front.length cs) :
    ∃ last tok, cs.length = last + 1 ∧
      (front ++ cs.map Cell.token ++ behind)[front.length]? = some tok ∧
      n.bounds =
        ⟨some (front.length : Nat), some (front.length + last : Nat), tok.line, tok.char⟩ ∧
      n.Covers d (front ++ cs.map Cell.token ++ behind) front.length (front.length + last) := by
  cases h with
  | @literal c ht =>
    obtain ⟨hc, -⟩ := numbered_cons.1 hnum
    refine ⟨0, c.token, rfl, getElem?_middle c.token, ?_, rfl, rfl, ?_⟩
    · simp [Node.bounds, Cell.boundsTo, hc]
    · rw [List.map_singleton, getElem?_middle]
      rfl
  | @tag c ht =>
    obtain ⟨hc, -⟩ := numbered_cons.1 hnum
    refine ⟨0, c.token, rfl, getElem?_middle c.token, ?_, rfl, rfl⟩
    simp [Node.bounds, Cell.boundsTo, hc]
  | @group b o c cs ns ho hf hc | @region o c cs ns hr hcs hf =>
    obtain ⟨hfirst, hinner, hlast⟩ := numbered_between hnum
    have hend : front.length + (cs.length + 1) = front.length + 1 + cs.length := by omega
    refine ⟨cs.length + 1, o.token, by simp, ?_, ?_, ?_, ?_⟩
    · exact getElem?_middle o.token
    · simp [Node.bounds, Cell.boundsTo, hfirst, hlast, hend]
    · omega
    · rw [hend]
      exact hf.tiles hinner
  | @string o c cs ho hcs hc =>
    obtain ⟨hfirst, hinner, hlast⟩ := numbered_between hnum
    have hend : front.length + (cs.length + 1) = front.length + 1 + cs.length := by omega
    have hopen : (front ++ (o :: cs ++ [c]).map Cell.token ++ behind)[front.length]? =
        some o.token := getElem?_middle o.token
    have hclose : (front ++ (o :: cs ++ [c]).map Cell.token ++ behind)[front.length +
        (cs.length + 1)]? = some c.token := by
      simp
    have hinside : (front ++ (o :: cs ++ [c]).map Cell.token ++ behind).extract
        (front.length + 1) (front.length + (cs.length + 1)) = cs.map Cell.token := by
      simp [List.extract_eq_take_drop, hend]
    refine ⟨cs.length + 1, o.token, by simp, hopen, ?_, ?_, ?_, ?_, ?_, ?_⟩
    · simp [Node.bounds, Cell.boundsTo, hfirst, hlast, hend]
    · omega
    · rw [hopen]
      exact (d.kind_eq_quote_iff.1 ho).2.symm
    · rw [hclose]
      exact (d.kind_eq_quote_iff.1 hc).2.symm
    · rw [hinside, List.map_map]
      rfl
    · rw [hinside]
      intro t ht hm
      obtain ⟨x, hx, rfl⟩ := List.mem_map.1 ht
      refine hcs x hx (d.kind_eq_quote_iff.2 ⟨?_, hm⟩)
      have hsame : x.text = o.text :=
        Option.some.inj (hm.symm.trans (d.kind_eq_quote_iff.1 ho).2)
      rw [hsame]
      exact (d.kind_eq_quote_iff.1 ho).1

end

/-- **The forms tile the token list, and each reads back from its own tokens.**

Let a token list read, in any dialect.  The forms stand side by side on all its tokens.  Each form,
at any depth, has as bounds the numbers of a first and a last token and the place of the first; it
covers what its class says, the items tiling what is between the outer tokens; and the tokens from
the first to the last, read by themselves, give one form, which is the same, with every number in
it lower by the number of the first token. -/
theorem read_tiles {d : Dialect} {ts : List Token} {ns : List Node}
    (hr : (d.read ts).result = .ok ns) :
    Tiles 0 ns ts.length ∧
      ∀ n ∈ Node.postorderAll ns, ∃ (first last : Nat) (tok : Token),
        first ≤ last ∧ last < ts.length ∧ ts[first]? = some tok ∧
        n.bounds = ⟨some (first : Int), some (last : Int), tok.line, tok.char⟩ ∧
        n.Covers d ts first last ∧
        ∃ m, (d.read (ts.extract first (last + 1))).result = .ok [m] ∧ Node.same m n = true ∧
          m.move ⟨first, 0⟩ = n := by
  have hf := Dialect.read_eq_ok_iff.1 hr
  refine ⟨?_, ?_⟩
  · simpa using hf.tiles (numbered_number 0 ts)
  · intro n hn
    obtain ⟨front, mid, behind, rfl, hform⟩ := (hf.exists_form_of_mem hn).exists_tokens
    obtain ⟨last, tok, hlen, htok, hbounds, hcovers⟩ :=
      @Form.covers d front behind n _ hform (numbered_number front.length mid)
    obtain ⟨m, hm, hmove⟩ := hform.read_alone
    rw [Cell.length_number] at hlen
    rw [Cell.map_token_number] at htok hcovers
    refine ⟨front.length, front.length + last, tok, ?_, ?_, htok, hbounds, hcovers, m, ?_, ?_,
      hmove⟩
    · omega
    · simp only [List.length_append]
      omega
    · rw [Nat.add_assoc, ← hlen, extract_middle]
      exact hm
    · refine Node.same_of_unplaced m n ?_
      rw [← hmove, Node.unplaced_move]

/-- A list around a region around a literal, with a place on one token only: the region stands on
the tokens 1 to 3, and read by itself it is the same with the numbers 0 to 2. -/
theorem read_tiles_region :
    let ts : List Token :=
      [⟨['('], none, none⟩, ⟨['#', '['], some 7, some 2⟩, ⟨['x'], none, none⟩, ⟨[']'], none, none⟩,
        ⟨[')'], none, none⟩]
    let region : Node := .dispatch ['#', '['] [.leaf .literal ['x'] ⟨some 2, some 2, none, none⟩]
      (some [']']) ⟨some 1, some 3, some 7, some 2⟩
    let whole : Node := .group .round [region] ⟨some 0, some 4, none, none⟩
    (Table.plain.dialect.read ts).result = .ok [whole] ∧ Tiles 0 [whole] 5 ∧
      ∃ m, (Table.plain.dialect.read (ts.extract 1 4)).result = .ok [m] ∧
        Node.same m region = true ∧ m.move ⟨1, 0⟩ = region := by
  intro ts region whole
  have hliteral : Table.plain.dialect.kind ['x'] = .leaf := by decide
  have hsharp : Table.plain.dialect.kind ['#', '['] = .sharp := by decide
  have hopener : Table.plain.dialect.kind ['('] = .opener .round := by decide
  have hcloser : Table.plain.dialect.kind [')'] = .closer .round := by decide
  have hx : Forest Table.plain.dialect.byKind _ _ :=
    @Forest.literal _ ⟨2, ⟨['x'], none, none⟩⟩ hliteral
  have hregion : Forest Table.plain.dialect.byKind _ _ :=
    @Forest.region _ ⟨1, ⟨['#', '['], some 7, some 2⟩⟩ ⟨3, ⟨[']'], none, none⟩⟩ _ _
      ⟨hsharp, '[', rfl, by decide⟩ (by decide) hx
  have hwhole : Forest Table.plain.dialect.byKind _ _ :=
    @Forest.group _ .round ⟨0, ⟨['('], none, none⟩⟩ ⟨4, ⟨[')'], none, none⟩⟩ _ _
      hopener hregion hcloser
  have hr : (Table.plain.dialect.read ts).result = .ok [whole] :=
    Dialect.read_eq_ok_iff.2 hwhole
  obtain ⟨htiles, hall⟩ := read_tiles hr
  refine ⟨hr, htiles, ?_⟩
  obtain ⟨first, last, tok, -, -, -, hb, -, m, hm, hsame, hmove⟩ :=
    hall region (by simp [whole, region, Node.postorder, Node.postorderAll])
  obtain ⟨rfl, rfl⟩ : first = 1 ∧ last = 3 := by
    simp only [region, Node.bounds, Bounds.mk.injEq, Option.some.injEq] at hb
    omega
  exact ⟨m, hm, hsame, hmove⟩

end SharpForms
