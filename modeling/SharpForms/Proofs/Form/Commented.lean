/-
# What is printed of a source with comments

In a dialect with comments a bare tag may stand in front of other forms, since a comment stops a
tag without being taken into it.  Printed, such a tag takes in what is printed behind it: in
`(#x;c` and `)` on two lines the tag is `#x`, and printed it is `(#x)`, where the list is not closed
(`dump_tag_before_comment`).

There is no other obstacle.  Forms without a sharp in their strings read back exactly if only the
last of them is bare (`read_dump_lines`), as they are where no comment stops a tag.  For the one
direction, if the printed text reads as the same forms, then nothing of it is lost
(`Forest.solid_printAll`), so no comment begins in it, and only the last of its tokens can be bare.
-/
import SharpForms.Proofs.Form.Printed

namespace SharpForms

/-! ## 1. Bare forms do not depend on places -/

namespace Node

mutual

theorem postorder_unplaced : ∀ n : Node, n.unplaced.postorder = n.postorder.map unplaced
  | leaf .. | string .. | plain _ | placeholder _ => rfl
  | group _ items _ | call items _ | dispatch _ items _ _ => by
    simp [unplaced, postorder, postorderAll_unplacedAll items]

theorem postorderAll_unplacedAll : ∀ ns : List Node,
    postorderAll (unplacedAll ns) = (postorderAll ns).map unplaced
  | [] => rfl
  | n :: ns => by
    rw [unplacedAll, postorderAll, postorderAll, postorder_unplaced n, postorderAll_unplacedAll ns,
      List.map_append]

end

theorem isBare_unplaced {d : Dialect} (n : Node) : n.unplaced.IsBare d ↔ n.IsBare d := by
  cases n with
  | dispatch tag items closer at_ => cases closer <;> rfl
  | leaf | string | group | call | plain | placeholder => rfl

end Node

/-- Which forms are bare does not depend on their places. -/
theorem bareLast_unplacedAll {d : Dialect} {ns : List Node} :
    BareLast d (Node.unplacedAll ns) ↔ BareLast d ns := by
  rw [BareLast, Node.postorderAll_unplacedAll, List.pairwise_map]
  simp only [Node.isBare_unplaced]
  rfl

/-! ## 2. What reads back -/

/-- **The tokens of forms hold all of their printed text but blanks.** -/
theorem Forest.solid_printAll {d : Dialect} (hd : d.Printed) {cs : List Cell} {ns : List Node}
    (hf : Forest d.byMarks cs ns) :
    d.solid (Node.printAll ns) = d.solid (cs.map Cell.text).flatten := by
  induction hf with
  | empty => rfl
  | @append cs cs' ns ns' hf hf' ih ih' =>
    by_cases hns : ns = []
    · rw [hns, hf.cells_eq_nil hns]
      exact ih'
    by_cases hns' : ns' = []
    · rw [hns', hf'.cells_eq_nil hns', List.append_nil, List.append_nil]
      exact ih
    · have hspace : d.solid [' '] = 0 := by simp [Dialect.solid, hd.space]
      rw [Node.printAll_append hns hns', d.solid_append, d.solid_cons, hspace, ih, ih',
        List.map_append, List.flatten_append, d.solid_append, Nat.zero_add]
  | literal | tag => simp [Node.printAll, Node.print]
  | @group b o c cs ns ho _ hc ih =>
    have hopen : [b.openChar] = o.text := Option.some.inj ((hd.opener b).symm.trans ho)
    have hclose : [b.closeChar] = c.text := Option.some.inj ((hd.closer b).symm.trans hc)
    rw [Cell.map_text_between, ← hopen, ← hclose]
    exact Dialect.solid_between (t := [b.openChar]) ih
  | @string o c cs ho _ hc =>
    have hopen : ['"'] = o.text := Option.some.inj (hd.quote.symm.trans ho)
    have hclose : ['"'] = c.text := Option.some.inj (hd.quote.symm.trans hc)
    rw [Cell.map_text_between, ← hopen, ← hclose]
    exact Dialect.solid_between (t := ['"']) rfl
  | region _ _ _ ih =>
    rw [Cell.map_text_between]
    exact Dialect.solid_between ih

namespace Dialect

variable {d : Dialect} {t : Text} {ns ms : List Node}

/-- **If forms are printed and read back, only the last of them is bare**, and what is read differs
from them only in places. -/
theorem bareLast_of_read_printAll (hd : d.Printed)
    (hr : (d.read (d.tokenize (Text.units t))).result = .ok ns)
    (hm : (d.read (d.tokenize (Text.units (Node.printAll ns)))).result = .ok ms)
    (hsame : Node.sameAll ms ns = true) :
    BareLast d ns ∧ Node.unplacedAll ms = Node.unplacedAll ns := by
  have hf := Dialect.read_eq_ok_iff.1 hm
  have hplaces : Node.unplacedAll ms = Node.unplacedAll ns :=
    Node.unplacedAll_of_sameAll hf.closedByTag_of_mem
      (Dialect.read_eq_ok_iff.1 hr).closedByTag_of_mem hsame
  -- The forms read back print the same text, so their tokens hold all of it.
  have hprint := Node.printAll_of_unplaced hplaces
  rw [← Dialect.byMarks_eq_byKind hd.regular] at hf
  have hkept := hf.solid_printAll hd
  rw [hprint, Cell.map_text_number] at hkept
  refine ⟨?_, hplaces⟩
  rw [← bareLast_unplacedAll, ← hplaces, bareLast_unplacedAll]
  refine bareLast_of_read hm ?_
  intro t₁ c t₂ hsplit
  rw [hsplit] at hkept
  exact not_stopsTag_of_solid hd.regular (Nat.le_of_eq hkept)

end Dialect

/-! ## 3. Sources that span lines -/

/-- **What a source that spans lines reads as is printed, and read back exactly if only the last of
the forms is bare**, if no string holds a sharp.

* What is read back as the same forms differs from them only in places.
* Where no comment stops a tag, only the last of the forms is bare. -/
theorem read_dump_lines {t : Text} {ns : List Node}
    (hr : (Table.lines.dialect.read (Table.lines.dialect.tokenize (Text.units t))).result = .ok ns)
    (hs : ∀ text at_, .string text at_ ∈ Node.postorderAll ns → '#' ∉ text) :
    ∃ s, Node.dump ns = .ok s ∧
      ((∃ ms, (Table.lines.dialect.read (Table.lines.dialect.tokenize (Text.units s))).result =
          .ok ms ∧ Node.sameAll ms ns = true) ↔ BareLast Table.lines.dialect ns) ∧
      (∀ ms, (Table.lines.dialect.read (Table.lines.dialect.tokenize (Text.units s))).result =
          .ok ms → Node.sameAll ms ns = true → Node.unplacedAll ms = Node.unplacedAll ns) ∧
      ((∀ t₁ c t₂, t = t₁ ++ c :: t₂ → ¬ Table.lines.dialect.StopsTag t₁ c) →
        BareLast Table.lines.dialect ns) := by
  have hd := Dialect.lines_printed
  refine ⟨_, (Dialect.read_eq_ok_iff.1 hr).dump_eq_ok, ⟨?_, ?_⟩, ?_, Dialect.bareLast_of_read hr⟩
  · rintro ⟨ms, hm, hsame⟩
    exact (Dialect.bareLast_of_read_printAll hd hr hm hsame).1
  · intro hb
    obtain ⟨-, ms, hm, hplaces⟩ :=
      Dialect.read_printAll_of_bareLast hd hr (sharpless_of_mark rfl hs) hb
    exact ⟨ms, hm, Node.sameAll_of_unplaced ms ns hplaces⟩
  · intro ms hm hsame
    exact (Dialect.bareLast_of_read_printAll hd hr hm hsame).2

/-- In a list a comment stands behind a tag that has taken in a blank, and another one behind the
bare tag that is the last of all forms. -/
theorem read_dump_tag_before_blank :
    let tag (t : Text) (i line char : Nat) : Node :=
      .dispatch t [] none ⟨some i, some i, some line, some char⟩
    let ns : List Node :=
      [.group .round [tag ['#', 'x', ' '] 1 1 2] ⟨some 0, some 2, some 1, some 1⟩,
        tag ['#', 'y'] 3 2 3]
    (Table.lines.dialect.read (Table.lines.dialect.tokenize
        (Text.units "(#x ;c\n) #y;d".toList))).result = .ok ns ∧
      Node.dump ns = .ok "(#x ) #y".toList ∧
      ∃ ms, (Table.lines.dialect.read (Table.lines.dialect.tokenize
          (Text.units "(#x ) #y".toList))).result = .ok ms ∧ Node.sameAll ms ns = true := by
  intro tag ns
  let cell (i : Nat) (t : Text) (line char : Nat) : Cell := ⟨i, ⟨t, some line, some char⟩⟩
  have htok : Table.lines.dialect.tokenize (Text.units "(#x ;c\n) #y;d".toList) =
      [⟨['('], some 1, some 1⟩, ⟨['#', 'x', ' '], some 1, some 2⟩, ⟨[')'], some 2, some 1⟩,
        ⟨['#', 'y'], some 2, some 3⟩] := by decide
  have hx : Forest Table.lines.dialect.byKind _ _ :=
    @Forest.tag _ (cell 1 ['#', 'x', ' '] 1 2) ⟨by decide, ' ', rfl, by decide⟩
  have hlist : Forest Table.lines.dialect.byKind _ _ :=
    @Forest.group _ .round (cell 0 ['('] 1 1) (cell 2 [')'] 2 1) _ _
      (by decide : Table.lines.dialect.kind ['('] = .opener .round) hx
      (by decide : Table.lines.dialect.kind [')'] = .closer .round)
  have hy : Forest Table.lines.dialect.byKind _ _ :=
    @Forest.tag _ (cell 3 ['#', 'y'] 2 3) ⟨by decide, 'y', rfl, by decide⟩
  have hr : (Table.lines.dialect.read (Table.lines.dialect.tokenize
      (Text.units "(#x ;c\n) #y;d".toList))).result = .ok ns := by
    rw [htok]
    exact Dialect.read_eq_ok_iff.2 (hlist.append hy)
  have hs : ∀ text at_, .string text at_ ∈ Node.postorderAll ns → '#' ∉ text := by
    intro text at_ hm
    simp [ns, tag, Node.postorderAll, Node.postorder] at hm
  have hb : BareLast Table.lines.dialect ns := by
    have hblank : ¬ Table.lines.dialect.Bare ['#', 'x', ' '] :=
      Dialect.not_bare_concat (t := ['#', 'x']) (.inl (by decide))
    simp [BareLast, ns, tag, Node.postorderAll, Node.postorder, Node.IsBare, hblank]
  obtain ⟨s, hdump, hback, -⟩ := read_dump_lines hr hs
  obtain rfl : "(#x ) #y".toList = s := Except.ok.inj hdump
  exact ⟨hr, hdump, hback.2 hb⟩

/-- In a list a comment stops a tag.  Printed, the tag takes in the end of the list, and the text
does not read. -/
theorem dump_tag_before_comment :
    let ns : List Node :=
      [.group .round [.dispatch ['#', 'x'] [] none ⟨some 1, some 1, some 1, some 2⟩]
        ⟨some 0, some 2, some 1, some 1⟩]
    (Table.lines.dialect.read (Table.lines.dialect.tokenize
        (Text.units "(#x;c\n)".toList))).result = .ok ns ∧
      (∀ text at_, .string text at_ ∈ Node.postorderAll ns → '#' ∉ text) ∧
      Node.dump ns = .ok "(#x)".toList ∧
      (Table.lines.dialect.read (Table.lines.dialect.tokenize
          (Text.units "(#x)".toList))).result =
        .error (.unclosedGroup .round ⟨0, ⟨['('], some 1, some 1⟩⟩) := by
  intro ns
  let cell (i : Nat) (t : Text) (line char : Nat) : Cell := ⟨i, ⟨t, some line, some char⟩⟩
  have htok : Table.lines.dialect.tokenize (Text.units "(#x;c\n)".toList) =
      [⟨['('], some 1, some 1⟩, ⟨['#', 'x'], some 1, some 2⟩, ⟨[')'], some 2, some 1⟩] := by decide
  have htok' : Table.lines.dialect.tokenize (Text.units "(#x)".toList) =
      [⟨['('], some 1, some 1⟩, ⟨['#', 'x', ')'], some 1, some 2⟩] := by decide
  have hopener : Table.lines.dialect.kind ['('] = .opener .round := by decide
  have hsharp : Table.lines.dialect.kind ['#', 'x', ')'] = .sharp := by decide
  have hregion : Table.lines.dialect.regionCloser? [')'] = none := by decide
  have hx : Forest Table.lines.dialect.byKind _ _ :=
    @Forest.tag _ (cell 1 ['#', 'x'] 1 2) ⟨by decide, 'x', rfl, by decide⟩
  have hlist : Forest Table.lines.dialect.byKind _ _ :=
    @Forest.group _ .round (cell 0 ['('] 1 1) (cell 2 [')'] 2 1) _ _ hopener hx
      (by decide : Table.lines.dialect.kind [')'] = .closer .round)
  refine ⟨?_, ?_, rfl, ?_⟩
  · rw [htok]
    exact Dialect.read_eq_ok_iff.2 hlist
  · intro text at_ hm
    simp [ns, Node.postorderAll, Node.postorder] at hm
  · rw [htok', Dialect.read, Cell.number_cons, Cell.number_cons, Dialect.readFrom_opener hopener,
      Dialect.readFrom_tag hsharp rfl hregion, Traced.result_emitForm, Cell.number_nil,
      Dialect.readFrom_unclosedGroup]
    rfl

end SharpForms
