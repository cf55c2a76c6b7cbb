/-
# Reading a renamed text

No character is wired into the scanner or the reader: rename the characters of a dialect and of a
text, and the tokens, the forms and the defect are renamed, and nothing else about them changes
(`read_renamed`).  All that is asked of the map is that it keeps different characters different.
The dialect may be any: roles may be empty, have texts of any length, or meet.

To the reader a token and its renamed token are alike, since they have the same kind, and a renamed
token is equal to another one exactly if the tokens are.
-/
import Mathlib.Logic.Equiv.Basic
import SharpForms.Proofs.Form.Alike
import SharpForms.Proofs.Token.Renamed

namespace SharpForms

/-- The second text is the first one renamed. -/
def Renamed (h : Char → Char) (t u : Text) : Prop := u = t.map h

section

variable {h : Char → Char} {d : Dialect} {t : Text}

/-! ## 1. What the reader asks -/

section

variable (hh : Function.Injective h)
include hh

/-- A renamed text is the partner of the text. -/
theorem partners_map (t : Text) : Partners (Renamed h) t (t.map h) := by
  refine ⟨rfl, ?_⟩
  rintro v w rfl
  exact hh.list_map.eq_iff.symm

/-- What ends the region of a renamed tag is what ends the region of the tag, renamed. -/
theorem Dialect.regionOf?_rename (t : Text) :
    Option.Rel (Option.Rel (Partners (Renamed h))) (d.regionOf? t)
      ((d.rename h).regionOf? (t.map h)) := by
  rw [regionOf?, regionOf?, List.getLast?_map]
  cases t.getLast? with
  | none => exact .none
  | some e =>
    have hregion : (d.rename h).regionCloser? [h e] = (d.regionCloser? [e]).map (List.map h) :=
      regionCloser?_rename hh [e]
    refine .some ?_
    dsimp only
    rw [hregion]
    cases d.regionCloser? [e] with
    | none => exact .none
    | some closer => exact .some (partners_map hh closer)

/-- **The reader asks about renamed texts what it asks about the texts.** -/
theorem Dialect.asksAlike_rename : d.AsksAlike (d.rename h) (Renamed h) := by
  constructor
  · rintro t u rfl
    exact kind_rename hh t
  · rintro t u _ rfl
    exact partners_map hh t
  · rintro t u _ rfl
    exact regionOf?_rename hh t

end

/-! ## 2. What is alike is renamed -/

theorem map_eq_of_renamed {ts us : List Text} (hts : List.Forall₂ (Renamed h) ts us) :
    us = ts.map (List.map h) := by
  induction hts with
  | nil => rfl
  | cons htu _ ih => rw [List.map_cons, htu, ih]

/-- Forms that are alike are renamed. -/
theorem FormsAlike.eq_renameAll {ns ms : List Node} (hf : FormsAlike d (Renamed h) ns ms) :
    ms = Node.renameAll h ns := by
  induction hf with
  | empty => rfl
  | append _ _ ih ih' =>
    rw [ih, ih', Node.renameAll_eq_map, Node.renameAll_eq_map, Node.renameAll_eq_map,
      List.map_append]
  | literal _ ht => rw [ht]; rfl
  | string hts => rw [map_eq_of_renamed hts, ← List.map_flatten]; rfl
  | group _ ih => rw [ih]; rfl
  | tag _ ht => rw [ht]; rfl
  | region _ ht hc _ ih => rw [ht, hc, ih]; rfl

theorem Cell.Alike.eq_rename {c e : Cell} (hce : c.Alike (Renamed h) e) : e = c.rename h := by
  obtain ⟨hindex, htext, hline, hchar⟩ := hce
  obtain ⟨i, t, line, char⟩ := c
  obtain ⟨i', t', line', char'⟩ := e
  cases hindex
  cases hline
  cases hchar
  cases htext
  rfl

/-- Errors that are alike are renamed. -/
theorem ReadError.Alike.eq_rename {e e' : ReadError} (he : e.Alike (Renamed h) e') :
    e' = e.rename h := by
  cases he with
  | unclosedGroup hc => rw [hc.eq_rename]; rfl
  | unclosedString hc => rw [hc.eq_rename]; rfl
  | unclosedRegion ht hc => rw [hc.eq_rename, ht]; rfl
  | strayCloser hc => rw [hc.eq_rename]; rfl
  | emptyTag hc => rw [hc.eq_rename]; rfl

theorem alike_rename (ts : List Token) :
    List.Forall₂ (Token.Alike (Renamed h)) ts (ts.map (Token.rename h)) := by
  rw [List.forall₂_map_right_iff, List.forall₂_same]
  intro t _
  exact ⟨rfl, rfl, rfl⟩

/-! ## 3. Renamed forms -/

/-- **Renamed tokens are read as the renamed forms, or fail with the renamed error.** -/
theorem Dialect.read_rename (hh : Function.Injective h) (d : Dialect) (ts : List Token) :
    ((d.rename h).read (ts.map (Token.rename h))).result =
      ((d.read ts).result.map (Node.renameAll h)).mapError (ReadError.rename h) := by
  have halike := Dialect.read_alike (d.asksAlike_rename hh) (alike_rename ts)
  cases hr : (d.read ts).result with
  | ok ns =>
    cases hr' : ((d.rename h).read (ts.map (Token.rename h))).result with
    | ok ms =>
      rw [hr, hr'] at halike
      exact congrArg Except.ok (FormsAlike.eq_renameAll halike)
    | error e' => rw [hr, hr'] at halike; exact halike.elim
  | error e =>
    cases hr' : ((d.rename h).read (ts.map (Token.rename h))).result with
    | ok ms => rw [hr, hr'] at halike; exact halike.elim
    | error e' =>
      rw [hr, hr'] at halike
      exact congrArg Except.error (ReadError.Alike.eq_rename halike)

/-- **Rename the characters of a dialect and of a text, and all that is found is renamed.**

* The tokens are the renamed tokens, in the same places.
* They read exactly if the tokens of the text do, as the renamed forms: of the same classes and with
  the same bounds.
* Otherwise the defect is of the same kind, at the token of the same index. -/
theorem read_renamed (hh : Function.Injective h) (d : Dialect) (t : Text) :
    let ts := d.tokenize (Text.units t)
    let us := (d.rename h).tokenize (Text.units (t.map h))
    us = ts.map (Token.rename h) ∧
      (∀ ns, (d.read ts).result = .ok ns →
        ((d.rename h).read us).result = .ok (Node.renameAll h ns)) ∧
      ∀ e, (d.read ts).result = .error e →
        ((d.rename h).read us).result = .error (e.rename h) := by
  intro ts us
  have htokens : us = ts.map (Token.rename h) := by
    rw [← Dialect.tokenize_rename hh, ← Text.units_map]
  have hread := Dialect.read_rename hh d ts
  rw [← htokens] at hread
  refine ⟨htokens, ?_, ?_⟩
  · intro ns hr
    rw [hread, hr]
    rfl
  · intro e hr
    rw [hread, hr]
    rfl

end

/-- Angle brackets for round ones, and the other way round: a tag with a region, and a list that is
not closed. -/
theorem read_renamed_angles :
    let h : Char → Char := Equiv.swap ')' '>' ∘ Equiv.swap '(' '<'
    let d := Table.plain.dialect
    Function.Injective h ∧
      ((d.rename h).read ((d.rename h).tokenize (Text.units "#<b>".toList))).result =
        .ok [.dispatch ['#', '<'] [.leaf .literal ['b'] ⟨some 1, some 1, some 1, some 3⟩]
          (some ['>']) ⟨some 0, some 2, some 1, some 1⟩] ∧
      ((d.rename h).read ((d.rename h).tokenize (Text.units "<b".toList))).result =
        .error (.unclosedGroup .round ⟨0, ⟨['<'], some 1, some 1⟩⟩) := by
  intro h d
  let cell (i : Nat) (t : Text) (char : Nat) : Cell := ⟨i, ⟨t, some 1, some char⟩⟩
  have hh : Function.Injective h := (Equiv.injective _).comp (Equiv.injective _)
  have htag : (d.read (d.tokenize (Text.units "#(b)".toList))).result =
      .ok [.dispatch ['#', '('] [.leaf .literal ['b'] ⟨some 1, some 1, some 1, some 3⟩]
        (some [')']) ⟨some 0, some 2, some 1, some 1⟩] := by
    have htok : d.tokenize (Text.units "#(b)".toList) =
        [⟨['#', '('], some 1, some 1⟩, ⟨['b'], some 1, some 3⟩, ⟨[')'], some 1, some 4⟩] := by
      decide
    have hinside : Forest d.byKind [cell 1 ['b'] 3] _ :=
      .literal (by decide : d.kind ['b'] = .leaf)
    have hregion : Forest d.byKind _ _ :=
      @Forest.region _ (cell 0 ['#', '('] 1) (cell 2 [')'] 4) _ _
        ⟨by decide, '(', rfl, by decide⟩ (by decide) hinside
    rw [htok]
    exact Dialect.read_eq_ok_iff.2 hregion
  have hopen : (d.read (d.tokenize (Text.units "(b".toList))).result =
      .error (.unclosedGroup .round ⟨0, ⟨['('], some 1, some 1⟩⟩) := by
    have htok : d.tokenize (Text.units "(b".toList) =
        [⟨['('], some 1, some 1⟩, ⟨['b'], some 1, some 2⟩] := by decide
    have hopener : d.kind ['('] = .opener .round := by decide
    have hleaf : d.kind ['b'] = .leaf := by decide
    rw [htok, Dialect.read, Cell.number_cons, Cell.number_cons, Dialect.readFrom_opener hopener,
      Dialect.readFrom_literal hleaf, Traced.result_emitForm, Cell.number_nil,
      Dialect.readFrom_unclosedGroup]
    rfl
  obtain ⟨-, hok, -⟩ := read_renamed hh d "#(b)".toList
  obtain ⟨-, -, herr⟩ := read_renamed hh d "(b".toList
  exact ⟨hh, hok _ htag, herr _ hopen⟩

end SharpForms
