/-
# The reader as recursive descent

The reader keeps a stack of open levels and goes through the tokens once.  `level` reads in the
other usual way: a level reads the groups on it by calling itself, gets back what they leave, and
stops in front of the closer of the bracket around it, which the caller takes; a region is read on
its own, and what that leaves is not looked at.

* A level stops only at the end of the tokens or in front of its own closer: `Stop` carries this,
  so on the outermost level nothing can be left (`rest_of_level_none`).
* `readFrom_eq_level`: wherever the reader is, it goes on as it does behind the forms of a level.
  So the two read the same, and fail in the same way (`read_eq_level`).
-/
import SharpForms.Proofs.Form.Reading

namespace SharpForms

/-! ## 1. Levels -/

/-- Where a level stops: the forms on it and the tokens that are left, which are none, or begin with
the closer of the bracket around. -/
structure Stop (d : Dialect) (outer : Option Bracket) (cs : List Cell) where
  forms : List Node
  rest : List Cell
  short : rest.length ≤ cs.length
  at_closer : ∀ c ∈ rest.head?, ∃ b, outer = some b ∧ d.kind c.text = .closer b

section

variable {d : Dialect} {outer : Option Bracket} {cs cs' : List Cell}

/-- A form in front of a level. -/
def Stop.push (n : Node) (h : cs'.length ≤ cs.length) (s : Stop d outer cs') : Stop d outer cs :=
  ⟨n :: s.forms, s.rest, Nat.le_trans s.short h, s.at_closer⟩

/-- The forms of a level and what it leaves. -/
def Stop.pair (s : Stop d outer cs) : List Node × List Cell := (s.forms, s.rest)

/-- A form in front of others, with what they leave. -/
def pushForm (n : Node) (p : List Node × List Cell) : List Node × List Cell := (n :: p.1, p.2)

end

namespace Dialect

variable (d : Dialect)

/-- Reads one level by recursive descent, inside the given bracket. -/
def descend (outer : Option Bracket) : (cs : List Cell) → Except ReadError (Stop d outer cs)
  | [] => .ok ⟨[], [], Nat.le_refl _, nofun⟩
  | c :: cs =>
    match hk : d.kind c.text with
    | .opener b =>
      match descend (some b) cs with
      | .error e => .error e
      | .ok ⟨_, [], _, _⟩ => .error (.unclosedGroup b c)
      | .ok ⟨items, last :: rest, short, _⟩ =>
        -- The caller asks again whether the closer is the right one.
        if d.mark (.closer b) = some last.text then
          (descend outer rest).map
            (Stop.push (.group b items (c.boundsTo last)) (by simp at short ⊢; omega))
        else .error (.unclosedGroup b c)
    | .closer b =>
      if h : outer = some b then .ok ⟨[], c :: cs, Nat.le_refl _, by simp [h, hk]⟩
      else .error (.strayCloser outer c)
    | .leaf =>
      (descend outer cs).map (Stop.push (.leaf .literal c.text (c.boundsTo c)) (by simp))
    | .quote =>
      match hcut : cutAt? c.text cs with
      | none => .error (.unclosedString c)
      | some (inside, last, rest) =>
        (descend outer rest).map
          (Stop.push (.string (inside.map Cell.text).flatten (c.boundsTo last))
            (by have := length_of_cutAt? hcut; simp; omega))
    | .sharp =>
      match c.text.getLast? with
      | none => .error (.emptyTag c)
      | some e =>
        match d.regionCloser? [e] with
        | none =>
          (descend outer cs).map (Stop.push (.dispatch c.text [] none (c.boundsTo c)) (by simp))
        | some closer =>
          match hcut : cutAt? closer cs with
          | none => .error (.unclosedRegion closer c)
          | some (inside, last, rest) =>
            match descend none inside with
            | .error e => .error e
            | .ok s =>
              (descend outer rest).map
                (Stop.push (.dispatch c.text s.forms (some closer) (c.boundsTo last))
                  (by have := length_of_cutAt? hcut; simp; omega))
termination_by cs => cs.length
decreasing_by
  all_goals
    try have := length_of_cutAt? hcut
    simp only [List.length_cons] at *
    omega

/-- The forms of a level and the tokens that it leaves. -/
def level (outer : Option Bracket) (cs : List Cell) : Except ReadError (List Node × List Cell) :=
  (d.descend outer cs).map Stop.pair

variable {d} {outer : Option Bracket} {c last : Cell} {cs inside rest : List Cell}
  {ns : List Node}

/-! ## 2. One form at a time -/

theorem map_push {n : Node} (h : rest.length ≤ cs.length) :
    ((d.descend outer rest).map (Stop.push n h)).map Stop.pair =
      (d.level outer rest).map (pushForm n) := by
  rw [level]
  cases d.descend outer rest <;> rfl

theorem level_nil : d.level outer [] = .ok ([], []) := by
  rw [level, descend]
  rfl

/-- **A level stops at the end of the tokens or in front of its closer.** -/
theorem rest_of_level (h : d.level outer cs = .ok (ns, rest)) :
    rest.length ≤ cs.length ∧
      (rest = [] ∨ ∃ b last rest', outer = some b ∧ rest = last :: rest' ∧
        d.kind last.text = .closer b) := by
  rw [level] at h
  cases hstop : d.descend outer cs with
  | error e => rw [hstop] at h; cases h
  | ok s =>
    obtain ⟨forms, left, short, hcloser⟩ := s
    rw [hstop] at h
    obtain ⟨rfl, rfl⟩ := Prod.mk.inj (Except.ok.inj h)
    refine ⟨short, ?_⟩
    cases left with
    | nil => exact .inl rfl
    | cons last rest' =>
      obtain ⟨b, hb, hk⟩ := hcloser last rfl
      exact .inr ⟨b, last, rest', hb, rfl, hk⟩

/-- On the outermost level nothing is left: no closer stops it early. -/
theorem rest_of_level_none (h : d.level none cs = .ok (ns, rest)) : rest = [] := by
  rcases (rest_of_level h).2 with hrest | ⟨b, _, _, hb, -⟩
  · exact hrest
  · cases hb

/-- What a level inside a bracket leaves begins with the closer, which the caller takes. -/
theorem level_opener {b : Bracket} (hk : d.kind c.text = .opener b) :
    d.level outer (c :: cs) =
      (d.level (some b) cs).bind fun p =>
        match p.2 with
        | [] => .error (.unclosedGroup b c)
        | last :: rest => (d.level outer rest).map (pushForm (.group b p.1 (c.boundsTo last))) := by
  rw [level, descend]
  split <;> simp_all only [reduceCtorEq, TokenKind.opener.injEq]
  subst b
  rw [level]
  cases hstop : d.descend (some _) cs with
  | error e => rfl
  | ok s =>
    obtain ⟨items, rest, short, hcloser⟩ := s
    cases rest with
    | nil => rfl
    | cons last rest =>
      obtain ⟨b, hb, hclose⟩ := hcloser last rfl
      obtain rfl := Option.some.inj hb
      have hmark := d.mark_of_closerOf? (d.kind_eq_closer_iff.1 hclose).2.2.2
      simp only [hmark, if_true, map_push]
      rfl

theorem level_closer {b : Bracket} (hk : d.kind c.text = .closer b) :
    d.level (some b) (c :: cs) = .ok ([], c :: cs) := by
  rw [level, descend]
  split <;> simp_all [Except.map, Stop.pair]

theorem level_stray {b : Bracket} (hk : d.kind c.text = .closer b) (hb : outer ≠ some b) :
    d.level outer (c :: cs) = .error (.strayCloser outer c) := by
  rw [level, descend]
  split <;> simp_all [Except.map]

theorem level_literal (hk : d.kind c.text = .leaf) :
    d.level outer (c :: cs) =
      (d.level outer cs).map (pushForm (.leaf .literal c.text (c.boundsTo c))) := by
  rw [level, descend]
  split <;> simp_all [map_push]

theorem level_unclosedString (hk : d.kind c.text = .quote) (hcut : cutAt? c.text cs = none) :
    d.level outer (c :: cs) = .error (.unclosedString c) := by
  rw [level, descend]
  split <;> simp_all only [reduceCtorEq]
  split <;> simp_all [Except.map]

theorem level_string (hk : d.kind c.text = .quote)
    (hcut : cutAt? c.text cs = some (inside, last, rest)) :
    d.level outer (c :: cs) =
      (d.level outer rest).map
        (pushForm (.string (inside.map Cell.text).flatten (c.boundsTo last))) := by
  rw [level, descend]
  split <;> simp_all only [reduceCtorEq]
  split <;> simp_all [map_push]

theorem level_emptyTag (hk : d.kind c.text = .sharp) (hl : c.text.getLast? = none) :
    d.level outer (c :: cs) = .error (.emptyTag c) := by
  rw [level, descend]
  split <;> simp_all [Except.map]

theorem level_tag {e : Char} (hk : d.kind c.text = .sharp) (hl : c.text.getLast? = some e)
    (hr : d.regionCloser? [e] = none) :
    d.level outer (c :: cs) =
      (d.level outer cs).map (pushForm (.dispatch c.text [] none (c.boundsTo c))) := by
  rw [level, descend]
  split <;> simp_all [map_push]

theorem level_unclosedRegion {e : Char} {closer : Text} (hk : d.kind c.text = .sharp)
    (hl : c.text.getLast? = some e) (hr : d.regionCloser? [e] = some closer)
    (hcut : cutAt? closer cs = none) :
    d.level outer (c :: cs) = .error (.unclosedRegion closer c) := by
  rw [level, descend]
  split <;> simp_all only [reduceCtorEq]
  split <;> simp_all [Except.map]

/-- A region is read on its own, and only its forms are kept. -/
theorem level_region {e : Char} {closer : Text} (hk : d.kind c.text = .sharp)
    (hl : c.text.getLast? = some e) (hr : d.regionCloser? [e] = some closer)
    (hcut : cutAt? closer cs = some (inside, last, rest)) :
    d.level outer (c :: cs) =
      (d.level none inside).bind fun p =>
        (d.level outer rest).map
          (pushForm (.dispatch c.text p.1 (some closer) (c.boundsTo last))) := by
  rw [level, descend]
  split <;> simp_all only [reduceCtorEq]
  split
  · simp_all
  · rename_i hcut'
    obtain ⟨rfl, rfl, rfl⟩ := by simpa [hcut] using hcut'
    rw [level]
    cases d.descend none inside with
    | error e => rfl
    | ok s => exact map_push _

/-! ## 3. The two readers agree -/

/-- A form in front of a level counts as one that the reader has found. -/
theorem bind_pushForm (levels : List Level) (found : List Node) (n : Node)
    (x : Except ReadError (List Node × List Cell)) :
    ((x.map (pushForm n)).bind fun p => (d.readFrom levels (p.1.reverse ++ found) p.2).result) =
      x.bind fun p => (d.readFrom levels (p.1.reverse ++ n :: found) p.2).result := by
  cases x with
  | error e => rfl
  | ok p => simp [Except.map, Except.bind, pushForm]

/-- Behind the forms of the outermost level the reader is done. -/
theorem bind_outermost (cs : List Cell) :
    ((d.level none cs).bind fun p => (d.readFrom [] (p.1.reverse ++ []) p.2).result) =
      (d.level none cs).map Prod.fst := by
  cases h : d.level none cs with
  | error e => rfl
  | ok p =>
    obtain ⟨ns, rest⟩ := p
    obtain rfl := rest_of_level_none h
    simp [Except.bind, Except.map, readFrom_done]

/-- From these tokens on the reader goes on as it does behind the forms of a level, whatever levels
are open and whatever forms it has found before. -/
def GoesOn (d : Dialect) (cs : List Cell) : Prop :=
  ∀ (levels : List Level) (found : List Node),
    (d.readFrom levels found cs).result =
      (d.level (levels.head?.map Level.bracket) cs).bind fun p =>
        (d.readFrom levels (p.1.reverse ++ found) p.2).result

/-- Behind an opener the new level ends somewhere, and its closer is taken there. -/
theorem GoesOn.opener {b : Bracket} (hk : d.kind c.text = .opener b)
    (h : ∀ rest : List Cell, rest.length ≤ cs.length → d.GoesOn rest) : d.GoesOn (c :: cs) := by
  intro levels found
  rw [readFrom_opener hk, h cs (Nat.le_refl _), level_opener hk, List.head?_cons, Option.map_some]
  cases hlevel : d.level (some b) cs with
  | error e => rfl
  | ok p =>
    obtain ⟨items, left⟩ := p
    obtain ⟨hshort, rfl | ⟨b', last, rest, hb, rfl, hlast⟩⟩ := rest_of_level hlevel
    · simp only [Except.bind, readFrom_unclosedGroup]
      rfl
    · obtain rfl := Option.some.inj hb
      have hrest : rest.length ≤ cs.length := Nat.le_of_succ_le hshort
      simp only [Except.bind]
      rw [readFrom_closer hlast, Traced.result_emitForm, h rest hrest, ← bind_pushForm,
        List.append_nil, List.reverse_reverse]
      rfl

/-- A level stops in front of its closer, so nothing is taken. -/
theorem GoesOn.closer {b : Bracket} (hk : d.kind c.text = .closer b) : d.GoesOn (c :: cs) := by
  intro levels found
  cases levels with
  | nil =>
    rw [readFrom_strayTop hk, List.head?_nil, Option.map_none, level_stray hk (by simp)]
    rfl
  | cons l levels =>
    rw [List.head?_cons, Option.map_some]
    by_cases hb : l.bracket = b
    · subst hb
      rw [level_closer hk]
      rfl
    · rw [readFrom_strayInside hk hb, level_stray hk (by simpa using hb)]
      rfl

/-- A region is a run of its own in both readers. -/
theorem GoesOn.region {e : Char} {closer : Text} (hk : d.kind c.text = .sharp)
    (hl : c.text.getLast? = some e) (hr : d.regionCloser? [e] = some closer)
    (hcut : cutAt? closer cs = some (inside, last, rest)) (hinside : d.GoesOn inside)
    (hrest : d.GoesOn rest) : d.GoesOn (c :: cs) := by
  intro levels found
  rw [readFrom_region hk hl hr hcut, Traced.result_andThen, level_region hk hl hr hcut, hinside,
    List.head?_nil, Option.map_none, bind_outermost]
  cases d.level none inside with
  | error e => rfl
  | ok p =>
    simp only [Except.map, Except.bind, Traced.result_emitForm]
    rw [hrest, ← bind_pushForm]
    rfl

/-- **The two readers agree**, wherever the reader is. -/
theorem readFrom_eq_level (cs : List Cell) : d.GoesOn cs := by
  obtain ⟨n, hn⟩ : ∃ n, cs.length = n := ⟨_, rfl⟩
  induction n using Nat.strongRecOn generalizing cs with
  | _ n ih =>
    subst hn
    cases cs with
    | nil =>
      intro levels found
      rw [level_nil]
      rfl
    | cons c cs =>
      have next : ∀ rest : List Cell, rest.length ≤ cs.length → d.GoesOn rest :=
        fun rest hrest => ih rest.length (Nat.lt_succ_of_le hrest) rest rfl
      cases hk : d.kind c.text with
      | opener b => exact .opener hk next
      | closer b => exact .closer hk
      | leaf =>
        intro levels found
        rw [readFrom_literal hk, Traced.result_emitForm, level_literal hk, bind_pushForm,
          next cs (Nat.le_refl _)]
      | quote =>
        intro levels found
        cases hcut : cutAt? c.text cs with
        | none =>
          rw [readFrom_unclosedString hk hcut, level_unclosedString hk hcut]
          rfl
        | some p =>
          rw [readFrom_string hk hcut, Traced.result_emitForm, level_string hk hcut, bind_pushForm,
            next _ (Nat.le_of_lt (length_of_cutAt? hcut).2)]
      | sharp =>
        cases hl : c.text.getLast? with
        | none =>
          intro levels found
          rw [readFrom_emptyTag hk hl, level_emptyTag hk hl]
          rfl
        | some e =>
          cases hr : d.regionCloser? [e] with
          | none =>
            intro levels found
            rw [readFrom_tag hk hl hr, Traced.result_emitForm, level_tag hk hl hr, bind_pushForm,
              next cs (Nat.le_refl _)]
          | some closer =>
            cases hcut : cutAt? closer cs with
            | none =>
              intro levels found
              rw [readFrom_unclosedRegion hk hl hr hcut, level_unclosedRegion hk hl hr hcut]
              rfl
            | some p =>
              obtain ⟨hinside, hrest⟩ := length_of_cutAt? hcut
              exact .region hk hl hr hcut (next _ (Nat.le_of_lt hinside))
                (next _ (Nat.le_of_lt hrest))

/-- **Reading is reading the outermost level**, and that leaves nothing. -/
theorem read_eq_level (ts : List Token) :
    (d.read ts).result = (d.level none (Cell.number 0 ts)).map Prod.fst := by
  rw [read, readFrom_eq_level, List.head?_nil, Option.map_none, bind_outermost]

end Dialect
end SharpForms
