/-
# Reading a stream until it ends

A STREAM is anything that answers a read with a piece of text and goes on from there.  It has ended
when it answers with an empty piece, and a read may also fail.  `Drains` says what all reads give
together: the pieces put together, or the failure.

An OPEN FILE is such a stream.  It takes the bytes of the file buffer by buffer, decodes them as
they come (`Decoder`), and gives away what is decoded, no more than is asked for and something until
all is given.  How long the buffers are, how many of them are taken for one read, and how much of
what is asked for is given, is left open (`OpenFile.Reads`).  Whatever the choice, all reads give
together the decoded file, or the failure to decode it (`OpenFile.drains`,
`OpenFile.outcome_start`).  `OpenFile.read` is one such reader.

The induction for a file is on its BUDGET, the bytes and characters that it still holds.  The text
that is still to come would not do, since a file that cannot be decoded has none.
-/
import SharpForms.Proofs.Text.Decoding

namespace SharpForms

/-! ## 1. Streams -/

section

variable {σ : Type} {read : σ → Except SourceError (Text × σ)}

/-- What the reads of a stream give until an empty piece ends it. -/
inductive Drains (read : σ → Except SourceError (Text × σ)) : σ → Except SourceError Text → Prop
  | ended {s s' : σ} : read s = .ok ([], s') → Drains read s (.ok [])
  | failed {s : σ} {e : SourceError} : read s = .error e → Drains read s (.error e)
  | piece {s s' : σ} {p : Text} {rest : Except SourceError Text} :
      read s = .ok (p, s') → p ≠ [] → Drains read s' rest → Drains read s (rest.map (p ++ ·))

/-- A stream of given pieces gives those before the first empty one. -/
theorem drains_pieces (reads : Nat → Text) {k : Nat} (hk : reads k = []) (i : Nat) (hi : i ≤ k)
    (hne : ∀ j, i ≤ j → j < k → reads j ≠ []) :
    Drains (fun j => .ok (reads j, j + 1)) i (.ok ((List.range' i (k - i)).map reads).flatten) := by
  induction hd : k - i generalizing i with
  | zero =>
    obtain rfl : i = k := by omega
    exact .ended (by rw [hk])
  | succ n ih =>
    have hrest := ih (i + 1) (by omega) (fun j hj hjk => hne j (by omega) hjk) (by omega)
    rw [List.range'_succ, List.map_cons, List.flatten_cons]
    exact .piece rfl (hne i (by omega) (by omega)) hrest

end

/-! ## 2. Open files -/

namespace ReadSize

/-- A read of this size may give so many characters. -/
def Admits : ReadSize → Nat → Prop
  | everything, _ => True
  | atMost n, k => k ≤ n

end ReadSize

/-- A file that is being read: the buffers that are still to come, what the decoder carries over,
and the text that is decoded and not given yet. -/
structure OpenFile where
  buffers : List (List UInt8)
  decoder : Decoder := {}
  ready : Text := []

namespace OpenFile

/-- What a read of some size may answer, and the file behind it. -/
inductive Reads (rj : Rejection) (size : ReadSize) :
    OpenFile → Except SourceError (Text × OpenFile) → Prop
  | buffer {b : List UInt8} {bs : List (List UInt8)} {d d' : Decoder} {ready t : Text}
      {answer : Except SourceError (Text × OpenFile)} :
      d.feed rj b = some (t, d') → Reads rj size ⟨bs, d', ready ++ t⟩ answer →
        Reads rj size ⟨b :: bs, d, ready⟩ answer
  | last {d : Decoder} {ready t : Text} {answer : Except SourceError (Text × OpenFile)} :
      d.finish = some t → Reads rj size ⟨[], {}, ready ++ t⟩ answer →
        Reads rj size ⟨[], d, ready⟩ answer
  | give {bs : List (List UInt8)} {d : Decoder} {p later : Text} :
      p ≠ [] → size.Admits p.length → Reads rj size ⟨bs, d, p ++ later⟩ (.ok (p, ⟨bs, d, later⟩))
  | ended : Reads rj size ⟨[], {}, []⟩ (.ok ([], ⟨[], {}, []⟩))
  | refused {b : List UInt8} {bs : List (List UInt8)} {d : Decoder} {ready : Text} :
      d.feed rj b = none → Reads rj size ⟨b :: bs, d, ready⟩ (.error .notUtf8)
  | unfinished {d : Decoder} {ready : Text} :
      d.finish = none → Reads rj size ⟨[], d, ready⟩ (.error .notUtf8)

/-- The text that is still to be given, if the rest of the file can be decoded. -/
def rest? (f : OpenFile) : Option Text :=
  (f.decoder.decode? f.buffers.flatten).map (f.ready ++ ·)

/-- The bytes and characters that the file still holds. -/
def budget (f : OpenFile) : Nat := f.buffers.flatten.length + f.decoder.weight + f.ready.length

/-- An answer accounts for the text that was still to be given: it gives some of it, unless all has
been given, or fails because there is none. -/
def Accounts (f : OpenFile) : Except SourceError (Text × OpenFile) → Prop
  | .ok (p, f') =>
    f'.decoder.Open ∧ f.rest? = f'.rest?.map (p ++ ·) ∧ (p = [] → f.rest? = some []) ∧
      f'.budget + p.length ≤ f.budget
  | .error e => e = .notUtf8 ∧ f.rest? = none

variable {rj : Rejection} {size : ReadSize} {f g : OpenFile}
  {answer : Except SourceError (Text × OpenFile)}

/-- Decoding some more of the file changes nothing about what is still to be given. -/
theorem Accounts.of_decoded (hrest : f.rest? = g.rest?) (hbudget : g.budget ≤ f.budget)
    (h : g.Accounts answer) : f.Accounts answer := by
  cases answer with
  | ok answer =>
    obtain ⟨hopen, hgiven, hend, hless⟩ := h
    exact ⟨hopen, hrest.trans hgiven, fun hp => hrest.trans (hend hp), by omega⟩
  | error e => exact ⟨h.1, hrest.trans h.2⟩

theorem Reads.accounts (h : Reads rj size f answer) (hf : f.decoder.Open) :
    f.Accounts answer := by
  induction h with
  | @buffer b bs d d' ready t answer hfeed _ ih =>
    obtain ⟨hopen, hdecode⟩ := Decoder.decode?_of_feed hf hfeed
    refine (ih hopen).of_decoded ?_ ?_
    · simp only [rest?, List.flatten_cons, hdecode, Option.map_map]
      congr 1
      funext u
      simp
    · have hweight := Decoder.weight_of_feed hfeed
      simp only [budget, List.flatten_cons, List.length_append]
      omega
  | @last d ready t answer hfinish _ ih =>
    refine (ih (Decoder.open_of_held_nil rfl)).of_decoded ?_ ?_
    · simp only [rest?, List.flatten_nil, ← Decoder.finish_eq hf, hfinish,
        ← Decoder.finish_eq (Decoder.open_of_held_nil (d := {}) rfl)]
      simp [Decoder.finish]
    · have hweight := Decoder.weight_of_finish hfinish
      simp only [budget, List.length_append, Decoder.weight, Text.waiting] at hweight ⊢
      simp
      omega
  | @give bs d p later hp _ =>
    refine ⟨hf, ?_, fun h => absurd h hp, ?_⟩
    · simp only [rest?, Option.map_map]
      congr 1
      funext u
      simp
    · simp only [budget, List.length_append]
      omega
  | ended =>
    have hrest : rest? ⟨[], {}, []⟩ = some [] := by
      rw [rest?, List.flatten_nil, ← Decoder.finish_eq hf]
      rfl
    exact ⟨hf, by rw [hrest]; rfl, fun _ => hrest, by simp⟩
  | refused hfeed =>
    refine ⟨rfl, ?_⟩
    rw [rest?, List.flatten_cons, Decoder.decode?_of_feed_none hf hfeed, Option.map_none]
  | unfinished hfinish =>
    refine ⟨rfl, ?_⟩
    rw [rest?, List.flatten_nil, ← Decoder.finish_eq hf, hfinish, Option.map_none]

/-- What all reads together should give. -/
def outcome (f : OpenFile) : Except SourceError Text := f.rest?.elim (.error .notUtf8) .ok

/-- **However a file is read, all reads together give its text, or the failure to decode it.** -/
theorem drains {read : OpenFile → Except SourceError (Text × OpenFile)}
    (hread : ∀ f, Reads rj size f (read f)) (hf : f.decoder.Open) : Drains read f f.outcome := by
  induction hn : f.budget using Nat.strongRecOn generalizing f with
  | _ n ih =>
    have haccounts := (hread f).accounts hf
    cases hanswer : read f with
    | error e =>
      rw [hanswer] at haccounts
      obtain ⟨rfl, hrest⟩ := haccounts
      rw [outcome, hrest]
      exact .failed hanswer
    | ok answer =>
      obtain ⟨p, f'⟩ := answer
      rw [hanswer] at haccounts
      obtain ⟨hopen, hrest, hend, hless⟩ := haccounts
      by_cases hp : p = []
      · subst hp
        rw [outcome, hend rfl]
        exact .ended hanswer
      · have hlength := List.length_pos_iff.2 hp
        have hmore := Drains.piece hanswer hp (ih f'.budget (by omega) hopen rfl)
        have houtcome : f.outcome = f'.outcome.map (p ++ ·) := by
          rw [outcome, outcome, hrest]
          cases f'.rest? <;> rfl
        rw [houtcome]
        exact hmore

/-- A file that is opened, with the buffers in which it comes. -/
def start (buffers : List (List UInt8)) : OpenFile := ⟨buffers, {}, []⟩

theorem outcome_start (buffers : List (List UInt8)) :
    (start buffers).outcome =
      (Source.decode? buffers.flatten.toByteArray).elim (.error .notUtf8) .ok := by
  rw [outcome, rest?, start, Decoder.decode?_start]
  simp

end OpenFile

/-! ## 3. A reader that gives as much as is asked for -/

namespace ReadSize

/-- There are as many characters as are asked for. -/
def isMet : ReadSize → Text → Bool
  | everything, _ => false
  | atMost n, t => decide (n ≤ t.length)

/-- What is given of a text, and what is left of it. -/
def split : ReadSize → Text → Text × Text
  | everything, t => (t, [])
  | atMost n, t => (t.take n, t.drop n)

end ReadSize

namespace OpenFile

variable {rj : Rejection} {size : ReadSize}

/-- Takes buffers until there are enough characters or the file ends, and gives what is asked
for. -/
def readFrom (rj : Rejection) (size : ReadSize) :
    List (List UInt8) → Decoder → Text → Except SourceError (Text × OpenFile)
  | [], d, ready =>
    match d.finish with
    | none => .error .notUtf8
    | some t => .ok ((size.split (ready ++ t)).1, ⟨[], {}, (size.split (ready ++ t)).2⟩)
  | b :: bs, d, ready =>
    if size.isMet ready then .ok ((size.split ready).1, ⟨b :: bs, d, (size.split ready).2⟩)
    else match d.feed rj b with
      | none => .error .notUtf8
      | some (t, d) => readFrom rj size bs d (ready ++ t)

/-- One read of a file. -/
def read (rj : Rejection) (size : ReadSize) (f : OpenFile) : Except SourceError (Text × OpenFile) :=
  readFrom rj size f.buffers f.decoder f.ready

/-- What is given off a text that is decoded is something, and no more than is asked for. -/
theorem reads_split (hsize : size ≠ .atMost 0) {t : Text} (ht : t ≠ []) (bs : List (List UInt8))
    (d : Decoder) :
    Reads rj size ⟨bs, d, t⟩ (.ok ((size.split t).1, ⟨bs, d, (size.split t).2⟩)) := by
  have hgive : (size.split t).1 ++ (size.split t).2 = t := by
    cases size <;> simp [ReadSize.split]
  have hsome : (size.split t).1 ≠ [] := by
    cases size with
    | everything => exact ht
    | atMost n =>
      intro hnil
      rcases List.take_eq_nil_iff.1 hnil with rfl | h
      · exact hsize rfl
      · exact ht h
  have hless : size.Admits (size.split t).1.length := by
    cases size with
    | everything => trivial
    | atMost n => exact List.length_take_le n t
  have hreads : Reads rj size ⟨bs, d, (size.split t).1 ++ (size.split t).2⟩ _ := .give hsome hless
  rwa [hgive] at hreads

/-- Such a reader answers as a read may answer. -/
theorem reads_read (hsize : size ≠ .atMost 0) (f : OpenFile) :
    Reads rj size f (f.read rj size) := by
  obtain ⟨buffers, d, ready⟩ := f
  simp only [read]
  induction buffers generalizing d ready with
  | nil =>
    rw [readFrom]
    split
    · next hfinish => exact .unfinished hfinish
    · next t hfinish =>
      refine .last hfinish ?_
      by_cases ht : ready ++ t = []
      · rw [ht]
        have hnothing : size.split [] = ([], []) := by
          cases size <;> simp [ReadSize.split]
        rw [hnothing]
        exact .ended
      · exact reads_split hsize ht [] {}
  | cons b bs ih =>
    rw [readFrom]
    split
    · next hmet =>
      refine reads_split hsize ?_ (b :: bs) d
      rintro rfl
      cases size with
      | everything => cases hmet
      | atMost n =>
        have hn : n ≠ 0 := fun h => hsize (h ▸ rfl)
        simp [ReadSize.isMet] at hmet
        exact hn hmet
    · split
      · next hfeed => exact .refused hfeed
      · next t d' hfeed => exact .buffer hfeed (ih d' (ready ++ t))

end OpenFile

end SharpForms
