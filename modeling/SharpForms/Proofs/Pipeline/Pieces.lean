/-
# A text may come in pieces

A stage takes its text from a stream piece by piece: the scanner goes over each piece as it comes,
and the reader starts when the stream has ended.  `Stage.RunsTo` says so, as a relation, since a
stream need not end.  The main result is that a stage makes the same of a stream, trace, places and
errors included, as of the whole text at once: of a stream of given pieces, of a file with any
buffers and read with any size but zero, and so of all of them alike
(`Stage.runsTo_pieces_and_files`).

A stream that fails fails the stage before the reader can say anything: what the scanner makes of
the pieces before is dropped (`ScansTo.failed`).
-/
import SharpForms.Dialect.Table
import SharpForms.Pipeline
import SharpForms.Proofs.Source.Reading

namespace SharpForms

/-! ## 1. Sources and the texts that they hold -/

namespace Source

/-- The pieces of a stream before the first empty one. -/
theorem reads_pieces (ps : List Text) (hps : ∀ p ∈ ps, p ≠ []) (size : ReadSize)
    (more : List Text) : (pieces (ps ++ [] :: more)).reads size = .ok ps := by
  have htake : (ps ++ [] :: more).takeWhile (fun p => !p.isEmpty) = ps := by
    rw [List.takeWhile_append_of_pos]
    · simp
    · intro p hp
      simpa using hps p hp
  rw [reads, htake]

/-- A text that is cut with any size but zero is not lost. -/
theorem flatten_cut {size : ReadSize} (hsize : size ≠ .atMost 0) (t : Text) :
    (cut size t).flatten = t := by
  cases size with
  | everything => cases t <;> simp [cut]
  | atMost n =>
    have hn : 0 < n := Nat.pos_of_ne_zero fun h => hsize (h ▸ rfl)
    exact flatten_chunks hn t

/-- Only bytes that are not UTF-8 have no text. -/
theorem decode?_eq_none_iff {bytes : ByteArray} : decode? bytes = none ↔ ¬ bytes.IsValidUTF8 := by
  rw [decode?, Option.map_eq_none_iff, ← ByteArray.isSome_utf8Decode?_iff,
    Option.not_isSome_iff_eq_none]

end Source

theorem Text.units_flatten (ps : List Text) : units ps.flatten = (ps.map units).flatten := by
  unfold units
  exact List.map_flatten

theorem ReadSize.ofLimit_ne_zero {limit : Option Int} (h : limit ≠ some 0) :
    ReadSize.ofLimit limit ≠ .atMost 0 := by
  unfold ReadSize.ofLimit
  split
  · simp
  · next n =>
    have hn : n ≠ 0 := fun hz => h (congrArg some hz)
    split
    · simp
    · simp only [ne_eq, ReadSize.atMost.injEq]
      omega

namespace Stage

variable (d : Dialect) (r : Rules) (stage : Stage)

/-- What a stage makes of a text that may be missing. -/
def ofText : Except SourceError Text → Traced Failure Product
  | .error e => .fail (.source e)
  | .ok t => stage.run d r (Text.units t)

/-- The pieces of a source are as good as their text. -/
theorem runSource_eq {size : ReadSize} {s : Source} :
    stage.runSource d r size s = stage.ofText d r ((s.reads size).map List.flatten) := by
  unfold runSource
  cases s.reads size with
  | error e => rfl
  | ok pieces =>
    simp only [Except.map, ofText, run, Dialect.scanPieces, Dialect.scan, Text.units_flatten,
      Dialect.tokenizePieces_eq]

/-- A file is as good as its text, whatever the size of the reads. -/
theorem runSource_file {size : ReadSize} (hsize : size ≠ .atMost 0) (bytes : ByteArray) :
    stage.runSource d r size (.file bytes) =
      stage.ofText d r ((Source.decode? bytes).elim (.error .notUtf8) .ok) := by
  rw [runSource_eq]
  congr 1
  simp only [Source.reads, if_neg hsize]
  cases Source.decode? bytes with
  | none => rfl
  | some t => exact congrArg Except.ok (Source.flatten_cut hsize t)

end Stage

/-! ## 2. A scanner that takes its text from a stream -/

section

variable {σ : Type} (d : Dialect) (r : Rules) (read : σ → Except SourceError (Text × σ))

/-- The scanner behind a stream, or the failure of the stream. -/
inductive ScansTo : Scanner → σ → Except SourceError Scanner → Prop
  | ended {sc : Scanner} {s s' : σ} : read s = .ok ([], s') → ScansTo sc s (.ok sc)
  | failed {sc : Scanner} {s : σ} {e : SourceError} : read s = .error e → ScansTo sc s (.error e)
  | piece {sc : Scanner} {s s' : σ} {p : Text} {out : Except SourceError Scanner} :
      read s = .ok (p, s') → p ≠ [] → ScansTo (sc.feed d (Text.units p)) s' out → ScansTo sc s out

variable {read}

/-- **The scanner goes over a stream as over the text that it gives**, and there is no other
outcome. -/
theorem Drains.scansTo_iff {s : σ} {text : Except SourceError Text} (h : Drains read s text)
    (sc : Scanner) (out : Except SourceError Scanner) :
    ScansTo d read sc s out ↔ out = text.map fun t => sc.feed d (Text.units t) := by
  induction h generalizing sc with
  | ended hread =>
    constructor
    · intro hscan
      cases hscan with
      | ended => rfl
      | failed h => cases hread.symm.trans h
      | piece h hp =>
        cases hread.symm.trans h
        exact absurd rfl hp
    · rintro rfl
      exact .ended hread
  | failed hread =>
    constructor
    · intro hscan
      cases hscan with
      | ended h => cases hread.symm.trans h
      | failed h =>
        cases hread.symm.trans h
        rfl
      | piece h => cases hread.symm.trans h
    · rintro rfl
      exact .failed hread
  | @piece s s' p rest hread hp hdrains ih =>
    have hfeed : (rest.map (p ++ ·)).map (fun t => sc.feed d (Text.units t)) =
        rest.map fun t => (sc.feed d (Text.units p)).feed d (Text.units t) := by
      cases rest with
      | error e => rfl
      | ok t =>
        simp only [Except.map]
        rw [Text.units_append, Scanner.feed_append]
    rw [hfeed, ← ih]
    constructor
    · intro hscan
      cases hscan with
      | ended h =>
        cases hread.symm.trans h
        exact absurd rfl hp
      | failed h => cases hread.symm.trans h
      | piece h _ hscan =>
        cases hread.symm.trans h
        exact hscan
    · exact .piece hread hp

namespace Stage

variable (stage : Stage)

/-- What a stage makes of the scanner behind the whole text. -/
def ofScanner : Except SourceError Scanner → Traced Failure Product
  | .error e => .fail (.source e)
  | .ok sc =>
    let ts := (sc.finish d).tokens
    ((Traced.done ts).emit (.tokens ts)).andThen (stage.ofTokens d r)

/-- What a stage makes of a stream. -/
def RunsTo (read : σ → Except SourceError (Text × σ)) (s : σ) (out : Traced Failure Product) :
    Prop :=
  ∃ scanned, ScansTo d read {} s scanned ∧ out = stage.ofScanner d r scanned

/-- A stage makes the same of a stream as of the text that it gives. -/
theorem runsTo_iff {s : σ} {text : Except SourceError Text} (h : Drains read s text)
    (out : Traced Failure Product) :
    stage.RunsTo d r read s out ↔ out = stage.ofText d r text := by
  have hscanner : stage.ofScanner d r (text.map fun t => ({} : Scanner).feed d (Text.units t)) =
      stage.ofText d r text := by
    cases text <;> rfl
  simp only [RunsTo, h.scansTo_iff, exists_eq_left, hscanner]

end Stage

end

/-! ## 3. Pieces, files and whole texts -/

namespace Stage

variable (d : Dialect) (r : Rules) (stage : Stage)

/-- A stream of given pieces is as good as those before the first empty one. -/
theorem runsTo_pieces (reads : Nat → Text) {k : Nat} (hk : reads k = [])
    (hsome : ∀ i < k, reads i ≠ []) (out : Traced Failure Product) :
    stage.RunsTo d r (fun i => .ok (reads i, i + 1)) 0 out ↔
      out = stage.run d r (Text.units ((List.range k).map reads).flatten) := by
  have hdrains := drains_pieces reads hk 0 (Nat.zero_le k) fun j _ hj => hsome j hj
  rw [Nat.sub_zero, ← List.range_eq_range'] at hdrains
  exact runsTo_iff d r stage hdrains out

/-- A file that is read in some way is as good as its text. -/
theorem runsTo_file {rj : Rejection} {size : ReadSize}
    {read : OpenFile → Except SourceError (Text × OpenFile)}
    (hread : ∀ f, OpenFile.Reads rj size f (read f)) (buffers : List (List UInt8))
    (out : Traced Failure Product) :
    stage.RunsTo d r read (OpenFile.start buffers) out ↔
      out = stage.ofText d r
        ((Source.decode? buffers.flatten.toByteArray).elim (.error .notUtf8) .ok) := by
  have hdrains := OpenFile.drains hread (f := OpenFile.start buffers)
    (Decoder.open_of_held_nil rfl)
  rw [OpenFile.outcome_start] at hdrains
  exact runsTo_iff d r stage hdrains out

/-- **A stage makes the same of a text in pieces as of the whole text.**  A stream stands for its
pieces before the first empty one.  A file stands for its text with every line end a newline,
however long its buffers are and whatever a read gives as long as the text lasts, and a file that is
not UTF-8 throughout fails whatever its text may be. -/
theorem runsTo_pieces_and_files :
    (∀ (reads : Nat → Text) (k : Nat), reads k = [] → (∀ i < k, reads i ≠ []) →
      let t := ((List.range k).map reads).flatten
      (∀ out, stage.RunsTo d r (fun i => .ok (reads i, i + 1)) 0 out ↔
        out = stage.run d r (Text.units t)) ∧
      ∀ size more, stage.runSource d r size (.pieces ((List.range k).map reads ++ [] :: more)) =
        stage.run d r (Text.units t)) ∧
    ∀ (rj : Rejection) (buffers : List (List UInt8)) (limit : Option Int)
      (read : OpenFile → Except SourceError (Text × OpenFile)), limit ≠ some 0 →
      (∀ f, OpenFile.Reads rj (.ofLimit limit) f (read f)) →
      let bytes := buffers.flatten.toByteArray
      (∀ t : Text, bytes = List.utf8Encode t →
        (∀ out, stage.RunsTo d r read (OpenFile.start buffers) out ↔
          out = stage.run d r (Text.units (Text.unifyNewlines t))) ∧
        stage.runSource d r (.ofLimit limit) (.file bytes) =
          stage.run d r (Text.units (Text.unifyNewlines t))) ∧
      (¬ bytes.IsValidUTF8 →
        (∀ out, stage.RunsTo d r read (OpenFile.start buffers) out ↔
          out = .fail (.source .notUtf8)) ∧
        stage.runSource d r (.ofLimit limit) (.file bytes) = .fail (.source .notUtf8)) := by
  refine ⟨?_, ?_⟩
  · intro reads k hk hsome t
    refine ⟨runsTo_pieces d r stage reads hk hsome, ?_⟩
    intro size more
    rw [runSource_eq, Source.reads_pieces]
    · rfl
    · simpa using hsome
  · intro rj buffers limit read hlimit hread bytes
    -- both ways to take a file make of it what its text is
    have hruns := runsTo_file d r stage hread buffers
    have hfile := runSource_file d r stage (ReadSize.ofLimit_ne_zero hlimit) bytes
    refine ⟨?_, ?_⟩
    · intro t ht
      have hdecode : Source.decode? bytes = some (Text.unifyNewlines t) := by
        rw [Source.decode?, ht, List.utf8Decode?_utf8Encode]
        rfl
      rw [hdecode] at hruns hfile
      exact ⟨hruns, hfile⟩
    · intro hbytes
      rw [Source.decode?_eq_none_iff.2 hbytes] at hruns hfile
      exact ⟨hruns, hfile⟩

/-- A letter of two bytes and the two characters of one line end lie across buffers, and one
character is read at a time.  A letter whose second byte is missing outweighs a list that is not
closed. -/
theorem runsTo_pieces_and_files_split :
    let rj : Rejection := ⟨fun _ => false, fun h => by cases h⟩
    let read := OpenFile.read rj (.atMost 1)
    let lines := Table.lines.dialect
    (∀ out, Stage.read.RunsTo lines .usual
        (fun i => .ok (if i = 0 then ['('] else [], i + 1)) 0 out ↔
      out = Stage.read.run lines .usual [['(']]) ∧
    (∀ out, Stage.read.RunsTo lines .usual read
        (OpenFile.start [[0x28, 0xC3], [0xA9, 0x0D], [0x0A, 0x29]]) out ↔
      out = Stage.read.run lines .usual [['('], ['é'], ['\n'], [')']]) ∧
    ∀ out, Stage.read.RunsTo lines .usual read (OpenFile.start [[0x28], [0xC3]]) out ↔
      out = .fail (.source .notUtf8) := by
  intro rj read lines
  obtain ⟨hstream, hfile⟩ := runsTo_pieces_and_files lines .usual .read
  have hread : ∀ f, OpenFile.Reads rj (.ofLimit (some 1)) f (read f) :=
    OpenFile.reads_read (by decide)
  refine ⟨?_, ?_, ?_⟩
  · exact (hstream (fun i => if i = 0 then ['('] else []) 1 rfl (by decide)).1
  · exact ((hfile rj _ (some 1) read (by decide) hread).1 ['(', 'é', '\r', '\n', ')']
      (by decide +kernel)).1
  · exact ((hfile rj _ (some 1) read (by decide) hread).2 (by decide +kernel)).1

end Stage

end SharpForms
