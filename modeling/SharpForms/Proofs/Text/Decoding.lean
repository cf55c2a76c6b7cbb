/-
# Decoding a file as its bytes come

A file is decoded as its bytes come, so a character may lie across two buffers, and so may the two
characters of one line end.  What is carried over is the bytes of a character that is not complete
and whether a carriage return waits for what follows it.

The DECODER here takes one byte at a time.  It is strict: bytes with which no character begins are
given up, at once or later (`Rejection`), and so are bytes that are left over at the end.  The main
facts:

* whatever a byte brings, what is decoded from there on is what was to be decoded before
  (`Decoder.decode?_of_push`), and a byte is refused only where nothing can be decoded any more
  (`Decoder.decode?_of_push_none`);
* so buffers may end anywhere (`Decoder.decode?_of_feed`, `Decoder.decode?_of_feed_none`), and
  from the start it is the file that is decoded (`Decoder.decode?_start`).
-/
import SharpForms.Source

namespace SharpForms

/-! ## 1. Line ends, one character at a time -/

namespace Text

/-- The text of a carriage return that waits. -/
def waiting (returned : Bool) : Text := if returned then ['\r'] else []

/-- The text that one more character gives, and whether a carriage return waits behind it. -/
def unifyStep (returned : Bool) (c : Char) : Text × Bool :=
  if c = '\r' then (if returned then ['\n'] else [], true)
  else if c = '\n' then (['\n'], false)
  else (if returned then ['\n', c] else [c], false)

/-- The end of the text is the end of the line that a waiting return ends. -/
theorem unifyNewlines_waiting (returned : Bool) :
    unifyNewlines (waiting returned) = if returned then ['\n'] else [] := by
  cases returned <;> rfl

theorem unifyNewlines_return {c : Char} (hc : c ≠ '\n') (t : Text) :
    unifyNewlines ('\r' :: c :: t) = '\n' :: unifyNewlines (c :: t) := by
  rw [unifyNewlines]
  · simp
  · intro rest _ h
    exact hc (List.cons.inj h).1

theorem unifyNewlines_cons {c : Char} (hc : c ≠ '\r') (t : Text) :
    unifyNewlines (c :: t) = c :: unifyNewlines t := by
  rw [unifyNewlines]
  · simp [hc]
  · intro rest h
    exact absurd h hc

/-- One character is taken after the other. -/
theorem unifyNewlines_step (returned : Bool) (c : Char) (t : Text) :
    unifyNewlines (waiting returned ++ c :: t) =
      (unifyStep returned c).1 ++ unifyNewlines (waiting (unifyStep returned c).2 ++ t) := by
  unfold unifyStep
  by_cases hr : c = '\r'
  · subst hr
    cases returned with
    | false => rfl
    | true => exact unifyNewlines_return (by decide) t
  · by_cases hn : c = '\n'
    · subst hn
      cases returned <;> rfl
    · cases returned with
      | false => simp [waiting, hr, hn, unifyNewlines_cons]
      | true => simp [waiting, hr, hn, unifyNewlines_cons, unifyNewlines_return hn t]

/-- A character gives no more than itself and the return that waited. -/
theorem length_unifyStep (returned : Bool) (c : Char) :
    (unifyStep returned c).1.length + (waiting (unifyStep returned c).2).length ≤
      (waiting returned).length + 1 := by
  unfold unifyStep
  split
  · cases returned <;> simp [waiting]
  · split <;> cases returned <;> simp [waiting]

end Text

/-! ## 2. Bytes and the characters they begin with -/

/-- A character stands at the start of some bytes exactly if its encoding does. -/
theorem utf8DecodeChar?_eq_some_iff {bs : List UInt8} {c : Char} :
    bs.toByteArray.utf8DecodeChar? 0 = some c ↔ String.utf8EncodeChar c <+: bs := by
  constructor
  · intro h
    obtain ⟨rest, hrest⟩ := ByteArray.exists_of_utf8DecodeChar?_eq_some h
    refine ⟨rest.data.toList, List.toByteArray_inj.1 ?_⟩
    rw [List.toByteArray_append, hrest]
    congr 1
    ext1
    simp
  · rintro ⟨rest, rfl⟩
    rw [List.toByteArray_append]
    exact ByteArray.utf8DecodeChar?_utf8EncodeChar_append

/-- The first character is decoded, and then the rest. -/
theorem utf8Decode?_char_append (c : Char) (bs : List UInt8) :
    (String.utf8EncodeChar c ++ bs).toByteArray.utf8Decode? =
      bs.toByteArray.utf8Decode?.map (#[c] ++ ·) := by
  rw [List.toByteArray_append, ← List.utf8Encode_singleton]
  exact ByteArray.utf8Decode?_utf8Encode_singleton_append

/-- Bytes with which no character begins cannot be decoded. -/
theorem utf8Decode?_eq_none {bs : List UInt8} (hbs : bs ≠ [])
    (h : ∀ c, ¬ String.utf8EncodeChar c <+: bs) : bs.toByteArray.utf8Decode? = none := by
  rw [← Option.not_isSome_iff_eq_none, ByteArray.isSome_utf8Decode?_iff]
  rintro ⟨cs, hcs⟩
  rw [List.utf8Encode, List.toByteArray_inj] at hcs
  cases cs with
  | nil => exact hbs hcs
  | cons c cs => exact h c ⟨cs.flatMap String.utf8EncodeChar, hcs.symm⟩

/-! ## 3. The decoder -/

/-- When bytes that are no character yet are given up: not before it is certain that no character
begins with them. -/
structure Rejection where
  rejects : List UInt8 → Bool
  sound : ∀ {bs : List UInt8} {c : Char}, rejects bs = true → ¬ bs <+: String.utf8EncodeChar c

/-- What is carried over: the bytes of a character that is not complete, and whether a carriage
return waits. -/
structure Decoder where
  held : List UInt8 := []
  returned : Bool := false

namespace Decoder

/-- What is decoded from here on, if these bytes are all that is still to come. -/
def decode? (d : Decoder) (bs : List UInt8) : Option Text :=
  (d.held ++ bs).toByteArray.utf8Decode?.map fun cs =>
    Text.unifyNewlines (Text.waiting d.returned ++ cs.toList)

/-- No character is held back. -/
def Open (d : Decoder) : Prop := ∀ c, ¬ String.utf8EncodeChar c <+: d.held

/-- The text that one more byte gives, unless the byte is refused.  No character is longer than four
bytes. -/
def push (rj : Rejection) (d : Decoder) (b : UInt8) : Option (Text × Decoder) :=
  let bytes := d.held ++ [b]
  match bytes.toByteArray.utf8DecodeChar? 0 with
  | some c =>
    let (t, returned) := Text.unifyStep d.returned c
    some (t, ⟨[], returned⟩)
  | none =>
    if rj.rejects bytes || 4 ≤ bytes.length then none else some ([], { d with held := bytes })

/-- The text that a buffer gives, unless one of its bytes is refused. -/
def feed (rj : Rejection) (d : Decoder) : List UInt8 → Option (Text × Decoder)
  | [] => some ([], d)
  | b :: bs =>
    match d.push rj b with
    | none => none
    | some (t, d) => (d.feed rj bs).map fun (u, d) => (t ++ u, d)

/-- The text that the end of the file gives, unless bytes are left over. -/
def finish (d : Decoder) : Option Text :=
  if d.held.isEmpty then some (if d.returned then ['\n'] else []) else none

variable {rj : Rejection} {d d' : Decoder} {t : Text} {b : UInt8}

theorem open_of_held_nil (h : d.held = []) : d.Open := by
  intro c hc
  rw [h, List.prefix_nil] at hc
  have hsize := c.utf8Size_pos
  rw [← String.length_utf8EncodeChar, hc] at hsize
  exact absurd hsize (by simp)

/-- From the start it is the file that is decoded. -/
theorem decode?_start (bs : List UInt8) :
    ({} : Decoder).decode? bs = Source.decode? bs.toByteArray := rfl

/-- At the end of the file nothing may be held back. -/
theorem finish_eq (hd : d.Open) : d.finish = d.decode? [] := by
  unfold finish decode?
  rw [List.append_nil]
  cases hheld : d.held with
  | nil => simp [Text.unifyNewlines_waiting]
  | cons b bs =>
    rw [utf8Decode?_eq_none (by simp) (by rw [← hheld]; exact hd)]
    rfl

/-- **A byte changes nothing about what is decoded in all.** -/
theorem decode?_of_push (hd : d.Open) (h : d.push rj b = some (t, d')) :
    d'.Open ∧ ∀ bs, d.decode? (b :: bs) = (d'.decode? bs).map (t ++ ·) := by
  simp only [push] at h
  split at h
  · next c hc =>
    -- the byte completes a character
    rw [utf8DecodeChar?_eq_some_iff, List.prefix_concat_iff] at hc
    have hbytes := hc.resolve_right (hd c)
    cases h
    refine ⟨open_of_held_nil rfl, ?_⟩
    intro bs
    unfold decode?
    rw [← List.singleton_append, ← List.append_assoc, ← hbytes, utf8Decode?_char_append]
    simp only [Option.map_map]
    congr 1
    funext cs
    simp [Text.unifyNewlines_step]
  · next hnone =>
    -- the byte is held back
    split at h
    · cases h
    · cases h
      refine ⟨?_, ?_⟩
      · intro c hc
        rw [utf8DecodeChar?_eq_some_iff.2 hc] at hnone
        cases hnone
      · intro bs
        simp only [decode?, List.append_assoc, List.singleton_append, Option.map_map]
        rfl

/-- **A byte is refused only where nothing can be decoded any more.** -/
theorem decode?_of_push_none (h : d.push rj b = none) (bs : List UInt8) :
    d.decode? (b :: bs) = none := by
  simp only [push] at h
  split at h
  · cases h
  · next hnone =>
    have hbytes : ∀ c, ¬ String.utf8EncodeChar c <+: (d.held ++ [b]) := by
      intro c hc
      rw [utf8DecodeChar?_eq_some_iff.2 hc] at hnone
      cases hnone
    unfold decode?
    rw [utf8Decode?_eq_none (by simp), Option.map_none]
    intro c hc
    rw [← List.singleton_append, ← List.append_assoc] at hc
    split at h
    · next hreject =>
      obtain hshort | hlong := List.prefix_or_prefix_of_prefix hc (List.prefix_append _ bs)
      · exact hbytes c hshort
      · rw [Bool.or_eq_true, decide_eq_true_iff] at hreject
        obtain hreject | hfour := hreject
        · exact rj.sound hreject hlong
        · have hsize := c.utf8Size_le_four
          rw [← String.length_utf8EncodeChar] at hsize
          have heq := hlong.eq_of_length_le (by omega)
          exact hbytes c (heq ▸ List.prefix_rfl)
    · cases h

/-- The bytes and the carriage return that are carried over. -/
def weight (d : Decoder) : Nat := d.held.length + (Text.waiting d.returned).length

/-- A byte gives no more text than there are bytes for. -/
theorem weight_of_push (h : d.push rj b = some (t, d')) :
    t.length + d'.weight ≤ d.weight + 1 := by
  simp only [push] at h
  unfold weight
  split at h
  · next c _ =>
    cases h
    have hstep := Text.length_unifyStep d.returned c
    simp only [List.length_nil]
    omega
  · split at h
    · cases h
    · cases h
      simp only [List.length_append, List.length_singleton, List.length_nil]
      omega

/-- Buffers may end anywhere. -/
theorem decode?_of_feed (hd : d.Open) {buffer : List UInt8}
    (h : d.feed rj buffer = some (t, d')) :
    d'.Open ∧ ∀ bs, d.decode? (buffer ++ bs) = (d'.decode? bs).map (t ++ ·) := by
  induction buffer generalizing d t with
  | nil =>
    cases h
    exact ⟨hd, fun bs => by simp⟩
  | cons b buffer ih =>
    rw [feed] at h
    split at h
    · cases h
    · next u e hpush =>
      obtain ⟨⟨u', e'⟩, hfeed, heq⟩ := Option.map_eq_some_iff.1 h
      cases heq
      obtain ⟨he, hbyte⟩ := decode?_of_push hd hpush
      obtain ⟨hd', hrest⟩ := ih he hfeed
      refine ⟨hd', ?_⟩
      intro bs
      rw [List.cons_append, hbyte, hrest, Option.map_map]
      congr 1
      funext v
      simp

/-- A buffer is refused only where nothing can be decoded any more. -/
theorem decode?_of_feed_none (hd : d.Open) {buffer : List UInt8} (h : d.feed rj buffer = none)
    (bs : List UInt8) : d.decode? (buffer ++ bs) = none := by
  induction buffer generalizing d with
  | nil => cases h
  | cons b buffer ih =>
    rw [feed] at h
    split at h
    · next hpush => exact decode?_of_push_none hpush _
    · next u e hpush =>
      obtain ⟨he, hbyte⟩ := decode?_of_push hd hpush
      rw [List.cons_append, hbyte, ih he (Option.map_eq_none_iff.1 h), Option.map_none]

/-- A buffer gives no more text than there are bytes for. -/
theorem weight_of_feed {buffer : List UInt8} (h : d.feed rj buffer = some (t, d')) :
    t.length + d'.weight ≤ d.weight + buffer.length := by
  induction buffer generalizing d t with
  | nil =>
    cases h
    simp
  | cons b buffer ih =>
    rw [feed] at h
    split at h
    · cases h
    · next u e hpush =>
      obtain ⟨⟨u', e'⟩, hfeed, heq⟩ := Option.map_eq_some_iff.1 h
      cases heq
      have hbyte := weight_of_push hpush
      have hrest := ih hfeed
      simp only [List.length_append, List.length_cons]
      omega

/-- The end of the file gives the return that waited, if anything. -/
theorem weight_of_finish (h : d.finish = some t) : t.length ≤ d.weight := by
  unfold finish at h
  unfold weight Text.waiting
  split at h
  · cases h
    split <;> simp
  · cases h

end Decoder

end SharpForms
