/-
# Hashes of data, and data as keys of an index

A leaf is hashed by its class and by what it holds together, a string node as its text, and lists
and nodes with items are not hashed at all, nor is a leaf around them.  How plain values, classes
and pairs are hashed is not fixed here; only that plain values that are equal have equal hashes
(`Hashing.plain_congr`), truth and one among them.

Then data that are the same have the same hash (`Hashing.hash_eq_of_same`).  So an index that looks
a datum up by its hash first, and asks for equality only among the data with that hash, finds it
exactly if it has been filed before: such an index gives what filing by keys gives
(`Hashing.file_eq`), and that is for each datum the position of the first one that is the same
(`file_eq_ok`).
-/
import SharpForms.Proofs.Datum.Comparison

namespace SharpForms

/-! ## 1. Hashes -/

/-- How the parts of data are hashed.  The class `none` is that of a placeholder, which has a label
for its value. -/
structure Hashing (H : Type) where
  plain : Plain → H
  leafClass : Option LeafKind → H
  pair : H → H → H
  plain_congr : ∀ {v w : Plain}, v.key = w.key → plain v = plain w

namespace Hashing

variable {H : Type} (h : Hashing H)

/-- The hash of a datum.  If it has none, the class that refuses it: its own, or that of what a
leaf holds. -/
def hash : Datum → Except ItemsKind H
  | .plain value => .ok (h.plain value)
  | .string text _ => .ok (h.plain (.text text))
  | .placeholder label => .ok (h.pair (h.leafClass none) (h.plain (.int label)))
  | .leaf kind value _ => (hash value).map (h.pair (h.leafClass (some kind)))
  | .list _ => .error .list
  | .group b _ _ => .error (.group b)
  | .dispatch .. => .error .dispatch
  | .call .. => .error .call

/-- The hash of the data that have a key. -/
def ofKey : Datum.Key → H
  | .leaf kind value => h.pair (h.leafClass (some kind)) (ofKey value)
  | .placeholder label => h.pair (h.leafClass none) (h.plain (.int label))
  | .text t => h.plain (.text t)
  | .int i => h.plain (.int i)
  | .nothing => h.plain .nothing

/-- A hash depends on the key alone. -/
theorem hash_eq : ∀ a : Datum, h.hash a = a.key.map h.ofKey
  | .plain value => by
    have hplain : h.plain value = h.ofKey value.key := by
      cases value with
      | bool b => exact h.plain_congr rfl
      | text | int | nothing => rfl
    rw [hash, hplain]
    rfl
  | .leaf kind value _ => by
    rw [hash, Datum.key, hash_eq value]
    cases value.key <;> rfl
  | .list _ | .string .. | .group .. | .dispatch .. | .call .. | .placeholder _ => rfl

/-- **Data that are the same have the same hash**, or have none for the same reason. -/
theorem hash_eq_of_same {a b : Datum} (hsame : a.same b = true) : h.hash a = h.hash b := by
  rw [hash_eq, hash_eq, Datum.key_eq_of_same hsame]

/-- The data with a hash are those with a key. -/
theorem hashed_iff (a : Datum) : (∃ x, h.hash a = .ok x) ↔ ∃ k, a.key = .ok k := by
  rw [hash_eq]
  cases a.key with
  | ok k => exact ⟨fun _ => ⟨k, rfl⟩, fun _ => ⟨h.ofKey k, rfl⟩⟩
  | error kind => simp [Except.map]

/-! ## 2. An index that looks data up by their hashes -/

/-- A datum in the index, with its hash and the position that it was filed under. -/
structure Entry (H : Type) where
  hash : H
  datum : Datum
  position : Nat

variable [DecidableEq H]

/-- The entry of a datum: one with its hash whose datum is the same. -/
def lookUp (entries : List (Entry H)) (x : H) (a : Datum) : Option (Entry H) :=
  entries.find? fun e => e.hash == x && e.datum.same a

/-- Files data one by one, each under its own position unless an entry is found for it. -/
def fileFrom (entries : List (Entry H)) (position : Nat) :
    List Datum → Except ItemsKind (List Nat)
  | [] => .ok []
  | a :: as => do
    let x ← h.hash a
    match lookUp entries x a with
    | some e =>
      let rest ← fileFrom entries (position + 1) as
      return e.position :: rest
    | none =>
      let rest ← fileFrom (entries ++ [⟨x, a, position⟩]) (position + 1) as
      return position :: rest

/-- For each datum the position that an empty index files it under. -/
def file (as : List Datum) : Except ItemsKind (List Nat) := h.fileFrom [] 0 as

/-- The index holds the data with these keys: for each key it finds the first of them. -/
def Holds (entries : List (Entry H)) (ks : List Datum.Key) : Prop :=
  ∀ a k, a.key = .ok k → (lookUp entries (h.ofKey k) a).map Entry.position = ks.idxOf? k

variable {h}

theorem holds_nil : h.Holds [] [] := by
  intro a k _
  rfl

section

variable {entries : List (Entry H)} {ks : List Datum.Key} {k : Datum.Key}

/-- A datum that is found is filed with the first that has its key. -/
theorem Holds.found (hs : h.Holds entries ks) (hk : k ∈ ks) : h.Holds entries (ks ++ [k]) := by
  intro a k' ha
  rw [hs a k' ha]
  unfold List.idxOf?
  rw [List.findIdx?_append]
  by_cases hkk : k' = k
  · subst hkk
    cases hfound : ks.findIdx? (· == k') with
    | some i => rfl
    | none =>
      rw [List.findIdx?_eq_none_iff] at hfound
      simpa using hfound k' hk
  · simp [List.findIdx?_cons, Ne.symm hkk]

/-- A datum that is not found gets an entry for its key. -/
theorem Holds.added (hs : h.Holds entries ks) {a : Datum} (ha : a.key = .ok k) :
    h.Holds (entries ++ [⟨h.ofKey k, a, ks.length⟩]) (ks ++ [k]) := by
  intro b k' hb
  have hnew : (a.same b = true) = (k' = k) := by
    rw [eq_iff_iff, Datum.same_iff_key ha, hb, Except.ok.injEq]
  unfold lookUp List.idxOf?
  rw [List.find?_append, List.findIdx?_append, ← List.idxOf?, ← hs b k' hb, lookUp]
  cases entries.find? fun e => e.hash == h.ofKey k' && e.datum.same b with
  | some e => rfl
  | none =>
    by_cases hkk : k' = k
    · subst hkk
      simp [hnew]
    · simp_all [Ne.symm hkk]

end

/-- A key stands where it has been seen first, else behind all that have been seen. -/
theorem idxOf_concat (ks : List Datum.Key) (k : Datum.Key) :
    (ks ++ [k]).idxOf k = (ks.idxOf? k).getD ks.length := by
  unfold List.idxOf List.idxOf?
  rw [List.findIdx_eq_getD_findIdx?, List.findIdx?_append]
  cases ks.findIdx? (· == k) with
  | some i => rfl
  | none => simp

/-- **Looking data up by their hashes files them as their keys do.** -/
theorem fileFrom_eq (as : List Datum) {entries : List (Entry H)} {ks : List Datum.Key}
    (hs : h.Holds entries ks) : h.fileFrom entries ks.length as = Datum.fileFrom ks as := by
  induction as generalizing entries ks with
  | nil => rfl
  | cons a as ih =>
    rw [fileFrom, Datum.fileFrom, hash_eq]
    cases ha : a.key with
    | error kind => rfl
    | ok k =>
      have hlook := hs a k ha
      have hlength : (ks ++ [k]).length = ks.length + 1 := by simp
      simp only [Except.map, bind, Except.bind]
      rw [idxOf_concat, ← hlook, ← hlength]
      cases hfound : lookUp entries (h.ofKey k) a with
      | some e =>
        have hmem : k ∈ ks := by
          rw [hfound, Option.map_some] at hlook
          exact List.isSome_idxOf?.1 (by rw [← hlook]; rfl)
        rw [ih (hs.found hmem)]
        rfl
      | none =>
        rw [ih (hs.added ha)]
        rfl

theorem file_eq (as : List Datum) : h.file as = Datum.file as := fileFrom_eq as holds_nil

end Hashing

/-! ## 3. The first that is the same -/

namespace Datum

/-- Among data with keys, the first that is the same is the first with the key. -/
theorem findIdx_same {as : List Datum} {ks : List Key} (has : as.map key = ks.map .ok)
    {a : Datum} {k : Key} (ha : a.key = .ok k) :
    as.findIdx (fun b => b.same a) = ks.idxOf k := by
  induction as generalizing ks with
  | nil => simp_all
  | cons b as ih =>
    obtain _ | ⟨k', ks⟩ := ks
    · simp at has
    · rw [List.map_cons, List.map_cons, List.cons.injEq] at has
      have hsame : b.same a = (k' == k) := by
        rw [Bool.eq_iff_iff, same_iff_key has.1, ha, Except.ok.injEq, beq_iff_eq, eq_comm]
      rw [List.findIdx_cons, List.idxOf_cons, hsame, ih has.2]

/-- Data with keys are filed under the positions of their keys. -/
theorem fileFrom_eq_ok {as : List Datum} {ks : List Key} (has : as.map key = ks.map .ok)
    (seen : List Key) : fileFrom seen as = .ok (ks.map fun k => (seen ++ ks).idxOf k) := by
  induction as generalizing ks seen with
  | nil => simp_all [fileFrom]
  | cons a as ih =>
    obtain _ | ⟨k, ks⟩ := ks
    · simp at has
    · rw [List.map_cons, List.map_cons, List.cons.injEq] at has
      have hfirst : (seen ++ k :: ks).idxOf k = (seen ++ [k]).idxOf k := by
        rw [List.idxOf_append, List.idxOf_append, List.idxOf_cons_self, List.idxOf_cons_self]
      rw [fileFrom, has.1, List.map_cons, hfirst]
      simp only [bind, Except.bind, ih has.2 (seen ++ [k]), List.append_assoc,
        List.singleton_append]
      rfl

/-- **A datum is filed under the position of the first one that is the same.** -/
theorem file_eq_ok {as : List Datum} (has : ∀ a ∈ as, ∃ k, a.key = .ok k) :
    file as = .ok (as.map fun a => as.findIdx fun b => b.same a) := by
  let keyOf (a : Datum) : Key := a.key.toOption.getD .nothing
  have hkey : ∀ a ∈ as, a.key = .ok (keyOf a) := by
    intro a ha
    obtain ⟨k, hk⟩ := has a ha
    simp [keyOf, hk, Except.toOption]
  have hkeys : as.map key = (as.map keyOf).map .ok := by
    rw [List.map_map]
    exact List.map_congr_left hkey
  rw [file, fileFrom_eq_ok hkeys, List.nil_append, List.map_map]
  congr 1
  apply List.map_congr_left
  intro a ha
  exact (findIdx_same hkeys (hkey a ha)).symm

/-- Two data of a list have the same first one exactly if they are the same. -/
theorem findIdx_same_eq_iff {as : List Datum} {a b : Datum} (ha : a ∈ as) (hb : b ∈ as) :
    (as.findIdx fun x => x.same a) = (as.findIdx fun x => x.same b) ↔ a.same b = true := by
  have hits {a : Datum} (ha : a ∈ as) : (as.findIdx fun x => x.same a) < as.length :=
    List.findIdx_lt_length_of_exists ⟨a, ha, same_refl a⟩
  constructor
  · intro h
    have hfirst := List.findIdx_getElem (w := hits ha)
    have hsecond := List.findIdx_getElem (w := hits hb)
    simp only [← h] at hsecond
    rw [same_comm] at hfirst
    exact same_trans hfirst hsecond
  · intro h
    have hcontent := (same_iff_content a b).1 h
    congr 1
    funext x
    exact same_congr rfl hcontent

/-! ## 4. Equality, hashes and positions -/

variable {H : Type} [DecidableEq H]

/-- **Equality of data is an equivalence that hashing respects.**  Take any data, with plain values,
lists and nodes in any place that keeps a value, and any hashing.

* A datum is the same as itself, of two data each is the same as the other or neither is, and what
  is the same as the same is the same.
* This is what comes of asking the classes of two data, whichever is asked first, and no other
  comparison does.
* Where data came from and what ended their regions does not matter, at any depth.
* Data that are the same have the same hash, or both have none.
* Hashable data are filed each under the position of the first one that is the same, and two of
  them under the same position exactly if they are the same. -/
theorem same_equiv_and_filed (h : Hashing H) :
    ((∀ a : Datum, a.same a = true) ∧ (∀ a b : Datum, a.same b = b.same a) ∧
        ∀ a b c : Datum, a.same b = true → b.same c = true → a.same c = true) ∧
      ((∀ a b : Datum, compared same a b = a.same b ∧ compared same b a = a.same b) ∧
        ∀ eq : Datum → Datum → Bool,
          (∀ a b, eq a b = compared eq a b ∨ eq a b = compared eq b a) →
          ∀ a b, eq a b = a.same b) ∧
      (∀ a a' b b' : Datum, a.stripped = a'.stripped → b.stripped = b'.stripped →
        a.same b = a'.same b') ∧
      (∀ a b : Datum, a.same b = true → h.hash a = h.hash b) ∧
      ∀ as : List Datum, h.file as = file as ∧
        ((∀ a ∈ as, ∃ x, h.hash a = .ok x) →
          file as = .ok (as.map fun a => as.findIdx fun b => b.same a) ∧
          ∀ a ∈ as, ∀ b ∈ as, (as.findIdx fun x => x.same a) = (as.findIdx fun x => x.same b) ↔
            a.same b = true) := by
  refine ⟨⟨same_refl, same_comm, fun a b c => same_trans⟩,
    ⟨?_, fun eq => eq_same_of_compared⟩, ?_, ?_, ?_⟩
  · intro a b
    exact ⟨compared_same a b, by rw [compared_same b a, same_comm b a]⟩
  · intro a a' b b' ha hb
    exact same_congr (content_eq_of_stripped ha) (content_eq_of_stripped hb)
  · intro a b hab
    exact h.hash_eq_of_same hab
  · intro as
    refine ⟨Hashing.file_eq as, fun has => ⟨?_, fun a ha b hb => findIdx_same_eq_iff ha hb⟩⟩
    apply file_eq_ok
    intro a ha
    exact (h.hashed_iff a).1 (has a ha)

/-- Leaves that hold truth, one, nothing, a text or a string node, the same values on their own, and
lists and tags of them.  Texts are hashed by their length, so that a text and a number collide. -/
theorem same_equiv_and_filed_mixed :
    let h : Hashing Int :=
      { plain := fun
          | .text t => Int.ofNat t.length
          | .int i => i
          | .bool b => if b then 1 else 0
          | .nothing => 0
        leafClass := fun kind => if kind = some .symbol then 7 else 11
        pair := fun x y => 31 * x + y
        plain_congr := by
          intro v w hvw
          cases v <;> cases w <;> simp_all [Plain.key] }
    let at_ : Bounds := ⟨some 0, some 2, some 1, some 1⟩
    let text : Datum := .plain (.text ['b'])
    let node : Datum := .string ['b'] at_
    let one : Datum := .plain (.int 1)
    let truth : Datum := .plain (.bool true)
    let as : List Datum := [node, one, text, truth, .leaf .symbol one at_, .leaf .number one at_,
      .leaf .symbol truth {}, .leaf .literal (.plain .nothing) {}, .leaf .base node {},
      .leaf .base text at_]
    (∀ a ∈ as, ∃ x, h.hash a = .ok x) ∧ h.hash one = h.hash node ∧
      h.file as = .ok [0, 1, 0, 1, 4, 5, 4, 7, 8, 8] ∧
      same (.dispatch node (.list [truth, .group .round (.list [node]) at_]) text at_)
        (.dispatch text (.list [one, .group .round (.list [text]) {}]) (.plain .nothing) {}) =
        true ∧
      h.hash (.leaf .base (.group .round (.list [node]) at_) {}) = .error (.group .round) := by
  intro h at_ text node one truth as
  have has : ∀ a ∈ as, ∃ x, h.hash a = .ok x := by
    simp [as, node, text, one, truth, Hashing.hash, Except.map]
  obtain ⟨-, -, -, -, hfile⟩ := same_equiv_and_filed h
  refine ⟨has, rfl, ?_, rfl, rfl⟩
  rw [(hfile as).1, ((hfile as).2 has).1]
  rfl

end Datum

end SharpForms
