/-
# What equality of data compares

`same` is defined class by class.  The CONTENT of a datum says without it what counts: what is left
when places and what ended the regions are forgotten, a string node is taken for its text, and truth
for the number one.  Data are the same exactly if they have the same content (`same_iff_content`).
So equality is an equivalence, what content forgets does not matter to it, and the data that have a
key are told apart by it (`same_iff_key`).
-/
import SharpForms.Node.Equality

namespace SharpForms

/-! ## 1. Content -/

/-- A plain value with truth as the number one and falsehood as zero. -/
def Plain.content : Plain → Plain
  | .bool b => .int (if b then 1 else 0)
  | v => v

theorem Plain.key_content (v : Plain) : v.content.key = v.key := by
  cases v <;> rfl

theorem Plain.key_eq_iff {v w : Plain} : v.key = w.key ↔ v.content = w.content := by
  cases v <;> cases w <;> simp [key, content]

namespace Datum

mutual

/-- The content of a datum, as a datum. -/
def content : Datum → Datum
  | plain value => plain value.content
  | list items => list (contentAll items)
  | leaf kind value _ => leaf kind (content value) {}
  | string text _ => plain (.text text)
  | group bracket items _ => group bracket (content items) {}
  | dispatch tag items _ _ => dispatch (content tag) (content items) (plain .nothing) {}
  | call items _ => call (content items) {}
  | placeholder label => placeholder label

/-- The contents of the data of a list. -/
def contentAll : List Datum → List Datum
  | [] => []
  | a :: as => content a :: contentAll as

end

mutual

/-- **Data are the same exactly if they have the same content.** -/
theorem same_iff_content : ∀ a b : Datum, same a b = true ↔ a.content = b.content
  | plain value, b => by
    cases b <;> simp [same, plain?, content, Plain.key_eq_iff, Plain.content]
  | string text at_, b => by
    cases b <;> simp [same, plain?, content, Plain.key_eq_iff, Plain.content]
  | placeholder label, b => by cases b <;> simp [same, plain?, content]
  | list items, b => by
    have hitems := sameAll_iff_content items
    cases b <;> simp [same, plain?, content, hitems]
  | leaf kind value at_, b => by
    have hvalue := same_iff_content value
    cases b <;> simp [same, plain?, content, hvalue]
  | group bracket items at_, b => by
    have hitems := same_iff_content items
    cases b <;> simp [same, plain?, content, hitems]
  | dispatch tag items closer at_, b => by
    have htag := same_iff_content tag
    have hitems := same_iff_content items
    cases b <;> simp [same, plain?, content, htag, hitems]
  | call items at_, b => by
    have hitems := same_iff_content items
    cases b <;> simp [same, plain?, content, hitems]

theorem sameAll_iff_content : ∀ as bs : List Datum,
    sameAll as bs = true ↔ contentAll as = contentAll bs
  | [], [] => by simp [sameAll]
  | [], _ :: _ => by simp [sameAll, contentAll]
  | _ :: _, [] => by simp [sameAll, contentAll]
  | a :: as, b :: bs => by
    simp [sameAll, contentAll, same_iff_content a b, sameAll_iff_content as bs]

end

/-! ## 2. Equality is an equivalence -/

theorem same_refl (a : Datum) : same a a = true := (same_iff_content a a).2 rfl

theorem same_comm (a b : Datum) : same a b = same b a := by
  rw [Bool.eq_iff_iff, same_iff_content, same_iff_content, eq_comm]

theorem same_trans {a b c : Datum} (hab : same a b = true) (hbc : same b c = true) :
    same a c = true := by
  rw [same_iff_content] at hab hbc ⊢
  rw [hab, hbc]

/-- So nodes are compared by an equivalence too. -/
instance : EquivBEq Node where
  rfl := same_refl _
  symm h := (same_comm _ _).trans h
  trans := same_trans

/-- Of two data only the contents matter to equality. -/
theorem same_congr {a a' b b' : Datum} (ha : a.content = a'.content) (hb : b.content = b'.content) :
    same a b = same a' b' := by
  rw [Bool.eq_iff_iff, same_iff_content, same_iff_content, ha, hb]

/-! ## 3. Keys -/

/-- A datum with this key and nothing to forget. -/
def Key.content : Key → Datum
  | leaf kind value => .leaf kind value.content {}
  | text t => plain (.text t)
  | int n => plain (.int n)
  | nothing => plain .nothing
  | placeholder label => .placeholder label

/-- A key says all that equality compares. -/
theorem content_of_key : ∀ {a : Datum} {k : Key}, a.key = .ok k → a.content = k.content
  | plain value, k, h => by
    cases value <;> cases h <;> rfl
  | string text at_, k, h => by
    cases h
    rfl
  | placeholder label, k, h => by
    cases h
    rfl
  | leaf kind value at_, k, h => by
    rw [key] at h
    cases hvalue : value.key with
    | error e => simp [hvalue, Except.map] at h
    | ok k' =>
      rw [hvalue] at h
      cases h
      rw [content, content_of_key hvalue, Key.content]

/-- Content says whether there is a key, and which. -/
theorem key_content : ∀ a : Datum, a.content.key = a.key
  | plain value => by rw [content, key, key, value.key_content]
  | leaf kind value at_ => by rw [content, key, key, key_content value]
  | list .. | string .. | group .. | dispatch .. | call .. | placeholder _ => rfl

/-- The same data have the same key, or none of them has one. -/
theorem key_eq_of_same {a b : Datum} (h : same a b = true) : a.key = b.key := by
  rw [← key_content a, ← key_content b, (same_iff_content a b).1 h]

/-- A datum that has a key is the same as the data that have it too. -/
theorem same_iff_key {a b : Datum} {k : Key} (ha : a.key = .ok k) :
    same a b = true ↔ b.key = .ok k := by
  constructor
  · intro h
    rw [← key_eq_of_same h, ha]
  · intro hb
    rw [same_iff_content, content_of_key ha, content_of_key hb]

/-! ## 4. Places and what ended a region -/

mutual

/-- A datum without its bounds and without what ended its region, and so for everything in it. -/
def stripped : Datum → Datum
  | plain value => plain value
  | list items => list (strippedAll items)
  | leaf kind value _ => leaf kind (stripped value) {}
  | string text _ => string text {}
  | group bracket items _ => group bracket (stripped items) {}
  | dispatch tag items _ _ => dispatch (stripped tag) (stripped items) (plain .nothing) {}
  | call items _ => call (stripped items) {}
  | placeholder label => placeholder label

/-- The data of a list without what `stripped` leaves out. -/
def strippedAll : List Datum → List Datum
  | [] => []
  | a :: as => stripped a :: strippedAll as

end

mutual

/-- Content forgets bounds and what ended a region. -/
theorem content_stripped : ∀ a : Datum, a.stripped.content = a.content
  | plain _ | string .. | placeholder _ => rfl
  | list items => by rw [stripped, content, content, contentAll_strippedAll items]
  | leaf _ value _ => by rw [stripped, content, content, content_stripped value]
  | group _ items _ | call items _ => by rw [stripped, content, content, content_stripped items]
  | dispatch tag items _ _ => by
    rw [stripped, content, content, content_stripped tag, content_stripped items]

theorem contentAll_strippedAll : ∀ as : List Datum, contentAll (strippedAll as) = contentAll as
  | [] => rfl
  | a :: as => by
    rw [strippedAll, contentAll, contentAll, content_stripped a, contentAll_strippedAll as]

end

/-- Data that differ only in bounds and in what ended their regions have the same content. -/
theorem content_eq_of_stripped {a b : Datum} (h : a.stripped = b.stripped) :
    a.content = b.content := by
  rw [← content_stripped a, h, content_stripped b]

end Datum

end SharpForms
