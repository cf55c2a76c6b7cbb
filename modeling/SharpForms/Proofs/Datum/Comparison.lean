/-
# Comparing data by asking their classes

No class compares two data alone.  Each has an ANSWER when one of its data is compared with another
datum, or leaves the question to the other one: leaves and nodes with items always answer, plain
values and lists only to their like.  An answer may depend on how the parts of the two data compare,
and these are compared by asking their classes in turn.

So a comparison is a solution of an equation in which it occurs on both sides, and which of two
data is asked first is left open.  `same` is a solution either way (`compared_same`), and the only
one (`eq_same_of_compared`).
-/
import SharpForms.Proofs.Datum.Content

namespace SharpForms
namespace Datum

/-! ## 1. Answers -/

/-- The text of a datum that is a text, as a string node or plain. -/
def text? : Datum → Option Text
  | string t _ | plain (.text t) => some t
  | _ => none

/-- The number that a plain value is, a truth value included. -/
def number? : Datum → Option Int
  | plain (.int i) => some i
  | plain (.bool b) => some (if b then 1 else 0)
  | _ => none

section

variable (eq : Datum → Datum → Bool)

/-- What the class of the first datum says to the second one, if `eq` compares what they keep.  No
answer leaves the question to the second one. -/
def answer (a b : Datum) : Option Bool :=
  match a with
  | leaf kind value _ =>
    some (match b with
      | leaf kind' value' _ => kind == kind' && eq value value'
      | _ => false)
  | group bracket items _ =>
    some (match b with
      | group bracket' items' _ => bracket == bracket' && eq items items'
      | _ => false)
  | dispatch tag items _ _ =>
    some (match b with
      | dispatch tag' items' _ _ => eq tag tag' && eq items items'
      | _ => false)
  | call items _ =>
    some (match b with
      | call items' _ => eq items items'
      | _ => false)
  | list items =>
    match b with
    | list items' => some (items.isEqv items' eq)
    | _ => none
  | string t _ | plain (.text t) => b.text?.map (t == ·)
  | plain (.int i) => b.number?.map (i == ·)
  | plain (.bool c) => b.number?.map ((if c then 1 else 0) == ·)
  | plain .nothing =>
    match b with
    | plain .nothing => some true
    | _ => none
  | placeholder label =>
    match b with
    | placeholder label' => if label = label' then some true else none
    | _ => none

/-- Two data compared: the first answer counts, and without any answer they are different. -/
def compared (first second : Datum) : Bool :=
  ((first.answer eq second).or (second.answer eq first)).getD false

end

theorem sameAll_eq_isEqv (as bs : List Datum) : sameAll as bs = as.isEqv bs same := by
  induction as generalizing bs with
  | nil => cases bs <;> rfl
  | cons a as ih =>
    cases bs with
    | nil => rfl
    | cons b bs => rw [sameAll, List.isEqv, ih]

/-! ## 2. Answers and equality -/

theorem text?_eq_some_iff {a : Datum} {t : Text} : a.text? = some t ↔ a.key = .ok (.text t) := by
  cases a with
  | plain value => cases value <;> simp [text?, key, Plain.key]
  | leaf kind value => cases hvalue : value.key <;> simp [text?, key, hvalue, Except.map]
  | list | string | group | dispatch | call | placeholder => simp [text?, key]

theorem number?_eq_some_iff {a : Datum} {i : Int} :
    a.number? = some i ↔ a.key = .ok (.int i) := by
  cases a with
  | plain value => cases value <;> simp [number?, key, Plain.key]
  | leaf kind value => cases hvalue : value.key <;> simp [number?, key, hvalue, Except.map]
  | list | string | group | dispatch | call | placeholder => simp [number?, key]

/-- Where what is read off a datum says its key, comparing what is read is comparing the data. -/
theorem same_of_read {α : Type} [BEq α] [LawfulBEq α] {read? : Datum → Option α} {toKey : α → Key}
    (hread : ∀ {c : Datum} {y : α}, read? c = some y ↔ c.key = .ok (toKey y))
    (hinj : ∀ {y z : α}, toKey y = toKey z → y = z) {a b : Datum} {y : α} {x : Bool}
    (ha : a.key = .ok (toKey y)) (h : (read? b).map (y == ·) = some x) : same a b = x := by
  obtain ⟨z, hz, rfl⟩ := Option.map_eq_some_iff.1 h
  rw [Bool.eq_iff_iff, same_iff_key ha, hread.1 hz, beq_iff_eq, Except.ok.injEq]
  exact ⟨fun hkey => (hinj hkey).symm, fun heq => by rw [heq]⟩

/-- An answer is whether the data are the same. -/
theorem same_of_answer {a b : Datum} {x : Bool} (h : a.answer same b = some x) : same a b = x := by
  cases a with
  | leaf | group | dispatch | call =>
    cases Option.some.inj h
    cases b <;> simp [same, plain?]
  | list items =>
    cases b with
    | list items' =>
      cases Option.some.inj h
      rw [same, sameAll_eq_isEqv]
    | plain | leaf | string | group | dispatch | call | placeholder => simp [answer] at h
  | string t => exact same_of_read text?_eq_some_iff Key.text.inj rfl h
  | plain value =>
    cases value with
    | text t => exact same_of_read text?_eq_some_iff Key.text.inj rfl h
    | int i => exact same_of_read number?_eq_some_iff Key.int.inj rfl h
    | bool c => exact same_of_read number?_eq_some_iff Key.int.inj rfl h
    | nothing =>
      simp only [answer] at h
      split at h
      · cases h
        rfl
      · cases h
  | placeholder label =>
    simp only [answer] at h
    split at h
    · split at h
      · cases h
        simp_all [same]
      · cases h
    · cases h

/-- Each of two data that are the same says so when it is asked. -/
theorem answer_of_same {a b : Datum} (h : same a b = true) : a.answer same b = some true := by
  have hkey := key_eq_of_same h
  cases a with
  | leaf | group | dispatch | call => cases b <;> simp_all [same, plain?, answer]
  | list items => cases b <;> simp_all [same, plain?, answer, sameAll_eq_isEqv]
  | string t => simp [answer, text?_eq_some_iff.2 hkey.symm]
  | plain value =>
    cases value with
    | text t => simp [answer, text?_eq_some_iff.2 hkey.symm]
    | int i => simp [answer, number?_eq_some_iff.2 hkey.symm]
    | bool c => simp [answer, number?_eq_some_iff.2 hkey.symm]
    | nothing =>
      cases b with
      | plain value => cases value <;> simp_all [key, Plain.key, answer]
      | leaf | list | string | group | dispatch | call | placeholder =>
        simp [same, plain?, Plain.key] at h
  | placeholder label => cases b <;> simp_all [same, plain?, answer]

/-- **The first answer is whether the data are the same.** -/
theorem compared_same (a b : Datum) : compared same a b = same a b := by
  unfold compared
  cases ha : a.answer same b with
  | some x => exact (same_of_answer ha).symm
  | none =>
    cases hb : b.answer same a with
    | some x => rw [same_comm a b, same_of_answer hb]; rfl
    | none =>
      have hdifferent : same a b ≠ true := by
        intro h
        rw [answer_of_same h] at ha
        cases ha
      exact (Bool.eq_false_iff.2 hdifferent).symm

/-! ## 3. The only comparison -/

/-- The data that an answer may have to compare with others. -/
def parts : Datum → List Datum
  | leaf _ value _ => [value]
  | group _ items _ | call items _ => [items]
  | dispatch tag items _ _ => [tag, items]
  | list items => items
  | plain _ | string .. | placeholder _ => []

theorem sizeOf_lt_of_mem_parts {a c : Datum} (h : c ∈ a.parts) : sizeOf c < sizeOf a := by
  cases a with
  | list items =>
    have hitem : sizeOf c < sizeOf items := List.sizeOf_lt_of_mem h
    simp only [list.sizeOf_spec]
    omega
  | plain | string | placeholder => cases h
  | leaf | group | dispatch | call =>
    simp only [parts, List.mem_cons, List.not_mem_nil, or_false] at h
    rcases h with rfl | rfl <;> simp <;> omega

variable {eq eq' : Datum → Datum → Bool}

theorem isEqv_congr {as bs : List Datum} (h : ∀ c ∈ as, ∀ d ∈ bs, eq c d = eq' c d) :
    as.isEqv bs eq = as.isEqv bs eq' := by
  induction as generalizing bs with
  | nil => cases bs <;> rfl
  | cons a as ih =>
    cases bs with
    | nil => rfl
    | cons b bs =>
      rw [List.isEqv, List.isEqv, h a (by simp) b (by simp),
        ih fun c hc d hd => h c (by simp [hc]) d (by simp [hd])]

/-- An answer depends only on how the parts of the two data compare. -/
theorem answer_congr {a b : Datum} (h : ∀ c ∈ a.parts, ∀ d ∈ b.parts, eq c d = eq' c d) :
    a.answer eq b = a.answer eq' b := by
  cases a with
  | list items =>
    cases b with
    | list items' => exact congrArg some (isEqv_congr h)
    | plain | leaf | string | group | dispatch | call | placeholder => rfl
  | leaf | group | dispatch | call => cases b <;> simp_all [answer, parts]
  | plain value => cases value <;> rfl
  | string | placeholder => rfl

/-- **Nothing but `same` compares by asking the classes**, whichever of two data is asked first. -/
theorem eq_same_of_compared (h : ∀ a b, eq a b = compared eq a b ∨ eq a b = compared eq b a)
    (a b : Datum) : eq a b = same a b := by
  -- Asking the second datum swaps the sides, so the induction is on the size of the pair.
  have ih : ∀ c ∈ a.parts, ∀ d ∈ b.parts, eq c d = same c d ∧ eq d c = same d c := by
    intro c hc d hd
    have := sizeOf_lt_of_mem_parts hc
    have := sizeOf_lt_of_mem_parts hd
    exact ⟨eq_same_of_compared h c d, eq_same_of_compared h d c⟩
  have hab : a.answer eq b = a.answer same b :=
    answer_congr fun c hc d hd => (ih c hc d hd).1
  have hba : b.answer eq a = b.answer same a :=
    answer_congr fun d hd c hc => (ih c hc d hd).2
  rcases h a b with h | h
  · rw [h, compared, hab, hba, ← compared, compared_same]
  · rw [h, compared, hab, hba, ← compared, compared_same, same_comm]
termination_by sizeOf a + sizeOf b

end Datum

end SharpForms
