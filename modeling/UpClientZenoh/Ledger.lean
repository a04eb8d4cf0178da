import Mathlib.Data.List.Basic

/-!
# Ledgers

What a program allocates and releases, kept as a history. A handle is the position of its
entry, so handles are never reused, and a handle can be released more than once : the
ledger records each release.

`Settled` is the balance of a ledger : what is not open any more was released once.
-/

/-- The entries allocated so far, and the handles released so far. Only what was allocated
can be released. -/
structure Ledger (α : Type*) where
  entries : List α
  released : List ℕ
  released_lt : ∀ h ∈ released, h < entries.length
  deriving DecidableEq

namespace Ledger

variable {α : Type*}

/-- Nothing allocated. -/
def empty : Ledger α :=
  ⟨[], [], by simp⟩

variable (L : Ledger α) (a : α) (h k : ℕ)

/-- The handle of the next entry. -/
def next : ℕ :=
  L.entries.length

/-- Allocate an entry. Its handle is `L.next`. -/
def alloc : Ledger α where
  entries := L.entries ++ [a]
  released := L.released
  released_lt h hh := by
    have := L.released_lt h hh
    simp
    omega

/-- Release a handle. -/
def release : Ledger α :=
  if hh : h < L.entries.length then
    { entries := L.entries
      released := L.released ++ [h]
      released_lt := by
        intro k hk
        rcases List.mem_append.1 hk with hk | hk
        · exact L.released_lt k hk
        · rwa [List.mem_singleton.1 hk] }
  else L

/-- Allocated and not released. -/
def Live : Prop :=
  h < L.entries.length ∧ h ∉ L.released

instance : Decidable (L.Live h) :=
  inferInstanceAs (Decidable (_ ∧ _))

/-- A live handle of the entry. -/
def Holds (L : Ledger α) (h : ℕ) (a : α) : Prop :=
  L.Live h ∧ L.entries[h]? = some a

instance [DecidableEq α] (L : Ledger α) (h : ℕ) (a : α) : Decidable (L.Holds h a) :=
  inferInstanceAs (Decidable (_ ∧ _))

@[simp] theorem entries_alloc : (L.alloc a).entries = L.entries ++ [a] :=
  rfl

@[simp] theorem released_alloc : (L.alloc a).released = L.released :=
  rfl

@[simp] theorem next_alloc : (L.alloc a).next = L.next + 1 := by
  simp [next]

@[simp] theorem entries_release : (L.release h).entries = L.entries := by
  unfold release
  split <;> rfl

@[simp] theorem next_release : (L.release h).next = L.next := by
  simp [next]

variable {L a h k}

theorem released_release (hh : h < L.next) : (L.release h).released = L.released ++ [h] := by
  have hlt : h < L.entries.length := hh
  rw [release, dif_pos hlt]

/-- A new handle was never released. -/
theorem next_notMem_released : L.next ∉ L.released :=
  fun hh => absurd (L.released_lt _ hh) (Nat.lt_irrefl _)

theorem live_alloc : (L.alloc a).Live h ↔ L.Live h ∨ h = L.next := by
  have hnew : L.next ∉ L.released := next_notMem_released
  simp only [Live, entries_alloc, released_alloc, List.length_append, List.length_singleton,
    Nat.lt_succ_iff_lt_or_eq, next]
  constructor
  · rintro ⟨hlt | heq, hnotMem⟩
    · exact Or.inl ⟨hlt, hnotMem⟩
    · exact Or.inr heq
  · rintro (⟨hlt, hnotMem⟩ | rfl)
    · exact ⟨Or.inl hlt, hnotMem⟩
    · exact ⟨Or.inr rfl, hnew⟩

theorem live_release : (L.release h).Live k ↔ L.Live k ∧ k ≠ h := by
  by_cases hh : h < L.entries.length
  · simp only [Live, entries_release, released_release (L := L) hh, List.mem_append,
      List.mem_singleton, not_or, and_assoc, ne_eq]
  · rw [release, dif_neg hh]
    refine (and_iff_left_of_imp ?_).symm
    rintro hlive rfl
    exact hh hlive.1

theorem getElem?_alloc {b : α} (hb : L.entries[h]? = some b) :
    (L.alloc a).entries[h]? = some b := by
  have hlt : h < L.entries.length := (List.getElem?_eq_some_iff.1 hb).1
  rw [entries_alloc, List.getElem?_append_left hlt, hb]

@[simp] theorem getElem?_alloc_next : (L.alloc a).entries[L.next]? = some a := by
  simp [next]

theorem getElem?_alloc_eq_some {b : α} :
    (L.alloc a).entries[h]? = some b ↔ L.entries[h]? = some b ∨ h = L.next ∧ a = b := by
  constructor
  · intro hb
    rcases Nat.lt_or_ge h L.next with hlt | hge
    · rw [entries_alloc, List.getElem?_append_left hlt] at hb
      exact Or.inl hb
    · have hle : h ≤ L.next := by
        have hlt := (List.getElem?_eq_some_iff.1 hb).1
        rw [entries_alloc, List.length_append, List.length_singleton] at hlt
        exact Nat.lt_succ_iff.1 hlt
      obtain rfl := Nat.le_antisymm hle hge
      rw [getElem?_alloc_next] at hb
      exact Or.inr ⟨rfl, Option.some.inj hb⟩
  · rintro (hb | ⟨rfl, rfl⟩)
    · exact getElem?_alloc hb
    · exact getElem?_alloc_next

theorem getElem?_lt {b : α} (hb : L.entries[h]? = some b) : h < L.next :=
  (List.getElem?_eq_some_iff.1 hb).1

/-- What is held after an allocation. -/
theorem holds_alloc {b : α} : (L.alloc a).Holds h b ↔ L.Holds h b ∨ h = L.next ∧ a = b := by
  unfold Holds
  rw [live_alloc, getElem?_alloc_eq_some]
  constructor
  · rintro ⟨hlive | rfl, hb | ⟨heq, hab⟩⟩
    · exact Or.inl ⟨hlive, hb⟩
    · exact Or.inr ⟨heq, hab⟩
    · exact absurd (getElem?_lt hb) (Nat.lt_irrefl _)
    · exact Or.inr ⟨rfl, hab⟩
  · rintro (⟨hlive, hb⟩ | ⟨heq, hab⟩)
    · exact ⟨Or.inl hlive, Or.inl hb⟩
    · exact ⟨Or.inr heq, Or.inr ⟨heq, hab⟩⟩

/-- What is held after a release. -/
theorem holds_release {b : α} : (L.release k).Holds h b ↔ L.Holds h b ∧ h ≠ k := by
  unfold Holds
  rw [live_release, entries_release]
  exact and_right_comm

theorem Holds.unique {b : α} (ha : L.Holds h a) (hb : L.Holds h b) : a = b :=
  Option.some.inj (ha.2.symm.trans hb.2)

/-! ## Releasing several handles -/

/-- Release the handles of a list. -/
def releaseAll (L : Ledger α) (hs : List ℕ) : Ledger α :=
  hs.foldl release L

@[simp] theorem entries_releaseAll (hs : List ℕ) : (L.releaseAll hs).entries = L.entries := by
  induction hs generalizing L with
  | nil => rfl
  | cons h hs ih => exact (ih (L := L.release h)).trans (entries_release L h)

theorem released_releaseAll {hs : List ℕ} (hlt : ∀ h ∈ hs, h < L.next) :
    (L.releaseAll hs).released = L.released ++ hs := by
  induction hs generalizing L with
  | nil => exact (List.append_nil _).symm
  | cons h hs ih =>
    obtain ⟨hh, hhs⟩ := List.forall_mem_cons.1 hlt
    have hrest := ih (L := L.release h) (fun k hk => by rw [next_release]; exact hhs k hk)
    rw [released_release hh, List.append_assoc] at hrest
    exact hrest

theorem releaseAll_append (hs ks : List ℕ) :
    L.releaseAll (hs ++ ks) = (L.releaseAll hs).releaseAll ks :=
  List.foldl_append

theorem live_releaseAll {hs : List ℕ} : (L.releaseAll hs).Live k ↔ L.Live k ∧ k ∉ hs := by
  induction hs generalizing L with
  | nil => exact (and_iff_left List.not_mem_nil).symm
  | cons h hs ih =>
    have hrest := ih (L := L.release h)
    rw [live_release, and_assoc] at hrest
    rw [List.mem_cons, not_or]
    exact hrest

/-- Releasing distinct live handles leaves the others as they were : where nothing was
released twice, a handle is released once if and only if it was not live or is of the list. -/
theorem count_releaseAll_eq_one_iff (hL : L.released.Nodup) {hs : List ℕ} (hhs : hs.Nodup)
    (hlive : ∀ h ∈ hs, L.Live h) {k : ℕ} (hk : k < L.next) :
    (L.releaseAll hs).released.count k = 1 ↔ (L.Live k → k ∈ hs) := by
  have hdisjoint : (L.released ++ hs).Nodup := by
    refine List.nodup_append.2 ⟨hL, hhs, ?_⟩
    rintro a ha b hb rfl
    exact (hlive a hb).2 ha
  rw [released_releaseAll fun h hh => (hlive h hh).1, hdisjoint.count]
  simp only [List.mem_append, ite_eq_left_iff, Nat.zero_ne_one, imp_false, not_not, Live]
  constructor
  · rintro (hreleased | hmem) hlive
    · exact absurd hreleased hlive.2
    · exact hmem
  · intro himp
    by_cases hreleased : k ∈ L.released
    · exact Or.inl hreleased
    · exact Or.inr (himp ⟨hk, hreleased⟩)

/-! ## Balance -/

/-- Every handle was released once, but for those of `hs`, which were never. -/
def Settled (L : Ledger α) (hs : List ℕ) : Prop :=
  ∀ h < L.next, L.released.count h = if h ∈ hs then 0 else 1

theorem settled_empty (hs : List ℕ) : (empty : Ledger α).Settled hs :=
  fun h hh => absurd hh (Nat.not_lt_zero h)

theorem count_next_released : L.released.count L.next = 0 :=
  List.count_eq_zero.2 next_notMem_released

/-- A new entry is open. -/
theorem Settled.alloc {hs : List ℕ} (hL : L.Settled hs) (a : α) :
    (L.alloc a).Settled (L.next :: hs) := by
  intro h hh
  rw [next_alloc, Nat.lt_succ_iff_lt_or_eq] at hh
  rw [released_alloc]
  rcases hh with hh | rfl
  · rw [hL h hh]
    simp [Nat.ne_of_lt hh]
  · rw [count_next_released, if_pos List.mem_cons_self]

/-- An entry that is open is released once. -/
theorem Settled.release {hs : List ℕ} (hL : L.Settled hs) (hhs : hs.Nodup) (hk : k ∈ hs)
    (hlt : k < L.next) : (L.release k).Settled (hs.erase k) := by
  intro h hh
  rw [next_release] at hh
  rw [released_release hlt, List.count_append, List.count_singleton, hL h hh]
  by_cases heq : k = h
  · subst heq
    simp [hk, hhs.not_mem_erase]
  · simp [heq, List.mem_erase_of_ne (Ne.symm heq)]

/-- An entry that is released at once leaves the balance as it was. -/
theorem Settled.alloc_release {hs : List ℕ} (hL : L.Settled hs) (hnext : L.next ∉ hs) (a : α) :
    ((L.alloc a).release L.next).Settled hs := by
  intro h hh
  rw [next_release, next_alloc, Nat.lt_succ_iff_lt_or_eq] at hh
  rw [released_release (by simp), released_alloc, List.count_append, List.count_singleton]
  rcases hh with hh | rfl
  · simp [hL h hh, Nat.ne_of_gt hh]
  · simp [count_next_released, hnext]

/-- An entry that is neither open nor released upsets the balance. -/
theorem not_settled_alloc {hs : List ℕ} (hnext : L.next ∉ hs) (a : α) :
    ¬(L.alloc a).Settled hs := by
  intro h
  have hcount := h L.next (by simp)
  rw [released_alloc, count_next_released, if_neg hnext] at hcount
  exact absurd hcount (by decide)

end Ledger
