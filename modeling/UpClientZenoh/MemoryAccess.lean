import Mathlib.Data.List.Basic
import Mathlib.Tactic.Common

/-!
# Logged memory accesses

A computation over byte objects that C++ does not bounds-check. Every access is logged
with the object's size (`Access`), so "reads only its own bytes" is a statement about the
log (`Logged.InBounds`). An access past the end of an object is undefined in C++. Here it
returns bytes of an arbitrary function `beyond` and is visible in the log.
-/

namespace MemoryAccess

/-- Whether an access reads the object or writes it. -/
inductive Kind
  | read
  | write
  deriving DecidableEq, Repr

/-- An access to `count` bytes from `offset` on, of an object of `size` bytes. -/
structure Access where
  kind : Kind
  offset : ℕ
  count : ℕ
  size : ℕ
  deriving DecidableEq, Repr

/-- The access touches bytes of the object only. -/
def Access.InBounds (a : Access) : Prop :=
  a.offset + a.count ≤ a.size

/-- The access touches every byte of the object, and no other. -/
def Access.Exact (a : Access) : Prop :=
  a.offset = 0 ∧ a.count = a.size

@[simp] theorem Access.inBounds_mk (kind : Kind) (offset count size : ℕ) :
    Access.InBounds ⟨kind, offset, count, size⟩ ↔ offset + count ≤ size :=
  Iff.rfl

@[simp] theorem Access.exact_mk (kind : Kind) (offset count size : ℕ) :
    Access.Exact ⟨kind, offset, count, size⟩ ↔ offset = 0 ∧ count = size :=
  Iff.rfl

instance (a : Access) : Decidable a.InBounds :=
  inferInstanceAs (Decidable (_ ≤ _))

instance (a : Access) : Decidable a.Exact :=
  inferInstanceAs (Decidable (_ ∧ _))

/-- A value and the accesses made on the way to it. -/
@[ext]
structure Logged (α : Type*) where
  accesses : List Access
  val : α

namespace Logged

universe u

variable {α β : Type u}

instance : Monad Logged where
  pure a := ⟨[], a⟩
  bind x f := ⟨x.accesses ++ (f x.val).accesses, (f x.val).val⟩

@[simp] theorem accesses_pure (a : α) : (pure a : Logged α).accesses = [] :=
  rfl

@[simp] theorem val_pure (a : α) : (pure a : Logged α).val = a :=
  rfl

@[simp] theorem accesses_bind (x : Logged α) (f : α → Logged β) :
    (x >>= f).accesses = x.accesses ++ (f x.val).accesses :=
  rfl

@[simp] theorem val_bind (x : Logged α) (f : α → Logged β) : (x >>= f).val = (f x.val).val :=
  rfl

@[simp] theorem accesses_map (f : α → β) (x : Logged α) : (f <$> x).accesses = x.accesses := by
  simp [Functor.map]

@[simp] theorem val_map (f : α → β) (x : Logged α) : (f <$> x).val = f x.val :=
  rfl

@[simp] theorem val_ite (c : Prop) [Decidable c] (x y : Logged α) :
    (if c then x else y).val = if c then x.val else y.val :=
  apply_ite val c x y

instance : LawfulMonad Logged :=
  LawfulMonad.mk' Logged
    (fun x => by ext1 <;> simp)
    (fun a f => by ext1 <;> simp)
    (fun x f g => by ext1 <;> simp)

/-- Every logged access satisfies `p`. -/
def All (p : Access → Prop) (x : Logged α) : Prop :=
  ∀ a ∈ x.accesses, p a

instance (p : Access → Prop) [DecidablePred p] (x : Logged α) : Decidable (x.All p) :=
  inferInstanceAs (Decidable (∀ a ∈ x.accesses, p a))

/-- Every logged access is in bounds. -/
abbrev InBounds (x : Logged α) : Prop :=
  x.All Access.InBounds

variable (p : Access → Prop)

@[simp] theorem all_pure (a : α) : (pure a : Logged α).All p := by
  simp [All]

@[simp] theorem all_bind (x : Logged α) (f : α → Logged β) :
    (x >>= f).All p ↔ x.All p ∧ (f x.val).All p := by
  simp [All, or_imp, forall_and]

@[simp] theorem all_map (f : α → β) (x : Logged α) : (f <$> x).All p ↔ x.All p := by
  simp [All]

end Logged

/-! ## Byte objects -/

/-- Byte `i` from the start of an object, past its end a byte of `beyond`. -/
def byteAt (bytes : List UInt8) (beyond : ℕ → UInt8) (i : ℕ) : UInt8 :=
  bytes.getD i (beyond i)

/-- `count` consecutive bytes from `offset` on. -/
def fetch (bytes : List UInt8) (beyond : ℕ → UInt8) (offset count : ℕ) : List UInt8 :=
  (List.range count).map fun i => byteAt bytes beyond (offset + i)

@[simp] theorem length_fetch (bytes : List UInt8) (beyond : ℕ → UInt8) (offset count : ℕ) :
    (fetch bytes beyond offset count).length = count := by
  simp [fetch]

/-- An access inside the object returns the object's bytes. -/
theorem fetch_append (pre mid post : List UInt8) (beyond : ℕ → UInt8) :
    fetch (pre ++ (mid ++ post)) beyond pre.length mid.length = mid := by
  apply List.ext_getElem (by simp)
  intro i hi hi'
  simp [fetch, byteAt, List.getElem?_append_right, List.getElem?_append_left hi',
    List.getElem?_eq_getElem hi']

theorem fetch_take {bytes : List UInt8} (beyond : ℕ → UInt8) {n : ℕ} (h : n ≤ bytes.length) :
    fetch bytes beyond 0 n = bytes.take n := by
  have hfetch := fetch_append [] (bytes.take n) (bytes.drop n) beyond
  rwa [List.nil_append, List.take_append_drop, List.length_take, Nat.min_eq_left h] at hfetch

/-- Read `count` bytes of an object. -/
def load (bytes : List UInt8) (beyond : ℕ → UInt8) (offset count : ℕ) : Logged (List UInt8) :=
  ⟨[⟨.read, offset, count, bytes.length⟩], fetch bytes beyond offset count⟩

@[simp] theorem val_load (bytes : List UInt8) (beyond : ℕ → UInt8) (offset count : ℕ) :
    (load bytes beyond offset count).val = fetch bytes beyond offset count :=
  rfl

@[simp] theorem accesses_load (bytes : List UInt8) (beyond : ℕ → UInt8) (offset count : ℕ) :
    (load bytes beyond offset count).accesses = [⟨.read, offset, count, bytes.length⟩] :=
  rfl

@[simp] theorem all_load (p : Access → Prop) (bytes : List UInt8) (beyond : ℕ → UInt8)
    (offset count : ℕ) :
    (load bytes beyond offset count).All p ↔ p ⟨.read, offset, count, bytes.length⟩ := by
  simp [Logged.All]

theorem exists_append_of_length_eq_add {bytes : List UInt8} {m n : ℕ}
    (h : bytes.length = m + n) :
    ∃ pre post, bytes = pre ++ post ∧ pre.length = m ∧ post.length = n := by
  refine ⟨bytes.take m, bytes.drop m, (List.take_append_drop m bytes).symm, ?_, ?_⟩
  · rw [List.length_take]
    omega
  · rw [List.length_drop]
    omega

/-- The object with `bs` written from `offset` on. Bytes past its end are lost. -/
def overwrite (dest : List UInt8) (offset : ℕ) (bs : List UInt8) : List UInt8 :=
  (dest.take offset ++ (bs ++ dest.drop (offset + bs.length))).take dest.length

theorem overwrite_append (pre post : List UInt8) {mid bs : List UInt8}
    (h : bs.length = mid.length) :
    overwrite (pre ++ (mid ++ post)) pre.length bs = pre ++ (bs ++ post) := by
  have hlen : (pre ++ (bs ++ post)).length = (pre ++ (mid ++ post)).length := by simp [h]
  have hdrop : (pre ++ (mid ++ post)).drop (pre.length + bs.length) = post := by
    rw [← List.append_assoc, h, ← List.length_append, List.drop_left]
  rw [overwrite, List.take_left, hdrop, List.take_of_length_le (Nat.le_of_eq hlen)]

@[simp] theorem length_overwrite (dest : List UInt8) (offset : ℕ) (bs : List UInt8) :
    (overwrite dest offset bs).length = dest.length := by
  simp [overwrite]
  omega

theorem overwrite_all {dest bs : List UInt8} (h : bs.length = dest.length) :
    overwrite dest 0 bs = bs := by
  simpa using overwrite_append [] [] h

/-- Write `bs` into an object. -/
def store (dest : List UInt8) (offset : ℕ) (bs : List UInt8) : Logged (List UInt8) :=
  ⟨[⟨.write, offset, bs.length, dest.length⟩], overwrite dest offset bs⟩

@[simp] theorem val_store (dest : List UInt8) (offset : ℕ) (bs : List UInt8) :
    (store dest offset bs).val = overwrite dest offset bs :=
  rfl

@[simp] theorem all_store (p : Access → Prop) (dest : List UInt8) (offset : ℕ)
    (bs : List UInt8) :
    (store dest offset bs).All p ↔ p ⟨.write, offset, bs.length, dest.length⟩ := by
  simp [store, Logged.All]

end MemoryAccess
