import UpClientZenoh.NativeBytes

/-!
# Tag-length-value framing

A record is one tag byte, the memory image of the value's length in `w` bytes, and the
value (`frame`). A stream of records is the concatenation of their frames (`frames`).

The framing is prefix-free : a frame at the head of a byte string fixes the record and
what follows it (`frame_append_inj`), so a byte string is a stream of records in at most
one way (`frames_append_eq_frames`). Every byte string is the frames of some records
followed by a `Tail`, where no complete record with a valid tag begins
(`exists_frames_append_tail`), and only the empty tail completes a stream
(`Tail.eq_nil_of_frames`).
-/

open NativeBytes

namespace Framing

/-- A record whose length fits in `w` bytes. -/
@[ext]
structure Record (w : ℕ) where
  tag : UInt8
  value : List UInt8
  fits : value.length < 256 ^ w

variable (o : ByteOrder) {w : ℕ}

/-- The bytes of one record. -/
def frame (r : Record w) : List UInt8 :=
  r.tag :: (o.image w r.value.length ++ r.value)

/-- The bytes of a stream of records. -/
def frames (rs : List (Record w)) : List UInt8 :=
  rs.flatMap (frame o)

@[simp] theorem frames_nil : frames o ([] : List (Record w)) = [] :=
  rfl

@[simp] theorem frames_cons (r : Record w) (rs : List (Record w)) :
    frames o (r :: rs) = frame o r ++ frames o rs :=
  rfl

@[simp] theorem length_frame (r : Record w) : (frame o r).length = 1 + w + r.value.length := by
  simp [frame]
  omega

/-- Each record takes at least its tag and its length field. -/
theorem mul_length_le_length_frames :
    ∀ rs : List (Record w), (1 + w) * rs.length ≤ (frames o rs).length
  | [] => by simp
  | r :: rs => by
    have ih := mul_length_le_length_frames rs
    rw [frames_cons, List.length_append, length_frame, List.length_cons, Nat.mul_succ]
    omega

/-- A frame at the head of a byte string fixes the record and the rest. -/
theorem frame_append_inj {r s : Record w} {x y : List UInt8}
    (h : frame o r ++ x = frame o s ++ y) : r = s ∧ x = y := by
  simp only [frame, List.cons_append, List.cons.injEq, List.append_assoc] at h
  obtain ⟨htag, h⟩ := h
  obtain ⟨himage, h⟩ := List.append_inj h (by simp)
  have hlen : r.value.length = s.value.length := by
    rw [← o.value_image r.fits, ← o.value_image s.fits, himage]
  obtain ⟨hvalue, hrest⟩ := List.append_inj h hlen
  exact ⟨Record.ext htag hvalue, hrest⟩

/-- A stream that begins with the frames of `rs` has `rs` as its first records. -/
theorem frames_append_eq_frames {rest : List UInt8} :
    ∀ {rs ss : List (Record w)}, frames o rs ++ rest = frames o ss →
      ∃ ts, ss = rs ++ ts ∧ rest = frames o ts
  | [], ss, h => ⟨ss, rfl, by simpa using h⟩
  | r :: rs, [], h => by simp [frame] at h
  | r :: rs, s :: ss, h => by
    rw [frames_cons, frames_cons, List.append_assoc] at h
    obtain ⟨rfl, htail⟩ := frame_append_inj o h
    obtain ⟨ts, rfl, hts⟩ := frames_append_eq_frames htail
    exact ⟨ts, rfl, hts⟩

/-- The record whose bytes are all zero. -/
def zeroRecord (w : ℕ) : Record w where
  tag := 0
  value := []
  fits := Nat.pow_pos (by decide)

/-- Zero bytes are zero records, if they are of the right number. -/
theorem frames_zeroRecord (n : ℕ) :
    frames o (List.replicate n (zeroRecord w)) = List.replicate ((1 + w) * n) 0 := by
  induction n with
  | zero => rfl
  | succ n ih =>
    have hframe : frame o (zeroRecord w) = List.replicate (1 + w) 0 := by
      simp [frame, zeroRecord, o.image_zero, Nat.add_comm 1 w, List.replicate_succ]
    rw [List.replicate_succ, frames_cons, ih, hframe, List.replicate_append_replicate, Nat.mul_succ,
      Nat.add_comm]

theorem replicate_ne_frame_append {b : UInt8} {r : Record w} (hr : r.tag ≠ b) (n : ℕ)
    (rest : List UInt8) : List.replicate n b ≠ frame o r ++ rest := by
  intro h
  have hmem : r.tag ∈ List.replicate n b := by simp [h, frame]
  exact hr (List.eq_of_mem_replicate hmem)

/-- Frames, and then any number of a byte that is no tag of theirs, determine both. -/
theorem frames_append_replicate_inj {b : UInt8} :
    ∀ {rs ss : List (Record w)} {m n : ℕ}, (∀ r ∈ rs, r.tag ≠ b) → (∀ s ∈ ss, s.tag ≠ b) →
      frames o rs ++ List.replicate m b = frames o ss ++ List.replicate n b → rs = ss ∧ m = n
  | [], [], m, n, _, _, h => ⟨rfl, by simpa using congrArg List.length h⟩
  | [], s :: ss, m, n, _, hss, h => by
    rw [frames_nil, List.nil_append, frames_cons, List.append_assoc] at h
    exact absurd h (replicate_ne_frame_append o (hss s List.mem_cons_self) m _)
  | r :: rs, [], m, n, hrs, _, h => by
    rw [frames_nil, List.nil_append, frames_cons, List.append_assoc] at h
    exact absurd h.symm (replicate_ne_frame_append o (hrs r List.mem_cons_self) n _)
  | r :: rs, s :: ss, m, n, hrs, hss, h => by
    rw [frames_cons, frames_cons, List.append_assoc, List.append_assoc] at h
    obtain ⟨rfl, htail⟩ := frame_append_inj o h
    obtain ⟨rfl, hmn⟩ := frames_append_replicate_inj (List.forall_mem_cons.1 hrs).2
      (List.forall_mem_cons.1 hss).2 htail
    exact ⟨rfl, hmn⟩

/-! ## Where a stream stops -/

variable (w) (valid : UInt8 → Prop)

/-- What is left where no complete record with a valid tag begins : nothing, an invalid
tag, a length field cut short, or a value longer than what remains. -/
inductive Tail : List UInt8 → Prop
  | done : Tail []
  | badTag (t : UInt8) (rest : List UInt8) : ¬valid t → Tail (t :: rest)
  | shortLength (t : UInt8) (rest : List UInt8) : valid t → rest.length < w → Tail (t :: rest)
  | shortValue (t : UInt8) (len rest : List UInt8) : valid t → len.length = w →
      rest.length < o.value len → Tail (t :: (len ++ rest))

/-- Byte strings that are a stream of complete records with valid tags. -/
def Complete (bs : List UInt8) : Prop :=
  ∃ rs : List (Record w), (∀ r ∈ rs, valid r.tag) ∧ bs = frames o rs

variable {w valid}

/-- Either a complete valid record begins here, or this is a tail. -/
theorem frame_or_tail [DecidablePred valid] (bs : List UInt8) :
    Tail o w valid bs ∨
      ∃ (r : Record w) (rest : List UInt8), valid r.tag ∧ bs = frame o r ++ rest := by
  rcases bs with _ | ⟨t, bs⟩
  · exact Or.inl .done
  by_cases ht : valid t
  · rcases Nat.lt_or_ge bs.length w with hlen | hlen
    · exact Or.inl (.shortLength t bs ht hlen)
    · have htake : (bs.take w).length = w := by simp [hlen]
      have hlt := o.value_lt htake
      have hsplit : bs = bs.take w ++ bs.drop w := (List.take_append_drop w bs).symm
      rcases Nat.lt_or_ge (bs.drop w).length (o.value (bs.take w)) with hval | hval
      · rw [hsplit]
        exact Or.inl (.shortValue t _ _ ht htake hval)
      · have hn : ((bs.drop w).take (o.value (bs.take w))).length = o.value (bs.take w) := by
          rw [List.length_take, Nat.min_eq_left hval]
        refine Or.inr ⟨⟨t, (bs.drop w).take (o.value (bs.take w)), by rwa [hn]⟩,
          (bs.drop w).drop (o.value (bs.take w)), ht, ?_⟩
        simp only [frame, hn, o.image_value htake, List.cons_append, List.append_assoc,
          List.take_append_drop]
  · exact Or.inl (.badTag t bs ht)

/-- Every byte string is a stream of complete valid records and then a tail. -/
theorem exists_frames_append_tail [DecidablePred valid] (bs : List UInt8) :
    ∃ (rs : List (Record w)) (tail : List UInt8), (∀ r ∈ rs, valid r.tag) ∧
      bs = frames o rs ++ tail ∧ Tail o w valid tail := by
  rcases @frame_or_tail o w valid _ bs with htail | ⟨r, rest, hr, hbs⟩
  · exact ⟨[], bs, by simp, rfl, htail⟩
  · have hshort : rest.length < bs.length := by
      rw [hbs, List.length_append, length_frame]
      omega
    obtain ⟨rs, tail, hrs, rfl, htail⟩ := exists_frames_append_tail rest
    refine ⟨r :: rs, tail, ?_, by rw [hbs, frames_cons, List.append_assoc], htail⟩
    exact List.forall_mem_cons.2 ⟨hr, hrs⟩
termination_by bs.length

/-- No complete valid record begins a tail. -/
theorem Tail.ne_frame_append {bs rest : List UInt8} (h : Tail o w valid bs) {r : Record w}
    (hr : valid r.tag) : bs ≠ frame o r ++ rest := by
  intro hbs
  cases h with
  | done => simp [frame] at hbs
  | badTag t _ ht =>
    simp only [frame, List.cons_append, List.cons.injEq] at hbs
    exact ht (hbs.1 ▸ hr)
  | shortLength t rest' _ hlen =>
    simp only [frame, List.cons_append, List.cons.injEq] at hbs
    rw [hbs.2, List.length_append, List.length_append, o.length_image] at hlen
    omega
  | shortValue t len rest' _ hlen hval =>
    simp only [frame, List.cons_append, List.cons.injEq, List.append_assoc] at hbs
    obtain ⟨rfl, h⟩ := List.append_inj hbs.2 (by simp [hlen])
    rw [o.value_image r.fits, h, List.length_append] at hval
    omega

/-- A stream of complete valid records that ends in a tail ends in the empty one. -/
theorem Tail.eq_nil_of_frames {rs : List (Record w)} {tail : List UInt8}
    (h : Tail o w valid tail) (hc : Complete o w valid (frames o rs ++ tail)) : tail = [] := by
  obtain ⟨ss, hss, heq⟩ := hc
  obtain ⟨ts, rfl, rfl⟩ := frames_append_eq_frames o heq
  cases ts with
  | nil => rfl
  | cons t ts => exact absurd rfl (h.ne_frame_append o (hss t (by simp)))

end Framing
