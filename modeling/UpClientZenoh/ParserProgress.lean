import UpClientZenoh.ParserSafety

/-!
# Progress of the parser's loop

The positions of `getAllTlv` are `size_t` values, and a peer chooses the length that the loop
adds to one of them without comparing it with anything.

`Advances` : none of an iteration's three additions wraps, and it moves on by a tag and a
length field at least. An iteration that reaches its end does so (`moves_tlvIteration`), since
`insert` throws on every length for which the third addition could wrap. Hence the bound on
the number of iterations (`tlvLoop_ne_unfinished`). But the sum is computed for `insert`'s
argument, before it throws : `loopProgresses_iff` says that every iteration advances if and
only if no length behind the complete records of the buffer makes the sum wrap.
-/

open NativeBytes MemoryAccess Framing

namespace UpClientZenoh

variable {P : Platform} (stray : Stray)

namespace MessageParser

/-! ## Iterations -/

/-- The loop comes to an iteration with this position and map, if the buffer goes on there. -/
inductive Iterates (data : Buffer P) : ℕ → TlvMap → Prop
  | start : Iterates data 0 ∅
  | next {pos pos' : ℕ} {umap umap' : TlvMap} : Iterates data pos umap →
      pos < data.bytes.length → (tlvIteration stray data pos umap).val = .next pos' umap' →
      Iterates data pos' umap'

/-- The length that the iteration at `pos` reads. -/
def declaredLength (data : Buffer P) (pos : ℕ) : ℕ :=
  P.order.value (load data.bytes stray.buffer (P.add pos 1) P.sizeT).val

/-- No addition of the iteration wraps, and its end is a tag and a length field further. -/
structure Advances (data : Buffer P) (pos : ℕ) (umap : TlvMap) : Prop where
  tag : pos + 1 < P.sizeMod
  length : P.add pos 1 + P.sizeT < P.sizeMod
  value : P.add (P.add pos 1) P.sizeT + declaredLength stray data pos < P.sizeMod
  moves : ∀ pos' umap', (tlvIteration stray data pos umap).val = .next pos' umap' →
    pos + (1 + P.sizeT) ≤ pos'

/-- Every iteration that no `return` leaves advances, and the loop ends after as many
iterations as smallest records fit in the buffer, and one. -/
structure LoopProgresses (data : Buffer P) : Prop where
  advances : ∀ pos umap, Iterates stray data pos umap → pos < data.bytes.length →
    (∀ result, (tlvIteration stray data pos umap).val ≠ .leave (.returned result)) →
      Advances stray data pos umap
  ends : (tlvLoop stray data (data.bytes.length / (1 + P.sizeT) + 1) 0 ∅).val ≠ .unfinished

/-- Behind complete records the buffer declares a length whose sum with the position behind
the length field is no `size_t` value. -/
def LengthWraps (data : Buffer P) : Prop :=
  ∃ pos length, DeclaresLength data pos length ∧ P.sizeMod ≤ pos + 1 + P.sizeT + length

variable {stray} {data : Buffer P}

/-! ## The bound -/

/-- An iteration that reaches its end moves on by a tag and a length field at least. -/
theorem moves_tlvIteration {pos pos' : ℕ} {umap umap' : TlvMap} (hlt : pos < data.bytes.length)
    (hval : (tlvIteration stray data pos umap).val = .next pos' umap') :
    pos + (1 + P.sizeT) ≤ pos' := by
  have hsize := data.size_le
  have hw := P.sizeT_bounds
  have hmax := P.le_maxSize
  obtain ⟨htag, hlength⟩ := add_positions hlt
  obtain ⟨type, value, -, hvalue, hpos1, hpos2, hpos', -⟩ := tlvIteration_cases stray umap hval
  rw [htag, hlength] at hpos2 hpos'
  rw [hpos', P.add_eq (by omega)]
  omega

/-- The loop ends before its fuel does, if that many smallest records reach past the end. -/
theorem tlvLoop_ne_unfinished {fuel pos : ℕ} (umap : TlvMap)
    (hfuel : data.bytes.length < pos + (1 + P.sizeT) * fuel) :
    (tlvLoop stray data fuel pos umap).val ≠ .unfinished := by
  induction fuel generalizing pos umap with
  | zero =>
    rw [Nat.mul_zero, Nat.add_zero] at hfuel
    simp [tlvLoop_of_le stray umap 0 (Nat.le_of_lt hfuel)]
  | succ fuel ih =>
    rcases Nat.lt_or_ge pos data.bytes.length with hlt | hle
    · cases hiter : (tlvIteration stray data pos umap).val with
      | next pos' umap' =>
        have hmoves := moves_tlvIteration hlt hiter
        rw [(tlvLoop_next stray umap fuel hlt hiter).1]
        refine ih umap' ?_
        rw [Nat.mul_succ] at hfuel
        omega
      | leave result =>
        rw [(tlvLoop_leave stray umap fuel hlt hiter).1]
        rcases tlvIteration_leave stray umap hiter with rfl | rfl <;> simp
    · simp [tlvLoop_of_le stray umap (fuel + 1) hle]

/-! ## What an iteration meets -/

/-- The length that is read at a place with enough bytes. -/
theorem declaredLength_eq {pre len rest : Bytes} {t : UInt8} (hlen : len.length = P.sizeT)
    (hdata : data.bytes = pre ++ t :: (len ++ rest)) :
    declaredLength stray data pre.length = P.order.value len := by
  have hsize := data.size_le
  have hw := P.sizeT_bounds
  have hsum : data.bytes.length = pre.length + (1 + P.sizeT + rest.length) := by
    simp [hdata, hlen]
    omega
  have hpos : P.add pre.length 1 = (pre ++ [t]).length := by
    rw [P.add_eq (by omega)]
    simp
  have hread := fetch_data stray (pre ++ [t]) len rest (by simp [hdata] : data.bytes = _)
  rw [declaredLength, val_load, hpos, ← hlen, hread]

/-- An iteration that no `return` leaves has a valid tag and a whole length before it. -/
theorem exists_length_of_not_returned {pre tail : Bytes} {umap : TlvMap}
    (hdata : data.bytes = pre ++ tail) (hlt : pre.length < data.bytes.length)
    (hreturn : ∀ result,
      (tlvIteration stray data pre.length umap).val ≠ .leave (.returned result)) :
    ∃ (t : UInt8) (len rest : Bytes), ValidTag t ∧ len.length = P.sizeT ∧
      tail = t :: (len ++ rest) := by
  rcases tail with _ | ⟨t, bs⟩
  · simp [hdata] at hlt
  have ht : ValidTag t := by
    by_contra ht
    exact hreturn none (tlvIteration_badTag stray umap ht hdata).2
  have hlen : P.sizeT ≤ bs.length := by
    by_contra hshort
    exact hreturn none (tlvIteration_shortLength stray umap ht hdata (Nat.lt_of_not_le hshort)).2
  exact ⟨t, bs.take P.sizeT, bs.drop P.sizeT, ht, List.length_take_of_le hlen, by simp⟩

/-- The loop comes to the ends of complete records, and to no other place in the buffer. -/
theorem Iterates.exists_frames {pos : ℕ} {umap : TlvMap} (h : Iterates stray data pos umap) :
    data.bytes.length ≤ pos ∨ ∃ (rs : List (Record P.sizeT)) (tail : Bytes),
      (∀ r ∈ rs, ValidTag r.tag) ∧ data.bytes = frames P.order rs ++ tail ∧
        pos = (frames P.order rs).length := by
  induction h with
  | start => exact Or.inr ⟨[], data.bytes, by simp, rfl, rfl⟩
  | @next pos pos' umap umap' _ hlt hval ih =>
    obtain hle | ⟨rs, tail, hrs, hdata, rfl⟩ := ih
    · exact absurd hlt (Nat.not_lt.2 hle)
    rcases @frame_or_tail P.order P.sizeT ValidTag _ tail with htail | ⟨r, rest, hr, rfl⟩
    · left
      cases htail with
      | done => simp [hdata] at hlt
      | badTag t rest ht =>
        rw [(tlvIteration_badTag stray umap ht hdata).2] at hval
        cases hval
      | shortLength t rest ht hshort =>
        rw [(tlvIteration_shortLength stray umap ht hdata hshort).2] at hval
        cases hval
      | shortValue t len rest ht hlen hshort =>
        obtain ⟨hbig, hsmall⟩ := tlvIteration_shortValue stray umap ht hlen hdata hshort
        rcases Nat.lt_or_ge P.maxSize (P.order.value len) with hmax | hmax
        · rw [(hbig hmax).2] at hval
          cases hval
        · obtain ⟨-, pos'', umap'', hend, hnext⟩ := hsmall hmax
          rw [hnext] at hval
          cases hval
          exact hend
    · right
      rw [(tlvIteration_frame stray umap hr hdata).2] at hval
      cases hval
      refine ⟨rs ++ [r], rest, ?_, by simp [hdata, frames], by simp [frames]⟩
      exact List.forall_mem_append.2 ⟨hrs, by simpa using hr⟩

/-- The loop comes to the end of any complete records the buffer begins with. -/
theorem iterates_frames :
    ∀ {rs : List (Record P.sizeT)} {pre tail : Bytes} {umap : TlvMap},
      Iterates stray data pre.length umap → (∀ r ∈ rs, ValidTag r.tag) →
      data.bytes = pre ++ (frames P.order rs ++ tail) →
      Iterates stray data (pre ++ frames P.order rs).length (insertRecords umap rs)
  | [], pre, _, umap, h, _, _ => by simpa [insertRecords] using h
  | r :: rs, pre, tail, umap, h, hrs, hdata => by
    obtain ⟨hr, hrs⟩ := List.forall_mem_cons.1 hrs
    rw [frames_cons, List.append_assoc] at hdata
    have hval := (tlvIteration_frame stray umap hr hdata).2
    have hlt : pre.length < data.bytes.length := by simp [hdata]
    have hrest := iterates_frames (h.next hlt hval) hrs (by rw [hdata, List.append_assoc])
    rwa [List.append_assoc] at hrest

/-! ## Progress -/

/-- Where no length makes the sum wrap, an iteration that no `return` leaves advances. -/
theorem advances_of_not_lengthWraps (hwraps : ¬LengthWraps data) {pos : ℕ} {umap : TlvMap}
    (h : Iterates stray data pos umap) (hlt : pos < data.bytes.length)
    (hreturn : ∀ result, (tlvIteration stray data pos umap).val ≠ .leave (.returned result)) :
    Advances stray data pos umap := by
  have hsize := data.size_le
  have hw := P.sizeT_bounds
  have hmax := P.le_maxSize
  have hmod := P.two_mul_maxSize
  obtain hle | ⟨rs, tail, hrs, hdata, rfl⟩ := h.exists_frames
  · exact absurd hlt (Nat.not_lt.2 hle)
  obtain ⟨t, len, rest, ht, hlen, rfl⟩ := exists_length_of_not_returned hdata hlt hreturn
  obtain ⟨hpos1, hpos2⟩ := add_positions hlt
  have hsum : (frames P.order rs).length + 1 + P.sizeT + P.order.value len < P.sizeMod := by
    by_contra hge
    exact hwraps ⟨_, _, ⟨rs, t, len, rest, hrs, ht, hlen, hdata, rfl, rfl⟩, Nat.le_of_not_lt hge⟩
  refine ⟨by omega, by rw [hpos1]; omega, ?_, fun pos' umap' hval => moves_tlvIteration hlt hval⟩
  rwa [hpos1, hpos2, declaredLength_eq hlen hdata]

/-- The iteration that meets a length for which the sum wraps is left by no `return`. -/
theorem not_loopProgresses_of_lengthWraps (h : LengthWraps data) : ¬LoopProgresses stray data := by
  obtain ⟨pos, length, ⟨rs, t, len, rest, hrs, ht, hlen, hdata, rfl, rfl⟩, hsum⟩ := h
  have hsize := data.size_le
  have hw := P.sizeT_bounds
  have hmod := P.two_mul_maxSize
  have hcount : data.bytes.length =
      (frames P.order rs).length + (1 + P.sizeT + rest.length) := by
    simp [hdata, hlen]
    omega
  have hlt : (frames P.order rs).length < data.bytes.length := by omega
  have hstart : Iterates stray data ([] : Bytes).length ∅ := .start
  have hiterates : Iterates stray data (frames P.order rs).length (insertRecords ∅ rs) :=
    iterates_frames hstart hrs hdata
  have hval := (tlvIteration_shortValue stray (insertRecords ∅ rs) ht hlen hdata
    (by omega)).1 (by omega)
  intro hprogress
  have hadvances := hprogress.advances _ _ hiterates hlt (by simp [hval])
  obtain ⟨hpos1, hpos2⟩ := add_positions hlt
  have hvalue := hadvances.value
  rw [hpos1, hpos2, declaredLength_eq hlen hdata] at hvalue
  omega

/-- The loop progresses on exactly the buffers without a length that makes the sum wrap. -/
theorem loopProgresses_iff (data : Buffer P) : LoopProgresses stray data ↔ ¬LengthWraps data := by
  constructor
  · intro h hwraps
    exact not_loopProgresses_of_lengthWraps hwraps h
  · intro hwraps
    refine ⟨fun pos umap h hlt hreturn => advances_of_not_lengthWraps hwraps h hlt hreturn, ?_⟩
    refine tlvLoop_ne_unfinished ∅ ?_
    rw [Nat.zero_add]
    exact Nat.lt_mul_div_succ _ (by omega)

/-- A record whose length leads from behind its length field back to its start. -/
def circularRecord : Buffer ⟨.eight, .little⟩ where
  bytes := [1, 247, 255, 255, 255, 255, 255, 255, 255]
  size_le := by decide

theorem declaresLength_circularRecord : DeclaresLength circularRecord 0 18446744073709551607 :=
  ⟨[], 1, [247, 255, 255, 255, 255, 255, 255, 255], [], by simp, by decide, by decide, rfl, rfl,
    by decide⟩

/-- The sum of position and length is zero for the circular record. -/
theorem not_loopProgresses_circularRecord : ¬LoopProgresses zeroStray circularRecord :=
  not_loopProgresses_of_lengthWraps ⟨_, _, declaresLength_circularRecord, by decide⟩

end MessageParser

end UpClientZenoh
