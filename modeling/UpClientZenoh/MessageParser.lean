import UpClientZenoh.DataModel
import UpClientZenoh.Framing
import UpClientZenoh.MemoryAccess
import Mathlib.Tactic.IntervalCases

/-!
# Message parser

`MessageParser` : `getAllTlv` splits a received buffer into records, `getAttributes`
decodes the fields it knows.

Both read raw memory. The accesses are logged, and a byte that the source reads without
owning it is a parameter (`Stray`) : past the end of the buffer, past the end of a
field's value, or in a local variable before it is set. Behind an access out of bounds the
value is what a run that survives it goes on with. Nothing says that it survives : the log
shows the access, and the callbacks that parse a header end there (`parseHeader`). The loop
of `getAllTlv` runs on fuel, one unit per iteration, and the buffer's size is enough
(`getAllTlv_ends`).
-/

open NativeBytes MemoryAccess Framing

namespace UpClientZenoh

/-- A byte buffer in memory. No object is larger than `PTRDIFF_MAX`. -/
structure Buffer (P : Platform) where
  bytes : Bytes
  size_le : bytes.length ≤ P.maxSize

/-- The bytes the parser reads without owning them. -/
structure Stray where
  /-- What follows the received buffer, by the offset from its start. -/
  buffer : ℕ → UInt8
  /-- What follows the value of a field, by the offset from the value's start. -/
  value : Tag → ℕ → UInt8
  /-- What the variable decoded from a field holds before it is set. -/
  unset : Tag → ℕ → UInt8

variable {UUID UUri : Type} (P : Platform) (X : Externals UUID UUri) (stray : Stray)

namespace MessageParser

/-! ## The source -/

/-- `isValidTag(value)`. -/
def isValidTag (value : Tag) : Bool :=
  Tag.UURI.val ≤ value.val && value.val ≤ Tag.PAYLOAD.val

/-- How one iteration of the loop of `getAllTlv` ends. -/
inductive Iteration
  | next (pos : ℕ) (umap : TlvMap)
  | leave (result : Exit (Option TlvMap))

variable {P}

/-- The loop body of `getAllTlv`. The end pointer given to `insert` is before the start
pointer when `length` is above `PTRDIFF_MAX`. The distance is then taken modulo the size
type, `insert` throws `std::length_error`, and `getAllTlv` is `noexcept`. A smaller `length`
that the buffer does not back is an access out of bounds, whether `insert` finds the memory
and copies on, or throws `std::bad_alloc`. -/
def tlvIteration (data : Buffer P) (pos : ℕ) (umap : TlvMap) : Logged Iteration := do
  let tagByte ← load data.bytes stray.buffer pos 1
  let type := Tag.ofByte (tagByte.headD 0)
  if isValidTag type = false then return .leave (.returned none)
  let pos := P.add pos 1
  if data.bytes.length < pos then return .leave (.returned none)
  let lengthBytes ← load data.bytes stray.buffer pos P.sizeT
  let length := P.order.value lengthBytes
  let pos := P.add pos P.sizeT
  if data.bytes.length < pos then return .leave (.returned none)
  if P.maxSize < length then return .leave .terminated
  let value ← load data.bytes stray.buffer pos length
  let pos := P.add pos length
  return .next pos (umap.insert type ⟨type, length, value⟩)

/-- `while (size > pos)`, at most `fuel` times. -/
def tlvLoop (data : Buffer P) (fuel pos : ℕ) (umap : TlvMap) : Logged (Exit (Option TlvMap)) :=
  if data.bytes.length ≤ pos then pure (.returned (some umap))
  else match fuel with
    | 0 => pure .unfinished
    | fuel + 1 => do
      match ← tlvIteration stray data pos umap with
      | .next pos umap => tlvLoop data fuel pos umap
      | .leave result => return result

/-- `getAllTlv(data, size)`. A null `data` is `none`. -/
def getAllTlv (data : Option (Buffer P)) : Logged (Exit (Option TlvMap)) :=
  match data with
  | none => pure (.returned none)
  | some data =>
    if data.bytes.length = 0 then pure (.returned none)
    else tlvLoop stray data data.bytes.length 0 ∅

variable (P)

/-- `std::memcpy(&variable, map[tag].value.data(), map[tag].length)` into a four-byte
variable. More than four bytes are written over what lies behind it, out of bounds. -/
def memcpy32 (tag : Tag) (tlv : TLV) : Logged UInt32 := do
  let bytes ← load tlv.value (stray.value tag) 0 tlv.length
  let variable_ ← store ((List.range 4).map (stray.unset tag)) 0 bytes
  return P.value32 variable_

/-- `*reinterpret_cast<int32_t*>(map[tag].value.data())`. Fewer than four bytes are out of
bounds, and `data()` of an empty value is null. -/
def readInt32 (tag : Tag) (tlv : TLV) : Logged UInt32 := do
  let bytes ← load tlv.value (stray.value tag) 0 4
  return P.value32 bytes

/-- `getAttributes(map)`. The branch of `Tag::TTL` reads the value of `Tag::ID`. -/
def getAttributes (map : TlvMap) : Logged (Option (UAttributes UUID UUri)) :=
  match map.lookup .ID, map.lookup .TYPE, map.lookup .PRIORITY with
  | some idTlv, some typeTlv, some priorityTlv => do
    let idVector ← load idTlv.value (stray.value .ID) 0 idTlv.value.length
    let id := X.deserializeFromBytes idVector
    let type ← memcpy32 P stray .TYPE typeTlv
    let priority ← memcpy32 P stray .PRIORITY priorityTlv
    let attributesBuilder := UAttributes.builder id type priority
    let attributesBuilder ← match map.lookup .TTL with
      | some _ => do
        let value ← readInt32 P stray .ID idTlv
        pure (attributesBuilder.withTtl value)
      | none => pure attributesBuilder
    let attributesBuilder ← match map.lookup .PLEVEL with
      | some tlv => do
        let value ← readInt32 P stray .PLEVEL tlv
        pure (attributesBuilder.withPermissionLevel value)
      | none => pure attributesBuilder
    let attributesBuilder ← match map.lookup .COMMSTATUS with
      | some tlv => do
        let value ← readInt32 P stray .COMMSTATUS tlv
        pure (attributesBuilder.withCommStatus value)
      | none => pure attributesBuilder
    return some attributesBuilder
  | _, _, _ => pure none

/-- `getPayload(map)`. -/
def getPayload (map : TlvMap) : Logged (Option UPayload) :=
  match map.lookup .PAYLOAD with
  | none => pure none
  | some tlvPayload => do
    let bytes ← load tlvPayload.value (stray.value .PAYLOAD) 0 tlvPayload.length
    return some ⟨some bytes⟩

/-! ## One iteration -/

/-- The tag bytes that `isValidTag` accepts. -/
def ValidTag (b : UInt8) : Prop :=
  b.toNat ≤ 11

instance : DecidablePred ValidTag :=
  fun b => inferInstanceAs (Decidable (b.toNat ≤ 11))

theorem isValidTag_ofByte (b : UInt8) : isValidTag (Tag.ofByte b) = true ↔ ValidTag b := by
  unfold Tag.ofByte ValidTag
  rcases Nat.lt_or_ge 11 b.toNat with h | h
  · rw [List.getD_eq_getElem?_getD, List.getElem?_eq_none (by simpa using Nat.succ_le_of_lt h),
      Option.getD_none]
    simp [isValidTag, Tag.val, h]
  · generalize b.toNat = n at h
    interval_cases n <;> simp [isValidTag, Tag.val]

/-- What an iteration adds to the map for a record. -/
def insertRecord (umap : TlvMap) (r : Record P.sizeT) : TlvMap :=
  umap.insert (Tag.ofByte r.tag) ⟨Tag.ofByte r.tag, r.value.length, r.value⟩

variable {P} {data : Buffer P} {pre tail : Bytes} (umap : TlvMap)

/-- What an iteration that does not leave the loop has done. -/
theorem tlvIteration_cases {pos pos' : ℕ} {umap' : TlvMap}
    (h : (tlvIteration stray data pos umap).val = .next pos' umap') :
    ∃ type value, isValidTag type = true ∧ value.length ≤ P.maxSize ∧
      P.add pos 1 ≤ data.bytes.length ∧ P.add (P.add pos 1) P.sizeT ≤ data.bytes.length ∧
      pos' = P.add (P.add (P.add pos 1) P.sizeT) value.length ∧
      umap' = umap.insert type ⟨type, value.length, value⟩ := by
  simp only [tlvIteration, Logged.val_bind, Logged.val_ite, Logged.val_pure] at h
  split_ifs at h with htag hpos1 hpos2 hmax
  obtain ⟨rfl, rfl⟩ := Iteration.next.inj h
  let length := P.order.value (load data.bytes stray.buffer (P.add pos 1) P.sizeT).val
  let value := (load data.bytes stray.buffer (P.add (P.add pos 1) P.sizeT) length).val
  have hlen : value.length = length := length_fetch _ _ _ _
  refine ⟨_, value, Bool.of_not_eq_false htag, hlen.le.trans (Nat.not_lt.1 hmax),
    Nat.not_lt.1 hpos1, Nat.not_lt.1 hpos2, ?_, ?_⟩
  · rw [hlen]
  · rw [hlen]

/-- An iteration that leaves the loop rejects the buffer or ends the process. -/
theorem tlvIteration_leave {pos : ℕ} {result : Exit (Option TlvMap)}
    (h : (tlvIteration stray data pos umap).val = .leave result) :
    result = .returned none ∨ result = .terminated := by
  simp only [tlvIteration, Logged.val_bind, Logged.val_ite, Logged.val_pure] at h
  split_ifs at h <;> cases h <;> simp

/-- Bytes read inside the buffer, at the place `pre` leaves. -/
theorem fetch_data (pre mid post : Bytes) (hdata : data.bytes = pre ++ (mid ++ post)) :
    fetch data.bytes stray.buffer pre.length mid.length = mid := by
  rw [hdata, fetch_append]

/-- The positions behind the tag and behind the length field do not wrap. -/
theorem add_positions {pos : ℕ} (hlt : pos < data.bytes.length) :
    P.add pos 1 = pos + 1 ∧ P.add (pos + 1) P.sizeT = pos + 1 + P.sizeT := by
  have hw := P.sizeT_bounds
  have hsize := data.size_le
  have hmax := P.le_maxSize
  exact ⟨P.add_eq (by omega), P.add_eq (by omega)⟩

/-- On a complete record with a valid tag the iteration reads the record and no more, and
goes on behind it. -/
theorem tlvIteration_frame {r : Record P.sizeT} (hr : ValidTag r.tag)
    (hdata : data.bytes = pre ++ (frame P.order r ++ tail)) :
    (tlvIteration stray data pre.length umap).InBounds ∧
      (tlvIteration stray data pre.length umap).val =
        .next (pre ++ frame P.order r).length (insertRecord P umap r) := by
  have hw := P.sizeT_bounds
  have hsize := data.size_le
  have hlen : data.bytes.length = pre.length + (1 + P.sizeT + r.value.length + tail.length) := by
    simp [hdata]
  have htag : fetch data.bytes stray.buffer pre.length 1 = [r.tag] :=
    fetch_data stray pre [r.tag] _ hdata
  have himage : fetch data.bytes stray.buffer (pre.length + 1) P.sizeT =
      P.order.image P.sizeT r.value.length := by
    have h := fetch_data stray (pre ++ [r.tag]) (P.order.image P.sizeT r.value.length)
      (r.value ++ tail) (by simp [hdata, frame] : data.bytes = _)
    simpa using h
  have hvalue : fetch data.bytes stray.buffer (pre.length + 1 + P.sizeT) r.value.length =
      r.value := by
    have h := fetch_data stray (pre ++ [r.tag] ++ P.order.image P.sizeT r.value.length) r.value
      tail (by simp [hdata, frame] : data.bytes = _)
    rwa [List.length_append, List.length_append, ByteOrder.length_image] at h
  obtain ⟨hpos1, hpos2⟩ := add_positions (by omega : pre.length < data.bytes.length)
  have hpos3 : P.add (pre.length + 1 + P.sizeT) r.value.length =
      (pre ++ frame P.order r).length := by
    rw [P.add_eq (by omega), List.length_append, length_frame]
    omega
  have hvalid := (isValidTag_ofByte r.tag).2 hr
  have hin1 : ¬ data.bytes.length < pre.length + 1 := by omega
  have hin2 : ¬ data.bytes.length < pre.length + 1 + P.sizeT := by omega
  have hmax : ¬ P.maxSize < r.value.length := by omega
  have hin3 : pre.length + 1 + P.sizeT + r.value.length ≤ data.bytes.length := by omega
  simp [tlvIteration, htag, hvalid, hpos1, hin1, himage, P.order.value_image r.fits, hpos2, hin2,
    hmax, hvalue, hpos3, insertRecord]
  omega

/-- An invalid tag is the only byte read, and is rejected. -/
theorem tlvIteration_badTag {t : UInt8} (ht : ¬ValidTag t) (hdata : data.bytes = pre ++ t :: tail) :
    (tlvIteration stray data pre.length umap).InBounds ∧
      (tlvIteration stray data pre.length umap).val = .leave (.returned none) := by
  have htag : fetch data.bytes stray.buffer pre.length 1 = [t] := fetch_data stray pre [t] _ hdata
  have hvalid : isValidTag (Tag.ofByte t) = false := by
    rw [← Bool.not_eq_true, isValidTag_ofByte]
    exact ht
  have hin : pre.length + 1 ≤ data.bytes.length := by simp [hdata]
  simp [tlvIteration, htag, hvalid, hin]

/-- A length field cut short is read past the end of the buffer, and then rejected. -/
theorem tlvIteration_shortLength {t : UInt8} (ht : ValidTag t)
    (hdata : data.bytes = pre ++ t :: tail) (hshort : tail.length < P.sizeT) :
    ¬(tlvIteration stray data pre.length umap).InBounds ∧
      (tlvIteration stray data pre.length umap).val = .leave (.returned none) := by
  have hw := P.sizeT_bounds
  have hsize := data.size_le
  have hmax := P.le_maxSize
  have hlen : data.bytes.length = pre.length + (tail.length + 1) := by simp [hdata]
  have htag : fetch data.bytes stray.buffer pre.length 1 = [t] := fetch_data stray pre [t] _ hdata
  have hvalid := (isValidTag_ofByte t).2 ht
  obtain ⟨hpos1, hpos2⟩ := add_positions (by omega : pre.length < data.bytes.length)
  have hin1 : ¬ data.bytes.length < pre.length + 1 := by omega
  have hout : data.bytes.length < pre.length + 1 + P.sizeT := by omega
  simp [tlvIteration, htag, hvalid, hpos1, hin1, hpos2, hout]

/-- A value longer than what remains ends the process if no vector can hold it. Otherwise
it is read past the end of the buffer and stored like any other. -/
theorem tlvIteration_shortValue {t : UInt8} {len rest : Bytes} (ht : ValidTag t)
    (hlen : len.length = P.sizeT) (hdata : data.bytes = pre ++ t :: (len ++ rest))
    (hshort : rest.length < P.order.value len) :
    (P.maxSize < P.order.value len → (tlvIteration stray data pre.length umap).InBounds ∧
      (tlvIteration stray data pre.length umap).val = .leave .terminated) ∧
    (P.order.value len ≤ P.maxSize → ¬(tlvIteration stray data pre.length umap).InBounds ∧
      ∃ pos umap', data.bytes.length ≤ pos ∧
        (tlvIteration stray data pre.length umap).val = .next pos umap') := by
  have hw := P.sizeT_bounds
  have hsize := data.size_le
  have hsum : data.bytes.length = pre.length + (1 + P.sizeT + rest.length) := by
    simp [hdata, hlen]
    omega
  have htag : fetch data.bytes stray.buffer pre.length 1 = [t] := fetch_data stray pre [t] _ hdata
  have hlength : fetch data.bytes stray.buffer (pre.length + 1) P.sizeT = len := by
    have h := fetch_data stray (pre ++ [t]) len rest (by simp [hdata] : data.bytes = _)
    rwa [hlen, List.length_append] at h
  have hvalid := (isValidTag_ofByte t).2 ht
  obtain ⟨hpos1, hpos2⟩ := add_positions (by omega : pre.length < data.bytes.length)
  have hin1 : ¬ data.bytes.length < pre.length + 1 := by omega
  have hin2 : ¬ data.bytes.length < pre.length + 1 + P.sizeT := by omega
  constructor
  · intro hmax
    simp [tlvIteration, htag, hvalid, hpos1, hin1, hlength, hpos2, hin2, hmax]
    omega
  · intro hmax
    have hpos3 : P.add (pre.length + 1 + P.sizeT) (P.order.value len) =
        pre.length + 1 + P.sizeT + P.order.value len := P.add_eq (by omega)
    simp [tlvIteration, htag, hvalid, hpos1, hin1, hlength, hpos2, hin2, Nat.not_lt.2 hmax, hpos3]
    omega

/-! ## The loop -/

theorem tlvLoop_of_le (fuel : ℕ) {pos : ℕ} (h : data.bytes.length ≤ pos) :
    tlvLoop stray data fuel pos umap = pure (.returned (some umap)) := by
  cases fuel <;> simp [tlvLoop, h]

theorem tlvLoop_next (fuel : ℕ) {pos pos' : ℕ} {umap' : TlvMap} (h : pos < data.bytes.length)
    (hval : (tlvIteration stray data pos umap).val = .next pos' umap') :
    (tlvLoop stray data (fuel + 1) pos umap).val = (tlvLoop stray data fuel pos' umap').val ∧
      ((tlvLoop stray data (fuel + 1) pos umap).InBounds ↔
        (tlvIteration stray data pos umap).InBounds ∧
          (tlvLoop stray data fuel pos' umap').InBounds) := by
  rw [tlvLoop, if_neg (Nat.not_le.2 h)]
  simp [hval]

theorem tlvLoop_leave (fuel : ℕ) {pos : ℕ} {result : Exit (Option TlvMap)}
    (h : pos < data.bytes.length)
    (hval : (tlvIteration stray data pos umap).val = .leave result) :
    (tlvLoop stray data (fuel + 1) pos umap).val = result ∧
      ((tlvLoop stray data (fuel + 1) pos umap).InBounds ↔
        (tlvIteration stray data pos umap).InBounds) := by
  rw [tlvLoop, if_neg (Nat.not_le.2 h)]
  simp [hval]

/-- The map after the records `rs`. -/
def insertRecords (umap : TlvMap) (rs : List (Record P.sizeT)) : TlvMap :=
  rs.foldl (insertRecord P) umap

theorem lookup_insertRecords_of_ne {rs : List (Record P.sizeT)} {tag : Tag}
    (h : ∀ r ∈ rs, tag ≠ Tag.ofByte r.tag) :
    (insertRecords umap rs).lookup tag = umap.lookup tag := by
  induction rs generalizing umap with
  | nil => rfl
  | cons r rs ih =>
    obtain ⟨hr, hrs⟩ := List.forall_mem_cons.1 h
    exact (ih (insertRecord P umap r) hrs).trans (AList.lookup_insert_ne hr)

/-- The loop takes one iteration per complete record and reads nothing else. -/
theorem tlvLoop_frames :
    ∀ (rs : List (Record P.sizeT)) (pre : Bytes) (umap : TlvMap) (fuel : ℕ),
      (∀ r ∈ rs, ValidTag r.tag) → data.bytes = pre ++ (frames P.order rs ++ tail) →
      (tlvLoop stray data (rs.length + fuel) pre.length umap).val =
          (tlvLoop stray data fuel (pre ++ frames P.order rs).length (insertRecords umap rs)).val ∧
        ((tlvLoop stray data (rs.length + fuel) pre.length umap).InBounds ↔
          (tlvLoop stray data fuel (pre ++ frames P.order rs).length
            (insertRecords umap rs)).InBounds)
  | [], pre, umap, fuel, _, _ => by simp [insertRecords]
  | r :: rs, pre, umap, fuel, hrs, hdata => by
    obtain ⟨hr, hrs⟩ := List.forall_mem_cons.1 hrs
    rw [frames_cons, List.append_assoc] at hdata
    obtain ⟨hbounds, hval⟩ := tlvIteration_frame stray umap hr hdata
    have hlt : pre.length < data.bytes.length := by
      simp [hdata]
    have hfuel : (r :: rs).length + fuel = rs.length + fuel + 1 := by
      simp
      omega
    obtain ⟨hnext, hnextBounds⟩ := tlvLoop_next stray umap (rs.length + fuel) hlt hval
    have ih := tlvLoop_frames rs (pre ++ frame P.order r) (insertRecord P umap r) fuel hrs
      (by rw [hdata, List.append_assoc])
    rw [hfuel, hnext, hnextBounds, ih.1, ih.2, frames_cons, ← List.append_assoc]
    exact ⟨rfl, by simp [hbounds, insertRecords]⟩

/-! ## Every buffer

By `exists_frames_append_tail` a buffer is a stream of complete records and a tail. One
theorem for each kind of tail says how `getAllTlv` ends.
-/

/-- A nonempty buffer is parsed up to its tail, with fuel left for the tail. -/
theorem getAllTlv_frames_append {rs : List (Record P.sizeT)} (hrs : ∀ r ∈ rs, ValidTag r.tag)
    (hdata : data.bytes = frames P.order rs ++ tail) (hne : data.bytes ≠ []) :
    ∃ fuel, (getAllTlv stray (some data)).val = (tlvLoop stray data (fuel + tail.length)
        (frames P.order rs).length (insertRecords ∅ rs)).val ∧
      ((getAllTlv stray (some data)).InBounds ↔ (tlvLoop stray data (fuel + tail.length)
        (frames P.order rs).length (insertRecords ∅ rs)).InBounds) := by
  have hcount := mul_length_le_length_frames P.order rs
  have hsplit : data.bytes.length = (frames P.order rs).length + tail.length := by
    rw [hdata, List.length_append]
  have hrecords : rs.length ≤ (frames P.order rs).length := by
    rw [Nat.add_mul] at hcount
    omega
  obtain ⟨fuel, hfuel⟩ := Nat.exists_eq_add_of_le hrecords
  have hsize : data.bytes.length = rs.length + (fuel + tail.length) := by omega
  have hloop := tlvLoop_frames stray rs [] ∅ (fuel + tail.length) hrs hdata
  refine ⟨fuel, ?_⟩
  rw [getAllTlv, if_neg (by simpa using hne), hsize]
  exact hloop

/-- A stream of complete records is accepted, with each tag bound to its last record. -/
theorem getAllTlv_frames {rs : List (Record P.sizeT)} (hrs : ∀ r ∈ rs, ValidTag r.tag)
    (hdata : data.bytes = frames P.order rs) (hne : data.bytes ≠ []) :
    (getAllTlv stray (some data)).InBounds ∧
      (getAllTlv stray (some data)).val = .returned (some (insertRecords ∅ rs)) := by
  have hdata' : data.bytes = frames P.order rs ++ [] := by simpa using hdata
  obtain ⟨fuel, hval, hbounds⟩ := getAllTlv_frames_append stray hrs hdata' hne
  rw [hval, hbounds, tlvLoop_of_le stray _ _ (by rw [hdata])]
  simp

/-- Complete records and then an invalid tag are rejected. -/
theorem getAllTlv_badTag {rs : List (Record P.sizeT)} {t : UInt8} (hrs : ∀ r ∈ rs, ValidTag r.tag)
    (ht : ¬ValidTag t) (hdata : data.bytes = frames P.order rs ++ t :: tail) :
    (getAllTlv stray (some data)).InBounds ∧
      (getAllTlv stray (some data)).val = .returned none := by
  obtain ⟨fuel, hval, hbounds⟩ := getAllTlv_frames_append stray hrs hdata (by simp [hdata])
  obtain ⟨hin, hiter⟩ := tlvIteration_badTag stray (insertRecords ∅ rs) ht hdata
  obtain ⟨hleave, hleaveBounds⟩ :=
    tlvLoop_leave stray _ (fuel + tail.length) (by simp [hdata]) hiter
  rw [hval, hbounds]
  exact ⟨hleaveBounds.2 hin, hleave⟩

/-- Complete records and then a length field cut short are rejected after a read past the
end of the buffer. -/
theorem getAllTlv_shortLength {rs : List (Record P.sizeT)} {t : UInt8}
    (hrs : ∀ r ∈ rs, ValidTag r.tag) (ht : ValidTag t)
    (hdata : data.bytes = frames P.order rs ++ t :: tail) (hshort : tail.length < P.sizeT) :
    ¬(getAllTlv stray (some data)).InBounds ∧
      (getAllTlv stray (some data)).val = .returned none := by
  obtain ⟨fuel, hval, hbounds⟩ := getAllTlv_frames_append stray hrs hdata (by simp [hdata])
  obtain ⟨hin, hiter⟩ := tlvIteration_shortLength stray (insertRecords ∅ rs) ht hdata hshort
  obtain ⟨hleave, hleaveBounds⟩ :=
    tlvLoop_leave stray _ (fuel + tail.length) (by simp [hdata]) hiter
  rw [hval, hbounds]
  exact ⟨fun h => hin (hleaveBounds.1 h), hleave⟩

/-- Complete records and then a value longer than what remains : the process ends, or the
value is read past the end of the buffer and a map is returned. -/
theorem getAllTlv_shortValue {rs : List (Record P.sizeT)} {t : UInt8} {len rest : Bytes}
    (hrs : ∀ r ∈ rs, ValidTag r.tag) (ht : ValidTag t) (hlen : len.length = P.sizeT)
    (hdata : data.bytes = frames P.order rs ++ t :: (len ++ rest))
    (hshort : rest.length < P.order.value len) :
    (P.maxSize < P.order.value len → (getAllTlv stray (some data)).InBounds ∧
      (getAllTlv stray (some data)).val = .terminated) ∧
    (P.order.value len ≤ P.maxSize → ¬(getAllTlv stray (some data)).InBounds ∧
      ∃ umap, (getAllTlv stray (some data)).val = .returned (some umap)) := by
  obtain ⟨fuel, hval, hbounds⟩ := getAllTlv_frames_append stray hrs hdata (by simp [hdata])
  obtain ⟨hbig, hsmall⟩ :=
    tlvIteration_shortValue stray (insertRecords ∅ rs) ht hlen hdata hshort
  have hlt : (frames P.order rs).length < data.bytes.length := by simp [hdata]
  rw [hval, hbounds]
  constructor
  · intro hmax
    obtain ⟨hin, hiter⟩ := hbig hmax
    obtain ⟨hleave, hleaveBounds⟩ :=
      tlvLoop_leave stray _ (fuel + (len ++ rest).length) hlt hiter
    exact ⟨hleaveBounds.2 hin, hleave⟩
  · intro hmax
    obtain ⟨hout, pos, umap, hpos, hiter⟩ := hsmall hmax
    obtain ⟨hnext, hnextBounds⟩ :=
      tlvLoop_next stray _ (fuel + (len ++ rest).length) hlt hiter
    refine ⟨fun h => hout (hnextBounds.1 h).1, umap, hnext.trans ?_⟩
    rw [tlvLoop_of_le stray _ _ hpos]
    rfl

theorem exists_records_tail (data : Buffer P) :
    ∃ (rs : List (Record P.sizeT)) (tail : Bytes), (∀ r ∈ rs, ValidTag r.tag) ∧
      data.bytes = frames P.order rs ++ tail ∧ Tail P.order P.sizeT ValidTag tail :=
  exists_frames_append_tail P.order data.bytes

/-- The fuel suffices : `getAllTlv` always ends, by a return or with the process. -/
theorem getAllTlv_ends (data : Option (Buffer P)) :
    (∃ result, (getAllTlv stray data).val = .returned result) ∨
      (getAllTlv stray data).val = .terminated := by
  cases data with
  | none => exact Or.inl ⟨none, rfl⟩
  | some data =>
    by_cases hne : data.bytes = []
    · exact Or.inl ⟨none, by simp [getAllTlv, hne]⟩
    obtain ⟨rs, tail, hrs, hdata, htail⟩ := exists_records_tail data
    cases htail with
    | done => exact Or.inl ⟨_, (getAllTlv_frames stray hrs (by simpa using hdata) hne).2⟩
    | badTag t rest ht => exact Or.inl ⟨_, (getAllTlv_badTag stray hrs ht hdata).2⟩
    | shortLength t rest ht hshort =>
      exact Or.inl ⟨_, (getAllTlv_shortLength stray hrs ht hdata hshort).2⟩
    | shortValue t len rest ht hlen hshort =>
      obtain ⟨hbig, hsmall⟩ := getAllTlv_shortValue stray hrs ht hlen hdata hshort
      rcases Nat.lt_or_ge P.maxSize (P.order.value len) with hmax | hmax
      · exact Or.inr (hbig hmax).2
      · obtain ⟨-, umap, hval⟩ := hsmall hmax
        exact Or.inl ⟨_, hval⟩

/-! ## Decoding -/

variable (P)

/-- The attributes that are decoded from a map with these entries for the mandatory tags. -/
def decodedFields (idTlv typeTlv priorityTlv : TLV) (umap : TlvMap) : UAttributes UUID UUri where
  id := X.deserializeFromBytes idTlv.value
  type := (memcpy32 P stray .TYPE typeTlv).val
  priority := (memcpy32 P stray .PRIORITY priorityTlv).val
  ttl := (umap.lookup .TTL).map fun _ => (readInt32 P stray .ID idTlv).val
  token := none
  serializationHint := none
  sink := none
  plevel := (umap.lookup .PLEVEL).map fun tlv => (readInt32 P stray .PLEVEL tlv).val
  commstatus := (umap.lookup .COMMSTATUS).map fun tlv => (readInt32 P stray .COMMSTATUS tlv).val
  reqid := none

/-- A map with the mandatory tags is decoded field by field. -/
theorem val_getAttributes {umap : TlvMap} {idTlv typeTlv priorityTlv : TLV}
    (hID : umap.lookup .ID = some idTlv) (hTYPE : umap.lookup .TYPE = some typeTlv)
    (hPRIORITY : umap.lookup .PRIORITY = some priorityTlv) :
    (getAttributes P X stray umap).val =
      some (decodedFields P X stray idTlv typeTlv priorityTlv umap) := by
  have hid : fetch idTlv.value (stray.value .ID) 0 idTlv.value.length = idTlv.value := by
    rw [fetch_take _ le_rfl, List.take_length]
  rw [getAttributes, hID, hTYPE, hPRIORITY]
  -- the optional fields are decoded one by one, each present or not
  rcases httl : umap.lookup .TTL with _ | ttlTlv <;>
    rcases hplevel : umap.lookup .PLEVEL with _ | plevelTlv <;>
    rcases hcommstatus : umap.lookup .COMMSTATUS with _ | commstatusTlv <;>
    simp [decodedFields, httl, hplevel, hcommstatus, hid, UAttributes.builder,
      UAttributes.withTtl, UAttributes.withPermissionLevel, UAttributes.withCommStatus]

/-- The accesses of the decoder are those of its fields, and a read of the whole identifier. -/
theorem all_getAttributes_iff {p : Access → Prop} (hwhole : ∀ n, p ⟨.read, 0, n, n⟩)
    {umap : TlvMap} {idTlv typeTlv priorityTlv : TLV} (hID : umap.lookup .ID = some idTlv)
    (hTYPE : umap.lookup .TYPE = some typeTlv)
    (hPRIORITY : umap.lookup .PRIORITY = some priorityTlv) :
    (getAttributes P X stray umap).All p ↔
      (memcpy32 P stray .TYPE typeTlv).All p ∧ (memcpy32 P stray .PRIORITY priorityTlv).All p ∧
      ((umap.lookup .TTL).isSome → (readInt32 P stray .ID idTlv).All p) ∧
      (∀ tlv ∈ umap.lookup .PLEVEL, (readInt32 P stray .PLEVEL tlv).All p) ∧
      ∀ tlv ∈ umap.lookup .COMMSTATUS, (readInt32 P stray .COMMSTATUS tlv).All p := by
  rw [getAttributes, hID, hTYPE, hPRIORITY]
  rcases httl : umap.lookup .TTL with _ | ttlTlv <;>
    rcases hplevel : umap.lookup .PLEVEL with _ | plevelTlv <;>
    rcases hcommstatus : umap.lookup .COMMSTATUS with _ | commstatusTlv <;>
    simp [hwhole, httl, hplevel, hcommstatus]

theorem val_readInt32 (tag : Tag) {tlv : TLV} (h : 4 ≤ tlv.value.length) :
    (readInt32 P stray tag tlv).val = P.value32 (tlv.value.take 4) := by
  simp [readInt32, fetch_take _ h]

/-- A value of four bytes sets the whole variable. -/
theorem val_memcpy32 (tag : Tag) {tlv : TLV} (hlength : tlv.length = 4)
    (hvalue : tlv.value.length = 4) :
    (memcpy32 P stray tag tlv).val = P.value32 tlv.value := by
  have hfetch : fetch tlv.value (stray.value tag) 0 tlv.length = tlv.value := by
    rw [hlength, fetch_take _ hvalue.ge, List.take_of_length_le hvalue.le]
  simp only [memcpy32, Logged.val_bind, val_load, val_store, Logged.val_pure, hfetch]
  rw [overwrite_all (by simp [hvalue])]

end MessageParser

end UpClientZenoh
