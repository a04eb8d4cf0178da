import UpClientZenoh.MessageParser

/-!
# Memory safety of the message parser

What the parser reads on a buffer from any peer.

`getAllTlv` checks the position after each read, not before it. `parsesSoundly_iff` : it
stays inside the buffer, and accepts exactly streams of complete records, if and only if
the buffer does not break off inside a record (`StopsBetweenRecords`).

`getAttributes` checks that three tags are present and no size. `decodesSafely_iff` : on a
map of `getAllTlv` every access stays inside its object, and `type` and `priority` are set
whole, if and only if a mandatory tag is missing or the fields have the sizes the reads
rely on (`FieldsSized`).
-/

open NativeBytes MemoryAccess Framing

namespace UpClientZenoh

variable {UUID UUri : Type} {P : Platform} (X : Externals UUID UUri) (stray : Stray)

namespace MessageParser

/-! ## Records -/

/-- The buffer is a concatenation of complete records with valid tags. -/
def IsRecordStream (data : Buffer P) : Prop :=
  Complete P.order P.sizeT ValidTag data.bytes

/-- `getAllTlv` reads bytes of the buffer only, returns a map only for a stream of
complete records, and `nullopt` for every other buffer. -/
structure ParsesSoundly (data : Buffer P) : Prop where
  inBounds : (getAllTlv stray (some data)).InBounds
  sound : ∀ umap, (getAllTlv stray (some data)).val = .returned (some umap) → IsRecordStream data
  rejects : ¬IsRecordStream data → (getAllTlv stray (some data)).val = .returned none

/-- Behind the complete records at its start the buffer ends, or goes on with an invalid
tag. It does not break off inside a record. -/
def StopsBetweenRecords (data : Buffer P) : Prop :=
  ∃ (rs : List (Record P.sizeT)) (tail : Bytes), (∀ r ∈ rs, ValidTag r.tag) ∧
    data.bytes = frames P.order rs ++ tail ∧ ∀ t ∈ tail.head?, ¬ValidTag t

/-- Behind complete records at its start, at `pos`, the buffer goes on with a valid tag and a
length field that holds `length`. -/
def DeclaresLength (data : Buffer P) (pos length : ℕ) : Prop :=
  ∃ (rs : List (Record P.sizeT)) (t : UInt8) (len rest : Bytes), (∀ r ∈ rs, ValidTag r.tag) ∧
    ValidTag t ∧ len.length = P.sizeT ∧ data.bytes = frames P.order rs ++ t :: (len ++ rest) ∧
    pos = (frames P.order rs).length ∧ length = P.order.value len

theorem isRecordStream_of_frames {data : Buffer P} {rs : List (Record P.sizeT)}
    (hrs : ∀ r ∈ rs, ValidTag r.tag) (hdata : data.bytes = frames P.order rs) :
    IsRecordStream data :=
  ⟨rs, hrs, hdata⟩

/-- A buffer with a nonempty tail is no record stream. -/
theorem not_isRecordStream {data : Buffer P} {rs : List (Record P.sizeT)} {t : UInt8}
    {rest : Bytes} (hdata : data.bytes = frames P.order rs ++ t :: rest)
    (htail : Tail P.order P.sizeT ValidTag (t :: rest)) : ¬IsRecordStream data := by
  intro hc
  rw [IsRecordStream, hdata] at hc
  exact absurd (htail.eq_nil_of_frames P.order hc) (by simp)

theorem parsesSoundly_of_stopsBetweenRecords {data : Buffer P} (h : StopsBetweenRecords data) :
    ParsesSoundly stray data := by
  obtain ⟨rs, tail, hrs, hdata, htail⟩ := h
  rcases tail with _ | ⟨t, rest⟩
  · rw [List.append_nil] at hdata
    have hstream := isRecordStream_of_frames hrs hdata
    refine ⟨?_, fun _ _ => hstream, fun h => absurd hstream h⟩
    by_cases hne : data.bytes = []
    · simp [getAllTlv, hne]
    · exact (getAllTlv_frames stray hrs hdata hne).1
  · obtain ⟨hbounds, hval⟩ := getAllTlv_badTag stray hrs (htail t rfl) hdata
    refine ⟨hbounds, ?_, fun _ => hval⟩
    intro umap hmap
    rw [hval] at hmap
    simp at hmap

/-- A parser that stays inside the buffer and does not end the process has not come to a
record that breaks off. -/
theorem stopsBetweenRecords_of_inBounds {data : Buffer P}
    (hin : (getAllTlv stray (some data)).InBounds)
    (hval : (getAllTlv stray (some data)).val ≠ .terminated) : StopsBetweenRecords data := by
  obtain ⟨rs, tail, hrs, hdata, htail⟩ := exists_records_tail data
  cases htail with
  | done => exact ⟨rs, [], hrs, hdata, by simp⟩
  | badTag t rest ht => exact ⟨rs, t :: rest, hrs, hdata, by simpa using ht⟩
  | shortLength t rest ht hshort =>
    exact absurd hin (getAllTlv_shortLength stray hrs ht hdata hshort).1
  | shortValue t len rest ht hlen hshort =>
    obtain ⟨hbig, hsmall⟩ := getAllTlv_shortValue stray hrs ht hlen hdata hshort
    rcases Nat.lt_or_ge P.maxSize (P.order.value len) with hmax | hmax
    · exact absurd (hbig hmax).2 hval
    · exact absurd hin (hsmall hmax).1

theorem ParsesSoundly.not_terminated {data : Buffer P} (h : ParsesSoundly stray data) :
    (getAllTlv stray (some data)).val ≠ .terminated := by
  intro hval
  by_cases hstream : IsRecordStream data
  · obtain ⟨rs, hrs, hdata⟩ := hstream
    by_cases hne : data.bytes = []
    · simp [getAllTlv, hne] at hval
    · rw [(getAllTlv_frames stray hrs hdata hne).2] at hval
      cases hval
  · rw [h.rejects hstream] at hval
    cases hval

theorem stopsBetweenRecords_of_parsesSoundly {data : Buffer P} (h : ParsesSoundly stray data) :
    StopsBetweenRecords data :=
  stopsBetweenRecords_of_inBounds stray h.inBounds (h.not_terminated stray)

/-- The parser is sound on exactly the buffers that do not break off inside a record. -/
theorem parsesSoundly_iff (data : Buffer P) :
    ParsesSoundly stray data ↔ StopsBetweenRecords data :=
  ⟨stopsBetweenRecords_of_parsesSoundly stray, parsesSoundly_of_stopsBetweenRecords stray⟩

/-- The parser ends the process on exactly the buffers that declare a length above
`PTRDIFF_MAX`. -/
theorem getAllTlv_terminated_iff (data : Buffer P) :
    (getAllTlv stray (some data)).val = .terminated ↔
      ∃ pos length, DeclaresLength data pos length ∧ P.maxSize < length := by
  constructor
  · intro hval
    obtain ⟨rs, tail, hrs, hdata, htail⟩ := exists_records_tail data
    cases htail with
    | done =>
      by_cases hne : data.bytes = []
      · simp [getAllTlv, hne] at hval
      · simp [(getAllTlv_frames stray hrs (by simpa using hdata) hne).2] at hval
    | badTag t rest ht => simp [(getAllTlv_badTag stray hrs ht hdata).2] at hval
    | shortLength t rest ht hshort =>
      simp [(getAllTlv_shortLength stray hrs ht hdata hshort).2] at hval
    | shortValue t len rest ht hlen hshort =>
      refine ⟨_, _, ⟨rs, t, len, rest, hrs, ht, hlen, hdata, rfl, rfl⟩, ?_⟩
      by_contra hmax
      obtain ⟨-, umap, hreturned⟩ :=
        (getAllTlv_shortValue stray hrs ht hlen hdata hshort).2 (Nat.le_of_not_lt hmax)
      simp [hreturned] at hval
  · rintro ⟨pos, length, ⟨rs, t, len, rest, hrs, ht, hlen, hdata, rfl, rfl⟩, hmax⟩
    have hshort : rest.length < P.order.value len := by
      have hsize := data.size_le
      simp only [hdata, List.length_append, List.length_cons] at hsize
      omega
    exact ((getAllTlv_shortValue stray hrs ht hlen hdata hshort).1 hmax).2

/-- Up to where the parser ends the process it has read bytes of the buffer only. -/
theorem inBounds_of_getAllTlv_terminated {data : Buffer P}
    (h : (getAllTlv stray (some data)).val = .terminated) :
    (getAllTlv stray (some data)).InBounds := by
  obtain ⟨pos, length, ⟨rs, t, len, rest, hrs, ht, hlen, hdata, rfl, rfl⟩, hmax⟩ :=
    (getAllTlv_terminated_iff stray data).1 h
  have hshort : rest.length < P.order.value len := by
    have hsize := data.size_le
    simp only [hdata, List.length_append, List.length_cons] at hsize
    omega
  exact ((getAllTlv_shortValue stray hrs ht hlen hdata hshort).1 hmax).1

/-- An `ID` record that declares five bytes of value and holds one. -/
def overlongRecord : Buffer ⟨.eight, .little⟩ where
  bytes := [1, 5, 0, 0, 0, 0, 0, 0, 0, 170]
  size_le := by decide

/-- Zero bytes wherever the parser reads without owning. -/
def zeroStray : Stray where
  buffer _ := 0
  value _ _ := 0
  unset _ _ := 0

/-- The parser reads four bytes past the end of the overlong record. -/
theorem not_parsesSoundly_overlongRecord : ¬ParsesSoundly zeroStray overlongRecord :=
  fun h => absurd h.inBounds (by decide)

/-! ## Fields -/

/-- Every entry is filed under its own tag, with the length of its value. -/
def LengthsAgree (umap : TlvMap) : Prop :=
  ∀ tag, ∀ tlv ∈ umap.lookup tag, tlv.type = tag ∧ tlv.length = tlv.value.length

theorem lengthsAgree_empty : LengthsAgree ∅ := by
  intro tag tlv htlv
  simp at htlv

theorem LengthsAgree.insert {umap : TlvMap} (h : LengthsAgree umap) (tag : Tag) (value : Bytes) :
    LengthsAgree (umap.insert tag ⟨tag, value.length, value⟩) := by
  intro tag' tlv htlv
  by_cases heq : tag' = tag
  · subst heq
    rw [AList.lookup_insert, Option.mem_some_iff] at htlv
    subst htlv
    exact ⟨rfl, rfl⟩
  · rw [AList.lookup_insert_ne heq] at htlv
    exact h tag' tlv htlv

/-- The loop stores the number of bytes it copied, also where it copies stray ones. -/
theorem lengthsAgree_tlvLoop {data : Buffer P} (fuel pos : ℕ) {umap umap' : TlvMap}
    (h : LengthsAgree umap)
    (hval : (tlvLoop stray data fuel pos umap).val = .returned (some umap')) :
    LengthsAgree umap' := by
  induction fuel generalizing pos umap with
  | zero =>
    rcases Nat.lt_or_ge pos data.bytes.length with hlt | hle
    · simp [tlvLoop, Nat.not_le.2 hlt] at hval
    · rw [tlvLoop_of_le stray umap 0 hle] at hval
      cases hval
      exact h
  | succ fuel ih =>
    rcases Nat.lt_or_ge pos data.bytes.length with hlt | hle
    · cases hiter : (tlvIteration stray data pos umap).val with
      | next pos' umap'' =>
        rw [(tlvLoop_next stray umap fuel hlt hiter).1] at hval
        obtain ⟨type, value, -, -, -, -, -, rfl⟩ := tlvIteration_cases stray umap hiter
        exact ih pos' (h.insert type value) hval
      | leave result =>
        rw [(tlvLoop_leave stray umap fuel hlt hiter).1] at hval
        rcases tlvIteration_leave stray umap hiter with rfl | rfl <;> cases hval
    · rw [tlvLoop_of_le stray umap (fuel + 1) hle] at hval
      cases hval
      exact h

theorem lengthsAgree_getAllTlv {data : Option (Buffer P)} {umap : TlvMap}
    (hval : (getAllTlv stray data).val = .returned (some umap)) : LengthsAgree umap := by
  rcases data with _ | data
  · simp [getAllTlv] at hval
  by_cases hempty : data.bytes.length = 0
  · simp [getAllTlv, hempty] at hval
  · rw [getAllTlv, if_neg hempty] at hval
    exact lengthsAgree_tlvLoop stray _ _ lengthsAgree_empty hval

variable (P)

/-- `getAttributes` returns `nullopt`, or every access is inside its object and every
variable it writes is written whole. -/
def DecodesSafely (umap : TlvMap) : Prop :=
  (getAttributes P X stray umap).val = none ∨
    (getAttributes P X stray umap).All fun a => a.InBounds ∧ (a.kind = .write → a.Exact)

/-- A tag that `getAttributes` insists on is missing. -/
def MandatoryMissing (umap : TlvMap) : Prop :=
  umap.lookup .ID = none ∨ umap.lookup .TYPE = none ∨ umap.lookup .PRIORITY = none

theorem getAttributes_eq_none_iff (umap : TlvMap) :
    (getAttributes P X stray umap).val = none ↔ MandatoryMissing umap := by
  rcases hid : umap.lookup .ID with _ | idTlv
  · simp [MandatoryMissing, getAttributes, hid]
  rcases htype : umap.lookup .TYPE with _ | typeTlv
  · simp [MandatoryMissing, getAttributes, htype]
  rcases hpriority : umap.lookup .PRIORITY with _ | priorityTlv
  · simp [MandatoryMissing, getAttributes, hpriority]
  simp [MandatoryMissing, val_getAttributes P X stray hid htype hpriority, hid, htype, hpriority]

/-- The sizes that the reads of `getAttributes` rely on. The TTL is read from the `ID`
field. -/
structure FieldsSized (umap : TlvMap) : Prop where
  type : ∀ tlv ∈ umap.lookup .TYPE, tlv.value.length = 4
  priority : ∀ tlv ∈ umap.lookup .PRIORITY, tlv.value.length = 4
  ttl : (umap.lookup .TTL).isSome → ∀ tlv ∈ umap.lookup .ID, 4 ≤ tlv.value.length
  plevel : ∀ tlv ∈ umap.lookup .PLEVEL, 4 ≤ tlv.value.length
  commstatus : ∀ tlv ∈ umap.lookup .COMMSTATUS, 4 ≤ tlv.value.length

variable {P}

/-- The sizes that keep the accesses of `getAttributes` inside their objects. A value of
`TYPE` or `PRIORITY` shorter than the variable leaves a part of it unset. -/
structure FieldsReadable (umap : TlvMap) : Prop where
  type : ∀ tlv ∈ umap.lookup .TYPE, tlv.value.length ≤ 4
  priority : ∀ tlv ∈ umap.lookup .PRIORITY, tlv.value.length ≤ 4
  ttl : (umap.lookup .TTL).isSome → ∀ tlv ∈ umap.lookup .ID, 4 ≤ tlv.value.length
  plevel : ∀ tlv ∈ umap.lookup .PLEVEL, 4 ≤ tlv.value.length
  commstatus : ∀ tlv ∈ umap.lookup .COMMSTATUS, 4 ≤ tlv.value.length

theorem FieldsSized.readable {umap : TlvMap} (h : FieldsSized umap) : FieldsReadable umap :=
  ⟨fun tlv htlv => (h.type tlv htlv).le, fun tlv htlv => (h.priority tlv htlv).le, h.ttl,
    h.plevel, h.commstatus⟩

/-- The maps agree in what the decoder looks at : the entries of five tags, and whether there
is one of a sixth. -/
structure DecodedAlike (umap umap' : TlvMap) : Prop where
  value : ∀ tag ∈ [Tag.ID, .TYPE, .PRIORITY, .PLEVEL, .COMMSTATUS],
    umap.lookup tag = umap'.lookup tag
  ttl : (umap.lookup .TTL).isSome = (umap'.lookup .TTL).isSome

section DecodedAlike

variable {umap umap' : TlvMap} (h : DecodedAlike umap umap')

include h

theorem DecodedAlike.mandatoryMissing_iff : MandatoryMissing umap ↔ MandatoryMissing umap' := by
  unfold MandatoryMissing
  rw [h.value .ID (by decide), h.value .TYPE (by decide), h.value .PRIORITY (by decide)]

theorem DecodedAlike.fieldsReadable_iff : FieldsReadable umap ↔ FieldsReadable umap' := by
  have hfields (umap : TlvMap) : FieldsReadable umap ↔
      (∀ tlv ∈ umap.lookup .TYPE, tlv.value.length ≤ 4) ∧
      (∀ tlv ∈ umap.lookup .PRIORITY, tlv.value.length ≤ 4) ∧
      ((umap.lookup .TTL).isSome → ∀ tlv ∈ umap.lookup .ID, 4 ≤ tlv.value.length) ∧
      (∀ tlv ∈ umap.lookup .PLEVEL, 4 ≤ tlv.value.length) ∧
      ∀ tlv ∈ umap.lookup .COMMSTATUS, 4 ≤ tlv.value.length :=
    ⟨fun h => ⟨h.type, h.priority, h.ttl, h.plevel, h.commstatus⟩,
      fun ⟨htype, hpriority, httl, hplevel, hcommstatus⟩ =>
        ⟨htype, hpriority, httl, hplevel, hcommstatus⟩⟩
  rw [hfields, hfields, h.value .ID (by decide), h.value .TYPE (by decide),
    h.value .PRIORITY (by decide), h.value .PLEVEL (by decide), h.value .COMMSTATUS (by decide),
    h.ttl]

theorem DecodedAlike.getAttributes_eq :
    getAttributes P X stray umap = getAttributes P X stray umap' := by
  unfold getAttributes
  rw [h.value .ID (by decide), h.value .TYPE (by decide), h.value .PRIORITY (by decide),
    h.value .PLEVEL (by decide), h.value .COMMSTATUS (by decide)]
  have httl := h.ttl
  cases hlookup : umap.lookup .TTL <;> cases hlookup' : umap'.lookup .TTL
  · rfl
  · simp [hlookup, hlookup'] at httl
  · simp [hlookup, hlookup'] at httl
  · rfl

end DecodedAlike

/-- A copy into a four-byte variable is safe for a value of four bytes. -/
theorem all_memcpy32 {umap : TlvMap} (h : LengthsAgree umap) {tag : Tag} {tlv : TLV}
    (htlv : tlv ∈ umap.lookup tag) :
    (memcpy32 P stray tag tlv).All (fun a => a.InBounds ∧ (a.kind = .write → a.Exact)) ↔
      tlv.value.length = 4 := by
  simp [memcpy32, (h tag tlv htlv).2]
  omega

/-- A four-byte read is safe for a value of at least four bytes. -/
theorem all_readInt32 (tag : Tag) (tlv : TLV) :
    (readInt32 P stray tag tlv).All (fun a => a.InBounds ∧ (a.kind = .write → a.Exact)) ↔
      4 ≤ tlv.value.length := by
  simp [readInt32]

/-- On a map of `getAllTlv` the decoder is safe if and only if a mandatory tag is missing
or the fields have the sizes it relies on. -/
theorem decodesSafely_iff {data : Option (Buffer P)} {umap : TlvMap}
    (hval : (getAllTlv stray data).val = .returned (some umap)) :
    DecodesSafely P X stray umap ↔ MandatoryMissing umap ∨ FieldsSized umap := by
  have hlen := lengthsAgree_getAllTlv stray hval
  rcases hid : umap.lookup .ID with _ | idTlv
  · simp [DecodesSafely, MandatoryMissing, getAttributes, hid]
  rcases htype : umap.lookup .TYPE with _ | typeTlv
  · simp [DecodesSafely, MandatoryMissing, getAttributes, htype]
  rcases hpriority : umap.lookup .PRIORITY with _ | priorityTlv
  · simp [DecodesSafely, MandatoryMissing, getAttributes, hpriority]
  have hsized : FieldsSized umap ↔ typeTlv.value.length = 4 ∧ priorityTlv.value.length = 4 ∧
      ((umap.lookup .TTL).isSome → 4 ≤ idTlv.value.length) ∧
      (∀ tlv ∈ umap.lookup .PLEVEL, 4 ≤ tlv.value.length) ∧
      (∀ tlv ∈ umap.lookup .COMMSTATUS, 4 ≤ tlv.value.length) := by
    constructor
    · intro h
      exact ⟨h.type _ htype, h.priority _ hpriority, fun ht => h.ttl ht _ hid, h.plevel,
        h.commstatus⟩
    · rintro ⟨h1, h2, h3, h4, h5⟩
      refine ⟨?_, ?_, ?_, h4, h5⟩ <;> simp_all
  have hnone : (getAttributes P X stray umap).val ≠ none := by
    rw [val_getAttributes P X stray hid htype hpriority]
    exact Option.some_ne_none _
  have hmissing : ¬MandatoryMissing umap := by
    simp [MandatoryMissing, hid, htype, hpriority]
  rw [DecodesSafely, or_iff_right hnone, or_iff_right hmissing, hsized,
    all_getAttributes_iff P X stray (fun n => ⟨by simp, by simp⟩) hid htype hpriority,
    all_memcpy32 stray hlen htype, all_memcpy32 stray hlen hpriority]
  simp only [all_readInt32]

theorem inBounds_memcpy32 {umap : TlvMap} (h : LengthsAgree umap) {tag : Tag} {tlv : TLV}
    (htlv : tlv ∈ umap.lookup tag) :
    (memcpy32 P stray tag tlv).All Access.InBounds ↔ tlv.value.length ≤ 4 := by
  simp [memcpy32, (h tag tlv htlv).2]

theorem inBounds_readInt32 (tag : Tag) (tlv : TLV) :
    (readInt32 P stray tag tlv).All Access.InBounds ↔ 4 ≤ tlv.value.length := by
  simp [readInt32]

/-- The decoder stays inside its objects if and only if a mandatory tag is missing or the
fields have the sizes for it. -/
theorem inBounds_getAttributes_iff {umap : TlvMap} (hlen : LengthsAgree umap) :
    (getAttributes P X stray umap).InBounds ↔ MandatoryMissing umap ∨ FieldsReadable umap := by
  rcases hid : umap.lookup .ID with _ | idTlv
  · simp [MandatoryMissing, getAttributes, hid]
  rcases htype : umap.lookup .TYPE with _ | typeTlv
  · simp [MandatoryMissing, getAttributes, htype]
  rcases hpriority : umap.lookup .PRIORITY with _ | priorityTlv
  · simp [MandatoryMissing, getAttributes, hpriority]
  have hreadable : FieldsReadable umap ↔
      typeTlv.value.length ≤ 4 ∧ priorityTlv.value.length ≤ 4 ∧
      ((umap.lookup .TTL).isSome → 4 ≤ idTlv.value.length) ∧
      (∀ tlv ∈ umap.lookup .PLEVEL, 4 ≤ tlv.value.length) ∧
      (∀ tlv ∈ umap.lookup .COMMSTATUS, 4 ≤ tlv.value.length) := by
    constructor
    · intro h
      exact ⟨h.type _ htype, h.priority _ hpriority, fun ht => h.ttl ht _ hid, h.plevel,
        h.commstatus⟩
    · rintro ⟨h1, h2, h3, h4, h5⟩
      refine ⟨?_, ?_, ?_, h4, h5⟩ <;> simp_all
  have hmissing : ¬MandatoryMissing umap := by
    simp [MandatoryMissing, hid, htype, hpriority]
  rw [or_iff_right hmissing, hreadable, Logged.InBounds,
    all_getAttributes_iff P X stray (fun n => by simp) hid htype hpriority,
    inBounds_memcpy32 stray hlen htype, inBounds_memcpy32 stray hlen hpriority]
  simp only [inBounds_readInt32]

/-- A header whose `TYPE` field has five bytes. -/
def oversizedType : Buffer ⟨.eight, .little⟩ where
  bytes := [1, 0, 0, 0, 0, 0, 0, 0, 0] ++ [2, 5, 0, 0, 0, 0, 0, 0, 0, 1, 0, 0, 0, 0] ++
    [3, 4, 0, 0, 0, 0, 0, 0, 0, 0, 0, 0, 0]
  size_le := by decide

/-- The fields of `oversizedType`. -/
def oversizedTypeMap : TlvMap :=
  ((∅ : TlvMap).insert .ID ⟨.ID, 0, []⟩).insert .TYPE ⟨.TYPE, 5, [1, 0, 0, 0, 0]⟩ |>.insert
    .PRIORITY ⟨.PRIORITY, 4, [0, 0, 0, 0]⟩

theorem getAllTlv_oversizedType :
    (getAllTlv zeroStray (some oversizedType)).val = .returned (some oversizedTypeMap) :=
  rfl

theorem decodesSafely_iff_oversizedType :
    DecodesSafely ⟨.eight, .little⟩ .sample zeroStray oversizedTypeMap ↔
      MandatoryMissing oversizedTypeMap ∨ FieldsSized oversizedTypeMap :=
  decodesSafely_iff .sample zeroStray getAllTlv_oversizedType

/-- The decoder writes five bytes into the four of `type`. -/
theorem not_decodesSafely_oversizedType :
    (getAllTlv zeroStray (some oversizedType)).val = .returned (some oversizedTypeMap) ∧
      ¬DecodesSafely ⟨.eight, .little⟩ .sample zeroStray oversizedTypeMap := by
  refine ⟨getAllTlv_oversizedType, ?_⟩
  rw [DecodesSafely, not_or]
  exact ⟨by decide, by decide⟩

end MessageParser

end UpClientZenoh
