import UpClientZenoh.MessageBuilder
import UpClientZenoh.ParserSafety

/-!
# Header round trip

What `getAttributes` recovers from a header of `buildHeader`.

A header without sink is a stream of complete records, so `getAllTlv` returns the map of
its fields (`getAllTlv_buildHeader`). From that map the decoder rebuilds `decoded` : the
identifier, type, priority, permission level and communication status as they were, a TTL
read from the first four bytes of the identifier, and no other field. `roundTrips_iff`
says for which attributes that is the attributes themselves (`RoundTripFields`).
-/

open NativeBytes MemoryAccess Framing

namespace UpClientZenoh

variable {UUID UUri : Type} (P : Platform) (X : Externals UUID UUri) (stray : Stray)

open MessageBuilder MessageParser

/-! ## The map of a header -/

/-- The map entry of a field. -/
def fieldTlv (tag : Tag) (data : Bytes) : TLV :=
  ⟨tag, data.length, data⟩

/-- The map after the fields `fs`. -/
def insertFields (umap : TlvMap) (fs : List Field) : TlvMap :=
  fs.foldl (fun umap f => umap.insert f.1 (fieldTlv f.1 f.2)) umap

theorem insertFields_append (umap : TlvMap) (fs gs : List Field) :
    insertFields umap (fs ++ gs) = insertFields (insertFields umap fs) gs := by
  simp [insertFields]

theorem lookup_insertFields_fieldIfSet_of_ne {t tag : Tag} (h : t ≠ tag) (umap : TlvMap)
    (data : Option Bytes) :
    (insertFields umap (fieldIfSet tag data)).lookup t = umap.lookup t := by
  cases data with
  | none => rfl
  | some data => exact AList.lookup_insert_ne h

theorem lookup_insertFields_fieldIfSet (tag : Tag) (umap : TlvMap) (data : Option Bytes)
    (h : umap.lookup tag = none) :
    (insertFields umap (fieldIfSet tag data)).lookup tag = data.map (fieldTlv tag) := by
  cases data with
  | none => exact h
  | some data => exact AList.lookup_insert umap

theorem validTag_byte {tag : Tag} (h : tag ≠ .UNDEFINED) : ValidTag tag.byte := by
  cases tag <;> first | decide | exact absurd rfl h

/-- Fields of a size that fits in the length field are records. -/
theorem exists_records {fs : List Field} (hfit : ∀ f ∈ fs, f.2.length < P.sizeMod)
    (htag : ∀ f ∈ fs, f.1 ≠ .UNDEFINED) :
    ∃ rs : List (Record P.sizeT), (∀ r ∈ rs, ValidTag r.tag) ∧
      frames P.order rs = fieldsBytes P fs ∧
      ∀ umap, insertRecords umap rs = insertFields umap fs := by
  induction fs with
  | nil => exact ⟨[], by simp, rfl, fun _ => rfl⟩
  | cons f fs ih =>
    obtain ⟨hf, hfs⟩ := List.forall_mem_cons.1 hfit
    obtain ⟨hftag, hfstag⟩ := List.forall_mem_cons.1 htag
    obtain ⟨rs, hvalid, hframes, hinsert⟩ := ih hfs hfstag
    refine ⟨⟨f.1.byte, f.2, hf⟩ :: rs, List.forall_mem_cons.2 ⟨validTag_byte hftag, hvalid⟩,
      ?_, fun umap => ?_⟩
    · rw [frames_cons, fieldsBytes_cons, hframes]
      rfl
    · have hstep := hinsert (umap.insert f.1 (fieldTlv f.1 f.2))
      simpa [insertRecords, insertRecord, insertFields, fieldTlv] using hstep

theorem headerFields_tag_ne (a : UAttributes UUID UUri) :
    ∀ f ∈ headerFields P X a, f.1 ≠ .UNDEFINED := by
  have hset (tag : Tag) (data : Option Bytes) (htag : tag ≠ .UNDEFINED) :
      ∀ f ∈ fieldIfSet tag data, f.1 ≠ .UNDEFINED := by
    cases data <;> simp [fieldIfSet, htag]
  simp only [headerFields, List.forall_mem_append]
  refine ⟨by simp, ?_, ?_, ?_, ?_, ?_, ?_⟩ <;> exact hset _ _ (by decide)

/-- A field is no longer than all of them. -/
theorem length_le_fieldsSize {fs : List Field} {f : Field} (h : f ∈ fs) :
    f.2.length ≤ fieldsSize P fs := by
  induction fs with
  | nil => simp at h
  | cons g fs ih =>
    rw [fieldsSize_cons]
    rcases List.mem_cons.1 h with rfl | h
    · omega
    · have := ih h
      omega

/-- The parser returns the fields of a header without sink. -/
theorem getAllTlv_buildHeader {a : UAttributes UUID UUri} (hsink : a.sink = none)
    {header : Buffer P} (hheader : (buildHeader P X a).val = .returned header.bytes)
    (hfit : fieldsSize P (headerFields P X a) ≤ P.maxSize) :
    (getAllTlv stray (some header)).val =
      .returned (some (insertFields ∅ (headerFields P X a))) := by
  have hmax := P.two_mul_maxSize
  have hpadding : sinkPadding P X a = 0 := by simp [sinkPadding, hsink]
  have hbytes : header.bytes = fieldsBytes P (headerFields P X a) := by
    have h := (buildHeader_eq P X a (by omega)).2
    rw [hheader, hpadding] at h
    simpa using h
  obtain ⟨rs, hvalid, hframes, hinsert⟩ := exists_records P
    (fun f hf => (length_le_fieldsSize P hf).trans_lt (by omega)) (headerFields_tag_ne P X a)
  have hne : header.bytes ≠ [] := by simp [hbytes, headerFields, fieldBytes]
  rw [← hinsert]
  exact (getAllTlv_frames stray hvalid (hbytes.trans hframes.symm) hne).2

/-! ## Decoding it -/

/-- What the decoder makes of attributes without sink. -/
def decoded (a : UAttributes UUID UUri) : UAttributes UUID UUri where
  id := a.id
  type := a.type
  priority := a.priority
  ttl := a.ttl.map fun _ => P.value32 ((X.serializeToBytes a.id).take 4)
  token := none
  serializationHint := none
  sink := none
  plevel := a.plevel
  commstatus := a.commstatus
  reqid := none

theorem val_memcpy32_image32 (tag : Tag) (v : UInt32) :
    (memcpy32 P stray tag (fieldTlv tag (P.image32 v))).val = v := by
  rw [val_memcpy32 P stray tag (by simp [fieldTlv]) (by simp [fieldTlv]), fieldTlv,
    P.value32_image32]

theorem val_readInt32_image32 (tag : Tag) (v : UInt32) :
    (readInt32 P stray tag (fieldTlv tag (P.image32 v))).val = v := by
  have hlen : (P.image32 v).length ≤ 4 := (P.length_image32 v).le
  rw [val_readInt32 P stray tag (by simp [fieldTlv]), fieldTlv, List.take_of_length_le hlen,
    P.value32_image32]

/-- The entries the decoder looks up. Every tag occurs at most once in a header. -/
theorem lookup_headerFields (a : UAttributes UUID UUri) :
    let umap := insertFields ∅ (headerFields P X a)
    umap.lookup .ID = some (fieldTlv .ID (X.serializeToBytes a.id)) ∧
      umap.lookup .TYPE = some (fieldTlv .TYPE (P.image32 a.type)) ∧
      umap.lookup .PRIORITY = some (fieldTlv .PRIORITY (P.image32 a.priority)) ∧
      umap.lookup .TTL = (a.ttl.map P.image32).map (fieldTlv .TTL) ∧
      umap.lookup .PLEVEL = (a.plevel.map P.image32).map (fieldTlv .PLEVEL) ∧
      umap.lookup .COMMSTATUS = (a.commstatus.map P.image32).map (fieldTlv .COMMSTATUS) := by
  let mandatory := insertFields ∅ [(.ID, X.serializeToBytes a.id), (.TYPE, P.image32 a.type),
    (.PRIORITY, P.image32 a.priority)]
  have hTTL := lookup_insertFields_fieldIfSet .TTL mandatory (a.ttl.map P.image32) rfl
  have hPLEVEL (umap : TlvMap) (h : umap.lookup .PLEVEL = none) :=
    lookup_insertFields_fieldIfSet .PLEVEL umap (a.plevel.map P.image32) h
  have hCOMMSTATUS (umap : TlvMap) (h : umap.lookup .COMMSTATUS = none) :=
    lookup_insertFields_fieldIfSet .COMMSTATUS umap (a.commstatus.map P.image32) h
  intro umap
  have humap : umap = insertFields ∅ (headerFields P X a) := rfl
  simp only [headerFields, insertFields_append] at humap
  rw [humap]
  -- each goal peels the fields of the other tags
  refine ⟨?_, ?_, ?_, ?_, ?_, ?_⟩
  all_goals
    simp only [ne_eq, reduceCtorEq, not_false_eq_true, lookup_insertFields_fieldIfSet_of_ne]
  · rfl
  · rfl
  · rfl
  · exact hTTL
  · refine hPLEVEL _ ?_
    simp only [ne_eq, reduceCtorEq, not_false_eq_true, lookup_insertFields_fieldIfSet_of_ne]
    rfl
  · refine hCOMMSTATUS _ ?_
    simp only [ne_eq, reduceCtorEq, not_false_eq_true, lookup_insertFields_fieldIfSet_of_ne]
    rfl

/-- The fields of a header have the mandatory tags, and the sizes that the reads rely on. -/
theorem fieldsSized_headerFields (hlen : ∀ id, (X.serializeToBytes id).length = 16)
    (a : UAttributes UUID UUri) :
    ¬MandatoryMissing (insertFields ∅ (headerFields P X a)) ∧
      FieldsSized (insertFields ∅ (headerFields P X a)) := by
  obtain ⟨hID, hTYPE, hPRIORITY, -, hPLEVEL, hCOMMSTATUS⟩ := lookup_headerFields P X a
  refine ⟨by simp [MandatoryMissing, hID, hTYPE, hPRIORITY], ?_, ?_, fun _ => ?_, ?_, ?_⟩
  · simp [hTYPE, fieldTlv]
  · simp [hPRIORITY, fieldTlv]
  · simp [hID, fieldTlv, hlen]
  · simp [hPLEVEL, fieldTlv]
  · simp [hCOMMSTATUS, fieldTlv]

/-- The decoder turns the fields of a header into `decoded`. -/
theorem getAttributes_headerFields
    (hinv : ∀ id, X.deserializeFromBytes (X.serializeToBytes id) = id)
    (hlen : ∀ id, (X.serializeToBytes id).length = 16) (a : UAttributes UUID UUri) :
    (getAttributes P X stray (insertFields ∅ (headerFields P X a))).val = some (decoded P X a) := by
  obtain ⟨hID, hTYPE, hPRIORITY, hTTL, hPLEVEL, hCOMMSTATUS⟩ := lookup_headerFields P X a
  have hread : (readInt32 P stray .ID (fieldTlv .ID (X.serializeToBytes a.id))).val =
      P.value32 ((X.serializeToBytes a.id).take 4) :=
    val_readInt32 P stray .ID (by simp [fieldTlv, hlen])
  have hid : X.deserializeFromBytes (fieldTlv .ID (X.serializeToBytes a.id)).value = a.id :=
    hinv a.id
  rw [val_getAttributes P X stray hID hTYPE hPRIORITY]
  simp [decodedFields, decoded, hTTL, hPLEVEL, hCOMMSTATUS, hid, hread, val_memcpy32_image32,
    val_readInt32_image32, Function.comp_def]

/-- The fields the decoder never sets. -/
theorem getAttributes_unset {umap : TlvMap} {a : UAttributes UUID UUri}
    (h : (getAttributes P X stray umap).val = some a) :
    a.token = none ∧ a.serializationHint = none ∧ a.sink = none ∧ a.reqid = none := by
  rcases hID : umap.lookup .ID with _ | idTlv
  · simp [getAttributes, hID] at h
  rcases hTYPE : umap.lookup .TYPE with _ | typeTlv
  · simp [getAttributes, hTYPE] at h
  rcases hPRIORITY : umap.lookup .PRIORITY with _ | priorityTlv
  · simp [getAttributes, hPRIORITY] at h
  rw [val_getAttributes P X stray hID hTYPE hPRIORITY] at h
  cases h
  exact ⟨rfl, rfl, rfl, rfl⟩

/-! ## The round trip -/

/-- `buildHeader` makes a header of the attributes, and the parser reads the same
attributes from it. -/
def RoundTrips (a : UAttributes UUID UUri) : Prop :=
  ∃ (header : Buffer P) (umap : TlvMap),
    (buildHeader P X a).val = .returned header.bytes ∧
    (getAllTlv stray (some header)).val = .returned (some umap) ∧
    (getAttributes P X stray umap).val = some a

/-- The attributes have none of the fields the decoder leaves out, and a TTL, if set, is
the number the first four bytes of the serialized identifier happen to hold. -/
structure RoundTripFields (a : UAttributes UUID UUri) : Prop where
  token : a.token = none
  serializationHint : a.serializationHint = none
  sink : a.sink = none
  reqid : a.reqid = none
  ttl : ∀ ttl ∈ a.ttl, ttl = P.value32 ((X.serializeToBytes a.id).take 4)

variable {P X}

/-- The fields that round trip fit in any vector. -/
theorem RoundTripFields.fieldsSize_le {a : UAttributes UUID UUri} (htoken : a.token = none)
    (hhint : a.serializationHint = none) (hreqid : a.reqid = none)
    (hlen : ∀ id, (X.serializeToBytes id).length = 16) :
    fieldsSize P (headerFields P X a) ≤ P.maxSize := by
  have hmax := P.le_maxSize
  have hw := P.sizeT_bounds
  have hfield (tag : Tag) (v : Option UInt32) :
      fieldsSize P (fieldIfSet tag (v.map P.image32)) ≤ 1 + P.sizeT + 4 := by
    rcases v with _ | v <;> simp [fieldIfSet]
  have hnone (tag : Tag) : fieldsSize P (fieldIfSet tag none) = 0 := rfl
  have httl := hfield .TTL a.ttl
  have hplevel := hfield .PLEVEL a.plevel
  have hcommstatus := hfield .COMMSTATUS a.commstatus
  simp only [headerFields, fieldsSize_append, fieldsSize_cons, fieldsSize_nil, htoken, hhint,
    hreqid, Option.map_none, hnone, hlen, Platform.length_image32]
  omega

/-- A header without sink is parsed and decoded to `decoded`. -/
theorem exists_decoded {a : UAttributes UUID UUri} (htoken : a.token = none)
    (hhint : a.serializationHint = none) (hsink : a.sink = none) (hreqid : a.reqid = none)
    (hinv : ∀ id, X.deserializeFromBytes (X.serializeToBytes id) = id)
    (hlen : ∀ id, (X.serializeToBytes id).length = 16) :
    ∃ (header : Buffer P) (umap : TlvMap),
      (buildHeader P X a).val = .returned header.bytes ∧
      (getAllTlv stray (some header)).val = .returned (some umap) ∧
      (getAttributes P X stray umap).val = some (decoded P X a) := by
  have hfit : fieldsSize P (headerFields P X a) ≤ P.maxSize :=
    RoundTripFields.fieldsSize_le htoken hhint hreqid hlen
  have hpadding : sinkPadding P X a = 0 := by simp [sinkPadding, hsink]
  let header : Buffer P := ⟨fieldsBytes P (headerFields P X a), hfit⟩
  have hbuild : (buildHeader P X a).val = .returned header.bytes := by
    rw [(buildHeader_eq P X a (by omega)).2, hpadding, List.replicate_zero, List.append_nil]
  have hparse := getAllTlv_buildHeader P X stray hsink hbuild hfit
  exact ⟨header, _, hbuild, hparse, getAttributes_headerFields P X stray hinv hlen a⟩

/-- The decoded attributes are the attributes if and only if these round trip. -/
theorem decoded_eq_iff {a : UAttributes UUID UUri} :
    decoded P X a = a ↔ RoundTripFields P X a := by
  constructor
  · intro h
    refine ⟨by rw [← h]; rfl, by rw [← h]; rfl, by rw [← h]; rfl, by rw [← h]; rfl, ?_⟩
    intro ttl httl
    have hdecoded : (decoded P X a).ttl = some ttl := by rw [h, httl]
    rw [decoded, httl] at hdecoded
    exact (Option.some.inj hdecoded).symm
  · rintro ⟨htoken, hhint, hsink, hreqid, httl⟩
    have hmap : a.ttl.map (fun _ => P.value32 ((X.serializeToBytes a.id).take 4)) = a.ttl := by
      rcases h : a.ttl with _ | ttl
      · rfl
      · rw [Option.map_some, ← httl ttl h]
    ext1 <;> simp [decoded, htoken, hhint, hsink, hreqid, hmap]

theorem roundTripFields_of_roundTrips {a : UAttributes UUID UUri}
    (hinv : ∀ id, X.deserializeFromBytes (X.serializeToBytes id) = id)
    (hlen : ∀ id, (X.serializeToBytes id).length = 16) (h : RoundTrips P X stray a) :
    RoundTripFields P X a := by
  obtain ⟨header, umap, hbuild, hparse, hdecode⟩ := h
  obtain ⟨htoken, hhint, hsink, hreqid⟩ := getAttributes_unset P X stray hdecode
  obtain ⟨header', umap', hbuild', hparse', hdecode'⟩ :=
    exists_decoded (P := P) stray htoken hhint hsink hreqid hinv hlen
  obtain ⟨bytes, hsize⟩ := header
  obtain ⟨bytes', hsize'⟩ := header'
  -- both runs are of the same header
  rw [hbuild] at hbuild'
  obtain rfl := Exit.returned.inj hbuild'
  rw [hparse] at hparse'
  obtain rfl := Option.some.inj (Exit.returned.inj hparse')
  rw [hdecode] at hdecode'
  exact decoded_eq_iff.1 (Option.some.inj hdecode').symm

/-- Attributes survive the header if and only if they have no field that the decoder
leaves out and no TTL of their own. -/
theorem roundTrips_iff (hinv : ∀ id, X.deserializeFromBytes (X.serializeToBytes id) = id)
    (hlen : ∀ id, (X.serializeToBytes id).length = 16) (a : UAttributes UUID UUri) :
    RoundTrips P X stray a ↔ RoundTripFields P X a := by
  constructor
  · exact roundTripFields_of_roundTrips stray hinv hlen
  · intro h
    have hdecoded := exists_decoded (P := P) stray h.token h.serializationHint h.sink h.reqid hinv
      hlen
    rwa [decoded_eq_iff.2 h] at hdecoded

theorem sample_length_serializeToBytes (id : UInt64 × UInt64) :
    (Externals.sample.serializeToBytes id).length = 16 := by
  simp [Externals.sample]

/-- A request that expires after five milliseconds. -/
def expiringRequest : UAttributes (UInt64 × UInt64) Bytes :=
  (UAttributes.builder (0, 0) 2 0).withTtl 5

theorem roundTrips_iff_expiringRequest :
    RoundTrips ⟨.eight, .little⟩ .sample zeroStray expiringRequest ↔
      RoundTripFields ⟨.eight, .little⟩ .sample expiringRequest :=
  roundTrips_iff zeroStray Externals.sample_deserialize_serialize sample_length_serializeToBytes _

/-- The decoder reads a TTL of zero from the identifier. -/
theorem not_roundTrips_expiringRequest :
    ¬RoundTrips ⟨.eight, .little⟩ .sample zeroStray expiringRequest := by
  intro h
  have hfields := roundTripFields_of_roundTrips zeroStray Externals.sample_deserialize_serialize
    sample_length_serializeToBytes h
  exact absurd (hfields.ttl 5 rfl) (by decide)

end UpClientZenoh
