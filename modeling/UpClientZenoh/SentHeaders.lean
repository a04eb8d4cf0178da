import UpClientZenoh.PublishDelivery
import UpClientZenoh.RecordRoundTrip

/-!
# Headers between peers

The headers that `buildHeader` makes, as data on their own and as what another peer of the
same platform decodes.

`buildHeader_inj` : a header determines every field but the sink, of which it keeps the size.
What is lost is lost in the decoder, which reads the last values of five tags and asks whether
a sixth is there : streams that agree in these, with a type and a priority of four bytes, are
parsed alike in any memory (`parseHeader_congr`), in whatever order they have their records
and whatever other records they have. So a header of `buildHeader` is decoded to `decoded`,
unless its padding ends inside a record (`parseHeader_sent`), and attributes that were decoded
can be sent on any number of times without a further loss (`forwarded_iff`).
-/

open NativeBytes MemoryAccess Framing

namespace UpClientZenoh

open MessageBuilder MessageParser

variable {UUID UUri : Type} {P : Platform} {X : Externals UUID UUri}

/-! ## Unambiguous headers -/

/-- Attributes whose header `size_t` can count. Their strings lie in one address space. -/
structure CountedAttributes (P : Platform) (X : Externals UUID UUri) extends
    UAttributes UUID UUri where
  counted : fieldsSize P (headerFields P X toUAttributes) + sinkPadding P X toUAttributes <
    P.sizeMod

/-- The attributes with an empty sink. -/
def withoutSink (a : UAttributes UUID UUri) : UAttributes UUID UUri :=
  { a with sink := none }

theorem exists_records_map {fs : List Field} (hfit : ∀ f ∈ fs, f.2.length < P.sizeMod) :
    ∃ rs : List (Framing.Record P.sizeT), frames P.order rs = fieldsBytes P fs ∧
      rs.map (fun r => (r.tag, r.value)) = fs.map fun f => (f.1.byte, f.2) := by
  induction fs with
  | nil => exact ⟨[], rfl, rfl⟩
  | cons f fs ih =>
    obtain ⟨hf, hfs⟩ := List.forall_mem_cons.1 hfit
    obtain ⟨rs, hframes, hmap⟩ := ih hfs
    refine ⟨⟨f.1.byte, f.2, hf⟩ :: rs, ?_, by rw [List.map_cons, List.map_cons, hmap]⟩
    rw [frames_cons, fieldsBytes_cons, hframes]
    rfl

theorem byte_injective : Function.Injective Tag.byte :=
  Function.LeftInverse.injective Tag.ofByte_byte

/-- The records of fields with a tag other than zero, and padding, determine the fields. -/
theorem fieldsBytes_append_replicate_inj {fs gs : List Field} {m n : ℕ}
    (hfs : ∀ f ∈ fs, f.2.length < P.sizeMod ∧ f.1 ≠ .UURI)
    (hgs : ∀ g ∈ gs, g.2.length < P.sizeMod ∧ g.1 ≠ .UURI)
    (h : fieldsBytes P fs ++ List.replicate m 0 = fieldsBytes P gs ++ List.replicate n 0) :
    fs = gs ∧ m = n := by
  have htag {fs : List Field} (hfs : ∀ f ∈ fs, f.2.length < P.sizeMod ∧ f.1 ≠ .UURI)
      {rs : List (Framing.Record P.sizeT)}
      (hmap : rs.map (fun r => (r.tag, r.value)) = fs.map fun f => (f.1.byte, f.2)) :
      ∀ r ∈ rs, r.tag ≠ 0 := by
    intro r hr hzero
    have hmem : (r.tag, r.value) ∈ fs.map fun f => (f.1.byte, f.2) :=
      hmap ▸ List.mem_map_of_mem hr
    obtain ⟨f, hf, heq⟩ := List.mem_map.1 hmem
    have hbyte : f.1.byte = Tag.UURI.byte := ((Prod.mk.inj heq).1.trans hzero)
    exact (hfs f hf).2 (byte_injective hbyte)
  obtain ⟨rs, hrs, hmap⟩ := exists_records_map fun f hf => (hfs f hf).1
  obtain ⟨ss, hss, hmap'⟩ := exists_records_map fun g hg => (hgs g hg).1
  rw [← hrs, ← hss] at h
  obtain ⟨rfl, hmn⟩ := frames_append_replicate_inj P.order (htag hfs hmap) (htag hgs hmap') h
  refine ⟨List.map_injective_iff.2 ?_ (hmap.symm.trans hmap'), hmn⟩
  intro f g hfg
  obtain ⟨hbyte, hvalue⟩ := Prod.mk.inj hfg
  exact Prod.ext (byte_injective hbyte) hvalue

theorem headerFields_tag_ne_UURI (a : UAttributes UUID UUri) :
    ∀ f ∈ headerFields P X a, f.1 ≠ .UURI := by
  have hset (tag : Tag) (data : Option Bytes) (htag : tag ≠ .UURI) :
      ∀ f ∈ fieldIfSet tag data, f.1 ≠ .UURI := by
    cases data <;> simp [fieldIfSet, htag]
  simp only [headerFields, List.forall_mem_append]
  refine ⟨by simp, ?_, ?_, ?_, ?_, ?_, ?_⟩ <;> exact hset _ _ (by decide)

theorem lookup_cons_field (t tag : Tag) (data : Bytes) (fs : List Field) :
    List.lookup t ((tag, data) :: fs) = if t = tag then some data else fs.lookup t := by
  by_cases h : t = tag
  · rw [if_pos h, h, List.lookup_cons_self]
  · rw [if_neg h, List.lookup_cons, beq_eq_false_iff_ne.2 h]

theorem lookup_fieldIfSet (t tag : Tag) (data : Option Bytes) :
    (fieldIfSet tag data).lookup t = if t = tag then data else none := by
  cases data with
  | none => exact (ite_self none).symm
  | some data => exact lookup_cons_field t tag data []

theorem image32_injective : Function.Injective P.image32 :=
  Function.LeftInverse.injective P.value32_image32

/-- The fields of a header are the attributes without the sink. -/
theorem eq_of_headerFields_eq (hinj : Function.Injective X.serializeToBytes)
    {a b : UAttributes UUID UUri} (h : headerFields P X a = headerFields P X b) :
    withoutSink a = withoutSink b := by
  have hlookup (t : Tag) := congrArg (List.lookup t) h
  simp only [headerFields, List.lookup_append, lookup_fieldIfSet, lookup_cons_field,
    List.lookup_nil] at hlookup
  have hmap32 {v w : Option UInt32} (hv : v.map P.image32 = w.map P.image32) : v = w :=
    Option.map_injective image32_injective hv
  have hid : a.id = b.id := hinj (by simpa using hlookup .ID)
  have htype : a.type = b.type := image32_injective (by simpa using hlookup .TYPE)
  have hpriority : a.priority = b.priority := image32_injective (by simpa using hlookup .PRIORITY)
  have httl : a.ttl = b.ttl := hmap32 (by simpa using hlookup .TTL)
  have htoken : a.token = b.token := by simpa using hlookup .TOKEN
  have hhint : a.serializationHint = b.serializationHint := hmap32 (by simpa using hlookup .HINT)
  have hplevel : a.plevel = b.plevel := hmap32 (by simpa using hlookup .PLEVEL)
  have hcommstatus : a.commstatus = b.commstatus := hmap32 (by simpa using hlookup .COMMSTATUS)
  have hreqid : a.reqid = b.reqid := Option.map_injective hinj (by simpa using hlookup .REQID)
  simp only [withoutSink, hid, htype, hpriority, httl, htoken, hhint, hplevel, hcommstatus, hreqid]

/-- A header determines every field of the attributes but the sink, and the size of that. -/
theorem buildHeader_inj (hinj : Function.Injective X.serializeToBytes)
    (a b : CountedAttributes P X) {header : Bytes}
    (ha : (buildHeader P X a.toUAttributes).val = .returned header)
    (hb : (buildHeader P X b.toUAttributes).val = .returned header) :
    withoutSink a.toUAttributes = withoutSink b.toUAttributes ∧
      sinkPadding P X a.toUAttributes = sinkPadding P X b.toUAttributes := by
  have hmax := P.two_mul_maxSize
  have hfit (c : CountedAttributes P X) (hc : fieldsSize P (headerFields P X c.toUAttributes) +
      sinkPadding P X c.toUAttributes ≤ P.maxSize) :
      ∀ f ∈ headerFields P X c.toUAttributes, f.2.length < P.sizeMod ∧ f.1 ≠ .UURI := by
    intro f hf
    have hle := length_le_fieldsSize P hf
    exact ⟨by omega, headerFields_tag_ne_UURI _ f hf⟩
  obtain ⟨hsize, hbytes⟩ := buildHeader_returned P X a.counted ha
  obtain ⟨hsize', hbytes'⟩ := buildHeader_returned P X b.counted hb
  obtain ⟨hfields, hpadding⟩ := fieldsBytes_append_replicate_inj (hfit a hsize) (hfit b hsize')
    (hbytes.symm.trans hbytes')
  exact ⟨eq_of_headerFields_eq hinj hfields, hpadding⟩

/-- Attributes with a sink whose padding is a number of empty records. -/
def sinkCounted (sink : UInt8) : CountedAttributes ⟨.eight, .little⟩ Externals.sample where
  toUAttributes := { (UAttributes.builder (0, 0) 1 0 : UAttributes _ Bytes) with
    sink := some (List.replicate 27 sink) }
  counted := (by decide : 96 < Platform.sizeMod ⟨.eight, .little⟩)

/-- Two sinks of one size. -/
theorem buildHeader_inj_sinkCounted :
    withoutSink (sinkCounted 97).toUAttributes = withoutSink (sinkCounted 98).toUAttributes ∧
      sinkPadding ⟨.eight, .little⟩ .sample (sinkCounted 97).toUAttributes =
        sinkPadding ⟨.eight, .little⟩ .sample (sinkCounted 98).toUAttributes := by
  have hinj : Function.Injective Externals.sample.serializeToBytes :=
    Function.LeftInverse.injective Externals.sample_deserialize_serialize
  have hbuilt : ∃ header, (buildHeader ⟨.eight, .little⟩ .sample
        (sinkCounted 97).toUAttributes).val = .returned header ∧
      (buildHeader ⟨.eight, .little⟩ .sample (sinkCounted 98).toUAttributes).val =
        .returned header := ⟨_, rfl, rfl⟩
  obtain ⟨header, hfirst, hsecond⟩ := hbuilt
  exact buildHeader_inj hinj _ _ hfirst hsecond

/-! ## What the decoder reads -/

/-- The value of the last field with the tag. -/
def lastValue (fs : List Field) (tag : Tag) : Option Bytes :=
  fs.reverse.lookup tag

/-- The fields agree in what the decoder reads : the last values of five tags, and whether
there is a TTL. -/
structure ReadAlike (fs gs : List Field) : Prop where
  value : ∀ tag ∈ [Tag.ID, .TYPE, .PRIORITY, .PLEVEL, .COMMSTATUS],
    lastValue fs tag = lastValue gs tag
  ttl : (lastValue fs .TTL).isSome = (lastValue gs .TTL).isSome

theorem lookup_insertFields (fs : List Field) (umap : TlvMap) (tag : Tag) :
    (insertFields umap fs).lookup tag =
      ((lastValue fs tag).map (fieldTlv tag)).or (umap.lookup tag) := by
  induction fs generalizing umap with
  | nil => rfl
  | cons f fs ih =>
    have hlast : lastValue (f :: fs) tag =
        (lastValue fs tag).or (if tag = f.1 then some f.2 else none) := by
      rw [lastValue, List.reverse_cons, List.lookup_append, lookup_cons_field]
      rfl
    have hstep := ih (umap.insert f.1 (fieldTlv f.1 f.2))
    rw [hlast]
    refine hstep.trans ?_
    by_cases htag : tag = f.1
    · subst htag
      rw [AList.lookup_insert, if_pos rfl]
      cases lastValue fs f.1 <;> rfl
    · rw [AList.lookup_insert_ne htag, if_neg htag, Option.or_none]

theorem lookup_insertFields_empty (fs : List Field) (tag : Tag) :
    (insertFields ∅ fs).lookup tag = (lastValue fs tag).map (fieldTlv tag) := by
  rw [lookup_insertFields, AList.lookup_empty, Option.or_none]

theorem ReadAlike.decodedAlike {fs gs : List Field} (h : ReadAlike fs gs) :
    DecodedAlike (insertFields ∅ fs) (insertFields ∅ gs) := by
  refine ⟨fun tag htag => ?_, ?_⟩
  · rw [lookup_insertFields_empty, lookup_insertFields_empty, h.value tag htag]
  · rw [lookup_insertFields_empty, lookup_insertFields_empty, Option.isSome_map,
      Option.isSome_map, h.ttl]

/-- Fields of the sizes that the reads rely on are decoded the same in any memory. -/
theorem val_getAttributes_stray {fs : List Field} (hsized : FieldsSized (insertFields ∅ fs))
    (stray stray' : Stray) : (getAttributes P X stray (insertFields ∅ fs)).val =
      (getAttributes P X stray' (insertFields ∅ fs)).val := by
  have hlength {tag : Tag} {tlv : TLV} (h : (insertFields ∅ fs).lookup tag = some tlv) :
      tlv.length = tlv.value.length := by
    rw [lookup_insertFields_empty, Option.map_eq_some_iff] at h
    obtain ⟨value, -, rfl⟩ := h
    rfl
  rcases hid : (insertFields ∅ fs).lookup .ID with _ | idTlv
  · simp [getAttributes, hid]
  rcases htype : (insertFields ∅ fs).lookup .TYPE with _ | typeTlv
  · simp [getAttributes, htype]
  rcases hpriority : (insertFields ∅ fs).lookup .PRIORITY with _ | priorityTlv
  · simp [getAttributes, hpriority]
  have htypeSize := hsized.type typeTlv htype
  have hprioritySize := hsized.priority priorityTlv hpriority
  have hread {tag : Tag} {tlv : TLV} (h : 4 ≤ tlv.value.length) :
      (readInt32 P stray tag tlv).val = (readInt32 P stray' tag tlv).val := by
    rw [val_readInt32 P stray tag h, val_readInt32 P stray' tag h]
  rw [val_getAttributes P X stray hid htype hpriority,
    val_getAttributes P X stray' hid htype hpriority]
  refine congrArg some (UAttributes.ext rfl ?_ ?_ ?_ rfl rfl rfl ?_ ?_ rfl)
  · exact (val_memcpy32 P stray .TYPE ((hlength htype).trans htypeSize) htypeSize).trans
      (val_memcpy32 P stray' .TYPE ((hlength htype).trans htypeSize) htypeSize).symm
  · exact (val_memcpy32 P stray .PRIORITY ((hlength hpriority).trans hprioritySize)
      hprioritySize).trans (val_memcpy32 P stray' .PRIORITY
        ((hlength hpriority).trans hprioritySize) hprioritySize).symm
  · exact Option.map_congr fun tlv htlv => hread (hsized.ttl (Option.isSome_of_mem htlv) _ hid)
  · exact Option.map_congr fun tlv htlv => hread (hsized.plevel tlv htlv)
  · exact Option.map_congr fun tlv htlv => hread (hsized.commstatus tlv htlv)

/-- Streams of records that agree in what the decoder reads are parsed alike, each in its own
memory, if the values of the type and the priority fill their variables. -/
theorem parseHeader_congr (stray stray' : Stray) {fs gs : List Field}
    (hftag : ∀ f ∈ fs, f.1 ≠ .UNDEFINED) (hgtag : ∀ g ∈ gs, g.1 ≠ .UNDEFINED)
    (halike : ReadAlike fs gs)
    (hfill : ∀ tag ∈ [Tag.TYPE, .PRIORITY], ∀ value ∈ lastValue fs tag, 4 ≤ value.length)
    {data data' : Buffer P} (hdata : data.bytes = fieldsBytes P fs)
    (hdata' : data'.bytes = fieldsBytes P gs) :
    ZenohUTransport.parseHeader P X stray data = ZenohUTransport.parseHeader P X stray' data' := by
  have hmaps := halike.decodedAlike
  rcases ZenohUTransport.parseHeader_fieldsBytes X stray hftag hdata with
      ⟨hfields, h⟩ | ⟨hfields, h⟩ <;>
    rcases ZenohUTransport.parseHeader_fieldsBytes X stray' hgtag hdata' with
      ⟨hfields', h'⟩ | ⟨hfields', h'⟩ <;>
    rw [← hmaps.mandatoryMissing_iff, ← hmaps.fieldsReadable_iff] at hfields'
  · rw [h, h', ← hmaps.getAttributes_eq X stray']
    refine congrArg Exit.returned ?_
    rcases hfields with hmissing | hreadable
    · rw [(getAttributes_eq_none_iff P X stray _).2 hmissing,
        (getAttributes_eq_none_iff P X stray' _).2 hmissing]
    · have hsize {tag : Tag} (htag : tag ∈ [Tag.TYPE, .PRIORITY]) {tlv : TLV}
          (htlv : tlv ∈ (insertFields ∅ fs).lookup tag) : 4 ≤ tlv.value.length := by
        rw [lookup_insertFields_empty, Option.mem_map] at htlv
        obtain ⟨value, hvalue, rfl⟩ := htlv
        exact hfill tag htag value hvalue
      refine val_getAttributes_stray ⟨fun tlv htlv => ?_, fun tlv htlv => ?_, hreadable.ttl,
        hreadable.plevel, hreadable.commstatus⟩ stray stray'
      · exact (hreadable.type tlv htlv).antisymm (hsize (by simp) htlv)
      · exact (hreadable.priority tlv htlv).antisymm (hsize (by simp) htlv)
  · exact absurd hfields hfields'
  · exact absurd hfields' hfields
  · rw [h, h']

/-- A type, a priority and an identifier. -/
def orderedFields : List Field :=
  [(.ID, List.replicate 16 0), (.TYPE, [2, 0, 0, 0]), (.PRIORITY, [0, 0, 0, 0])]

/-- The same in another order, with a token and an identifier that is not the last. -/
def shuffledFields : List Field :=
  [(.PRIORITY, [0, 0, 0, 0]), (.ID, [9]), (.TOKEN, [7]), (.TYPE, [2, 0, 0, 0]),
    (.ID, List.replicate 16 0)]

/-- The decoded attributes are the same with other bytes around. -/
theorem parseHeader_shuffledFields :
    ZenohUTransport.parseHeader ⟨.eight, .little⟩ .sample zeroStray
        ⟨fieldsBytes ⟨.eight, .little⟩ shuffledFields, by decide⟩ =
      ZenohUTransport.parseHeader ⟨.eight, .little⟩ .sample ⟨fun _ => 1, fun _ _ => 1, fun _ _ => 1⟩
        ⟨fieldsBytes ⟨.eight, .little⟩ orderedFields, by decide⟩ :=
  have halike : ReadAlike shuffledFields orderedFields := ⟨by decide, by decide⟩
  have hftag : ∀ f ∈ shuffledFields, f.1 ≠ .UNDEFINED := by decide
  have hgtag : ∀ g ∈ orderedFields, g.1 ≠ .UNDEFINED := by decide
  parseHeader_congr zeroStray _ hftag hgtag halike (by decide) rfl rfl

/-! ## Sent headers -/

section Sent

variable (hinv : ∀ id, X.deserializeFromBytes (X.serializeToBytes id) = id)
  (hlen : ∀ id, (X.serializeToBytes id).length = 16)

include hinv hlen

/-- A receiver decodes a header of `buildHeader` to `decoded`, or reads past its end where the
padding ends inside a record, whatever else is in memory. -/
theorem parseHeader_sent (a : CountedAttributes P X) {header : Buffer P}
    (h : (buildHeader P X a.toUAttributes).val = .returned header.bytes) (stray : Stray) :
    (PaddingParses P X a.toUAttributes → ZenohUTransport.parseHeader P X stray header =
      .returned (some (decoded P X a.toUAttributes))) ∧
    (¬PaddingParses P X a.toUAttributes →
      ZenohUTransport.parseHeader P X stray header = .undefined) := by
  obtain ⟨-, hbytes⟩ := buildHeader_returned P X a.counted h
  refine ⟨fun hpad => ?_, (ZenohUTransport.parseHeader_padded hlen hbytes stray).2⟩
  obtain ⟨rs, hrecords, hframes, halike⟩ := exists_records_padded a.toUAttributes hbytes
  rw [paddingParses_iff] at hpad
  rw [Nat.mod_eq_zero_of_dvd hpad, List.replicate_zero, List.append_nil] at hframes
  obtain ⟨-, hsized⟩ := fieldsSized_headerFields P X hlen a.toUAttributes
  rcases ZenohUTransport.parseHeader_frames X stray hrecords hframes with ⟨-, h⟩ | ⟨hnot, -⟩
  · rw [h, halike.getAttributes_eq, getAttributes_headerFields P X stray hinv hlen]
  · exact absurd (Or.inr (halike.fieldsReadable_iff.2 hsized.readable)) hnot

theorem parseHeader_sent_iff (a : CountedAttributes P X) {header : Buffer P}
    (h : (buildHeader P X a.toUAttributes).val = .returned header.bytes) (stray : Stray)
    (a' : UAttributes UUID UUri) :
    ZenohUTransport.parseHeader P X stray header = .returned (some a') ↔
      PaddingParses P X a.toUAttributes ∧ decoded P X a.toUAttributes = a' := by
  obtain ⟨hdecoded, hrejected⟩ := parseHeader_sent hinv hlen a h stray
  by_cases hpad : PaddingParses P X a.toUAttributes
  · rw [hdecoded hpad]
    simp [hpad]
  · rw [hrejected hpad]
    simp [hpad]

/-- A header of `buildHeader` is parsed to an end if and only if its padding is a number of
empty records. -/
theorem parseHeader_sent_returned_iff (a : CountedAttributes P X) {header : Buffer P}
    (h : (buildHeader P X a.toUAttributes).val = .returned header.bytes) (stray : Stray) :
    (∃ attributes : Option (UAttributes UUID UUri),
        ZenohUTransport.parseHeader P X stray header = .returned attributes) ↔
      PaddingParses P X a.toUAttributes := by
  obtain ⟨hdecoded, hundefined⟩ := parseHeader_sent hinv hlen a h stray
  by_cases hpad : PaddingParses P X a.toUAttributes
  · exact iff_of_true ⟨_, hdecoded hpad⟩ hpad
  · rw [hundefined hpad]
    simp [hpad]

/-! ## Forwarding -/

omit hinv hlen in
variable (P X) in
/-- A receiver decodes the second attributes from a header of the first, whatever else is in
memory. -/
def Forwards (a a' : UAttributes UUID UUri) : Prop :=
  ∃ header : Buffer P, (buildHeader P X a).val = .returned header.bytes ∧
    ∀ stray, ZenohUTransport.parseHeader P X stray header = .returned (some a')

omit hinv hlen in
variable (P X) in
/-- The second attributes come out of the first by a number of hops. -/
def ForwardsBy : ℕ → UAttributes UUID UUri → UAttributes UUID UUri → Prop
  | 0, a, a' => a' = a
  | n + 1, a, a' => ∃ b, ForwardsBy n a b ∧ Forwards P X b a'

omit hinv hlen in
theorem decoded_decoded (a : UAttributes UUID UUri) :
    decoded P X (decoded P X a) = decoded P X a := by
  simp [decoded, Function.comp_def]

omit hinv in
/-- Attributes that were decoded have a header. -/
theorem counted_decoded (a : UAttributes UUID UUri) :
    fieldsSize P (headerFields P X (decoded P X a)) + sinkPadding P X (decoded P X a) <
      P.sizeMod := by
  have hsize : fieldsSize P (headerFields P X (decoded P X a)) ≤ P.maxSize :=
    RoundTripFields.fieldsSize_le rfl rfl rfl hlen
  have hpadding : sinkPadding P X (decoded P X a) = 0 := rfl
  have hmax := P.two_mul_maxSize
  omega

/-- What was decoded is decoded from its own header. -/
theorem forwards_decoded_iff (a a' : UAttributes UUID UUri) :
    Forwards P X (decoded P X a) a' ↔ a' = decoded P X a := by
  let sent : CountedAttributes P X := ⟨decoded P X a, counted_decoded hlen a⟩
  constructor
  · rintro ⟨header, hbuild, hparse⟩
    obtain ⟨-, rfl⟩ := (parseHeader_sent_iff hinv hlen sent hbuild zeroStray a').1 (hparse _)
    exact decoded_decoded a
  · rintro rfl
    obtain ⟨header, umap, hbuild, -⟩ := exists_decoded (P := P) zeroStray
      (a := decoded P X a) rfl rfl rfl rfl hinv hlen
    refine ⟨header, hbuild, fun stray => ?_⟩
    refine (parseHeader_sent_iff hinv hlen sent hbuild stray _).2 ⟨?_, decoded_decoded a⟩
    rintro sink ⟨⟩

/-- What the first receiver of a message decodes can be passed on any number of times, and no
later receiver decodes anything else. -/
theorem forwarded_iff (a : CountedAttributes P X) {a' : UAttributes UUID UUri}
    (h : Forwards P X a.toUAttributes a') (n : ℕ) (b : UAttributes UUID UUri) :
    ForwardsBy P X n a' b ↔ b = a' := by
  obtain ⟨header, hbuild, hparse⟩ := h
  obtain ⟨-, rfl⟩ := (parseHeader_sent_iff hinv hlen a hbuild zeroStray a').1 (hparse _)
  induction n generalizing b with
  | zero => exact Iff.rfl
  | succ n ih =>
    constructor
    · rintro ⟨c, hc, hnext⟩
      obtain rfl := (ih c).1 hc
      exact (forwards_decoded_iff hinv hlen _ _).1 hnext
    · rintro rfl
      exact ⟨_, (ih _).2 rfl, (forwards_decoded_iff hinv hlen _ _).2 rfl⟩

end Sent

/-- A message with a sink, which the first receiver does not see, and three more hops. -/
theorem forwarded_iff_sinkCounted :
    Forwards ⟨.eight, .little⟩ .sample (sinkCounted 97).toUAttributes (.builder (0, 0) 1 0) ∧
      ForwardsBy ⟨.eight, .little⟩ .sample 3 (.builder (0, 0) 1 0) (.builder (0, 0) 1 0) := by
  have hinv := Externals.sample_deserialize_serialize
  have hlen := sample_length_serializeToBytes
  have hpad : PaddingParses ⟨.eight, .little⟩ .sample (sinkCounted 97).toUAttributes := by
    rintro sink ⟨⟩
    decide
  have hbuild : ∃ header : Buffer ⟨.eight, .little⟩, (buildHeader ⟨.eight, .little⟩ .sample
      (sinkCounted 97).toUAttributes).val = .returned header.bytes := ⟨⟨_, by decide⟩, rfl⟩
  obtain ⟨header, hheader⟩ := hbuild
  have hforwards : Forwards ⟨.eight, .little⟩ .sample (sinkCounted 97).toUAttributes
      (.builder (0, 0) 1 0) :=
    ⟨header, hheader, fun stray =>
      (parseHeader_sent_iff hinv hlen (sinkCounted 97) hheader stray _).2 ⟨hpad, rfl⟩⟩
  exact ⟨hforwards, (forwarded_iff hinv hlen (sinkCounted 97) hforwards 3 _).2 rfl⟩

end UpClientZenoh
