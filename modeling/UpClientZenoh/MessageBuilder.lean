import UpClientZenoh.DataModel
import UpClientZenoh.Framing
import UpClientZenoh.MemoryAccess

/-!
# Message builder

`MessageBuilder` : `calculateSize` adds up the record sizes of a header, `buildHeader`
allocates that many zero bytes and writes one record per field with `addTag`.

The two walk over the attributes separately, and differ in the sink, which is counted and
never written. `buildHeader_eq` : a header is the records of the written fields
(`headerFields`), then as many zero bytes as the sink's record would take (`sinkPadding`).
`sizesAgree_iff` : so the size is that of the written records if and only if no sink is set.
-/

open NativeBytes MemoryAccess

namespace UpClientZenoh

variable {UUID UUri : Type} (P : Platform) (X : Externals UUID UUri)

namespace MessageBuilder

/-! ## The source -/

/-- `updateSize(size, msgSize)`. -/
def updateSize (size msgSize : ℕ) : ℕ :=
  P.add (P.add (P.add msgSize 1) P.sizeT) size

/-- `if (field.has_value()) updateSize(field.value(), msgSize)`, by the value's size. -/
def updateSizeIfSet (size : Option ℕ) (msgSize : ℕ) : ℕ :=
  match size with
  | some size => updateSize P size msgSize
  | none => msgSize

/-- `calculateSize(attributes)`. Enums and `int32_t` values take four bytes. -/
def calculateSize (a : UAttributes UUID UUri) : ℕ :=
  let msgSize := updateSize P (X.serializeToBytes a.id).length 0
  let msgSize := updateSize P 4 msgSize
  let msgSize := updateSize P 4 msgSize
  let msgSize := updateSizeIfSet P (a.ttl.map fun _ => 4) msgSize
  let msgSize := updateSizeIfSet P (a.token.map List.length) msgSize
  let msgSize := updateSizeIfSet P (a.serializationHint.map fun _ => 4) msgSize
  let msgSize := updateSizeIfSet P
    (a.sink.map fun sink => (X.base64Encode (X.serializeUri sink)).length) msgSize
  let msgSize := updateSizeIfSet P (a.plevel.map fun _ => 4) msgSize
  let msgSize := updateSizeIfSet P (a.commstatus.map fun _ => 4) msgSize
  updateSizeIfSet P (a.reqid.map fun reqid => (X.serializeToBytes reqid).length) msgSize

/-- The vector a header is written into, and the position of the next record. -/
structure Message where
  buffer : Bytes
  pos : ℕ
  deriving DecidableEq, Repr

/-- `addTag(buffer, tag, data, size, pos)`. -/
def addTag (tag : Tag) (data : Bytes) (m : Message) : Logged Message := do
  let buffer ← store m.buffer m.pos [tag.byte]
  let buffer ← store buffer (P.add m.pos 1) (P.order.image P.sizeT data.length)
  let buffer ← store buffer (P.add (P.add m.pos P.sizeT) 1) data
  return ⟨buffer, P.add (P.add (P.add m.pos 1) P.sizeT) data.length⟩

/-- `if (field.has_value()) pos = addTag(message, tag, field.value(), pos)`. -/
def addTagIfSet (tag : Tag) (data : Option Bytes) (m : Message) : Logged Message :=
  match data with
  | some data => addTag P tag data m
  | none => pure m

/-- The `addTag` calls of `buildHeader`. -/
def writeFields (a : UAttributes UUID UUri) (m : Message) : Logged Message := do
  let m ← addTag P .ID (X.serializeToBytes a.id) m
  let m ← addTag P .TYPE (P.image32 a.type) m
  let m ← addTag P .PRIORITY (P.image32 a.priority) m
  let m ← addTagIfSet P .TTL (a.ttl.map P.image32) m
  let m ← addTagIfSet P .TOKEN a.token m
  let m ← addTagIfSet P .HINT (a.serializationHint.map P.image32) m
  let m ← addTagIfSet P .PLEVEL (a.plevel.map P.image32) m
  let m ← addTagIfSet P .COMMSTATUS (a.commstatus.map P.image32) m
  addTagIfSet P .REQID (a.reqid.map X.serializeToBytes) m

/-- `buildHeader(attributes)`. The vector's constructor throws on a size past its maximum. -/
def buildHeader (a : UAttributes UUID UUri) : Logged (Exit Bytes) :=
  let messageSize := calculateSize P X a
  if P.maxSize < messageSize then pure .threw
  else do
    let m ← writeFields P X a ⟨List.replicate messageSize 0, 0⟩
    return .returned m.buffer

/-! ## Fields -/

/-- A field : its tag and the bytes of its value. -/
abbrev Field := Tag × Bytes

/-- The field of an optional value, if it is set. -/
def fieldIfSet (tag : Tag) (data : Option Bytes) : List Field :=
  (data.map (Prod.mk tag)).toList

/-- The fields `buildHeader` writes, in order. -/
def headerFields (a : UAttributes UUID UUri) : List Field :=
  [(.ID, X.serializeToBytes a.id), (.TYPE, P.image32 a.type), (.PRIORITY, P.image32 a.priority)] ++
    (fieldIfSet .TTL (a.ttl.map P.image32) ++ (fieldIfSet .TOKEN a.token ++
    (fieldIfSet .HINT (a.serializationHint.map P.image32) ++
    (fieldIfSet .PLEVEL (a.plevel.map P.image32) ++
    (fieldIfSet .COMMSTATUS (a.commstatus.map P.image32) ++
    fieldIfSet .REQID (a.reqid.map X.serializeToBytes))))))

/-- The bytes of a field's record. -/
def fieldBytes (f : Field) : Bytes :=
  f.1.byte :: (P.order.image P.sizeT f.2.length ++ f.2)

/-- The bytes of the records of `fs`, one after another. -/
def fieldsBytes (fs : List Field) : Bytes :=
  fs.flatMap (fieldBytes P)

@[simp] theorem length_fieldBytes (f : Field) :
    (fieldBytes P f).length = 1 + P.sizeT + f.2.length := by
  simp [fieldBytes]
  omega

@[simp] theorem fieldsBytes_nil : fieldsBytes P [] = [] :=
  rfl

@[simp] theorem fieldsBytes_cons (f : Field) (fs : List Field) :
    fieldsBytes P (f :: fs) = fieldBytes P f ++ fieldsBytes P fs :=
  rfl

@[simp] theorem fieldsBytes_append (fs gs : List Field) :
    fieldsBytes P (fs ++ gs) = fieldsBytes P fs ++ fieldsBytes P gs := by
  simp [fieldsBytes]

/-- The size of the records of `fs`. -/
def fieldsSize (fs : List Field) : ℕ :=
  (fieldsBytes P fs).length

@[simp] theorem fieldsSize_nil : fieldsSize P [] = 0 :=
  rfl

@[simp] theorem fieldsSize_cons (f : Field) (fs : List Field) :
    fieldsSize P (f :: fs) = 1 + P.sizeT + f.2.length + fieldsSize P fs := by
  simp [fieldsSize]

@[simp] theorem fieldsSize_append (fs gs : List Field) :
    fieldsSize P (fs ++ gs) = fieldsSize P fs + fieldsSize P gs := by
  simp [fieldsSize]

/-! ## Writing -/

/-- `addTag` in front of enough bytes of the vector writes the field's record over them, inside
the vector, and moves to its end. -/
theorem addTag_spec (tag : Tag) (data pre post : Bytes) {mid : Bytes}
    (hmid : mid.length = 1 + P.sizeT + data.length)
    (hmax : (pre ++ (mid ++ post)).length < P.sizeMod) :
    (addTag P tag data ⟨pre ++ (mid ++ post), pre.length⟩).InBounds ∧
      (addTag P tag data ⟨pre ++ (mid ++ post), pre.length⟩).val =
        ⟨pre ++ (fieldBytes P (tag, data) ++ post),
          (pre ++ fieldBytes P (tag, data)).length⟩ := by
  have hw := P.sizeT_bounds
  obtain ⟨t, len, value, rfl, hlen, hvalue⟩ : ∃ (t : UInt8) (len value : Bytes),
      mid = [t] ++ (len ++ value) ∧ len.length = P.sizeT ∧ value.length = data.length := by
    rw [Nat.add_assoc] at hmid
    obtain ⟨tags, rest, rfl, htags, hrest⟩ := exists_append_of_length_eq_add hmid
    obtain ⟨len, value, rfl, hlen, hvalue⟩ := exists_append_of_length_eq_add hrest
    obtain ⟨t, rfl⟩ := List.length_eq_one_iff.1 htags
    exact ⟨t, len, value, rfl, hlen, hvalue⟩
  simp only [List.length_append, List.length_singleton, hlen, hvalue] at hmax
  have hpos1 : P.add pre.length 1 = (pre ++ [tag.byte]).length := by
    rw [P.add_eq_of_lt (by omega)]
    simp
  have hpos2 : P.add (P.add pre.length P.sizeT) 1 =
      (pre ++ [tag.byte] ++ P.order.image P.sizeT data.length).length := by
    rw [P.add_eq_of_lt (a := pre.length) (by omega), P.add_eq_of_lt (by omega)]
    simp
    omega
  have hpos3 : P.add (P.add (pre ++ [tag.byte]).length P.sizeT) data.length =
      (pre ++ fieldBytes P (tag, data)).length := by
    have hone : (pre ++ [tag.byte]).length = pre.length + 1 := by simp
    rw [hone, P.add_eq_of_lt (a := pre.length + 1) (by omega), P.add_eq_of_lt (by omega)]
    simp
    omega
  have hone : [tag.byte].length = [t].length := rfl
  have himage : (P.order.image P.sizeT data.length).length = len.length := by simp [hlen]
  have hstore1 := overwrite_append pre (len ++ (value ++ post)) hone
  have hstore2 := overwrite_append (pre ++ [tag.byte]) (value ++ post) himage
  have hstore3 := overwrite_append (pre ++ [tag.byte] ++ P.order.image P.sizeT data.length) post
    hvalue.symm
  rw [← List.append_assoc pre [tag.byte]] at hstore1
  rw [← List.append_assoc (pre ++ [tag.byte]) (P.order.image P.sizeT data.length)] at hstore2
  rw [List.append_assoc [t], List.append_assoc len]
  constructor
  · simp only [addTag, Logged.all_bind, all_store, Access.inBounds_mk, val_store,
      length_overwrite, List.length_append, Logged.all_pure, hpos1, hpos2, hlen, hvalue,
      ByteOrder.length_image, List.length_singleton, and_true]
    omega
  · simp only [addTag, Logged.val_bind, val_store, Logged.val_pure, hpos1, hpos2, hpos3, hstore1,
      hstore2, hstore3]
    simp [fieldBytes]

/-- Write the records of `fs` one after another. -/
def addTags (fs : List Field) (m : Message) : Logged Message :=
  match fs with
  | [] => pure m
  | f :: fs => addTag P f.1 f.2 m >>= addTags fs

theorem addTags_append (fs gs : List Field) :
    addTags P (fs ++ gs) = fun m => addTags P fs m >>= addTags P gs := by
  induction fs with
  | nil => simp [addTags]
  | cons f fs ih =>
    funext m
    simp [addTags, ih]

theorem addTagIfSet_eq (tag : Tag) (data : Option Bytes) (m : Message) :
    addTagIfSet P tag data m = addTags P (fieldIfSet tag data) m := by
  cases data <;> simp [addTagIfSet, fieldIfSet, addTags]

/-- `buildHeader` writes the header fields. -/
theorem writeFields_eq (a : UAttributes UUID UUri) (m : Message) :
    writeFields P X a m = addTags P (headerFields P X a) m := by
  simp only [writeFields, headerFields, addTags_append, addTagIfSet_eq, addTags, bind_assoc,
    bind_pure]

/-- Writing `fs` in front of enough bytes stays inside the vector, and leaves their records
there, whatever was there. -/
theorem addTags_spec :
    ∀ (fs : List Field) (pre post : Bytes) {mid : Bytes}, mid.length = fieldsSize P fs →
      (pre ++ (mid ++ post)).length < P.sizeMod →
      (addTags P fs ⟨pre ++ (mid ++ post), pre.length⟩).InBounds ∧
        (addTags P fs ⟨pre ++ (mid ++ post), pre.length⟩).val =
          ⟨pre ++ (fieldsBytes P fs ++ post), (pre ++ fieldsBytes P fs).length⟩
  | [], pre, post, mid, hmid, _ => by
    obtain rfl : mid = [] := List.length_eq_zero_iff.1 hmid
    simp [addTags]
  | (tag, data) :: fs, pre, post, mid, hmid, hmax => by
    rw [fieldsSize_cons] at hmid
    obtain ⟨mid, rest, rfl, hlen, hrest⟩ := exists_append_of_length_eq_add hmid
    rw [List.append_assoc] at hmax
    obtain ⟨hbounds, hval⟩ := addTag_spec P tag data pre (rest ++ post) hlen hmax
    have hmax' : ((pre ++ fieldBytes P (tag, data)) ++ (rest ++ post)).length < P.sizeMod := by
      simp only [List.length_append, length_fieldBytes] at hmax hlen ⊢
      omega
    obtain ⟨hbounds', hval'⟩ := addTags_spec fs (pre ++ fieldBytes P (tag, data)) post hrest hmax'
    rw [← List.append_assoc pre (fieldBytes P (tag, data))] at hval
    rw [addTags, Logged.InBounds, Logged.all_bind, Logged.val_bind, List.append_assoc, hval]
    refine ⟨⟨hbounds, hbounds'⟩, ?_⟩
    rw [hval', fieldsBytes_cons]
    simp

/-! ## Counting -/

/-- The bytes `calculateSize` counts for a sink, which `buildHeader` does not write. -/
def sinkPadding (a : UAttributes UUID UUri) : ℕ :=
  match a.sink with
  | some sink => 1 + P.sizeT + (X.base64Encode (X.serializeUri sink)).length
  | none => 0

theorem updateSize_mod (size m : ℕ) :
    updateSize P size (m % P.sizeMod) = (m + (1 + P.sizeT + size)) % P.sizeMod := by
  simp only [updateSize, Platform.add, Nat.mod_add_mod]
  congr 1
  omega

theorem updateSizeIfSet_mod (tag : Tag) (data : Option Bytes) (m : ℕ) :
    updateSizeIfSet P (data.map List.length) (m % P.sizeMod) =
      (m + fieldsSize P (fieldIfSet tag data)) % P.sizeMod := by
  cases data <;> simp [updateSizeIfSet, fieldIfSet, updateSize_mod]

theorem updateSizeIfSet_image32_mod (tag : Tag) (v : Option UInt32) (m : ℕ) :
    updateSizeIfSet P (v.map fun _ => 4) (m % P.sizeMod) =
      (m + fieldsSize P (fieldIfSet tag (v.map P.image32))) % P.sizeMod := by
  rw [← updateSizeIfSet_mod]
  cases v <;> simp [updateSizeIfSet]

/-- `calculateSize` counts the fields that are written and the sink. -/
theorem calculateSize_eq (a : UAttributes UUID UUri) :
    calculateSize P X a =
      (fieldsSize P (headerFields P X a) + sinkPadding P X a) % P.sizeMod := by
  have hzero : 0 = 0 % P.sizeMod := by simp
  have hsink (m : ℕ) : updateSizeIfSet P
      (a.sink.map fun sink => (X.base64Encode (X.serializeUri sink)).length) (m % P.sizeMod) =
        (m + sinkPadding P X a) % P.sizeMod := by
    cases h : a.sink <;> simp [updateSizeIfSet, sinkPadding, h, updateSize_mod]
  have hreqid := updateSizeIfSet_mod P .REQID (a.reqid.map X.serializeToBytes)
  rw [Option.map_map] at hreqid
  unfold calculateSize
  rw [hzero]
  simp only [updateSize_mod, updateSizeIfSet_image32_mod P .TTL a.ttl,
    updateSizeIfSet_mod P .TOKEN a.token,
    updateSizeIfSet_image32_mod P .HINT a.serializationHint, hsink,
    updateSizeIfSet_image32_mod P .PLEVEL a.plevel,
    updateSizeIfSet_image32_mod P .COMMSTATUS a.commstatus]
  refine (hreqid _).trans ?_
  simp only [headerFields, fieldsSize_append, fieldsSize_cons, fieldsSize_nil,
    Platform.length_image32]
  congr 1
  omega

/-- A header that fits in an object : the records of the written fields, then zeros for
the sink. Every write is inside the vector. -/
theorem buildHeader_eq (a : UAttributes UUID UUri)
    (hfit : fieldsSize P (headerFields P X a) + sinkPadding P X a ≤ P.maxSize) :
    (buildHeader P X a).InBounds ∧ (buildHeader P X a).val =
      .returned (fieldsBytes P (headerFields P X a) ++ List.replicate (sinkPadding P X a) 0) := by
  have hsize : calculateSize P X a = fieldsSize P (headerFields P X a) + sinkPadding P X a := by
    have := P.two_mul_maxSize
    rw [calculateSize_eq, Nat.mod_eq_of_lt (by omega)]
  have hzeros : (List.replicate (fieldsSize P (headerFields P X a)) (0 : UInt8)).length =
      fieldsSize P (headerFields P X a) := List.length_replicate
  have hcount : fieldsSize P (headerFields P X a) + sinkPadding P X a < P.sizeMod := by
    have := P.two_mul_maxSize
    omega
  obtain ⟨hbounds, hval⟩ := addTags_spec P (headerFields P X a) []
    (List.replicate (sinkPadding P X a) 0) hzeros (by simpa using hcount)
  rw [List.replicate_append_replicate] at hbounds hval
  simp only [List.nil_append, List.length_nil] at hbounds hval
  simp only [buildHeader, writeFields_eq, hsize, if_neg (Nat.not_lt.2 hfit)]
  simp [hbounds, hval]

/-- A header that is returned fits in a vector, if `size_t` can count its bytes. -/
theorem buildHeader_returned {a : UAttributes UUID UUri} {header : Bytes}
    (hcount : fieldsSize P (headerFields P X a) + sinkPadding P X a < P.sizeMod)
    (hbuild : (buildHeader P X a).val = .returned header) :
    fieldsSize P (headerFields P X a) + sinkPadding P X a ≤ P.maxSize ∧
      header = fieldsBytes P (headerFields P X a) ++ List.replicate (sinkPadding P X a) 0 := by
  have hfit : fieldsSize P (headerFields P X a) + sinkPadding P X a ≤ P.maxSize := by
    by_contra hthrows
    rw [buildHeader, calculateSize_eq, Nat.mod_eq_of_lt hcount,
      if_pos (Nat.lt_of_not_le hthrows)] at hbuild
    cases hbuild
  rw [(buildHeader_eq P X a hfit).2] at hbuild
  exact ⟨hfit, (Exit.returned.inj hbuild).symm⟩

/-! ## Declared and written size -/

/-- Attributes whose strings can be stored : no object is larger than `PTRDIFF_MAX`. -/
structure StoredAttributes (P : Platform) (X : Externals UUID UUri) extends
    UAttributes UUID UUri where
  token_le : ∀ bytes ∈ token, bytes.length ≤ P.maxSize
  sink_le : ∀ uri ∈ sink, (X.base64Encode (X.serializeUri uri)).length ≤ P.maxSize

/-- The size that `calculateSize` declares is the position behind the last record. Every
write is inside the vector, and the header is the records of the written fields. -/
structure SizesAgree (a : UAttributes UUID UUri) : Prop where
  position : calculateSize P X a =
    (writeFields P X a ⟨List.replicate (calculateSize P X a) 0, 0⟩).val.pos
  inBounds : (buildHeader P X a).InBounds
  records : calculateSize P X a ≤ P.maxSize →
    (buildHeader P X a).val = .returned (fieldsBytes P (headerFields P X a))

/-- The position moves by the size of the records, whatever the vector. -/
theorem pos_addTags (fs : List Field) {m : Message} (hpos : m.pos < P.sizeMod) :
    (addTags P fs m).val.pos = (m.pos + fieldsSize P fs) % P.sizeMod := by
  induction fs generalizing m with
  | nil => exact (Nat.mod_eq_of_lt hpos).symm
  | cons f fs ih =>
    have hmod : 0 < P.sizeMod := by
      have := P.two_mul_maxSize
      omega
    have hnext : (addTag P f.1 f.2 m).val.pos =
        (m.pos + (1 + P.sizeT + f.2.length)) % P.sizeMod := by
      simp only [addTag, Logged.val_bind, Logged.val_pure, Platform.add, Nat.mod_add_mod]
      congr 1
      omega
    have hlt : (addTag P f.1 f.2 m).val.pos < P.sizeMod := by
      rw [hnext]
      exact Nat.mod_lt _ hmod
    rw [addTags, Logged.val_bind, ih hlt, hnext, Nat.mod_add_mod, fieldsSize_cons]
    congr 1
    omega

variable {P X}

/-- The written fields of stored attributes take less than `size_t` can count. -/
theorem StoredAttributes.fieldsSize_lt (hlen : ∀ id, (X.serializeToBytes id).length = 16)
    (a : StoredAttributes P X) :
    fieldsSize P (headerFields P X a.toUAttributes) < P.sizeMod := by
  have hmax := P.two_mul_maxSize
  have hroom := P.le_maxSize
  have hw := P.sizeT_bounds
  have hfield (tag : Tag) (data : Option Bytes) {n : ℕ} (h : ∀ bytes ∈ data, bytes.length ≤ n) :
      fieldsSize P (fieldIfSet tag data) ≤ 1 + P.sizeT + n := by
    cases data with
    | none => simp [fieldIfSet]
    | some bytes =>
      have := h bytes rfl
      simp [fieldIfSet]
      omega
  have himage (tag : Tag) (v : Option UInt32) :
      fieldsSize P (fieldIfSet tag (v.map P.image32)) ≤ 1 + P.sizeT + 4 :=
    hfield tag _ (by simp)
  have httl := himage .TTL a.ttl
  have htoken := hfield .TOKEN a.token a.token_le
  have hhint := himage .HINT a.serializationHint
  have hplevel := himage .PLEVEL a.plevel
  have hcommstatus := himage .COMMSTATUS a.commstatus
  have hreqid := hfield .REQID (a.reqid.map X.serializeToBytes) (n := 16) (by simp [hlen])
  simp only [headerFields, fieldsSize_append, fieldsSize_cons, fieldsSize_nil, hlen,
    Platform.length_image32]
  omega

/-- The declared size is the written size if and only if the attributes have no sink. -/
theorem sizesAgree_iff (hlen : ∀ id, (X.serializeToBytes id).length = 16)
    (a : StoredAttributes P X) : SizesAgree P X a.toUAttributes ↔ a.sink = none := by
  have hlt := a.fieldsSize_lt hlen
  have hmax := P.two_mul_maxSize
  have hpos (m : ℕ) : (writeFields P X a.toUAttributes ⟨List.replicate m 0, 0⟩).val.pos =
      fieldsSize P (headerFields P X a.toUAttributes) := by
    rw [writeFields_eq, pos_addTags P _ (by simp only; omega), Nat.zero_add, Nat.mod_eq_of_lt hlt]
  constructor
  · intro h
    have hposition := h.position
    rw [hpos, calculateSize_eq] at hposition
    cases hsink : a.sink with
    | none => rfl
    | some sink =>
      -- the record that is counted and not written is shorter than a whole turn of `size_t`
      have hpadding : sinkPadding P X a.toUAttributes =
          1 + P.sizeT + (X.base64Encode (X.serializeUri sink)).length := by
        rw [sinkPadding, hsink]
      have hle := a.sink_le sink hsink
      have hw := P.sizeT_bounds
      have hroom := P.le_maxSize
      rcases Nat.lt_or_ge (fieldsSize P (headerFields P X a.toUAttributes) +
        sinkPadding P X a.toUAttributes) P.sizeMod with hfits | hwraps
      · rw [Nat.mod_eq_of_lt hfits] at hposition
        omega
      · rw [Nat.mod_eq_sub_mod hwraps, Nat.mod_eq_of_lt (by omega)] at hposition
        omega
  · intro hsink
    have hpadding : sinkPadding P X a.toUAttributes = 0 := by
      rw [sinkPadding, hsink]
    have hsize : calculateSize P X a.toUAttributes =
        fieldsSize P (headerFields P X a.toUAttributes) := by
      rw [calculateSize_eq, hpadding, Nat.add_zero, Nat.mod_eq_of_lt hlt]
    have hbuild (hfit : calculateSize P X a.toUAttributes ≤ P.maxSize) :=
      buildHeader_eq P X a.toUAttributes (by rwa [hpadding, Nat.add_zero, ← hsize])
    refine ⟨hsize.trans (hpos _).symm, ?_, fun hfit => ?_⟩
    · rcases Nat.lt_or_ge P.maxSize (calculateSize P X a.toUAttributes) with hthrows | hfit
      · rw [buildHeader]
        rw [if_pos hthrows]
        exact Logged.all_pure _ _
      · exact (hbuild hfit).1
    · rw [(hbuild hfit).2, hpadding, List.replicate_zero, List.append_nil]

/-- Attributes with a token and a time to live. -/
def tokenAttributes : StoredAttributes ⟨.eight, .little⟩ Externals.sample where
  toUAttributes := { UAttributes.builder (0, 0) 1 0 with token := some [7], ttl := some 5 }
  token_le := by simp [Platform.maxSize, Platform.sizeMod, Platform.sizeT]
  sink_le := by simp [UAttributes.builder]

theorem sizesAgree_tokenAttributes :
    SizesAgree ⟨.eight, .little⟩ .sample tokenAttributes.toUAttributes ↔
      tokenAttributes.sink = none :=
  sizesAgree_iff (fun _ => by simp [Externals.sample]) tokenAttributes

/-- Attributes with a sink. -/
def sinkAttributes : StoredAttributes ⟨.eight, .little⟩ Externals.sample where
  toUAttributes :=
    { (UAttributes.builder (0, 0) 1 0 : UAttributes _ Bytes) with sink := some [97] }
  token_le := by simp [UAttributes.builder]
  sink_le := by simp [Externals.sample, base64, Platform.maxSize, Platform.sizeMod, Platform.sizeT]

/-- The declared size is thirteen bytes past the last record. -/
theorem not_sizesAgree_sinkAttributes :
    ¬SizesAgree ⟨.eight, .little⟩ .sample sinkAttributes.toUAttributes :=
  fun h => absurd h.position (by decide)

end MessageBuilder

end UpClientZenoh
