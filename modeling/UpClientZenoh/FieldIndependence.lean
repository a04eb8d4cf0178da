import UpClientZenoh.HeaderRoundTrip

/-!
# Field independence

What two runs of the decoder make of two maps that hold the same under every tag but one.

`AgreeExcept` : the decoded attributes agree on every field but the one the tag encodes. The
two runs share no memory besides the maps, and neither may read past a value.
`independent_iff` : this holds if and only if a TTL does not change with the identifier it is
read from, and the two fields that are read by pointer have the bytes the read takes, in
either map (`FieldsApart`).
-/

open NativeBytes MemoryAccess

namespace UpClientZenoh

variable {UUID UUri : Type} (P : Platform) (X : Externals UUID UUri)

namespace MessageParser

/-! ## The property -/

/-- The map holds the mandatory tags, with values of the size of an identifier and of an
enumerator. -/
structure MandatorySized (umap : TlvMap) : Prop where
  id : ∃ tlv, umap.lookup .ID = some tlv ∧ tlv.value.length = 16
  type : ∃ tlv, umap.lookup .TYPE = some tlv ∧ tlv.length = 4 ∧ tlv.value.length = 4
  priority : ∃ tlv, umap.lookup .PRIORITY = some tlv ∧ tlv.length = 4 ∧ tlv.value.length = 4

/-- The maps hold the same under every tag but `t`. -/
def SameExcept (t : Tag) (umap umap' : TlvMap) : Prop :=
  ∀ tag, tag ≠ t → umap.lookup tag = umap'.lookup tag

/-- The attributes agree on every field but the one `t` encodes. -/
structure AgreeExcept (t : Tag) (a a' : UAttributes UUID UUri) : Prop where
  id : t ≠ .ID → a.id = a'.id
  type : t ≠ .TYPE → a.type = a'.type
  priority : t ≠ .PRIORITY → a.priority = a'.priority
  ttl : t ≠ .TTL → a.ttl = a'.ttl
  token : t ≠ .TOKEN → a.token = a'.token
  serializationHint : t ≠ .HINT → a.serializationHint = a'.serializationHint
  sink : t ≠ .SINK → a.sink = a'.sink
  plevel : t ≠ .PLEVEL → a.plevel = a'.plevel
  commstatus : t ≠ .COMMSTATUS → a.commstatus = a'.commstatus
  reqid : t ≠ .REQID → a.reqid = a'.reqid

/-- Both maps are decoded without an access out of bounds, and the attributes agree on every
field but the one `t` encodes, whatever lies behind the values in either run. -/
def Independent (t : Tag) (umap umap' : TlvMap) : Prop :=
  ∀ stray stray', (getAttributes P X stray umap).InBounds ∧
    (getAttributes P X stray' umap').InBounds ∧
    ∃ a a', (getAttributes P X stray umap).val = some a ∧
      (getAttributes P X stray' umap').val = some a' ∧ AgreeExcept t a a'

/-- The fields that are read by pointer have the four bytes of the read. -/
structure PointersSized (umap : TlvMap) : Prop where
  plevel : ∀ tlv ∈ umap.lookup .PLEVEL, 4 ≤ tlv.value.length
  commstatus : ∀ tlv ∈ umap.lookup .COMMSTATUS, 4 ≤ tlv.value.length

/-- A TTL goes with identifiers that begin with the same four bytes, if these may differ, and
the fields read by pointer have four bytes, also where they differ. -/
structure FieldsApart (t : Tag) (umap umap' : TlvMap) : Prop where
  ttl : t = .ID → (umap.lookup .TTL).isSome → ∀ tlv ∈ umap.lookup .ID, ∀ tlv' ∈ umap'.lookup .ID,
    tlv.value.take 4 = tlv'.value.take 4
  first : PointersSized umap
  second : PointersSized umap'

/-! ## Reads -/

/-- A value of the size of an enumerator is copied inside both objects. -/
theorem inBounds_memcpy32_of_sized (stray : Stray) (tag : Tag) {tlv : TLV}
    (hlength : tlv.length = 4) (hvalue : tlv.value.length = 4) :
    (memcpy32 P stray tag tlv).All Access.InBounds := by
  simp [memcpy32, hlength, hvalue]

/-- With the mandatory tags in place the decoder stays inside its objects if and only if the
reads by pointer do. -/
theorem MandatorySized.inBounds_iff {umap : TlvMap} (h : MandatorySized umap) (stray : Stray) :
    (getAttributes P X stray umap).InBounds ↔ PointersSized umap := by
  obtain ⟨⟨idTlv, hid, hidLen⟩, ⟨typeTlv, htype, htypeLen, htypeValue⟩,
    ⟨priorityTlv, hpriority, hpriorityLen, hpriorityValue⟩⟩ := h
  have hcopies := inBounds_memcpy32_of_sized P stray .TYPE htypeLen htypeValue
  have hcopies' := inBounds_memcpy32_of_sized P stray .PRIORITY hpriorityLen hpriorityValue
  rw [Logged.InBounds, all_getAttributes_iff P X stray (fun n => by simp) hid htype hpriority]
  simp only [inBounds_readInt32]
  constructor
  · rintro ⟨-, -, -, hplevel, hcommstatus⟩
    exact ⟨hplevel, hcommstatus⟩
  · intro hsized
    exact ⟨hcopies, hcopies', fun _ => by omega, hsized.plevel, hsized.commstatus⟩

/-- A value of four bytes is read the same in every run. -/
theorem map_readInt32_congr {lookup lookup' : Option TLV} (hsame : lookup = lookup') {tag : Tag}
    (hlen : ∀ tlv ∈ lookup, 4 ≤ tlv.value.length) (stray stray' : Stray) :
    (lookup.map fun tlv => (readInt32 P stray tag tlv).val) =
      lookup'.map fun tlv => (readInt32 P stray' tag tlv).val := by
  subst hsame
  refine Option.map_congr fun tlv htlv => ?_
  rw [val_readInt32 P stray tag (hlen tlv htlv), val_readInt32 P stray' tag (hlen tlv htlv)]

/-! ## Two runs -/

variable {P X} {t : Tag} {umap umap' : TlvMap}

theorem SameExcept.eq_of_lookup (h : SameExcept t umap umap') {tag : Tag} (htag : t ≠ tag)
    {tlv tlv' : TLV} (hlookup : umap.lookup tag = some tlv)
    (hlookup' : umap'.lookup tag = some tlv') : tlv = tlv' := by
  have hsame := h tag htag.symm
  rwa [hlookup, hlookup', Option.some_inj] at hsame

theorem independent_of_fieldsApart (h : MandatorySized umap) (h' : MandatorySized umap')
    (hsame : SameExcept t umap umap') (hapart : FieldsApart t umap umap') :
    Independent P X t umap umap' := by
  intro stray stray'
  refine ⟨(h.inBounds_iff P X stray).2 hapart.first, (h'.inBounds_iff P X stray').2 hapart.second,
    ?_⟩
  obtain ⟨⟨idTlv, hid, hidLen⟩, ⟨typeTlv, htype, htypeLen, htypeValue⟩,
    ⟨priorityTlv, hpriority, hpriorityLen, hpriorityValue⟩⟩ := h
  obtain ⟨⟨idTlv', hid', hidLen'⟩, ⟨typeTlv', htype', htypeLen', htypeValue'⟩,
    ⟨priorityTlv', hpriority', hpriorityLen', hpriorityValue'⟩⟩ := h'
  have hidSame (ht : t ≠ .ID) : idTlv = idTlv' := hsame.eq_of_lookup ht hid hid'
  have htypeSame (ht : t ≠ .TYPE) : typeTlv = typeTlv' := hsame.eq_of_lookup ht htype htype'
  have hprioritySame (ht : t ≠ .PRIORITY) : priorityTlv = priorityTlv' :=
    hsame.eq_of_lookup ht hpriority hpriority'
  refine ⟨_, _, val_getAttributes P X stray hid htype hpriority,
    val_getAttributes P X stray' hid' htype' hpriority', ?_⟩
  constructor
  case id =>
    intro ht
    simp only [decodedFields, hidSame ht]
  case type =>
    intro ht
    simp only [decodedFields, htypeSame ht, val_memcpy32 P _ _ htypeLen' htypeValue']
  case priority =>
    intro ht
    simp only [decodedFields, hprioritySame ht,
      val_memcpy32 P _ _ hpriorityLen' hpriorityValue']
  case ttl =>
    intro ht
    simp only [decodedFields, val_readInt32 P _ _ (by omega : 4 ≤ idTlv.value.length),
      val_readInt32 P _ _ (by omega : 4 ≤ idTlv'.value.length), ← hsame .TTL ht.symm]
    refine Option.map_congr fun tlv htlv => ?_
    by_cases htID : t = .ID
    · rw [hapart.ttl htID (Option.isSome_of_mem htlv) idTlv hid idTlv' hid']
    · rw [hidSame htID]
  case plevel =>
    intro ht
    exact map_readInt32_congr P (hsame .PLEVEL ht.symm) hapart.first.plevel stray stray'
  case commstatus =>
    intro ht
    exact map_readInt32_congr P (hsame .COMMSTATUS ht.symm) hapart.first.commstatus stray stray'
  all_goals exact fun _ => rfl

theorem fieldsApart_of_independent (h : MandatorySized umap) (h' : MandatorySized umap')
    (hsame : SameExcept t umap umap') (hindependent : Independent P X t umap umap') :
    FieldsApart t umap umap' := by
  obtain ⟨hin, hin', a, a', ha, ha', hagree⟩ := hindependent zeroStray zeroStray
  refine ⟨?_, (h.inBounds_iff P X _).1 hin, (h'.inBounds_iff P X _).1 hin'⟩
  obtain ⟨⟨idTlv, hid, hidLen⟩, ⟨typeTlv, htype, -⟩, ⟨priorityTlv, hpriority, -⟩⟩ := h
  obtain ⟨⟨idTlv', hid', hidLen'⟩, ⟨typeTlv', htype', -⟩, ⟨priorityTlv', hpriority', -⟩⟩ := h'
  rw [val_getAttributes P X _ hid htype hpriority, Option.some_inj] at ha
  rw [val_getAttributes P X _ hid' htype' hpriority', Option.some_inj] at ha'
  subst ha ha'
  rintro rfl httl tlv htlv tlv' htlv'
  obtain ⟨ttlTlv, httl⟩ := Option.isSome_iff_exists.1 httl
  obtain rfl : idTlv = tlv := Option.some.inj (hid.symm.trans htlv)
  obtain rfl : idTlv' = tlv' := Option.some.inj (hid'.symm.trans htlv')
  have hread := hagree.ttl (by decide)
  simp only [decodedFields, ← hsame .TTL (by decide), httl, Option.map_some, Option.some_inj,
    val_readInt32 P _ _ (by omega : 4 ≤ idTlv.value.length),
    val_readInt32 P _ _ (by omega : 4 ≤ idTlv'.value.length)] at hread
  exact P.value32_inj (by simp [hidLen]) (by simp [hidLen']) hread

/-- The fields of two maps that differ at one tag are decoded independently if and only if
no other field is read from that tag's value, and none past its own. -/
theorem independent_iff (h : MandatorySized umap) (h' : MandatorySized umap')
    (hsame : SameExcept t umap umap') : Independent P X t umap umap' ↔ FieldsApart t umap umap' :=
  ⟨fieldsApart_of_independent h h' hsame, independent_of_fieldsApart h h' hsame⟩

/-- A request that expires, with the first byte of its identifier. -/
def expiringFields (b : UInt8) : TlvMap :=
  insertFields ∅ [(.ID, b :: List.replicate 15 0), (.TYPE, [2, 0, 0, 0]),
    (.PRIORITY, [0, 0, 0, 0]), (.TTL, [5, 0, 0, 0])]

theorem mandatorySized_expiringFields (b : UInt8) : MandatorySized (expiringFields b) :=
  ⟨⟨_, rfl, rfl⟩, ⟨_, rfl, rfl, rfl⟩, ⟨_, rfl, rfl, rfl⟩⟩

theorem sameExcept_expiringFields (b c : UInt8) :
    SameExcept .ID (expiringFields b) (expiringFields c) := by
  intro tag htag
  cases tag <;> first | rfl | exact absurd rfl htag

theorem independent_iff_expiringFields :
    Independent ⟨.eight, .little⟩ .sample .ID (expiringFields 0) (expiringFields 1) ↔
      FieldsApart .ID (expiringFields 0) (expiringFields 1) :=
  independent_iff (mandatorySized_expiringFields 0) (mandatorySized_expiringFields 1)
    (sameExcept_expiringFields 0 1)

/-- With another identifier the same header expires at another time. -/
theorem not_independent_expiringFields :
    MandatorySized (expiringFields 0) ∧ MandatorySized (expiringFields 1) ∧
      SameExcept .ID (expiringFields 0) (expiringFields 1) ∧
      ¬Independent ⟨.eight, .little⟩ .sample .ID (expiringFields 0) (expiringFields 1) := by
  refine ⟨mandatorySized_expiringFields 0, mandatorySized_expiringFields 1,
    sameExcept_expiringFields 0 1, fun h => ?_⟩
  have hapart := fieldsApart_of_independent (mandatorySized_expiringFields 0)
    (mandatorySized_expiringFields 1) (sameExcept_expiringFields 0 1) h
  exact absurd (hapart.ttl rfl rfl _ rfl _ rfl) (by decide)

end MessageParser

end UpClientZenoh
