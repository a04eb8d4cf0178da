import UpClientZenoh.HeaderRoundTrip
import UpClientZenoh.ZenohUTransport

/-!
# Parsing a header

How `parseHeader` ends on a header from any peer : it returns, the process is terminated, or
it has accessed memory out of bounds.

`parseHeader_returns_iff` : it returns on exactly the headers that do not break off inside a
record and whose fields, if no mandatory one is missing, have the sizes that keep the
decoder in bounds (`SoundHeader`). `parseHeader_eq_some_iff` : the headers that it decodes.
`parseHeader_terminated_iff` : the headers with which it terminates the process.
-/

open MemoryAccess Framing

namespace UpClientZenoh

namespace ZenohUTransport

open MessageBuilder MessageParser

variable {UUID UUri : Type} {P : Platform} (X : Externals UUID UUri) (stray : Stray)
  {header : Buffer P}

/-! ## By the two parsers -/

theorem parseHeader_of_rejected (hin : (getAllTlv stray (some header)).InBounds)
    (hval : (getAllTlv stray (some header)).val = .returned none) :
    parseHeader P X stray header = .returned none := by
  rw [parseHeader, if_neg (not_not.2 hin), hval]
  rfl

theorem parseHeader_of_accepted {umap : TlvMap} (hin : (getAllTlv stray (some header)).InBounds)
    (hval : (getAllTlv stray (some header)).val = .returned (some umap)) :
    parseHeader P X stray header = if ¬(getAttributes P X stray umap).InBounds then .undefined
      else .returned (getAttributes P X stray umap).val := by
  rw [parseHeader, if_neg (not_not.2 hin), hval]

theorem parseHeader_of_not_inBounds (hin : ¬(getAllTlv stray (some header)).InBounds) :
    parseHeader P X stray header = .undefined :=
  if_pos hin

/-- The header terminates the process in `getAllTlv`, which declares a length above
`PTRDIFF_MAX`. -/
theorem parseHeader_terminated_iff (stray : Stray) (header : Buffer P) :
    parseHeader P X stray header = .terminated ↔
      ∃ pos length, DeclaresLength header pos length ∧ P.maxSize < length := by
  rw [← getAllTlv_terminated_iff stray]
  constructor
  · intro h
    by_cases hin : (getAllTlv stray (some header)).InBounds
    · rcases getAllTlv_ends stray (some header) with ⟨_ | umap, hval⟩ | hval
      · rw [parseHeader_of_rejected X stray hin hval] at h
        cases h
      · rw [parseHeader_of_accepted X stray hin hval] at h
        split_ifs at h
      · exact hval
    · rw [parseHeader_of_not_inBounds X stray hin] at h
      cases h
  · intro hval
    rw [parseHeader, if_neg (not_not.2 (inBounds_of_getAllTlv_terminated stray hval)), hval]
    rfl

/-- `parseHeader` returns, terminates the process, or goes out of bounds. -/
theorem parseHeader_ends (stray : Stray) (header : Buffer P) :
    (∃ a, parseHeader P X stray header = .returned a) ∨
      parseHeader P X stray header = .terminated ∨ parseHeader P X stray header = .undefined := by
  by_cases hin : (getAllTlv stray (some header)).InBounds
  swap
  · exact Or.inr (Or.inr (parseHeader_of_not_inBounds X stray hin))
  rcases getAllTlv_ends stray (some header) with ⟨_ | umap, hval⟩ | hval
  · exact Or.inl ⟨none, parseHeader_of_rejected X stray hin hval⟩
  · rw [parseHeader_of_accepted X stray hin hval]
    split_ifs with hattributes
    · exact Or.inl ⟨_, rfl⟩
    · exact Or.inr (Or.inr rfl)
  · exact Or.inr (Or.inl ((parseHeader_terminated_iff X stray header).2
      ((getAllTlv_terminated_iff stray header).1 hval)))

/-! ## By the records of the header -/

variable {rs : List (Record P.sizeT)}

theorem lengthsAgree_insertRecords (rs : List (Record P.sizeT)) {umap : TlvMap}
    (h : LengthsAgree umap) : LengthsAgree (insertRecords umap rs) := by
  induction rs generalizing umap with
  | nil => exact h
  | cons r rs ih => exact ih (h.insert (Tag.ofByte r.tag) r.value)

/-- A stream of records is decoded, or the decoder goes out of bounds. -/
theorem parseHeader_frames (hrs : ∀ r ∈ rs, ValidTag r.tag)
    (hdata : header.bytes = frames P.order rs) :
    ((MandatoryMissing (insertRecords ∅ rs) ∨ FieldsReadable (insertRecords ∅ rs)) ∧
        parseHeader P X stray header =
          .returned (getAttributes P X stray (insertRecords ∅ rs)).val) ∨
      (¬(MandatoryMissing (insertRecords ∅ rs) ∨ FieldsReadable (insertRecords ∅ rs)) ∧
        parseHeader P X stray header = .undefined) := by
  have hlen := lengthsAgree_insertRecords rs lengthsAgree_empty
  rw [← inBounds_getAttributes_iff X stray hlen]
  by_cases hne : header.bytes = []
  · have hrs : rs = [] := by
      cases rs with
      | nil => rfl
      | cons r rs => simp [hdata, frame] at hne
    rw [hrs]
    exact Or.inl ⟨by simp [insertRecords, getAttributes],
      parseHeader_of_rejected X stray (by simp [getAllTlv, hne]) (by simp [getAllTlv, hne])⟩
  · obtain ⟨hin, hval⟩ := getAllTlv_frames stray hrs hdata hne
    rw [parseHeader_of_accepted X stray hin hval]
    split_ifs with hattributes
    · exact Or.inl ⟨hattributes, rfl⟩
    · exact Or.inr ⟨hattributes, rfl⟩

/-- How a stream of fields is parsed. -/
theorem parseHeader_fieldsBytes {fs : List Field}
    (htag : ∀ f ∈ fs, f.1 ≠ .UNDEFINED) {data : Buffer P} (hdata : data.bytes = fieldsBytes P fs) :
    let umap := insertFields ∅ fs
    ((MandatoryMissing umap ∨ FieldsReadable umap) ∧ parseHeader P X stray data =
        .returned (getAttributes P X stray umap).val) ∨
      (¬(MandatoryMissing umap ∨ FieldsReadable umap) ∧
        parseHeader P X stray data = .undefined) := by
  have hmax := P.two_mul_maxSize
  have hsize : fieldsSize P fs ≤ P.maxSize := by
    rw [fieldsSize, ← hdata]
    exact data.size_le
  obtain ⟨rs, hvalid, hframes, hinsert⟩ := exists_records P
    (fun f hf => (length_le_fieldsSize P hf).trans_lt (by omega)) htag
  rw [← hinsert]
  exact parseHeader_frames X stray hvalid (hdata.trans hframes.symm)

/-- A header that goes on with an invalid tag is rejected. -/
theorem parseHeader_badTag {t : UInt8} {tail : Bytes} (hrs : ∀ r ∈ rs, ValidTag r.tag)
    (ht : ¬ValidTag t) (hdata : header.bytes = frames P.order rs ++ t :: tail) :
    parseHeader P X stray header = .returned none := by
  obtain ⟨hin, hval⟩ := getAllTlv_badTag stray hrs ht hdata
  exact parseHeader_of_rejected X stray hin hval

theorem stopsBetweenRecords_of_parseHeader {result : Option (UAttributes UUID UUri)}
    (h : parseHeader P X stray header = .returned result) : StopsBetweenRecords header := by
  have hin : (getAllTlv stray (some header)).InBounds := by
    by_contra hin
    rw [parseHeader_of_not_inBounds X stray hin] at h
    cases h
  refine stopsBetweenRecords_of_inBounds stray hin fun hval => ?_
  rw [(parseHeader_terminated_iff X stray header).2
    ((getAllTlv_terminated_iff stray header).1 hval)] at h
  cases h

/-- The header does not break off inside a record. If it is a stream of records, a mandatory
field is missing or the fields have the sizes that keep the decoder in bounds. -/
structure SoundHeader (header : Buffer P) : Prop where
  stops : StopsBetweenRecords header
  fields : ∀ rs : List (Record P.sizeT), (∀ r ∈ rs, ValidTag r.tag) →
    header.bytes = frames P.order rs →
      MandatoryMissing (insertRecords ∅ rs) ∨ FieldsReadable (insertRecords ∅ rs)

/-- Parsing returns on exactly the sound headers. -/
theorem parseHeader_returns_iff (header : Buffer P) :
    (∃ result, parseHeader P X stray header = .returned result) ↔ SoundHeader header := by
  constructor
  · rintro ⟨result, h⟩
    refine ⟨stopsBetweenRecords_of_parseHeader X stray h, fun rs hrs hdata => ?_⟩
    rcases parseHeader_frames X stray hrs hdata with ⟨hfields, -⟩ | ⟨-, hundefined⟩
    · exact hfields
    · rw [hundefined] at h
      cases h
  · rintro ⟨⟨rs, tail, hrs, hdata, htail⟩, hfields⟩
    cases tail with
    | nil =>
      rw [List.append_nil] at hdata
      rcases parseHeader_frames X stray hrs hdata with ⟨-, hreturned⟩ | ⟨hnot, -⟩
      · exact ⟨_, hreturned⟩
      · exact absurd (hfields rs hrs hdata) hnot
    | cons t rest => exact ⟨none, parseHeader_badTag X stray hrs (htail t rfl) hdata⟩

/-- The headers that are decoded are the streams of records with the mandatory fields, and
with fields of the sizes that keep the decoder in bounds. -/
theorem parseHeader_eq_some_iff (header : Buffer P) (a : UAttributes UUID UUri) :
    parseHeader P X stray header = .returned (some a) ↔
      ∃ rs : List (Record P.sizeT), (∀ r ∈ rs, ValidTag r.tag) ∧
        header.bytes = frames P.order rs ∧ FieldsReadable (insertRecords ∅ rs) ∧
        (getAttributes P X stray (insertRecords ∅ rs)).val = some a := by
  constructor
  · intro h
    obtain ⟨rs, tail, hrs, hdata, htail⟩ := stopsBetweenRecords_of_parseHeader X stray h
    cases tail with
    | nil =>
      rw [List.append_nil] at hdata
      rcases parseHeader_frames X stray hrs hdata with ⟨hfields, hreturned⟩ | ⟨-, hundefined⟩
      · have hval := Exit.returned.inj (hreturned.symm.trans h)
        refine ⟨rs, hrs, hdata, hfields.resolve_left fun hmissing => ?_, hval⟩
        rw [(getAttributes_eq_none_iff P X stray _).2 hmissing] at hval
        cases hval
      · rw [hundefined] at h
        cases h
    | cons t rest =>
      rw [parseHeader_badTag X stray hrs (htail t rfl) hdata] at h
      cases h
  · rintro ⟨rs, hrs, hdata, hfields, hval⟩
    rcases parseHeader_frames X stray hrs hdata with ⟨-, hreturned⟩ | ⟨hnot, -⟩
    · rw [hreturned, hval]
    · exact absurd (Or.inr hfields) hnot

end ZenohUTransport

end UpClientZenoh
