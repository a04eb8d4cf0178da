import UpClientZenoh.HeaderRoundTrip

/-!
# Record round trip

The framing that `addTag` writes and `getAllTlv` reads, for any sequence of records and not
only for the fields of a header : a tag may occur again, and a value may be empty or look
like records itself.

`accumulateSize_eq` : `updateSize` accumulates the size of the records. A buffer of that size
is filled by them to the last byte (`addTags_spec`), and what fills it is a stream of complete
records, so `getAllTlv` files them one after another (`getAllTlv_fieldsBytes`). In that map a
later record replaces an earlier one with its tag (`holdsLast_insertFields`).
-/

open NativeBytes MemoryAccess Framing

namespace UpClientZenoh

variable (P : Platform) (stray : Stray)

open MessageBuilder MessageParser

/-! ## The size -/

/-- The size `updateSize` accumulates from zero over the values of `fs`. -/
def accumulateSize (fs : List Field) : ℕ :=
  fs.foldl (fun msgSize f => updateSize P f.2.length msgSize) 0

theorem foldl_updateSize_mod (fs : List Field) (m : ℕ) :
    fs.foldl (fun msgSize f => updateSize P f.2.length msgSize) (m % P.sizeMod) =
      (m + fieldsSize P fs) % P.sizeMod := by
  induction fs generalizing m with
  | nil => rfl
  | cons f fs ih => rw [List.foldl_cons, updateSize_mod, ih, fieldsSize_cons, Nat.add_assoc]

/-- The accumulated size is that of the records, if `size_t` can count them. -/
theorem accumulateSize_eq {fs : List Field} (hfit : fieldsSize P fs < P.sizeMod) :
    accumulateSize P fs = fieldsSize P fs := by
  have hfold := foldl_updateSize_mod P fs 0
  rwa [Nat.zero_mod, Nat.zero_add, Nat.mod_eq_of_lt hfit] at hfold

/-! ## The map -/

/-- The map has the tags of `fs` as its keys, each with the last field that has it. -/
structure HoldsLast (fs : List Field) (umap : TlvMap) : Prop where
  keys : ∀ tag, tag ∈ umap ↔ ∃ f ∈ fs, f.1 = tag
  last : ∀ before tag data after, fs = before ++ (tag, data) :: after →
    (∀ f ∈ after, f.1 ≠ tag) → umap.lookup tag = some ⟨tag, data.length, data⟩

theorem lookup_insertFields_of_ne {fs : List Field} {tag : Tag} (h : ∀ f ∈ fs, f.1 ≠ tag)
    (umap : TlvMap) : (insertFields umap fs).lookup tag = umap.lookup tag := by
  induction fs generalizing umap with
  | nil => rfl
  | cons f fs ih =>
    obtain ⟨hf, hfs⟩ := List.forall_mem_cons.1 h
    exact (ih hfs (umap.insert f.1 (fieldTlv f.1 f.2))).trans (AList.lookup_insert_ne hf.symm)

theorem mem_insertFields {fs : List Field} {tag : Tag} (umap : TlvMap) :
    tag ∈ insertFields umap fs ↔ tag ∈ umap ∨ ∃ f ∈ fs, f.1 = tag := by
  induction fs generalizing umap with
  | nil => simp [insertFields]
  | cons f fs ih =>
    have hstep := ih (umap.insert f.1 (fieldTlv f.1 f.2))
    rw [AList.mem_insert, or_comm (a := tag = f.1), or_assoc] at hstep
    rw [List.exists_mem_cons_iff, eq_comm (a := f.1)]
    exact hstep

/-- Inserting fields one after another leaves the last one of each tag. -/
theorem holdsLast_insertFields (fs : List Field) : HoldsLast fs (insertFields ∅ fs) := by
  refine ⟨fun tag => ?_, ?_⟩
  · rw [mem_insertFields]
    simp
  · rintro before tag data after rfl hafter
    rw [insertFields_append]
    exact (lookup_insertFields_of_ne hafter _).trans (AList.lookup_insert _)

/-! ## The round trip -/

/-- The parser reads back the records of `fs`, whatever their values look like. -/
theorem getAllTlv_fieldsBytes {fs : List Field} (hne : fs ≠ [])
    (htag : ∀ f ∈ fs, f.1 ≠ .UNDEFINED) {data : Buffer P} (hdata : data.bytes = fieldsBytes P fs) :
    (getAllTlv stray (some data)).val = .returned (some (insertFields ∅ fs)) := by
  have hmax := P.two_mul_maxSize
  have hsize : fieldsSize P fs ≤ P.maxSize := by
    rw [fieldsSize, ← hdata]
    exact data.size_le
  obtain ⟨rs, hvalid, hframes, hinsert⟩ := exists_records P
    (fun f hf => (length_le_fieldsSize P hf).trans_lt (by omega)) htag
  have hbytes : data.bytes ≠ [] := by
    obtain ⟨f, fs, rfl⟩ := List.exists_cons_of_ne_nil hne
    simp [hdata, fieldBytes]
  rw [← hinsert]
  exact (getAllTlv_frames stray hvalid (hdata.trans hframes.symm) hbytes).2

/-- Writing `fs` from the start of `buffer` on stays inside it and ends at its end, with
nothing but the records of `fs` in it, and the parser reads the last field of each tag from
what was written. -/
structure ReadsBack (fs : List Field) (buffer : Bytes) : Prop where
  inBounds : (addTags P fs ⟨buffer, 0⟩).InBounds
  pos : (addTags P fs ⟨buffer, 0⟩).val.pos = buffer.length
  length : (addTags P fs ⟨buffer, 0⟩).val.buffer.length = buffer.length
  bytes : (addTags P fs ⟨buffer, 0⟩).val.buffer = fieldsBytes P fs
  parses : ∀ data : Buffer P, data.bytes = (addTags P fs ⟨buffer, 0⟩).val.buffer →
    ∃ umap, (getAllTlv stray (some data)).val = .returned (some umap) ∧ HoldsLast fs umap

/-- Records of any tags and values, written into a buffer of the accumulated size, are read
back. -/
theorem readsBack {fs : List Field} (hne : fs ≠ []) (htag : ∀ f ∈ fs, f.1 ≠ .UNDEFINED)
    (hfit : fieldsSize P fs < P.sizeMod) {buffer : Bytes}
    (hsize : buffer.length = accumulateSize P fs) : ReadsBack P stray fs buffer := by
  rw [accumulateSize_eq P hfit] at hsize
  have hcount : ([] ++ (buffer ++ [])).length < P.sizeMod := by simpa [hsize] using hfit
  obtain ⟨hbounds, hval⟩ := addTags_spec P fs [] [] hsize hcount
  simp only [List.nil_append, List.append_nil, List.length_nil] at hbounds hval
  refine ⟨hbounds, by rw [hval, hsize, fieldsSize], by rw [hval, hsize, fieldsSize], by rw [hval],
    fun data hdata => ⟨insertFields ∅ fs, ?_, holdsLast_insertFields fs⟩⟩
  rw [hval] at hdata
  exact getAllTlv_fieldsBytes P stray hne htag hdata

/-- Two records with one tag, and an empty value between them. -/
def repeatedFields : List Field :=
  [(.TOKEN, [5, 0]), (.HINT, []), (.TOKEN, [6])]

theorem readsBack_repeatedFields :
    ReadsBack ⟨.eight, .little⟩ zeroStray repeatedFields (List.replicate 30 170) :=
  readsBack _ _ (by decide) (by decide) (by decide) (by decide)

end UpClientZenoh
