import UpClientZenoh.HeaderParsing

/-!
# Wire format

A header built on one machine and parsed on another. The length fields and the four-byte
values are memory images of the sender, and the parser reads them as its own.

`parsesAlike_iff` : the headers without sink of a sender are parsed alike on a receiver if
and only if the two have a `size_t` of one size and one byte order. Otherwise the parser
takes the first length field for another number, and a short header stops early
(`stopsEarly_of_foreign`).
-/

open NativeBytes MemoryAccess Framing

namespace UpClientZenoh

open MessageBuilder MessageParser ZenohUTransport

variable {UUID UUri : Type} {P Q : Platform} {X : Externals UUID UUri} {stray : Stray}

/-! ## Streams that stop early -/

/-- After complete records there is an invalid tag, or a value longer than what remains. -/
def StopsEarly (Q : Platform) (bytes : Bytes) : Prop :=
  ∃ (rs : List (Record Q.sizeT)) (t : UInt8) (tail : Bytes),
    bytes = frames Q.order rs ++ t :: tail ∧
    (¬ValidTag t ∨ ∃ len rest : Bytes, tail = len ++ rest ∧ len.length = Q.sizeT ∧
      rest.length < Q.order.value len)

/-- Such a stream is no stream of records. -/
theorem StopsEarly.not_isRecordStream {received : Buffer Q} (h : StopsEarly Q received.bytes) :
    ¬IsRecordStream received := by
  obtain ⟨rs, t, tail, hbytes, htail⟩ := h
  by_cases ht : ValidTag t
  · obtain ⟨len, rest, rfl, hlen, hshort⟩ := htail.resolve_left (not_not.2 ht)
    exact MessageParser.not_isRecordStream hbytes (.shortValue t len rest ht hlen hshort)
  · exact MessageParser.not_isRecordStream hbytes (.badTag t tail ht)

/-- A stream whose first value is longer than the rest. -/
theorem stopsEarly_of_first {len rest : Bytes} (hlen : len.length = Q.sizeT)
    (hshort : rest.length < Q.order.value len) (t : UInt8) :
    StopsEarly Q (t :: (len ++ rest)) :=
  ⟨[], t, len ++ rest, rfl, Or.inr ⟨len, rest, rfl, hlen, hshort⟩⟩

/-- An `ID` record and a value longer than the rest. -/
theorem stopsEarly_of_second {lenID value len rest : Bytes} {t : UInt8}
    (hfits : value.length < 256 ^ Q.sizeT) (hlenID : lenID = Q.order.image Q.sizeT value.length)
    (hlen : len.length = Q.sizeT) (hshort : rest.length < Q.order.value len) :
    StopsEarly Q (Tag.ID.byte :: (lenID ++ (value ++ t :: (len ++ rest)))) := by
  refine ⟨[⟨Tag.ID.byte, value, hfits⟩], t, len ++ rest, ?_,
    Or.inr ⟨len, rest, rfl, hlen, hshort⟩⟩
  simp [frame, hlenID]

/-! ## Foreign headers -/

/-- The start of a header : the identifier, the type, and the length of the priority. -/
def headerStart (P : Platform) (id type rest : Bytes) : Bytes :=
  Tag.ID.byte :: (P.order.image P.sizeT 16 ++ (id ++ Tag.TYPE.byte :: (P.order.image P.sizeT 4 ++
    (type ++ Tag.PRIORITY.byte :: (P.order.image P.sizeT 4 ++ rest)))))

/-- A length of sixteen in four bytes, read with the four bytes behind it, is small in
little-endian order only, and then these are zero. -/
theorem littleValue_eq_zero_of_wider {o o' : ByteOrder} {bs : Bytes} (hbs : bs.length = 4) {n : ℕ}
    (hn : n < 10000) (h : o'.value (o.image 4 16 ++ bs) ≤ n) :
    o = .little ∧ o' = .little ∧ littleValue bs = 0 := by
  have hlittle : ByteOrder.little.value (ByteOrder.big.image 4 16) = 268435456 := rfl
  have hbig : ByteOrder.big.value (ByteOrder.little.image 4 16) = 268435456 := rfl
  have hsame : ByteOrder.big.value (ByteOrder.big.image 4 16) = 16 := rfl
  have hlow : ByteOrder.little.value (ByteOrder.little.image 4 16) = 16 := rfl
  rcases o with _ | _ <;> rcases o' with _ | _ <;>
    simp only [ByteOrder.little_value_append, ByteOrder.big_value_append, hlittle, hbig, hsame,
      hlow, hbs, ByteOrder.length_image] at h
  · refine ⟨rfl, rfl, ?_⟩
    change 16 + 256 ^ 4 * littleValue bs ≤ n at h
    omega
  all_goals omega

section Foreign

variable {id type rest : Bytes} (hid : id.length = 16) (htype : type.length = 4)
  (hshort : rest.length ≤ 4000)

include hid htype hshort

/-- In the other byte order the first length is out of all proportion. -/
theorem stopsEarly_of_order_ne (hwidth : P.width = Q.width) (horder : P.order ≠ Q.order) :
    StopsEarly Q (headerStart P id type rest) := by
  have hsize : P.sizeT = Q.sizeT := by
    rw [Platform.sizeT, hwidth, Platform.sizeT]
  have hw := P.sizeT_bounds
  have hvalue : 10000 < Q.order.value (P.order.image P.sizeT 16) := by
    rcases P with ⟨_ | _, _ | _⟩ <;> rcases Q with ⟨_ | _, _ | _⟩ <;> first
      | exact absurd rfl horder
      | decide
  have htail : (id ++ Tag.TYPE.byte :: (P.order.image P.sizeT 4 ++ (type ++
      Tag.PRIORITY.byte :: (P.order.image P.sizeT 4 ++ rest)))).length < 10000 := by
    simp [hid, htype]
    omega
  exact stopsEarly_of_first (by simp [hsize]) (htail.trans hvalue) _

/-- A wider length field takes in the first bytes of the identifier. Where they are zero in
little-endian order, the next one takes in the tag of the priority. -/
theorem stopsEarly_of_wider (o o' : ByteOrder) :
    StopsEarly ⟨.eight, o'⟩ (headerStart ⟨.four, o⟩ id type rest) := by
  obtain ⟨id₁, id₂, rfl, hid₁, hid₂⟩ : ∃ id₁ id₂ : Bytes, id = id₁ ++ id₂ ∧ id₁.length = 4 ∧
      id₂.length = 12 :=
    ⟨id.take 4, id.drop 4, (List.take_append_drop 4 id).symm, by simp [hid], by simp [hid]⟩
  let tail : Bytes := id₂ ++ Tag.TYPE.byte :: (o.image 4 4 ++ (type ++ Tag.PRIORITY.byte ::
    (o.image 4 4 ++ rest)))
  have hsplit : headerStart ⟨.four, o⟩ (id₁ ++ id₂) type rest =
      Tag.ID.byte :: ((o.image 4 16 ++ id₁) ++ tail) := by
    simp [headerStart, tail, Platform.sizeT]
  have htail : tail.length < 10000 := by
    simp [tail, hid₂, htype]
    omega
  have hlen : (o.image 4 16 ++ id₁).length = (⟨.eight, o'⟩ : Platform).sizeT := by
    simp [hid₁, Platform.sizeT]
  by_cases hlong : tail.length < o'.value (o.image 4 16 ++ id₁)
  · rw [hsplit]
    exact stopsEarly_of_first hlen hlong _
  obtain ⟨rfl, rfl, hzero⟩ := littleValue_eq_zero_of_wider hid₁ htail (Nat.le_of_not_lt hlong)
  obtain rfl : id₁ = [0, 0, 0, 0] := by
    rw [← littleImage_littleValue id₁, hid₁, hzero]
    rfl
  have hvalue : littleValue (type ++ [3, 4, 0, 0]) = littleValue type + 256 ^ 4 * 1027 := by
    rw [littleValue_append, htype]
    rfl
  have hbytes : headerStart ⟨.four, .little⟩ ([0, 0, 0, 0] ++ id₂) type rest =
      Tag.ID.byte :: ([16, 0, 0, 0, 0, 0, 0, 0] ++ ((id₂ ++ [2, 4, 0, 0]) ++
        0 :: ((type ++ [3, 4, 0, 0]) ++ 0 :: rest))) := by
    have h16 : ByteOrder.little.image 4 16 = [16, 0, 0, 0] := rfl
    have h4 : ByteOrder.little.image 4 4 = [4, 0, 0, 0] := rfl
    simp [headerStart, Platform.sizeT, h16, h4, Tag.byte, Tag.val]
  rw [hbytes]
  refine stopsEarly_of_second (by simp [hid₂, Platform.sizeT]) ?_
    (by simp [htype, Platform.sizeT]) ?_
  · rw [List.length_append, hid₂]
    rfl
  · change (0 :: rest).length < littleValue (type ++ [3, 4, 0, 0])
    rw [hvalue, List.length_cons]
    omega

/-- A narrower length field in little-endian order leaves the high half of the length to the
identifier. The next one takes in the tag of the priority. -/
theorem stopsEarly_of_narrower_little :
    StopsEarly ⟨.four, .little⟩ (headerStart ⟨.eight, .little⟩ id type rest) := by
  have h16 : ByteOrder.little.image 8 16 = [16, 0, 0, 0] ++ [0, 0, 0, 0] := rfl
  have h4 : ByteOrder.little.image 8 4 = [4, 0, 0, 0, 0, 0, 0, 0] := rfl
  obtain ⟨id₁, t, id₃, rfl, hid₁, hid₃⟩ : ∃ (id₁ : Bytes) (t : UInt8) (id₃ : Bytes),
      id = id₁ ++ t :: id₃ ∧ id₁.length = 12 ∧ id₃.length = 3 := by
    have hlt : 12 < id.length := by omega
    refine ⟨id.take 12, id[12], id.drop 13, ?_, by simp [hid], by simp [hid]⟩
    rw [← List.drop_eq_getElem_cons hlt, List.take_append_drop]
  have hbytes : headerStart ⟨.eight, .little⟩ (id₁ ++ t :: id₃) type rest =
      Tag.ID.byte :: ([16, 0, 0, 0] ++ (([0, 0, 0, 0] ++ id₁) ++ t :: ((id₃ ++ [2]) ++
        ([4, 0, 0, 0, 0, 0, 0, 0] ++ (type ++ Tag.PRIORITY.byte ::
          ([4, 0, 0, 0, 0, 0, 0, 0] ++ rest)))))) := by
    simp [headerStart, Platform.sizeT, h16, h4, Tag.byte, Tag.val]
  have hvalue : littleValue (id₃ ++ [2]) = littleValue id₃ + 256 ^ 3 * 2 := by
    rw [littleValue_append, hid₃]
    rfl
  rw [hbytes]
  refine stopsEarly_of_second (by simp [hid₁, Platform.sizeT]) ?_
    (by simp [hid₃, Platform.sizeT]) ?_
  · rw [List.length_append, hid₁]
    rfl
  · change _ < littleValue (id₃ ++ [2])
    rw [hvalue]
    simp [htype]
    omega

/-- In big-endian order the low half of a little-endian length is out of all proportion. -/
theorem stopsEarly_of_narrower_swapped :
    StopsEarly ⟨.four, .big⟩ (headerStart ⟨.eight, .little⟩ id type rest) := by
  have h16 : ByteOrder.little.image 8 16 = [16, 0, 0, 0] ++ [0, 0, 0, 0] := rfl
  have h4 : ByteOrder.little.image 8 4 = [4, 0, 0, 0, 0, 0, 0, 0] := rfl
  have hbytes : headerStart ⟨.eight, .little⟩ id type rest =
      Tag.ID.byte :: ([16, 0, 0, 0] ++ ([0, 0, 0, 0] ++ (id ++ Tag.TYPE.byte ::
        ([4, 0, 0, 0, 0, 0, 0, 0] ++ (type ++ Tag.PRIORITY.byte ::
          ([4, 0, 0, 0, 0, 0, 0, 0] ++ rest)))))) := by
    simp [headerStart, Platform.sizeT, h16, h4]
  have hvalue : ByteOrder.big.value [16, 0, 0, 0] = 268435456 := rfl
  rw [hbytes]
  refine stopsEarly_of_first rfl ?_ _
  change _ < ByteOrder.big.value [16, 0, 0, 0]
  rw [hvalue]
  simp [hid, htype]
  omega

/-- The high half of a big-endian length is zero, and so is the tag behind the empty value. -/
theorem stopsEarly_of_narrower_big (o' : ByteOrder) :
    StopsEarly ⟨.four, o'⟩ (headerStart ⟨.eight, .big⟩ id type rest) := by
  have h16 : ByteOrder.big.image 8 16 = [0, 0, 0, 0, 0, 0, 0, 16] := rfl
  have h4 : ByteOrder.big.image 8 4 = [0, 0, 0, 0, 0, 0, 0, 4] := rfl
  obtain ⟨b, id', rfl⟩ := List.exists_cons_of_length_eq_add_one hid
  have hbytes : headerStart ⟨.eight, .big⟩ (b :: id') type rest =
      Tag.ID.byte :: ([0, 0, 0, 0] ++ ([] ++ 0 :: ([0, 0, 16, b] ++ (id' ++ Tag.TYPE.byte ::
        ([0, 0, 0, 0, 0, 0, 0, 4] ++ (type ++ Tag.PRIORITY.byte ::
          ([0, 0, 0, 0, 0, 0, 0, 4] ++ rest))))))) := by
    simp [headerStart, Platform.sizeT, h16, h4]
  have hvalue : 4096 ≤ o'.value [0, 0, 16, b] := by
    rcases o' with _ | _ <;> simp [ByteOrder.value, littleValue]
    omega
  have hid' : id'.length = 15 := by simpa using hid
  rw [hbytes]
  refine stopsEarly_of_second (by simp [Platform.sizeT]) ?_ rfl (lt_of_lt_of_le ?_ hvalue)
  · rcases o' with _ | _ <;> rfl
  · simp [hid', htype]
    omega

theorem stopsEarly_of_narrower (o o' : ByteOrder) :
    StopsEarly ⟨.four, o'⟩ (headerStart ⟨.eight, o⟩ id type rest) := by
  rcases o with _ | _
  · rcases o' with _ | _
    · exact stopsEarly_of_narrower_little hid htype hshort
    · exact stopsEarly_of_narrower_swapped hid htype hshort
  · exact stopsEarly_of_narrower_big hid htype hshort o'

/-- A short header of another machine stops early. -/
theorem stopsEarly_of_foreign (hne : P ≠ Q) : StopsEarly Q (headerStart P id type rest) := by
  by_cases hwidth : P.width = Q.width
  · refine stopsEarly_of_order_ne hid htype hshort hwidth fun horder => hne ?_
    rcases P with ⟨_, _⟩
    rcases Q with ⟨_, _⟩
    rw [Platform.mk.injEq]
    exact ⟨hwidth, horder⟩
  · rcases P with ⟨_ | _, o⟩ <;> rcases Q with ⟨_ | _, o'⟩
    · exact absurd rfl hwidth
    · exact stopsEarly_of_wider hid htype hshort o o'
    · exact stopsEarly_of_narrower hid htype hshort o o'
    · exact absurd rfl hwidth

end Foreign

/-! ## Two machines -/

/-- A header built on `P` gives the same on `Q` as on `P` itself. -/
def ParsesAlike (P Q : Platform) (X : Externals UUID UUri) (a : UAttributes UUID UUri) : Prop :=
  ∀ (stray stray' : Stray) (sent : Buffer P) (received : Buffer Q),
    (buildHeader P X a).val = .returned sent.bytes → received.bytes = sent.bytes →
    parseHeader Q X stray' received = parseHeader P X stray sent

/-- On its own machine a header without sink is decoded, whatever else is in memory. -/
theorem parseHeader_own (hinv : ∀ id, X.deserializeFromBytes (X.serializeToBytes id) = id)
    (hlen : ∀ id, (X.serializeToBytes id).length = 16) (a : StoredAttributes P X)
    (hsink : a.sink = none) {sent : Buffer P}
    (hbuild : (buildHeader P X a.toUAttributes).val = .returned sent.bytes) :
    parseHeader P X stray sent = .returned (some (decoded P X a.toUAttributes)) := by
  have hlt := a.fieldsSize_lt hlen
  have hpadding : sinkPadding P X a.toUAttributes = 0 := by
    rw [sinkPadding, hsink]
  have hbytes := (buildHeader_returned P X (by rwa [hpadding]) hbuild).2
  rw [hpadding, List.replicate_zero, List.append_nil] at hbytes
  obtain ⟨-, hsized⟩ := fieldsSized_headerFields P X hlen a.toUAttributes
  rcases parseHeader_fieldsBytes X stray (headerFields_tag_ne P X a.toUAttributes) hbytes with
    ⟨-, h⟩ | ⟨hnot, -⟩
  · rw [h, getAttributes_headerFields P X stray hinv hlen]
  · exact absurd (Or.inr hsized.readable) hnot

/-- On another machine a short header is not decoded. -/
theorem parseHeader_foreign (hne : P ≠ Q) {id type rest : Bytes} (hid : id.length = 16)
    (htype : type.length = 4) (hshort : rest.length ≤ 4000) {received : Buffer Q}
    (hbytes : received.bytes = headerStart P id type rest) (a : UAttributes UUID UUri) :
    parseHeader Q X stray received ≠ .returned (some a) := by
  have hstops := stopsEarly_of_foreign hid htype hshort hne
  rw [← hbytes] at hstops
  intro hparse
  obtain ⟨rs, hrs, hframes, -⟩ := (parseHeader_eq_some_iff X stray received a).1 hparse
  exact hstops.not_isRecordStream ⟨rs, hrs, hframes⟩

variable (X) in
/-- The attributes with no optional field. -/
def plainAttributes (P : Platform) (id : UUID) : StoredAttributes P X where
  toUAttributes := .builder id 0 0
  token_le := by simp [UAttributes.builder]
  sink_le := by simp [UAttributes.builder]

theorem not_parsesAlike_plain (hne : P ≠ Q)
    (hinv : ∀ id, X.deserializeFromBytes (X.serializeToBytes id) = id)
    (hlen : ∀ id, (X.serializeToBytes id).length = 16) (id : UUID) :
    ¬ParsesAlike P Q X (plainAttributes X P id).toUAttributes := by
  intro h
  let a := plainAttributes X P id
  have hw := P.sizeT_bounds
  have hsize : fieldsSize P (headerFields P X a.toUAttributes) ≤ 100 := by
    simp [headerFields, a, plainAttributes, UAttributes.builder, fieldIfSet, hlen]
    omega
  have hbuild := (buildHeader_eq P X a.toUAttributes
    ((Nat.add_le_add_right hsize 0).trans (le_trans (by decide) P.le_maxSize))).2
  let sent : Buffer P := ⟨fieldsBytes P (headerFields P X a.toUAttributes),
    hsize.trans (le_trans (by decide) P.le_maxSize)⟩
  let received : Buffer Q := ⟨sent.bytes, hsize.trans (le_trans (by decide) Q.le_maxSize)⟩
  have hsent : (buildHeader P X a.toUAttributes).val = .returned sent.bytes :=
    hbuild.trans (congrArg _ (List.append_nil _))
  have hown : parseHeader P X zeroStray sent = .returned (some (decoded P X a.toUAttributes)) :=
    parseHeader_own hinv hlen a rfl hsent
  have hstart : received.bytes = headerStart P (X.serializeToBytes id) (P.image32 0)
      (P.image32 0) := by
    simp [received, sent, headerFields, a, plainAttributes, UAttributes.builder, fieldIfSet,
      fieldBytes, headerStart, hlen]
  have hforeign : parseHeader Q X zeroStray received ≠
      .returned (some (decoded P X a.toUAttributes)) :=
    parseHeader_foreign hne (hlen id) (P.length_image32 0)
      ((P.length_image32 0).le.trans (by decide)) hstart _
  exact hforeign ((h zeroStray zeroStray sent received hsent rfl).trans hown)

/-- The headers without sink of a sender are parsed alike on a receiver if and only if the
two have a `size_t` of one size and one byte order. -/
theorem parsesAlike_iff [Nonempty UUID]
    (hinv : ∀ id, X.deserializeFromBytes (X.serializeToBytes id) = id)
    (hlen : ∀ id, (X.serializeToBytes id).length = 16) (P Q : Platform) :
    (∀ a : StoredAttributes P X, a.sink = none → ParsesAlike P Q X a.toUAttributes) ↔
      P.width = Q.width ∧ P.order = Q.order := by
  constructor
  · intro hall
    obtain rfl : P = Q := by
      by_contra hne
      obtain ⟨id⟩ := ‹Nonempty UUID›
      exact not_parsesAlike_plain hne hinv hlen id (hall (plainAttributes X P id) rfl)
    exact ⟨rfl, rfl⟩
  · rintro ⟨hwidth, horder⟩ a hsink stray stray' sent received hbuild hbytes
    obtain rfl : P = Q := by
      rcases P with ⟨_, _⟩
      rcases Q with ⟨_, _⟩
      rw [Platform.mk.injEq]
      exact ⟨hwidth, horder⟩
    rw [parseHeader_own hinv hlen a hsink hbuild,
      parseHeader_own hinv hlen a hsink (hbuild.trans (congrArg _ hbytes.symm))]

theorem parsesAlike_iff_eight_four :
    (∀ a : StoredAttributes ⟨.eight, .little⟩ .sample, a.sink = none →
      ParsesAlike ⟨.eight, .little⟩ ⟨.four, .little⟩ .sample a.toUAttributes) ↔
      SizeWidth.eight = SizeWidth.four ∧ ByteOrder.little = ByteOrder.little :=
  parsesAlike_iff Externals.sample_deserialize_serialize (fun _ => by simp [Externals.sample])
    ⟨.eight, .little⟩ ⟨.four, .little⟩

/-- A machine with a four-byte `size_t` makes nothing of the header of one with eight. -/
theorem not_parsesAlike_eight_four :
    ¬ParsesAlike ⟨.eight, .little⟩ ⟨.four, .little⟩ .sample
      (plainAttributes .sample ⟨.eight, .little⟩ (0, 0)).toUAttributes :=
  not_parsesAlike_plain (by decide) Externals.sample_deserialize_serialize
    (fun _ => by simp [Externals.sample]) (0, 0)

end UpClientZenoh
