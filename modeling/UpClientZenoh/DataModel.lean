import UpClientZenoh.NativeBytes
import Mathlib.Data.List.AList
import Mathlib.Data.List.Infix

/-!
# Data model

The values the library passes around, and what it takes from elsewhere.

`Platform` is what the raw memory images depend on : the size of `size_t` and the byte
order. `Externals` collects the up-cpp functions, the up-cpp enumerators, and
`std::hash`, none of which this library defines. A `std::string` and a
`std::vector<uint8_t>` are byte lists. Enums and `int32_t` values are four bytes, kept as
a `UInt32` bit pattern, since the parser can put any pattern in them. An `unordered_map`
is an `AList` : finite, one value per key.
-/

open NativeBytes

namespace UpClientZenoh

/-! ## Machine -/

/-- The size of `size_t`. -/
inductive SizeWidth
  | four
  | eight
  deriving DecidableEq, Repr

/-- What a memory image depends on. -/
structure Platform where
  width : SizeWidth
  order : ByteOrder
  deriving DecidableEq, Repr

namespace Platform

variable (P : Platform)

/-- `sizeof(size_t)`. -/
def sizeT : ℕ :=
  match P.width with
  | .four => 4
  | .eight => 8

/-- The values of `size_t` are the naturals below this. -/
def sizeMod : ℕ :=
  256 ^ P.sizeT

/-- `PTRDIFF_MAX`, the most bytes an object or a `std::vector<uint8_t>` can have. -/
def maxSize : ℕ :=
  P.sizeMod / 2 - 1

/-- Addition of `size_t` values. -/
def add (a b : ℕ) : ℕ :=
  (a + b) % P.sizeMod

theorem sizeT_bounds : 4 ≤ P.sizeT ∧ P.sizeT ≤ 8 := by
  unfold sizeT
  split <;> omega

theorem two_mul_maxSize : 2 * P.maxSize + 2 = P.sizeMod := by
  unfold maxSize sizeMod sizeT
  split <;> norm_num

/-- Small constants fit in an object on every platform. -/
theorem le_maxSize : 1000 ≤ P.maxSize := by
  unfold maxSize sizeMod sizeT
  split <;> norm_num

theorem add_eq_of_lt {a b : ℕ} (h : a + b < P.sizeMod) : P.add a b = a + b :=
  Nat.mod_eq_of_lt h

theorem add_eq {a b : ℕ} (h : a + b ≤ 2 * P.maxSize) : P.add a b = a + b := by
  have := P.two_mul_maxSize
  exact P.add_eq_of_lt (by omega)

/-- The memory image of a four-byte value. -/
def image32 (v : UInt32) : List UInt8 :=
  P.order.image 4 v.toNat

/-- The four-byte value a memory image holds. -/
def value32 (bs : List UInt8) : UInt32 :=
  UInt32.ofNat (P.order.value bs)

@[simp] theorem length_image32 (v : UInt32) : (P.image32 v).length = 4 := by
  simp [image32]

@[simp] theorem value32_image32 (v : UInt32) : P.value32 (P.image32 v) = v := by
  have hv : v.toNat < 256 ^ 4 := v.toNat_lt
  simp [value32, image32, P.order.value_image hv]

theorem image32_value32 {bs : List UInt8} (h : bs.length = 4) : P.image32 (P.value32 bs) = bs := by
  have hlt : P.order.value bs < 2 ^ 32 := P.order.value_lt h
  rw [image32, value32, UInt32.toNat_ofNat_of_lt' hlt, P.order.image_value h]

theorem value32_inj {bs cs : List UInt8} (hbs : bs.length = 4) (hcs : cs.length = 4)
    (h : P.value32 bs = P.value32 cs) : bs = cs := by
  rw [← P.image32_value32 hbs, ← P.image32_value32 hcs, h]

end Platform

/-- How a call ends. -/
inductive Exit (α : Type*) where
  /-- The call returns. -/
  | returned (result : α)
  /-- An exception meets a `noexcept` boundary, and the process is terminated. -/
  | terminated
  /-- An exception leaves a function that is not `noexcept`. -/
  | threw
  /-- The call did what C++ leaves undefined : an access outside an object, an index past the
  end of a vector, or a second `delete`. -/
  | undefined
  /-- A loop of the model ran out of fuel. -/
  | unfinished
  deriving DecidableEq, Repr

/-- The same end with another result. -/
def Exit.map {α β : Type*} (f : α → β) : Exit α → Exit β
  | returned result => returned (f result)
  | terminated => terminated
  | threw => threw
  | undefined => undefined
  | unfinished => unfinished

theorem Exit.map_eq_returned {α β : Type*} {f : α → β} {exit : Exit α} {b : β} :
    exit.map f = returned b ↔ ∃ a, exit = returned a ∧ f a = b := by
  cases exit <;> simp [map]

/-- The bytes of a `std::string` or a `std::vector<uint8_t>`. -/
abbrev Bytes := List UInt8

/-! ## Messages -/

/-- The kind of a header field. -/
inductive Tag
  | UURI
  | ID
  | TYPE
  | PRIORITY
  | TTL
  | TOKEN
  | HINT
  | SINK
  | PLEVEL
  | COMMSTATUS
  | REQID
  | PAYLOAD
  | UNDEFINED
  deriving DecidableEq, Repr

namespace Tag

/-- The enumerator's value. -/
def val : Tag → ℕ
  | UURI => 0
  | ID => 1
  | TYPE => 2
  | PRIORITY => 3
  | TTL => 4
  | TOKEN => 5
  | HINT => 6
  | SINK => 7
  | PLEVEL => 8
  | COMMSTATUS => 9
  | REQID => 10
  | PAYLOAD => 11
  | UNDEFINED => 12

/-- `static_cast<uint8_t>(tag)`. -/
def byte (t : Tag) : UInt8 :=
  UInt8.ofNat t.val

/-- `static_cast<Tag>(b)`. Bytes that are no enumerator's value count as `UNDEFINED` : the
cast keeps them apart, and every use treats them alike. -/
def ofByte (b : UInt8) : Tag :=
  [UURI, ID, TYPE, PRIORITY, TTL, TOKEN, HINT, SINK, PLEVEL, COMMSTATUS, REQID, PAYLOAD].getD
    b.toNat UNDEFINED

@[simp] theorem ofByte_byte (t : Tag) : ofByte t.byte = t := by
  cases t <;> rfl

end Tag

/-- One parsed header field. -/
@[ext]
structure TLV where
  type : Tag
  length : ℕ
  value : Bytes
  deriving DecidableEq, Repr

/-- The fields of a header by tag. -/
abbrev TlvMap := AList fun _ : Tag => TLV

/-- The status codes this library returns or compares with. -/
inductive UCode
  | OK
  | INVALID_ARGUMENT
  | INTERNAL
  | UNAVAILABLE
  deriving DecidableEq, Repr

/-- A payload : the bytes `data()` points to, `none` when it is null. -/
structure UPayload where
  data : Option Bytes
  deriving DecidableEq, Repr

/-- `payload.size()`. -/
def UPayload.size (payload : UPayload) : ℕ :=
  (payload.data.getD []).length

/-- The attributes of a message. -/
@[ext]
structure UAttributes (UUID UUri : Type) where
  id : UUID
  type : UInt32
  priority : UInt32
  ttl : Option UInt32
  token : Option Bytes
  serializationHint : Option UInt32
  sink : Option UUri
  plevel : Option UInt32
  commstatus : Option UInt32
  reqid : Option UUID
  deriving DecidableEq

namespace UAttributes

variable {UUID UUri : Type}

/-- `UAttributesBuilder(id, type, priority)`, every optional field unset. -/
def builder (id : UUID) (type priority : UInt32) : UAttributes UUID UUri where
  id := id
  type := type
  priority := priority
  ttl := none
  token := none
  serializationHint := none
  sink := none
  plevel := none
  commstatus := none
  reqid := none

def withTtl (a : UAttributes UUID UUri) (ttl : UInt32) : UAttributes UUID UUri :=
  { a with ttl := some ttl }

def withPermissionLevel (a : UAttributes UUID UUri) (plevel : UInt32) : UAttributes UUID UUri :=
  { a with plevel := some plevel }

def withCommStatus (a : UAttributes UUID UUri) (commstatus : UInt32) : UAttributes UUID UUri :=
  { a with commstatus := some commstatus }

end UAttributes

/-! ## What is defined elsewhere -/

/-- The functions and enumerators the library takes from up-cpp, and `std::hash`. -/
structure Externals (UUID UUri : Type) where
  /-- `UuidSerializer::serializeToBytes`. -/
  serializeToBytes : UUID → Bytes
  /-- `UuidSerializer::deserializeFromBytes`. -/
  deserializeFromBytes : Bytes → UUID
  /-- `UuidSerializer::serializeToString`. -/
  serializeToString : UUID → Bytes
  /-- `LongUriSerializer::serialize`. -/
  serializeUri : UUri → Bytes
  /-- `Base64::encode`. -/
  base64Encode : Bytes → Bytes
  /-- `isRPCMethod(uri.resource())`. -/
  isRPCMethod : UUri → Bool
  /-- `std::hash<std::string>`. -/
  hash : Bytes → ℕ
  /-- `UMessageTypeToString`. -/
  messageTypeToString : UInt32 → Option Bytes
  /-- Enumerators of `UMessageType`. -/
  PUBLISH : UInt32
  REQUEST : UInt32
  RESPONSE : UInt32
  /-- Enumerators of `USerializationHint`. -/
  PROTOBUF : UInt32
  JSON : UInt32
  SOMEIP : UInt32
  RAW : UInt32

/-- `std::hash<std::string>{}(LongUriSerializer::serialize(uri))`. -/
def Externals.uriHash {UUID UUri : Type} (X : Externals UUID UUri) (uri : UUri) : ℕ :=
  X.hash (X.serializeUri uri)

/-- The digit of base64 for a number below 64. -/
def base64Digit (n : ℕ) : UInt8 :=
  if n < 26 then .ofNat (n + 65)
  else if n < 52 then .ofNat (n + 71)
  else if n < 62 then .ofNat (n - 4)
  else if n = 62 then 43
  else 47

/-- Base64 : four digits for three bytes, with `=` for the digits that the last bytes do not
reach. -/
def base64 : Bytes → Bytes
  | [] => []
  | [a] => [base64Digit (a.toNat / 4), base64Digit (a.toNat % 4 * 16), 61, 61]
  | [a, b] => [base64Digit (a.toNat / 4), base64Digit (a.toNat % 4 * 16 + b.toNat / 16),
      base64Digit (b.toNat % 16 * 4), 61]
  | a :: b :: c :: bs => base64Digit (a.toNat / 4) ::
      base64Digit (a.toNat % 4 * 16 + b.toNat / 16) ::
      base64Digit (b.toNat % 16 * 4 + c.toNat / 64) :: base64Digit (c.toNat % 64) :: base64 bs

/-- A concrete choice, for runs on fixed inputs : a UUID is two 64-bit halves, a URI its
long form, a URI with an `/rpc.` segment names a method, and no two strings have the same
hash. -/
def Externals.sample : Externals (UInt64 × UInt64) Bytes where
  serializeToBytes id := ByteOrder.big.image 8 id.1.toNat ++ ByteOrder.big.image 8 id.2.toNat
  deserializeFromBytes bs :=
    (UInt64.ofNat (ByteOrder.big.value (bs.take 8)), UInt64.ofNat (ByteOrder.big.value (bs.drop 8)))
  serializeToString id := ByteOrder.big.image 8 id.1.toNat ++ ByteOrder.big.image 8 id.2.toNat
  serializeUri uri := uri
  base64Encode := base64
  isRPCMethod uri := decide ([47, 114, 112, 99, 46] <:+: uri)
  hash bs := ByteOrder.little.value (bs ++ [1])
  messageTypeToString type := if type ≤ 3 then some [type.toUInt8] else none
  PUBLISH := 1
  REQUEST := 2
  RESPONSE := 3
  PROTOBUF := 1
  JSON := 2
  SOMEIP := 3
  RAW := 4

theorem Externals.sample_deserialize_serialize (id : UInt64 × UInt64) :
    sample.deserializeFromBytes (sample.serializeToBytes id) = id := by
  have h1 : id.1.toNat < 256 ^ 8 := id.1.toNat_lt
  have h2 : id.2.toNat < 256 ^ 8 := id.2.toNat_lt
  have htake : (ByteOrder.big.image 8 id.1.toNat ++ ByteOrder.big.image 8 id.2.toNat).take 8 =
      ByteOrder.big.image 8 id.1.toNat := List.take_left' (by simp)
  have hdrop : (ByteOrder.big.image 8 id.1.toNat ++ ByteOrder.big.image 8 id.2.toNat).drop 8 =
      ByteOrder.big.image 8 id.2.toNat := List.drop_left' (by simp)
  simp only [sample, htake, hdrop, ByteOrder.value_image _ h1, ByteOrder.value_image _ h2,
    UInt64.ofNat_toNat]

theorem littleValue_append_one_pos (bs : List UInt8) : 0 < littleValue (bs ++ [1]) := by
  induction bs with
  | nil => decide
  | cons b bs ih =>
    rw [List.cons_append, littleValue]
    omega

theorem littleValue_append_one_inj :
    ∀ {bs cs : List UInt8}, littleValue (bs ++ [1]) = littleValue (cs ++ [1]) → bs = cs
  | [], [], _ => rfl
  | [], c :: cs, h => by
    have hpos := littleValue_append_one_pos cs
    have hone : littleValue [1] = 1 := rfl
    simp only [List.nil_append, List.cons_append, littleValue] at h hone
    omega
  | b :: bs, [], h => by
    have hpos := littleValue_append_one_pos bs
    have hone : littleValue [1] = 1 := rfl
    simp only [List.nil_append, List.cons_append, littleValue] at h hone
    omega
  | b :: bs, c :: cs, h => by
    have hb : b.toNat < 256 := b.toNat_lt
    have hc : c.toNat < 256 := c.toNat_lt
    simp only [List.cons_append, littleValue] at h
    obtain rfl : b = c := UInt8.toNat_inj.1 (by omega)
    rw [littleValue_append_one_inj (by omega : littleValue (bs ++ [1]) = littleValue (cs ++ [1]))]

theorem Externals.sample_uriHash_injective : Function.Injective sample.uriHash :=
  fun _ _ h => littleValue_append_one_inj h

theorem Externals.sample_serialize_injective : Function.Injective sample.serializeToString :=
  Function.LeftInverse.injective sample_deserialize_serialize

end UpClientZenoh
