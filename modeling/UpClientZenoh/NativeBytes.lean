import Mathlib.Tactic.Ring
import Mathlib.Tactic.NormNum

/-!
# Memory images of unsigned integers

A program that copies an integer into a byte buffer with `memcpy` writes its memory
image : `w` bytes, least significant first or most significant first. `image` is that
copy and `value` reads it back. They are inverse below `256 ^ w`
(`value_image`, `image_value`), whatever the byte order.
-/

namespace NativeBytes

/-- The order in which a machine stores the bytes of an integer. -/
inductive ByteOrder
  | little
  | big
  deriving DecidableEq, Repr

/-- The `w` low bytes of `n`, least significant first. -/
def littleImage : ℕ → ℕ → List UInt8
  | 0, _ => []
  | w + 1, n => UInt8.ofNat n :: littleImage w (n / 256)

/-- The integer whose bytes are given, least significant first. -/
def littleValue : List UInt8 → ℕ
  | [] => 0
  | b :: bs => b.toNat + 256 * littleValue bs

theorem length_littleImage : ∀ w n : ℕ, (littleImage w n).length = w
  | 0, _ => rfl
  | w + 1, n => by simp [littleImage, length_littleImage w]

theorem littleImage_zero (w : ℕ) : littleImage w 0 = List.replicate w 0 := by
  induction w with
  | zero => rfl
  | succ w ih =>
    rw [littleImage, Nat.zero_div, ih]
    rfl

theorem littleValue_littleImage : ∀ {w n : ℕ}, n < 256 ^ w → littleValue (littleImage w n) = n
  | 0, n, h => by
    have : n = 0 := by simpa using h
    simp [littleImage, littleValue, this]
  | w + 1, n, h => by
    have hdiv : n / 256 < 256 ^ w := Nat.div_lt_of_lt_mul (by rwa [pow_succ'] at h)
    simp only [littleImage, littleValue, littleValue_littleImage hdiv, UInt8.toNat_ofNat']
    omega

theorem littleValue_lt : ∀ bs : List UInt8, littleValue bs < 256 ^ bs.length
  | [] => by simp [littleValue]
  | b :: bs => by
    have hb : b.toNat < 256 := b.toNat_lt
    have ih := littleValue_lt bs
    rw [littleValue, List.length_cons, pow_succ']
    omega

theorem littleImage_littleValue : ∀ bs : List UInt8, littleImage bs.length (littleValue bs) = bs
  | [] => rfl
  | b :: bs => by
    have hb : b.toNat < 256 := b.toNat_lt
    have hdiv : (b.toNat + 256 * littleValue bs) / 256 = littleValue bs := by omega
    have hlow : UInt8.ofNat (b.toNat + 256 * littleValue bs) = b := by
      apply UInt8.toNat_inj.1
      rw [UInt8.toNat_ofNat']
      omega
    rw [List.length_cons, littleValue, littleImage, hdiv, hlow, littleImage_littleValue bs]

theorem littleValue_append (bs cs : List UInt8) :
    littleValue (bs ++ cs) = littleValue bs + 256 ^ bs.length * littleValue cs := by
  induction bs with
  | nil => simp [littleValue]
  | cons b bs ih =>
    rw [List.cons_append, littleValue, littleValue, ih, List.length_cons, pow_succ']
    ring

namespace ByteOrder

variable (o : ByteOrder)

/-- The memory image of `n` in `w` bytes. -/
def image (w n : ℕ) : List UInt8 :=
  match o with
  | little => littleImage w n
  | big => (littleImage w n).reverse

/-- The integer a memory image holds. -/
def value (bs : List UInt8) : ℕ :=
  match o with
  | little => littleValue bs
  | big => littleValue bs.reverse

@[simp] theorem length_image (w n : ℕ) : (o.image w n).length = w := by
  cases o <;> simp [image, length_littleImage]

theorem image_zero (w : ℕ) : o.image w 0 = List.replicate w 0 := by
  cases o <;> simp [image, littleImage_zero]

/-- Reading back an image gives the integer, if it fits. -/
theorem value_image {w n : ℕ} (h : n < 256 ^ w) : o.value (o.image w n) = n := by
  cases o <;> simp [image, value, littleValue_littleImage h]

theorem value_lt {w : ℕ} {bs : List UInt8} (h : bs.length = w) : o.value bs < 256 ^ w := by
  subst h
  cases o with
  | little => exact littleValue_lt bs
  | big => simpa [value] using littleValue_lt bs.reverse

/-- Every `w` bytes are the image of the integer they hold. -/
theorem image_value {w : ℕ} {bs : List UInt8} (h : bs.length = w) :
    o.image w (o.value bs) = bs := by
  subst h
  cases o with
  | little => exact littleImage_littleValue bs
  | big =>
    have h := littleImage_littleValue bs.reverse
    rw [List.length_reverse] at h
    simp [image, value, h]

/-- The high bytes are the last of a little-endian image. -/
theorem little_value_append (bs cs : List UInt8) :
    little.value (bs ++ cs) = little.value bs + 256 ^ bs.length * little.value cs :=
  littleValue_append bs cs

/-- The high bytes are the first of a big-endian image. -/
theorem big_value_append (bs cs : List UInt8) :
    big.value (bs ++ cs) = big.value cs + 256 ^ cs.length * big.value bs := by
  simp [value, littleValue_append]

end ByteOrder

end NativeBytes
