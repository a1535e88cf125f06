import Mathlib.Data.Nat.Basic
import Mathlib.Data.Nat.Bits
import Mathlib.Tactic.Ring

/-!
# Little-endian words as bytes and as bits

What `memcpy` of an unsigned integer does on a little-endian host, and what a
bit-packed report does with the bytes afterwards:

* `bytes w n` / `value` — the `w` bytes of `n`, least significant first, and
  the number a byte list stands for. They are inverse up to `n % 256 ^ w`
  (`value_bytes`, `bytes_value`).
* `bits w n` / `bitValue` — the same with bits, and `bitStream`, the bits of a
  byte list in the order a bit-packed field reads them. The bytes of a word
  stream to the bits of the word (`bitStream_bytes`).
-/

namespace LittleEndian

/-! ## Bytes -/

/-- The `w` low bytes of `n`, least significant first. -/
def bytes : ℕ → ℕ → List UInt8
  | 0, _ => []
  | w + 1, n => UInt8.ofNat n :: bytes w (n / 256)

/-- The number a byte list stands for, least significant byte first. -/
def value : List UInt8 → ℕ
  | [] => 0
  | b :: bs => b.toNat + 256 * value bs

@[simp] theorem length_bytes (w n : ℕ) : (bytes w n).length = w := by
  induction w generalizing n with
  | zero => rfl
  | succ w ih => simp [bytes, ih]

/-- Writing `w` bytes and reading them back keeps the number modulo `256 ^ w`. -/
theorem value_bytes (w n : ℕ) : value (bytes w n) = n % 256 ^ w := by
  induction w generalizing n with
  | zero => simp [bytes, value, Nat.mod_one]
  | succ w ih =>
    have hbyte : (UInt8.ofNat n).toNat = n % 256 := UInt8.toNat_ofNat'
    calc value (bytes (w + 1) n)
        = n % 256 + 256 * (n / 256 % 256 ^ w) := by rw [bytes, value, ih, hbyte]
      _ = n % (256 * 256 ^ w) := Nat.mod_mul.symm
      _ = n % 256 ^ (w + 1) := by rw [pow_succ']

/-- Reading a byte list and writing it back at its own length gives it back. -/
theorem bytes_value (bs : List UInt8) : bytes bs.length (value bs) = bs := by
  induction bs with
  | nil => rfl
  | cons b bs ih =>
    have hlt : b.toNat < 256 := b.toNat_lt
    have hdiv : (b.toNat + 256 * value bs) / 256 = value bs := by omega
    have hmod : UInt8.ofNat (b.toNat + 256 * value bs) = b := by
      apply UInt8.toNat_inj.mp
      rw [UInt8.toNat_ofNat']
      omega
    rw [List.length_cons, value, bytes, hdiv, hmod, ih]

/-! ## Bits -/

/-- The `w` low bits of `n`, least significant first. -/
def bits : ℕ → ℕ → List Bool
  | 0, _ => []
  | w + 1, n => decide (n % 2 = 1) :: bits w (n / 2)

/-- The number a bit list stands for, least significant bit first. -/
def bitValue : List Bool → ℕ
  | [] => 0
  | b :: bs => b.toNat + 2 * bitValue bs

/-- The bits of a byte list: byte after byte, each from its low bit up. -/
def bitStream (bs : List UInt8) : List Bool := bs.flatMap fun b => bits 8 b.toNat

@[simp] theorem length_bits (w n : ℕ) : (bits w n).length = w := by
  induction w generalizing n with
  | zero => rfl
  | succ w ih => simp [bits, ih]

@[simp] theorem bitStream_nil : bitStream [] = [] := rfl

theorem bitStream_cons (b : UInt8) (bs : List UInt8) :
    bitStream (b :: bs) = bits 8 b.toNat ++ bitStream bs := rfl

theorem bitStream_append (as bs : List UInt8) :
    bitStream (as ++ bs) = bitStream as ++ bitStream bs := by
  simp [bitStream]

/-- Writing `w` bits and reading them back keeps the number modulo `2 ^ w`. -/
theorem bitValue_bits (w n : ℕ) : bitValue (bits w n) = n % 2 ^ w := by
  induction w generalizing n with
  | zero => simp [bits, bitValue, Nat.mod_one]
  | succ w ih =>
    have hbit : (decide (n % 2 = 1)).toNat = n % 2 := by
      rcases Nat.mod_two_eq_zero_or_one n with h | h <;> simp [h]
    calc bitValue (bits (w + 1) n)
        = n % 2 + 2 * (n / 2 % 2 ^ w) := by rw [bits, bitValue, ih, hbit]
      _ = n % (2 * 2 ^ w) := Nat.mod_mul.symm
      _ = n % 2 ^ (w + 1) := by rw [pow_succ']

/-- The bits of a word split at any position. -/
theorem bits_add (v w n : ℕ) : bits (v + w) n = bits v n ++ bits w (n / 2 ^ v) := by
  induction v generalizing n with
  | zero => simp [bits]
  | succ v ih =>
    have hdiv : n / 2 / 2 ^ v = n / 2 ^ (v + 1) := by
      rw [Nat.div_div_eq_div_mul, pow_succ']
    rw [Nat.succ_add, bits, ih, bits, List.cons_append, hdiv]

/-- Bits above the width do not matter. -/
theorem bits_mod (w n : ℕ) : bits w (n % 2 ^ w) = bits w n := by
  induction w generalizing n with
  | zero => rfl
  | succ w ih =>
    have hlow : n % 2 ^ (w + 1) % 2 = n % 2 := by
      rw [pow_succ', Nat.mod_mul_right_mod]
    have hhigh : n % 2 ^ (w + 1) / 2 = n / 2 % 2 ^ w := by
      rw [pow_succ', Nat.mod_mul_right_div_self]
    rw [bits, bits, hlow, hhigh, ih]

/-- The bytes of a word stream to the bits of the word. -/
theorem bitStream_bytes (w n : ℕ) : bitStream (bytes w n) = bits (8 * w) n := by
  induction w generalizing n with
  | zero => rfl
  | succ w ih =>
    have hbyte : bits 8 (UInt8.ofNat n).toNat = bits 8 n := by
      rw [UInt8.toNat_ofNat']
      exact bits_mod 8 n
    have hwidth : 8 * (w + 1) = 8 + 8 * w := by ring
    have hdiv : n / 256 = n / 2 ^ 8 := rfl
    rw [bytes, bitStream_cons, ih, hbyte, hwidth, bits_add, hdiv]

/-- The `i`-th bit of a word, in the list of its bits. -/
theorem getElem?_bits {w n i : ℕ} (h : i < w) : (bits w n)[i]? = some (n.testBit i) := by
  induction w generalizing n i with
  | zero => omega
  | succ w ih =>
    cases i with
    | zero =>
      rw [bits, List.getElem?_cons_zero, Nat.testBit_zero]
    | succ i =>
      rw [bits, List.getElem?_cons_succ, ih (by omega), Nat.testBit_succ]

end LittleEndian
