/-
Little-endian numbers spelled by byte strings: `value l` reads `l` with its first
byte least significant, and `bytes n x` is the `n`-byte encoding of `x` (what
`to_le_bytes` gives for an `n`-byte integer). The two are inverse on strings of a
fixed length, so comparing or counting with such strings is comparing or counting
with their values.
-/
import Mathlib.Algebra.Order.Group.Nat

namespace LittleEndian

/-- The number a little-endian byte string spells. -/
def value : List UInt8 → Nat
  | [] => 0
  | b :: bs => b.toNat + 256 * value bs

/-- The `n`-byte little-endian encoding of `x` modulo `256 ^ n`. -/
def bytes : Nat → Nat → List UInt8
  | 0, _ => []
  | n + 1, x => UInt8.ofNat (x % 256) :: bytes n (x / 256)

@[simp] theorem value_nil : value [] = 0 := rfl

@[simp] theorem value_cons (b : UInt8) (bs : List UInt8) :
    value (b :: bs) = b.toNat + 256 * value bs := rfl

@[simp] theorem length_bytes (n x : Nat) : (bytes n x).length = n := by
  induction n generalizing x with
  | zero => rfl
  | succ n ih => simp [bytes, ih]

theorem value_lt (l : List UInt8) : value l < 256 ^ l.length := by
  induction l with
  | nil => simp
  | cons b bs ih =>
    have hb := b.toNat_lt
    simp only [value_cons, List.length_cons, Nat.pow_succ]
    have : 256 * value bs + 256 ≤ 256 ^ bs.length * 256 := by
      rw [Nat.mul_comm (256 ^ _)]; omega
    omega

theorem value_append (l l' : List UInt8) : value (l ++ l') = value l + 256 ^ l.length * value l' := by
  induction l with
  | nil => simp
  | cons b bs ih =>
    simp only [List.cons_append, value_cons, ih, List.length_cons, Nat.pow_succ]
    rw [Nat.mul_add, ← Nat.mul_assoc, Nat.mul_comm 256 (256 ^ bs.length)]
    omega

theorem value_bytes (n x : Nat) : value (bytes n x) = x % 256 ^ n := by
  induction n generalizing x with
  | zero => simp [bytes, Nat.mod_one]
  | succ n ih =>
    have byte : (UInt8.ofNat (x % 256)).toNat = x % 256 := by simp
    simp only [bytes, value_cons, ih, byte]
    rw [Nat.pow_succ, Nat.mul_comm (256 ^ n) 256, Nat.mod_mul]

theorem bytes_value (l : List UInt8) : bytes l.length (value l) = l := by
  induction l with
  | nil => rfl
  | cons b bs ih =>
    have hb := b.toNat_lt
    have hmod : (b.toNat + 256 * value bs) % 256 = b.toNat := by omega
    have hdiv : (b.toNat + 256 * value bs) / 256 = value bs := by omega
    simp only [List.length_cons, bytes, value_cons, hmod, hdiv, ih, UInt8.ofNat_toNat]

/-- Strings of one length are equal exactly when their values are. -/
theorem value_inj {l l' : List UInt8} (hl : l.length = l'.length) (h : value l = value l') :
    l = l' := by
  rw [← bytes_value l, ← bytes_value l', hl, h]

theorem value_replicate_zero (n : Nat) : value (List.replicate n 0) = 0 := by
  induction n with
  | zero => rfl
  | succ n ih => simp [List.replicate_succ, ih]

/-- A 64-bit counter survives its little-endian encoding in eight bytes. -/
theorem ofNat_value_bytes (x : UInt64) : UInt64.ofNat (value (bytes 8 x.toNat)) = x := by
  rw [value_bytes, Nat.mod_eq_of_lt (by simpa using x.toNat_lt), UInt64.ofNat_toNat]

end LittleEndian
