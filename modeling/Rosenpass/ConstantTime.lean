/-
The `rosenpass-constant-time` crate (`constant-time/src`): `increment`, `memcmp_le`
with `compare`, and `memcmp`.

`increment` runs `overflowing_add` over the bytes, least significant first, threading
the carry; `increment_value`: the little-endian value goes up by one modulo `256^n`.

`memcmp_le` keeps, without branching, the last non-zero difference
`diff = b1[i] - b2[i]` of the loop: the mask `((diff - 1) & !diff) >> 8` is all ones
exactly when `diff = 0` (`memcmpMask_eq`), and the result is mapped to its sign by
`((res - 1) >> 8) + (res >> 8) + 1` (`memcmpSign_eq`). Both facts are about the 511
values a byte difference can take and are checked value by value. The loop keeps the
difference of the byte with the highest index, which is the most significant one of a
little-endian number, so `compare a b` is the sign of `value a - value b`
(`compare_eq_sign`); the docstring's "first byte that does not match" describes a
big-endian `memcmp` the code does not implement.
-/
import Rosenpass.Lib.LittleEndian
import Mathlib.Algebra.Order.Ring.Int
import Mathlib.Tactic.Ring

namespace Rosenpass.ConstantTime

open LittleEndian

/-! ## `increment` -/

/-- `u8::overflowing_add`: the wrapped sum and whether it wrapped. -/
def overflowingAdd (a b : UInt8) : UInt8 × Bool := (a + b, decide (255 < a.toNat + b.toNat))

/-- The loop of `increment` from a given carry. -/
def incrementFrom : UInt8 → List UInt8 → List UInt8
  | _, [] => []
  | carry, val :: vs =>
    let r := overflowingAdd val carry
    r.1 :: incrementFrom (if r.2 then 1 else 0) vs

/-- `increment(v)`: `let mut carry = 1u8; for val in v { (v, c) = val.overflowing_add(carry);
*val = v; carry = c as u8 }`. -/
def increment (v : List UInt8) : List UInt8 := incrementFrom 1 v

@[simp] theorem length_incrementFrom (c : UInt8) (v : List UInt8) :
    (incrementFrom c v).length = v.length := by
  induction v generalizing c with
  | nil => rfl
  | cons val vs ih => simp [incrementFrom, ih]

@[simp] theorem length_increment (v : List UInt8) : (increment v).length = v.length :=
  length_incrementFrom 1 v

/-- A digit in front of a number, modulo a power of 256. -/
private theorem digit_mod {a b m : Nat} (ha : a < 256) (hm : 0 < m) :
    (a + 256 * b) % (256 * m) = a + 256 * (b % m) := by
  have hr := Nat.mod_lt b hm
  have hb : a + 256 * b = (a + 256 * (b % m)) + 256 * m * (b / m) := by
    conv_lhs => rw [← Nat.mod_add_div b m]
    ring
  rw [hb, Nat.add_mul_mod_self_left, Nat.mod_eq_of_lt (by omega)]

/-- The carry `c as u8` out of one byte is the quotient of the sum by 256. -/
private theorem carry_toNat (x y : UInt8) :
    (if (overflowingAdd x y).2 then (1 : UInt8) else 0).toNat = (x.toNat + y.toNat) / 256 := by
  have := x.toNat_lt
  have := y.toNat_lt
  by_cases h : 255 < x.toNat + y.toNat
  · simp only [overflowingAdd, h, decide_true, if_true]
    show 1 = _
    omega
  · simp only [overflowingAdd, h, decide_false, Bool.false_eq_true, if_false]
    show 0 = _
    omega

theorem value_incrementFrom (c : UInt8) (v : List UInt8) :
    value (incrementFrom c v) = (value v + c.toNat) % 256 ^ v.length := by
  induction v generalizing c with
  | nil => simp [incrementFrom, Nat.mod_one]
  | cons val vs ih =>
    have hsum : (overflowingAdd val c).1.toNat = (val.toNat + c.toNat) % 256 :=
      UInt8.toNat_add val c
    simp only [incrementFrom, value_cons, ih, carry_toNat, hsum, List.length_cons, Nat.pow_succ']
    rw [show val.toNat + 256 * value vs + c.toNat =
        (val.toNat + c.toNat) % 256 + 256 * (value vs + (val.toNat + c.toNat) / 256) by omega,
      digit_mod (Nat.mod_lt _ (by decide)) (Nat.pow_pos (by decide))]

/-- `increment` adds one to the little-endian value, modulo `256^n`. -/
theorem increment_value (v : List UInt8) : value (increment v) = (value v + 1) % 256 ^ v.length :=
  value_incrementFrom 1 v

/-- Incrementing the encoding of `x` encodes `x + 1`. -/
theorem increment_bytes (n x : Nat) : increment (bytes n x) = bytes n (x + 1) := by
  apply value_inj (by simp)
  rw [increment, value_incrementFrom, UInt8.toNat_one, value_bytes, value_bytes, length_bytes, Nat.mod_add_mod]

/-! ## `memcmp_le` and `compare` -/

/-- `i32::from(b1[i]) - i32::from(b2[i])`. -/
def byteDiff (x y : UInt8) : Int32 := Int32.ofNat x.toNat - Int32.ofNat y.toNat

/-- The mask `((diff - 1) & !diff) >> 8` (an arithmetic shift). -/
def memcmpMask (diff : Int32) : Int32 := ((diff - 1) &&& ~~~diff) >>> 8

/-- One pass of the loop: `res = (res & mask) | diff`. -/
def memcmpStep (res : Int32) (x y : UInt8) : Int32 :=
  (res &&& memcmpMask (byteDiff x y)) ||| byteDiff x y

/-- The loop `for i in 0..len` of `memcmp_le` over the two strings. -/
def memcmpLeLoop : Int32 → List UInt8 → List UInt8 → Int32
  | res, x :: xs, y :: ys => memcmpLeLoop (memcmpStep res x y) xs ys
  | res, _, _ => res

/-- The final map `((res - 1) >> 8) + (res >> 8) + 1`. -/
def memcmpSign (res : Int32) : Int32 := ((res - 1) >>> 8) + (res >>> 8) + 1

/-- `memcmp_le(b1, b2, len)` over the two strings. -/
def memcmpLe (b1 b2 : List UInt8) : Int32 := memcmpSign (memcmpLeLoop 0 b1 b2)

/-- `compare(a, b)`; `none` is the failure of `assert!(a.len() == b.len())`. -/
def compare (a b : List UInt8) : Option Int32 :=
  if a.length = b.length then some (memcmpLe a b) else none

/-- `memcmp(a, b)` (`memsec::memeq` behind a length check): byte-wise equality. -/
def memcmp (a b : List UInt8) : Bool := a == b

theorem memcmpMask_table : ∀ k : Fin 511,
    memcmpMask (Int32.ofInt ((k : Int) - 255)) = if (k : Nat) = 255 then -1 else 0 := by
  decide +kernel

theorem memcmpSign_table : ∀ k : Fin 511,
    memcmpSign (Int32.ofInt ((k : Int) - 255)) = Int32.ofInt (Int.sign ((k : Int) - 255)) := by
  decide +kernel

theorem byteDiff_eq (x y : UInt8) : byteDiff x y = Int32.ofInt ((x.toNat : Int) - y.toNat) := by
  simp only [byteDiff, Int32.ofInt_sub, Int32.ofInt_eq_ofNat]

/-- A byte difference written as an index of the tables. -/
private theorem diff_as_index (x y : UInt8) :
    ((x.toNat : Int) - y.toNat) =
      ((⟨x.toNat + 255 - y.toNat, by have := x.toNat_lt; omega⟩ : Fin 511) : Int) - 255 := by
  have := x.toNat_lt
  have := y.toNat_lt
  simp only
  omega

theorem memcmpMask_eq (x y : UInt8) : memcmpMask (byteDiff x y) = if x = y then -1 else 0 := by
  rw [byteDiff_eq, diff_as_index, memcmpMask_table]
  have := x.toNat_lt
  have := y.toNat_lt
  by_cases hxy : x = y
  · subst hxy; simp
  · have : x.toNat ≠ y.toNat := fun h => hxy (UInt8.toNat_inj.mp h)
    simp only [hxy, if_false]
    rw [if_neg (by omega)]

theorem memcmpSign_eq {r : Int} (h₁ : -255 ≤ r) (h₂ : r ≤ 255) :
    memcmpSign (Int32.ofInt r) = Int32.ofInt r.sign := by
  have h := memcmpSign_table ⟨(r + 255).toNat, by omega⟩
  rwa [show (((⟨(r + 255).toNat, by omega⟩ : Fin 511) : Nat) : Int) - 255 = r by simp; omega] at h

/-- One step keeps the previous result on equal bytes and takes their difference
otherwise. -/
theorem memcmpStep_eq (res : Int32) (x y : UInt8) :
    memcmpStep res x y = if x = y then res else Int32.ofInt ((x.toNat : Int) - y.toNat) := by
  simp only [memcmpStep, memcmpMask_eq]
  by_cases hxy : x = y
  · subst hxy
    simp [byteDiff_eq]
  · simp [hxy, byteDiff_eq]

/-- Adding a small number to a non-zero multiple of 256 keeps its sign. -/
private theorem sign_add_mul_256 {a b : Int} (ha : -255 ≤ a ∧ a ≤ 255) (hb : b ≠ 0) :
    (a + 256 * b).sign = b.sign := by
  rcases Int.lt_or_gt_of_ne hb with hb | hb
  · rw [Int.sign_eq_neg_one_of_neg hb, Int.sign_eq_neg_one_of_neg (by omega)]
  · rw [Int.sign_eq_one_of_pos hb, Int.sign_eq_one_of_pos (by omega)]

/-- The loop keeps the last non-zero difference: its sign is that of the previous result
when the rest is equal, and that of the rest's difference otherwise. -/
theorem memcmpLeLoop_sign : ∀ (xs ys : List UInt8), xs.length = ys.length →
    ∀ r : Int, -255 ≤ r → r ≤ 255 →
      ∃ r', memcmpLeLoop (Int32.ofInt r) xs ys = Int32.ofInt r' ∧ -255 ≤ r' ∧ r' ≤ 255 ∧
        r'.sign = if value xs = value ys then r.sign else ((value xs : Int) - value ys).sign
  | [], [], _, r, h₁, h₂ => ⟨r, rfl, h₁, h₂, by simp⟩
  | x :: xs, y :: ys, hl, r, h₁, h₂ => by
    simp only [List.length_cons, Nat.add_right_cancel_iff] at hl
    have hx := x.toNat_lt
    have hy := y.toNat_lt
    -- the result after this byte, as an integer in range
    obtain ⟨r₁, hr₁, h₁', h₂', hr₁def⟩ : ∃ r₁, memcmpStep (Int32.ofInt r) x y = Int32.ofInt r₁ ∧
        -255 ≤ r₁ ∧ r₁ ≤ 255 ∧ r₁ = if x = y then r else (x.toNat : Int) - y.toNat := by
      rw [memcmpStep_eq]
      by_cases hxy : x = y
      · exact ⟨r, by simp [hxy], h₁, h₂, by simp [hxy]⟩
      · exact ⟨(x.toNat : Int) - y.toNat, by simp [hxy], by omega, by omega, by simp [hxy]⟩
    obtain ⟨r', hr', h₁'', h₂'', hsign⟩ := memcmpLeLoop_sign xs ys hl r₁ h₁' h₂'
    refine ⟨r', by simp only [memcmpLeLoop, hr₁, hr'], h₁'', h₂'', ?_⟩
    rw [hsign]
    have hvx : value (x :: xs) = x.toNat + 256 * value xs := rfl
    have hvy : value (y :: ys) = y.toNat + 256 * value ys := rfl
    by_cases hrest : value xs = value ys
    · -- the rest is equal: this byte decides
      rw [if_pos hrest, hr₁def]
      by_cases hxy : x = y
      · subst hxy
        rw [if_pos rfl, if_pos (by rw [hvx, hvy, hrest])]
      · have hne : x.toNat ≠ y.toNat := fun h => hxy (UInt8.toNat_inj.mp h)
        rw [if_neg hxy, if_neg (by rw [hvx, hvy]; omega), hvx, hvy]
        congr 1
        push_cast
        omega
    · -- the rest differs: its most significant difference decides
      rw [if_neg hrest, if_neg (by rw [hvx, hvy]; omega), hvx, hvy]
      have hd : ((value xs : Int) - value ys) ≠ 0 := by omega
      rw [← sign_add_mul_256 (a := (x.toNat : Int) - y.toNat) (by omega) hd]
      congr 1
      push_cast
      ring
  | [], _ :: _, hl, _, _, _ => by simp at hl
  | _ :: _, [], hl, _, _, _ => by simp at hl

/-- **`compare` is little-endian comparison**: on strings of one length it returns the sign
of `value a - value b`. -/
theorem compare_eq_sign {a b : List UInt8} (h : a.length = b.length) :
    compare a b = some (Int32.ofInt ((value a : Int) - value b).sign) := by
  obtain ⟨r', hr', h₁, h₂, hsign⟩ := memcmpLeLoop_sign a b h 0 (by decide) (by decide)
  simp only [compare, h, if_true, memcmpLe]
  rw [show (0 : Int32) = Int32.ofInt 0 from rfl, hr', memcmpSign_eq h₁ h₂, hsign]
  split
  · next he => simp [he]
  · rfl

theorem ofInt_sign_pos_iff (d : Int) : 0 < Int32.ofInt d.sign ↔ 0 < d := by
  rcases Int.lt_trichotomy d 0 with hd | rfl | hd
  · rw [Int.sign_eq_neg_one_of_neg hd]
    exact ⟨fun h => absurd h (by decide), fun h => absurd h (by omega)⟩
  · decide
  · rw [Int.sign_eq_one_of_pos hd]
    exact ⟨fun _ => hd, fun _ => by decide⟩

theorem ofInt_sign_nonneg_iff (d : Int) : 0 ≤ Int32.ofInt d.sign ↔ 0 ≤ d := by
  rcases Int.lt_trichotomy d 0 with hd | rfl | hd
  · rw [Int.sign_eq_neg_one_of_neg hd]
    exact ⟨fun h => absurd h (by decide), fun h => absurd h (by omega)⟩
  · decide
  · rw [Int.sign_eq_one_of_pos hd]
    exact ⟨fun _ => by omega, fun _ => by decide⟩

/-- A positive answer of `compare`: the first string spells the larger number. -/
theorem value_lt_of_compare {a b : List UInt8} {r : Int32} (h : compare a b = some r) (hr : 0 < r) :
    value b < value a := by
  have hl : a.length = b.length := by
    unfold compare at h
    split at h
    · assumption
    · cases h
  rw [compare_eq_sign hl, Option.some.injEq] at h
  subst h
  have := (ofInt_sign_pos_iff _).1 hr
  omega

/-- The values `compare` can return: the signs. -/
theorem sign_cases (d : Int) : d.sign = -1 ∨ d.sign = 0 ∨ d.sign = 1 := by
  rcases Int.lt_trichotomy d 0 with hd | rfl | hd
  · exact .inl (Int.sign_eq_neg_one_of_neg hd)
  · exact .inr (.inl rfl)
  · exact .inr (.inr (Int.sign_eq_one_of_pos hd))

/-- **`compare` is little-endian comparison**, in the byte order of `increment`: on strings
of one length it returns `-1`, `0` or `1`, the sign of `value a - value b`; and an
increment that does not wrap makes a string compare greater than before. -/
theorem compare_little_endian (a b : List UInt8) (h : a.length = b.length) :
    (∃ r : Int, compare a b = some (Int32.ofInt r) ∧ (r = -1 ∨ r = 0 ∨ r = 1) ∧
      r = ((value a : Int) - value b).sign) ∧
    ∀ v : List UInt8, value v + 1 < 256 ^ v.length → compare (increment v) v = some 1 := by
  refine ⟨⟨_, compare_eq_sign h, sign_cases _, rfl⟩, fun v hv => ?_⟩
  have hinc : value (increment v) = value v + 1 := by
    rw [increment, value_incrementFrom, UInt8.toNat_one, Nat.mod_eq_of_lt hv]
  rw [compare_eq_sign (length_increment v), hinc]
  have hd : ((value v + 1 : Nat) : Int) - value v = 1 := by omega
  rw [hd]
  rfl

theorem compare_little_endian_bytes :
    [2, 1].length = ([7, 0] : List UInt8).length ∧
    ((∃ r : Int, compare [2, 1] [7, 0] = some (Int32.ofInt r) ∧ (r = -1 ∨ r = 0 ∨ r = 1) ∧
      r = ((value [2, 1] : Int) - value [7, 0]).sign) ∧
    ∀ v : List UInt8, value v + 1 < 256 ^ v.length → compare (increment v) v = some 1) :=
  ⟨rfl, compare_little_endian [2, 1] [7, 0] rfl⟩

end Rosenpass.ConstantTime
