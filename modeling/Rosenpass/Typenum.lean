/-
`typenum2const!` (`util/src/typenum.rs`): the constant a typenum numeral converts to, as
the `IntoConst<T>` impls compute it when the program is compiled.

An unsigned numeral `UInt<Rest, Bit>` converts by the recursion
`VALUE = (Rest::VALUE << 1) + Bit::VALUE`, in the target type itself (`ConstLshift`,
`ConstAdd`). A signed numeral `PInt<U>` or `NInt<U>` converts its magnitude in the
associated unsigned type and then applies the sign (`ConstApplyPosSign`,
`ConstApplyNegSign`); the magnitude `2^(w-1)`, which has no positive counterpart, gives
`T::MIN`. Constant evaluation refuses a `+`, `<<` or `-` that overflows: the model returns
an error there, which in Rust is a compile error.

`Unsigned.intoConst_eq`: a numeral in the range of the target type converts to its value,
and `Integer.intoConst_nInt_min` gives the edge case of the sign path.
-/
import Mathlib.Data.BitVec

namespace Rosenpass.Typenum

/-- typenum's bits `B0` and `B1`. -/
inductive Bit where
  | B0
  | B1
  deriving DecidableEq, Repr

/-- typenum's unsigned numerals: `UTerm` is zero, and `UInt<Rest, Bit>` is `Rest` with the
bit `Bit` appended below it. -/
inductive Unsigned where
  | UTerm
  | UInt (rest : Unsigned) (bit : Bit)
  deriving DecidableEq, Repr

/-- typenum's signed numerals, each with its magnitude. -/
inductive Integer where
  | Z0
  | PInt (u : Unsigned)
  | NInt (u : Unsigned)
  deriving DecidableEq, Repr

def Bit.toNat : Bit → Nat
  | .B0 => 0
  | .B1 => 1

/-- The number a numeral stands for. -/
def Unsigned.toNat : Unsigned → Nat
  | .UTerm => 0
  | .UInt rest bit => 2 * rest.toNat + bit.toNat

theorem Bit.toNat_lt_two (b : Bit) : b.toNat < 2 := by
  cases b <;> decide

/-! ## The target types -/

/-- The primitive integer types of `impl_numeric_into_const_unsigned!` and
`impl_numeric_into_const_signed!`. -/
inductive IntTy where
  | usize | u8 | u16 | u32 | u64 | u128
  | isize | i8 | i16 | i32 | i64 | i128
  deriving DecidableEq, Repr

/-- The width; `usize` and `isize` as on a 64-bit target. -/
def IntTy.bits : IntTy → Nat
  | .usize | .isize => 64
  | .u8 | .i8 => 8
  | .u16 | .i16 => 16
  | .u32 | .i32 => 32
  | .u64 | .i64 => 64
  | .u128 | .i128 => 128

def IntTy.signed : IntTy → Bool
  | .usize | .u8 | .u16 | .u32 | .u64 | .u128 => false
  | .isize | .i8 | .i16 | .i32 | .i64 | .i128 => true

/-- `<T as AssociatedUnsigned>::Type`: an unsigned type is its own. -/
def IntTy.associatedUnsigned : IntTy → IntTy
  | .usize | .isize => .usize
  | .u8 | .i8 => .u8
  | .u16 | .i16 => .u16
  | .u32 | .i32 => .u32
  | .u64 | .i64 => .u64
  | .u128 | .i128 => .u128

/-- The number the bits `x` stand for in `T`. -/
def IntTy.read (T : IntTy) (x : BitVec T.bits) : Int := if T.signed then x.toInt else x.toNat

def IntTy.min (T : IntTy) : Int := if T.signed then -((2 ^ (T.bits - 1) : Nat) : Int) else 0

def IntTy.max (T : IntTy) : Int :=
  if T.signed then ((2 ^ (T.bits - 1) : Nat) : Int) - 1 else ((2 ^ T.bits : Nat) : Int) - 1

/-- `z` is a value of `T`: the results constant evaluation accepts. -/
def IntTy.InRange (T : IntTy) (z : Int) : Prop := T.min ≤ z ∧ z ≤ T.max

instance (T : IntTy) (z : Int) : Decidable (T.InRange z) := inferInstanceAs (Decidable (_ ∧ _))

namespace IntTy

variable (T : IntTy)

theorem two_le_bits : 2 ≤ T.bits := by
  cases T <;> decide

theorem bits_associatedUnsigned : T.associatedUnsigned.bits = T.bits := by
  cases T <;> rfl

theorem signed_associatedUnsigned : T.associatedUnsigned.signed = false := by
  cases T <;> rfl

theorem pow_bits_eq : 2 ^ T.bits = 2 * 2 ^ (T.bits - 1) := by
  rw [← Nat.pow_succ']
  congr 1
  have := T.two_le_bits
  omega

/-- Below `2^(w-1)`, or below `2^w` for an unsigned type, a number is read back from its
bits. -/
theorem read_ofNat {n : Nat} (h : T.InRange n) : T.read (BitVec.ofNat T.bits n) = n := by
  have hpow := T.pow_bits_eq
  unfold InRange IntTy.min IntTy.max at h
  unfold read
  cases hs : T.signed
  · simp only [hs, Bool.false_eq_true, if_false] at h ⊢
    have hn : n < 2 ^ T.bits := by omega
    simp [Nat.mod_eq_of_lt hn]
  · simp only [hs, if_true] at h ⊢
    have hn : 2 * n < 2 ^ T.bits := by omega
    rw [BitVec.toInt_eq_toNat_cond, BitVec.toNat_ofNat, Nat.mod_eq_of_lt (by omega), if_pos hn]

theorem read_of_signed (hs : T.signed = true) : T.read = BitVec.toInt := by
  funext x
  simp only [read, hs, if_true]

theorem read_of_unsigned (hs : T.signed = false) : T.read = fun x => (x.toNat : Int) := by
  funext x
  simp only [read, hs, Bool.false_eq_true, if_false]

theorem min_nonpos : T.min ≤ 0 := by
  unfold IntTy.min
  split
  · exact Int.neg_nonpos_of_nonneg (Int.natCast_nonneg _)
  · exact le_refl 0

/-- Every number below `2^(w-1)` is a value of every type of width `w`. -/
theorem inRange_of_lt {n : Nat} (h : n < 2 ^ (T.bits - 1)) : T.InRange n := by
  refine ⟨T.min_nonpos.trans (Int.natCast_nonneg n), ?_⟩
  have hpow := T.pow_bits_eq
  unfold IntTy.max
  generalize 2 ^ (T.bits - 1) = k at *
  split <;> omega

theorem inRange_of_le {n m : Nat} (h : T.InRange m) (hnm : n ≤ m) : T.InRange n :=
  ⟨T.min_nonpos.trans (Int.natCast_nonneg n), le_trans (by omega) h.2⟩

end IntTy

/-! ## Constant evaluation -/

/-- `x << shift` in constant evaluation: a shift by the width or more is refused. -/
def constLshift {w : Nat} (x : BitVec w) (shift : Nat) : Except String (BitVec w) :=
  if shift < w then pure (x <<< shift) else throw "attempt to shift left with overflow"

/-- `x + y` in constant evaluation: a sum out of `T`'s range is refused. -/
def constAdd (T : IntTy) (x y : BitVec T.bits) : Except String (BitVec T.bits) :=
  if T.InRange (T.read x + T.read y) then pure (x + y) else throw "attempt to add with overflow"

/-- `-x` in constant evaluation. -/
def constNeg (T : IntTy) (x : BitVec T.bits) : Except String (BitVec T.bits) :=
  if T.InRange (-T.read x) then pure (-x) else throw "attempt to negate with overflow"

/-- `B0::VALUE` and `B1::VALUE`. -/
def Bit.intoConst (T : IntTy) : Bit → BitVec T.bits
  | .B0 => 0
  | .B1 => 1

/-- `UTerm::VALUE`, and `UInt<Rest, Bit>::VALUE`, which is
`ConstAdd<T, ConstLshift<T, Rest, 1>, Bit>::VALUE`. -/
def Unsigned.intoConst (T : IntTy) : Unsigned → Except String (BitVec T.bits)
  | .UTerm => pure 0
  | .UInt rest bit => do
    let r ← rest.intoConst T
    let shifted ← constLshift r 1
    constAdd T shifted (bit.intoConst T)

/-- `x as T`, from the associated unsigned type, of the same width: the bits stay. -/
def asAssociated (T : IntTy) (x : BitVec T.associatedUnsigned.bits) : BitVec T.bits :=
  x.cast T.bits_associatedUnsigned

/-- `ConstApplyPosSign<T, U>::VALUE`: `U::VALUE` converted in the associated unsigned type,
then cast to `T`. -/
def constApplyPosSign (T : IntTy) (u : Unsigned) : Except String (BitVec T.bits) := do
  let v ← u.intoConst T.associatedUnsigned
  pure (asAssociated T v)

/-- `ConstApplyNegSign<T, U>::VALUE`, implemented for the signed types only:
`T::MIN` when `U::VALUE == (1 as unsigned).rotate_right(1)`, and `-(U::VALUE as T)`
otherwise. -/
def constApplyNegSign (T : IntTy) (u : Unsigned) : Except String (BitVec T.bits) := do
  if !T.signed then throw "the trait bound ConstApplyNegSign: IntoConst is not satisfied"
  let v ← u.intoConst T.associatedUnsigned
  if v = (1 : BitVec T.associatedUnsigned.bits).rotateRight 1 then
    -- the negative value without an associated positive value, e.g. -128 for i8
    pure (BitVec.intMin T.bits)
  else constNeg T (asAssociated T v)

/-- `Z0::VALUE`, `PInt<U>::VALUE` and `NInt<U>::VALUE`. -/
def Integer.intoConst (T : IntTy) : Integer → Except String (BitVec T.bits)
  | .Z0 => pure 0
  | .PInt u => constApplyPosSign T u
  | .NInt u => constApplyNegSign T u

/-! ## The values -/

section Values

variable {T : IntTy}

theorem Bit.intoConst_eq_ofNat (b : Bit) : b.intoConst T = BitVec.ofNat T.bits b.toNat := by
  cases b <;> rfl

theorem Bit.read_intoConst (b : Bit) : T.read (b.intoConst T) = b.toNat := by
  -- a bit is below `2^(w-1)`, as every width is at least 2
  have h : b.toNat < 2 ^ (T.bits - 1) := by
    have h1 : 1 < 2 ^ (T.bits - 1) := Nat.one_lt_two_pow (by have := T.two_le_bits; omega)
    have := b.toNat_lt_two
    omega
  rw [b.intoConst_eq_ofNat]
  exact T.read_ofNat (T.inRange_of_lt h)

theorem constLshift_one {n : Nat} (h : 2 * n < 2 ^ T.bits) :
    constLshift (BitVec.ofNat T.bits n) 1 = .ok (BitVec.ofNat T.bits (2 * n)) := by
  have hw := T.two_le_bits
  rw [constLshift, if_pos (by omega)]
  congr 1
  apply BitVec.eq_of_toNat_eq
  rw [BitVec.toNat_shiftLeft, BitVec.toNat_ofNat, BitVec.toNat_ofNat, Nat.shiftLeft_eq,
    Nat.mod_eq_of_lt (by omega : n < 2 ^ T.bits)]
  rw [Nat.pow_one, Nat.mul_comm]

/-- A numeral in the range of `T` converts to its value, through the whole recursion: no
shift or sum on the way overflows, since each is at most the numeral's value. -/
theorem Unsigned.intoConst_eq :
    ∀ u : Unsigned, T.InRange u.toNat → u.intoConst T = .ok (BitVec.ofNat T.bits u.toNat)
  | .UTerm, _ => rfl
  | .UInt rest bit, h => by
    have hb := bit.toNat_lt_two
    have hr : T.InRange rest.toNat := T.inRange_of_le h (by simp only [Unsigned.toNat]; omega)
    have h2 : T.InRange (2 * rest.toNat : Nat) := T.inRange_of_le h (by simp only [Unsigned.toNat]; omega)
    have hlt : 2 * rest.toNat < 2 ^ T.bits := by
      have := T.pow_bits_eq
      unfold IntTy.InRange IntTy.max at h2
      split at h2 <;> omega
    -- the shifted rest and the bit add up to the numeral, which is in range
    have hsum : T.read (BitVec.ofNat T.bits (2 * rest.toNat)) + T.read (BitVec.ofNat T.bits bit.toNat) =
        (Unsigned.UInt rest bit).toNat := by
      rw [T.read_ofNat h2, ← Bit.intoConst_eq_ofNat, Bit.read_intoConst]
      simp only [Unsigned.toNat]
      push_cast
      rfl
    simp only [Unsigned.intoConst, Unsigned.intoConst_eq rest hr, bind, Except.bind, constLshift_one hlt,
      constAdd, Bit.intoConst_eq_ofNat, hsum, if_pos h, BitVec.ofNat_add_ofNat]
    rfl

/-- A numeral below `2^w` converts in the associated unsigned type of a type of width `w`. -/
theorem Unsigned.intoConst_associatedUnsigned {u : Unsigned} (h : u.toNat < 2 ^ T.bits) :
    u.intoConst T.associatedUnsigned = .ok (BitVec.ofNat _ u.toNat) := by
  refine Unsigned.intoConst_eq u ⟨T.associatedUnsigned.min_nonpos.trans (Int.natCast_nonneg _), ?_⟩
  unfold IntTy.max
  rw [T.signed_associatedUnsigned, T.bits_associatedUnsigned]
  simp only [Bool.false_eq_true, if_false]
  omega

theorem asAssociated_ofNat (n : Nat) :
    asAssociated T (BitVec.ofNat T.associatedUnsigned.bits n) = BitVec.ofNat T.bits n := by
  apply BitVec.eq_of_toNat_eq
  simp only [asAssociated, BitVec.toNat_cast, BitVec.toNat_ofNat, T.bits_associatedUnsigned]

/-- `(1 as T).rotate_right(1)` is the top bit, `2^(w-1)`. -/
theorem toNat_one_rotateRight (T : IntTy) : ((1 : BitVec T.bits).rotateRight 1).toNat = 2 ^ (T.bits - 1) := by
  have hw := T.two_le_bits
  have hpow := T.pow_bits_eq
  have h1 : (1 : BitVec T.bits).toNat = 1 := by
    simp
    omega
  rw [BitVec.toNat_rotateRight, Nat.mod_eq_of_lt (by omega : 1 < T.bits), h1]
  simp only [Nat.reduceShiftRight, Nat.zero_or, Nat.one_shiftLeft]
  exact Nat.mod_eq_of_lt (by omega)

/-- `PInt<U>` converts to the magnitude, in every type whose range holds it. -/
theorem Integer.intoConst_pInt {u : Unsigned} (h : T.InRange u.toNat) :
    (Integer.PInt u).intoConst T = .ok (BitVec.ofNat T.bits u.toNat) := by
  have hlt : u.toNat < 2 ^ T.bits := by
    have hpow := T.pow_bits_eq
    have hmax := h.2
    unfold IntTy.max at hmax
    generalize 2 ^ (T.bits - 1) = k at *
    split at hmax <;> omega
  simp only [Integer.intoConst, constApplyPosSign, Unsigned.intoConst_associatedUnsigned hlt, bind, Except.bind,
    asAssociated_ofNat]
  rfl

/-- The edge of the sign path: the magnitude `2^(w-1)` gives `T::MIN`. -/
theorem Integer.intoConst_nInt_min (hs : T.signed = true) {u : Unsigned} (hm : u.toNat = 2 ^ (T.bits - 1)) :
    (Integer.NInt u).intoConst T = .ok (BitVec.intMin T.bits) := by
  have hpow := T.pow_bits_eq
  have hpos := Nat.two_pow_pos (T.bits - 1)
  have htop : BitVec.ofNat T.associatedUnsigned.bits u.toNat = (1 : BitVec _).rotateRight 1 := by
    apply BitVec.eq_of_toNat_eq
    rw [toNat_one_rotateRight, BitVec.toNat_ofNat, T.bits_associatedUnsigned, hm, Nat.mod_eq_of_lt (by omega)]
  simp only [Integer.intoConst, constApplyNegSign, hs, Unsigned.intoConst_associatedUnsigned (by omega : u.toNat < 2 ^ T.bits),
    htop, Bool.not_true, Bool.false_eq_true, if_false, bind, Except.bind, if_true]
  rfl

/-- `NInt<U>` converts to minus its magnitude, for every magnitude up to `2^(w-1)`. -/
theorem Integer.read_intoConst_nInt (hs : T.signed = true) {u : Unsigned} (hm : u.toNat ≤ 2 ^ (T.bits - 1)) :
    ((Integer.NInt u).intoConst T).map T.read = .ok (-(u.toNat : Int)) := by
  have hpow := T.pow_bits_eq
  have hpos := Nat.two_pow_pos (T.bits - 1)
  rcases Nat.lt_or_eq_of_le hm with hlt | heq
  · -- below the edge: `-(U::VALUE as T)`, which does not overflow
    have hne : BitVec.ofNat T.associatedUnsigned.bits u.toNat ≠ (1 : BitVec _).rotateRight 1 := by
      intro h
      have h' := congrArg BitVec.toNat h
      rw [toNat_one_rotateRight, BitVec.toNat_ofNat, T.bits_associatedUnsigned, Nat.mod_eq_of_lt (by omega)] at h'
      omega
    have hread : (BitVec.ofNat T.bits u.toNat).toInt = u.toNat := by
      simpa only [IntTy.read, hs, if_true] using T.read_ofNat (T.inRange_of_lt hlt)
    have hmin : BitVec.ofNat T.bits u.toNat ≠ BitVec.intMin T.bits := by
      intro h
      have h' := congrArg BitVec.toNat h
      rw [BitVec.toNat_ofNat, BitVec.toNat_intMin, Nat.mod_eq_of_lt (by omega), Nat.mod_eq_of_lt (by omega)] at h'
      omega
    have hneg : T.InRange (-(u.toNat : Int)) := by
      unfold IntTy.InRange IntTy.min IntTy.max
      simp only [hs, if_true]
      omega
    simp only [Integer.intoConst, constApplyNegSign, hs,
      Unsigned.intoConst_associatedUnsigned (by omega : u.toNat < 2 ^ T.bits), Bool.not_true, Bool.false_eq_true,
      if_false, bind, Except.bind, if_neg hne, asAssociated_ofNat, constNeg, IntTy.read, if_true, hread]
    rw [if_pos (by simpa only [IntTy.read, hs, if_true, hread] using hneg)]
    simp only [Except.map, pure, Except.pure, IntTy.read, hs, if_true, BitVec.toInt_neg_of_ne_intMin hmin, hread]
  · -- the edge: `T::MIN`
    rw [Integer.intoConst_nInt_min hs heq]
    simp only [Except.map, IntTy.read, hs, if_true, BitVec.toInt_intMin, heq, Nat.mod_eq_of_lt (by omega : 2 ^ (T.bits - 1) < 2 ^ T.bits)]

end Values

/-- **`typenum2const!` computes the numeral's value.** An unsigned numeral below `2^w`
converts to its value in every unsigned type of width `w`; in a signed type of width `w`,
`PInt<U>` converts to the magnitude `m` below `2^(w-1)`, and `NInt<U>` to `-m` for `m` up
to `2^(w-1)`, where it is `T::MIN`. -/
theorem typenum2const_value :
    (∀ (T : IntTy) (u : Unsigned), T.signed = false → u.toNat < 2 ^ T.bits →
      (u.intoConst T).map BitVec.toNat = .ok u.toNat) ∧
    (∀ (T : IntTy) (u : Unsigned), T.signed = true →
      (u.toNat < 2 ^ (T.bits - 1) → ((Integer.PInt u).intoConst T).map BitVec.toInt = .ok (u.toNat : Int)) ∧
      (u.toNat ≤ 2 ^ (T.bits - 1) → ((Integer.NInt u).intoConst T).map BitVec.toInt = .ok (-(u.toNat : Int))) ∧
      (u.toNat = 2 ^ (T.bits - 1) → (Integer.NInt u).intoConst T = .ok (BitVec.intMin T.bits))) := by
  refine ⟨fun T u hs h => ?_, fun T u hs => ⟨fun h => ?_, fun h => ?_, Integer.intoConst_nInt_min hs⟩⟩
  · -- in an unsigned type the range is everything below `2^w`
    have hr : T.InRange u.toNat := by
      refine ⟨T.min_nonpos.trans (Int.natCast_nonneg _), ?_⟩
      simp only [IntTy.max, hs, Bool.false_eq_true, if_false]
      omega
    have hread := T.read_ofNat hr
    rw [T.read_of_unsigned hs] at hread
    rw [Unsigned.intoConst_eq u hr]
    simp only [Except.map, Int.natCast_inj.1 hread]
  · have hread := T.read_ofNat (T.inRange_of_lt h)
    rw [T.read_of_signed hs] at hread
    rw [Integer.intoConst_pInt (T.inRange_of_lt h)]
    simp only [Except.map, hread]
  · rw [← T.read_of_signed hs]
    exact Integer.read_intoConst_nInt hs h

theorem typenum2const_value_i8 :
    let U5 : Unsigned := .UInt (.UInt (.UInt .UTerm .B1) .B0) .B1
    let U128 : Unsigned :=
      .UInt (.UInt (.UInt (.UInt (.UInt (.UInt (.UInt (.UInt .UTerm .B1) .B0) .B0) .B0) .B0) .B0) .B0) .B0
    (U5.intoConst .u8).map BitVec.toNat = .ok 5 ∧
      ((Integer.PInt U5).intoConst .i8).map BitVec.toInt = .ok 5 ∧
      ((Integer.NInt U5).intoConst .i8).map BitVec.toInt = .ok (-5) ∧
      (Integer.NInt U128).intoConst .i8 = .ok (BitVec.intMin (IntTy.bits .i8)) :=
  ⟨typenum2const_value.1 .u8 _ rfl (by decide), (typenum2const_value.2 .i8 _ rfl).1 (by decide),
    (typenum2const_value.2 .i8 _ rfl).2.1 (by decide), (typenum2const_value.2 .i8 _ rfl).2.2 (by decide)⟩

end Rosenpass.Typenum
