/-
Base64 with padding (RFC 4648 §4, with the canonical padding of §3.5) over byte lists.

`encode` is the canonical encoding: four characters for each three bytes, and a last
group of one or two bytes padded with `=` to four characters. `decode` reads groups of
four back and rejects what `encode` cannot produce: a character outside the alphabet, a
pad before the end, or bits under a pad that are not zero. The round trip
`decode_encode` makes `encode` injective, so a byte string has one canonical encoding
and an encoding has one length of content.
-/
import Mathlib.Data.List.Basic
import Mathlib.Data.Option.Basic

namespace Base64

/-- The character for a six-bit value: `A-Z`, `a-z`, `0-9`, `+`, `/`. -/
def char (n : Nat) : UInt8 :=
  if n < 26 then UInt8.ofNat (65 + n)
  else if n < 52 then UInt8.ofNat (71 + n)
  else if n < 62 then UInt8.ofNat (n - 4)
  else if n = 62 then 43
  else 47

/-- The six-bit value of a character of the alphabet. -/
def value? (c : UInt8) : Option Nat :=
  if 65 ≤ c ∧ c ≤ 90 then some (c.toNat - 65)
  else if 97 ≤ c ∧ c ≤ 122 then some (c.toNat - 71)
  else if 48 ≤ c ∧ c ≤ 57 then some (c.toNat + 4)
  else if c = 43 then some 62
  else if c = 47 then some 63
  else none

/-- `=`. -/
def pad : UInt8 := 61

theorem value?_char : ∀ n, n < 64 → value? (char n) = some n := by
  decide

theorem char_ne_pad : ∀ n, n < 64 → char n ≠ pad := by
  decide

/-- The four characters of three bytes. -/
def quad (a b c : UInt8) : List UInt8 :=
  [char (a.toNat / 4), char (a.toNat % 4 * 16 + b.toNat / 16), char (b.toNat % 16 * 4 + c.toNat / 64),
    char (c.toNat % 64)]

/-- The canonical padded encoding. -/
def encode : List UInt8 → List UInt8
  | [] => []
  | [a] => [char (a.toNat / 4), char (a.toNat % 4 * 16), pad, pad]
  | [a, b] => [char (a.toNat / 4), char (a.toNat % 4 * 16 + b.toNat / 16), char (b.toNat % 16 * 4), pad]
  | a :: b :: c :: rest => quad a b c ++ encode rest

/-- Decoding of canonical padded Base64: a group of four characters is three bytes, the
last group may end in one or two pads, and the bits a pad stands for are zero. -/
def decode : List UInt8 → Option (List UInt8)
  | [] => some []
  | c0 :: c1 :: c2 :: c3 :: rest => do
    let s0 ← value? c0
    let s1 ← value? c1
    if rest = [] ∧ c3 = pad then
      if c2 = pad then
        guard (s1 % 16 = 0)
        pure [UInt8.ofNat (s0 * 4 + s1 / 16)]
      else
        let s2 ← value? c2
        guard (s2 % 4 = 0)
        pure [UInt8.ofNat (s0 * 4 + s1 / 16), UInt8.ofNat (s1 % 16 * 16 + s2 / 4)]
    else
      let s2 ← value? c2
      let s3 ← value? c3
      let r ← decode rest
      pure (UInt8.ofNat (s0 * 4 + s1 / 16) :: UInt8.ofNat (s1 % 16 * 16 + s2 / 4) ::
        UInt8.ofNat (s2 % 4 * 64 + s3) :: r)
  | _ => none

theorem length_encode : ∀ x : List UInt8, (encode x).length = 4 * ((x.length + 2) / 3)
  | [] => rfl
  | [_] | [_, _] => by simp only [encode, List.length_cons, List.length_nil]
  | _ :: _ :: _ :: rest => by
    simp only [encode, quad, List.length_append, List.length_cons, List.length_nil, length_encode rest]
    omega

theorem encode_ne_nil {x : List UInt8} (h : x ≠ []) : encode x ≠ [] := by
  intro he
  have hl := length_encode x
  rw [he, List.length_nil] at hl
  have : 0 < x.length := List.length_pos_iff.2 h
  omega

/-- A byte is what its bits, cut at any place, add up to. -/
theorem ofNat_eq {a : UInt8} {n : Nat} (h : n = a.toNat) : UInt8.ofNat n = a := by
  subst h
  exact UInt8.ofNat_toNat

theorem decode_encode : ∀ x : List UInt8, decode (encode x) = some x
  | [] => rfl
  | [a] => by
    have ha := a.toNat_lt
    have h0 := value?_char (a.toNat / 4) (by omega)
    have h1 := value?_char (a.toNat % 4 * 16) (by omega)
    simp only [encode, decode, h0, h1, and_self, if_true, Option.bind_eq_bind, Option.bind_some]
    rw [show a.toNat % 4 * 16 % 16 = 0 by omega, ofNat_eq (a := a) (by omega)]
    rfl
  | [a, b] => by
    have ha := a.toNat_lt
    have hb := b.toNat_lt
    have h0 := value?_char (a.toNat / 4) (by omega)
    have h1 := value?_char (a.toNat % 4 * 16 + b.toNat / 16) (by omega)
    have h2 := value?_char (b.toNat % 16 * 4) (by omega)
    have hne := char_ne_pad (b.toNat % 16 * 4) (by omega)
    simp only [encode, decode, h0, h1, h2, hne, and_self, if_true, if_false, Option.bind_eq_bind,
      Option.bind_some]
    rw [show b.toNat % 16 * 4 % 4 = 0 by omega, ofNat_eq (a := a) (by omega), ofNat_eq (a := b) (by omega)]
    rfl
  | a :: b :: c :: rest => by
    have ha := a.toNat_lt
    have hb := b.toNat_lt
    have hc := c.toNat_lt
    have h0 := value?_char (a.toNat / 4) (by omega)
    have h1 := value?_char (a.toNat % 4 * 16 + b.toNat / 16) (by omega)
    have h2 := value?_char (b.toNat % 16 * 4 + c.toNat / 64) (by omega)
    have h3 := value?_char (c.toNat % 64) (by omega)
    -- the last character of a full group is no pad, so the group is not the last one
    have hne := char_ne_pad (c.toNat % 64) (by omega)
    simp only [encode, quad, List.cons_append, List.nil_append, decode, h0, h1, h2, h3, hne, and_false,
      if_false, decode_encode rest, Option.bind_eq_bind, Option.bind_some]
    rw [ofNat_eq (a := a) (by omega), ofNat_eq (a := b) (by omega), ofNat_eq (a := c) (by omega)]
    rfl

theorem encode_injective {x y : List UInt8} (h : encode x = encode y) : x = y := by
  have hx := decode_encode x
  rw [h, decode_encode y] at hx
  exact Option.some.inj hx.symm

end Base64
