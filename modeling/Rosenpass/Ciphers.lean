/-
The cryptographic primitives under the protocol (`ciphers/src`, `rosenpass/src/hash_domains.rs`).

What comes from outside the repository is a parameter, `Primitives`: keyed BLAKE2b
with a 32-byte output (the `blake2` crate), the detached ChaCha20-Poly1305 and
XChaCha20-Poly1305 encryptions of the `chacha20poly1305` crate, and the two KEMs of
liboqs (`StaticKem`, Classic McEliece 460896, and `EphemeralKem`, Kyber-512), each
with the lengths of what it produces. The repository's own wrappers are modelled from
their source: `incorrect_hmac_blake2b::hash`, `aead` and `xaead` `encrypt`/`decrypt`
(where the nonce, the ciphertext and the tag go), and the hash domains.

What the protocol's correctness needs of the third-party algorithms is stated apart, as
hypotheses a theorem names (`Kem.Correct`, `Aead.Correct`): that decapsulation and
decryption undo encapsulation and encryption.

The wrappers return `Result`s that fail only on a key or buffer length the Rust types
fix (32-byte keys, a ciphertext buffer one tag longer than the plaintext), so they are
total here, except decryption, which fails when the tag does not verify. Randomness is
an explicit source `Rand`; `draw n r` is what `n` random bytes from it are.
-/
import Mathlib.Data.List.Basic

namespace Rosenpass

/-- Byte strings: the contents of `&[u8]`, `[u8; N]`, `Secret<N>` and `Public<N>`. -/
abbrev Bytes := List UInt8

/-- A source of random bytes. -/
abbrev Rand := Nat → UInt8

/-- The first `n` bytes a random source yields (`randomize` of an `n`-byte value). -/
def draw (n : Nat) (r : Rand) : Bytes := (List.range n).map r

@[simp] theorem length_draw (n : Nat) (r : Rand) : (draw n r).length = n := by simp [draw]

/-- `KEY_LEN`: keys, hash outputs and chaining keys. -/
def KEY_LEN : Nat := 32

/-- `aead::TAG_LEN` and `xaead::TAG_LEN`. -/
def TAG_LEN : Nat := 16

/-- `aead::NONCE_LEN` (ChaCha20-Poly1305). -/
def AEAD_NONCE_LEN : Nat := 12

/-- `xaead::NONCE_LEN` (XChaCha20-Poly1305). -/
def XAEAD_NONCE_LEN : Nat := 24

/-- A key encapsulation mechanism (the `Kem` trait of `cipher-traits`), with the lengths
its outputs have. -/
structure Kem where
  SK_LEN : Nat
  PK_LEN : Nat
  CT_LEN : Nat
  SHK_LEN : Nat
  /-- `keygen(sk, pk)`: a secret and a public key, from the randomness it draws. -/
  keygen : Rand → Bytes × Bytes
  /-- `encaps(shk, ct, pk)`: a shared key and its ciphertext for the public key. -/
  encaps : Rand → Bytes → Bytes × Bytes
  /-- `decaps(shk, sk, ct)`: the shared key a ciphertext carries. -/
  decaps : Bytes → Bytes → Bytes
  keygen_length : ∀ r, (keygen r).1.length = SK_LEN ∧ (keygen r).2.length = PK_LEN
  encaps_length : ∀ r pk, (encaps r pk).1.length = SHK_LEN ∧ (encaps r pk).2.length = CT_LEN
  decaps_length : ∀ sk ct, (decaps sk ct).length = SHK_LEN

/-- Decapsulation with the secret key of a key pair returns the key that encapsulation to
its public key shared. -/
def Kem.Correct (K : Kem) : Prop :=
  ∀ r r', K.decaps (K.keygen r).1 (K.encaps r' (K.keygen r).2).2 = (K.encaps r' (K.keygen r).2).1

/-- Correctness at a key pair given by its two halves. -/
theorem Kem.Correct.decaps_encaps {K : Kem} (hK : K.Correct) {rnd : Rand} {sk pk : Bytes}
    (hkey : K.keygen rnd = (sk, pk)) (r : Rand) : K.decaps sk (K.encaps r pk).2 = (K.encaps r pk).1 := by
  have h := hK rnd r
  rw [hkey] at h
  exact h

/-- A detached AEAD (`encrypt_in_place_detached` / `decrypt_in_place_detached`). -/
structure Aead where
  /-- Key, nonce, associated data and plaintext to the ciphertext and the 16-byte tag. -/
  encrypt : Bytes → Bytes → Bytes → Bytes → Bytes × Bytes
  /-- Key, nonce, associated data, ciphertext and tag to the plaintext; `none` when the tag
  does not verify (the buffer is then left as it was). -/
  decrypt : Bytes → Bytes → Bytes → Bytes → Bytes → Option Bytes
  encrypt_length : ∀ k n ad pt,
    (encrypt k n ad pt).1.length = pt.length ∧ (encrypt k n ad pt).2.length = TAG_LEN
  decrypt_length : ∀ k n ad ct tag pt, decrypt k n ad ct tag = some pt → pt.length = ct.length

/-- Decryption under the key and nonce of an encryption returns its plaintext. -/
def Aead.Correct (A : Aead) : Prop :=
  ∀ k n ad pt, A.decrypt k n ad (A.encrypt k n ad pt).1 (A.encrypt k n ad pt).2 = some pt

/-- The third-party algorithms the protocol is built from. -/
structure Primitives where
  /-- `Blake2bMac<U32>`: a 32-byte keyed hash. -/
  blake2b : Bytes → Bytes → Bytes
  blake2b_length : ∀ k d, (blake2b k d).length = KEY_LEN
  /-- ChaCha20-Poly1305 (`aead`). -/
  aead : Aead
  /-- XChaCha20-Poly1305 (`xaead`). -/
  xaead : Aead
  /-- Classic McEliece 460896. -/
  staticKem : Kem
  /-- Kyber-512. -/
  ephemeralKem : Kem

namespace Primitives

variable (P : Primitives)

/-- `incorrect_hmac_blake2b::hash(key, data)`: BLAKE2b keyed with `key ^ OPAD` over
BLAKE2b keyed with `key ^ IPAD` over the data. -/
def hash (key data : Bytes) : Bytes :=
  let outer := P.blake2b (key.map (· ^^^ 0x36)) data
  P.blake2b (key.map (· ^^^ 0x5C)) outer

@[simp] theorem length_hash (key data : Bytes) : (P.hash key data).length = KEY_LEN :=
  P.blake2b_length _ _

/-- `aead::encrypt(ciphertext, key, nonce, ad, plaintext)`: the ciphertext, then the tag. -/
def aeadEncrypt (key nonce ad pt : Bytes) : Bytes :=
  (P.aead.encrypt key nonce ad pt).1 ++ (P.aead.encrypt key nonce ad pt).2

/-- `aead::decrypt(plaintext, key, nonce, ad, ciphertext)`: the plaintext; on a tag that
does not verify, `.error` of what the plaintext buffer then holds (the ciphertext). -/
def aeadDecrypt (key nonce ad ct : Bytes) : Except Bytes Bytes :=
  let c := ct.take (ct.length - TAG_LEN)
  match P.aead.decrypt key nonce ad c (ct.drop (ct.length - TAG_LEN)) with
  | some pt => .ok pt
  | none => .error c

/-- `xaead::encrypt(ciphertext, key, nonce, ad, plaintext)`: the nonce, the ciphertext,
then the tag. -/
def xaeadEncrypt (key nonce ad pt : Bytes) : Bytes :=
  nonce ++ (P.xaead.encrypt key nonce ad pt).1 ++ (P.xaead.encrypt key nonce ad pt).2

/-- `xaead::decrypt(plaintext, key, ad, ciphertext)`, the nonce read from the front of the
ciphertext. -/
def xaeadDecrypt (key ad ct : Bytes) : Except Bytes Bytes :=
  let ctMac := ct.drop XAEAD_NONCE_LEN
  let c := ctMac.take (ctMac.length - TAG_LEN)
  match P.xaead.decrypt key (ct.take XAEAD_NONCE_LEN) ad c (ctMac.drop (ctMac.length - TAG_LEN)) with
  | some pt => .ok pt
  | none => .error c

@[simp] theorem length_aeadEncrypt (key nonce ad pt : Bytes) :
    (P.aeadEncrypt key nonce ad pt).length = pt.length + TAG_LEN := by
  simp [aeadEncrypt, P.aead.encrypt_length]

@[simp] theorem length_xaeadEncrypt (key nonce ad pt : Bytes) :
    (P.xaeadEncrypt key nonce ad pt).length = nonce.length + pt.length + TAG_LEN := by
  simp [xaeadEncrypt, P.xaead.encrypt_length, Nat.add_assoc]

theorem aeadDecrypt_aeadEncrypt (h : P.aead.Correct) (key nonce ad pt : Bytes) :
    P.aeadDecrypt key nonce ad (P.aeadEncrypt key nonce ad pt) = .ok pt := by
  obtain ⟨h₁, h₂⟩ := P.aead.encrypt_length key nonce ad pt
  have hc : (P.aeadEncrypt key nonce ad pt).length - TAG_LEN = pt.length := by simp
  simp only [aeadDecrypt, hc]
  simp only [aeadEncrypt, List.take_left' h₁, List.drop_left' h₁, h key nonce ad pt]

theorem xaeadDecrypt_xaeadEncrypt (h : P.xaead.Correct) {nonce : Bytes}
    (hn : nonce.length = XAEAD_NONCE_LEN) (key ad pt : Bytes) :
    P.xaeadDecrypt key ad (P.xaeadEncrypt key nonce ad pt) = .ok pt := by
  obtain ⟨h₁, h₂⟩ := P.xaead.encrypt_length key nonce ad pt
  simp only [xaeadDecrypt, xaeadEncrypt, List.append_assoc, List.drop_left' hn, List.take_left' hn,
    List.length_append, h₁, h₂, Nat.add_sub_cancel, List.take_left' h₁, List.drop_left' h₁,
    h key nonce ad pt]

/-! ## Hash domains (`hash_domains.rs`) -/

/-- The bytes of a label. -/
def label (s : String) : Bytes := s.toUTF8.toList

/-- `protocol()`: the all-zero domain mixed with the protocol's name. -/
def protocol : Bytes :=
  P.hash (List.replicate KEY_LEN 0) (label "Rosenpass v1 mceliece460896 Kyber512 ChaChaPoly1305 BLAKE2s")

def mac : Bytes := P.hash P.protocol (label "mac")
def cookie : Bytes := P.hash P.protocol (label "cookie")
def cookieValue : Bytes := P.hash P.protocol (label "cookie-value")
def cookieKey : Bytes := P.hash P.protocol (label "cookie-key")
def peerid : Bytes := P.hash P.protocol (label "peer id")
def biscuitAd : Bytes := P.hash P.protocol (label "biscuit additional data")
def ckinit : Bytes := P.hash P.protocol (label "chaining key init")
def ckextract : Bytes := P.hash P.protocol (label "chaining key extract")

def mixDomain : Bytes := P.hash P.ckextract (label "mix")
def hsEnc : Bytes := P.hash P.ckextract (label "handshake encryption")
def iniEnc : Bytes := P.hash P.ckextract (label "initiator handshake encryption")
def resEnc : Bytes := P.hash P.ckextract (label "responder handshake encryption")

def user : Bytes := P.hash P.ckextract (label "user")
def rp : Bytes := P.hash P.user (label "rosenpass.eu")
def osk : Bytes := P.hash P.rp (label "wireguard psk")

end Primitives

/-! ## A small instance

Primitives with one-byte keys and ciphertexts that meet the correctness hypotheses and
evaluate quickly: the witnesses of theorems with hypotheses run on them. -/

/-- The sum of the bytes, wrapping. -/
def byteSum (l : Bytes) : UInt8 := l.foldl (· + ·) 0

theorem foldl_add_eq_add_byteSum (a : UInt8) (l : Bytes) : l.foldl (· + ·) a = a + byteSum l := by
  induction l generalizing a with
  | nil => simp [byteSum]
  | cons x l ih =>
    simp only [byteSum, List.foldl_cons] at ih ⊢
    rw [ih (a + x), ih (0 + x), UInt8.zero_add, UInt8.add_assoc]

theorem byteSum_append (l l' : Bytes) : byteSum (l ++ l') = byteSum l + byteSum l' := by
  rw [byteSum, List.foldl_append, foldl_add_eq_add_byteSum]
  rfl

theorem toNat_byteSum_replicate (n : Nat) (x : UInt8) :
    (byteSum (List.replicate n x)).toNat = n * x.toNat % 256 := by
  induction n with
  | zero => simp [byteSum]
  | succ n ih =>
    rw [List.replicate_succ', byteSum_append, UInt8.toNat_add, ih, Nat.add_one_mul]
    simp [byteSum]

/-- A KEM whose public key is its secret key and whose shared key is their sum with the
ciphertext. -/
def Kem.small : Kem where
  SK_LEN := 1
  PK_LEN := 1
  CT_LEN := 1
  SHK_LEN := 1
  keygen r := ([r 0], [r 0])
  encaps r pk := ([r 0 + pk.headD 0], [r 0])
  decaps sk ct := [ct.headD 0 + sk.headD 0]
  keygen_length := by simp
  encaps_length := by simp
  decaps_length := by simp

theorem Kem.small_correct : Kem.small.Correct := by
  intro r r'
  simp [Kem.small, UInt8.add_comm]

/-- An AEAD that sends the plaintext and tags it with a checksum of everything. -/
def Aead.small : Aead where
  encrypt k n ad pt := (pt, List.replicate TAG_LEN (byteSum (k ++ n ++ ad ++ pt)))
  decrypt k n ad ct tag :=
    if tag = List.replicate TAG_LEN (byteSum (k ++ n ++ ad ++ ct)) then some ct else none
  encrypt_length := by simp
  decrypt_length := by
    intro k n ad ct tag pt h
    split at h <;> simp_all

theorem Aead.small_correct : Aead.small.Correct := by
  intro k n ad pt
  simp [Aead.small]

def Primitives.small : Primitives where
  blake2b k d := List.replicate KEY_LEN (byteSum (k ++ d))
  blake2b_length := by simp
  aead := Aead.small
  xaead := Aead.small
  staticKem := Kem.small
  ephemeralKem := Kem.small

/-- A byte mix: at each byte, xor it in, rotate by three bits and multiply by an odd
constant, so that for each byte the step is a bijection of the state. -/
def byteMix (l : Bytes) : UInt8 :=
  l.foldl (fun (h x : UInt8) => let y := h ^^^ x; ((y <<< 3) ||| (y >>> 5)) * 167 + 13) 0

/-- The small instance with `byteMix` for the hash. The byte sum cannot tell keys that
repeat one byte apart once `incorrect_hmac_blake2b` has hashed them again, so under it
every cookie is valid; under the mix a cookie depends on its cookie value. -/
def Primitives.mixed : Primitives :=
  { Primitives.small with
    blake2b := fun k d => List.replicate KEY_LEN (byteMix (k ++ d))
    blake2b_length := by simp }

end Rosenpass
