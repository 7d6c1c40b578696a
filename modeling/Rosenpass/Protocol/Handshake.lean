/-
The handshake state and its operations (`protocol.rs`, "CRYPTO/HANDSHAKE HANDLING").

A `HandshakeState` carries the chaining key `ck`; every step of the protocol mixes
something into it (`mix`: `ck ← hash(hash(ck, mix), a)`), and the keys of the
handshake and of the session are hashes of it. The operations that take `&mut self`
and return a `Result` change only the local handshake state, which the handlers drop on
an error, so they are functions returning the new state (and what they write).
`store_biscuit` is the one that changes the server: it consumes a biscuit number and
may rotate the biscuit key. `load_biscuit` rebuilds the responder's state from a
biscuit and refuses one older than the last the peer used.
-/
import Rosenpass.Protocol.Database
import Rosenpass.ConstantTime

namespace Rosenpass

open Buffer

variable (P : Primitives)

namespace HandshakeState

def zero : HandshakeState := { sidi := zeros 4, sidr := zeros 4, ck := zeros KEY_LEN }

def erase (hs : HandshakeState) : HandshakeState := { hs with ck := zeros KEY_LEN }

/-- `init(spkr)`: the chaining key of a handshake with the responder `spkr`. -/
def init (hs : HandshakeState) (spkr : Bytes) : HandshakeState := { hs with ck := P.hash P.ckinit spkr }

/-- `mix(a)`. -/
def mix (hs : HandshakeState) (a : Bytes) : HandshakeState :=
  { hs with ck := P.hash (P.hash hs.ck P.mixDomain) a }

/-- The key `encrypt_and_mix` and `decrypt_and_mix` use. -/
def hsKey (hs : HandshakeState) : Bytes := P.hash hs.ck P.hsEnc

/-- `encrypt_and_mix(ct, pt)`: the ciphertext written to `ct`, and the state with it mixed in. -/
def encryptAndMix (hs : HandshakeState) (pt : Bytes) : Bytes × HandshakeState :=
  let ct := P.aeadEncrypt (hs.hsKey P) (zeros AEAD_NONCE_LEN) [] pt
  (ct, hs.mix P ct)

/-- `decrypt_and_mix(pt, ct)`: the plaintext, and the state with the ciphertext mixed in. -/
def decryptAndMix (hs : HandshakeState) (ct : Bytes) : Except Fault (Bytes × HandshakeState) :=
  match P.aeadDecrypt (hs.hsKey P) (zeros AEAD_NONCE_LEN) [] ct with
  | .ok pt => .ok (pt, hs.mix P ct)
  | .error _ => .error (.error "aead::Error")

/-- `encaps_and_mix::<T>(ct, pk)`: the ciphertext, and the state with the public key, the
shared key and the ciphertext mixed in. -/
def encapsAndMix (K : Kem) (r : Rand) (hs : HandshakeState) (pk : Bytes) : Bytes × HandshakeState :=
  let (shk, ct) := K.encaps r pk
  (ct, ((hs.mix P pk).mix P shk).mix P ct)

/-- `decaps_and_mix::<T>(sk, pk, ct)`. -/
def decapsAndMix (K : Kem) (hs : HandshakeState) (sk pk ct : Bytes) : HandshakeState :=
  ((hs.mix P pk).mix P (K.decaps sk ct)).mix P ct

/-- The additional data of a biscuit. -/
def biscuitAd (spkm sidi sidr : Bytes) : Bytes :=
  P.hash (P.hash (P.hash P.biscuitAd spkm) sidi) sidr

/-- The first bit of the biscuit nonce names the biscuit key. -/
def markNonce (n : Bytes) (bk : BiscuitKeyPtr) : Bytes :=
  match n with
  | b :: rest => ((b &&& (0x7f : UInt8)) ||| ((bk.val.val.toUInt8 &&& (1 : UInt8)) <<< (7 : UInt8))) :: rest
  | [] => []

/-- `store_biscuit(srv, peer, biscuit_ct)`: the encrypted biscuit written to `biscuit_ct`,
and the state with it mixed in. -/
def storeBiscuit (env : Env) (hs : HandshakeState) (peer : PeerPtr) :
    ServerM (Bytes × HandshakeState) := do
  let p ← peer.get
  let srv ← getSrv
  let biscuit := Biscuit.ck.set hs.ck
    (Biscuit.biscuitNo.set srv.biscuitCtr (Biscuit.pidi.set (p.pidt P) (zeros BISCUIT_PT_LEN)))
  let ad := biscuitAd P srv.spkm hs.sidi hs.sidr
  -- consume the biscuit number
  modifySrv fun srv => { srv with biscuitCtr := ConstantTime.increment srv.biscuitCtr }
  let bk ← activeBiscuitKey env
  let n := markNonce (draw XAEAD_NONCE_LEN env.coins.nonce) bk
  let k := ((← getSrv).biscuitKeys bk.val).value
  let ct := P.xaeadEncrypt k n ad biscuit
  return (ct, hs.mix P ct)

/-- The biscuit key a biscuit names by its first bit. -/
def biscuitKeyOf (biscuitCt : Bytes) : BiscuitKeyPtr :=
  ⟨⟨((biscuitCt.headD 0 &&& (0x80 : UInt8)) >>> (7 : UInt8)).toNat % 2, Nat.mod_lt _ (by decide)⟩⟩

/-- `load_biscuit(srv, biscuit_ct, sidi, sidr)`: the peer, the biscuit number and the
responder's handshake state. -/
def loadBiscuit (srv : CryptoServer) (biscuitCt sidi sidr : Bytes) :
    Except Fault (PeerPtr × Bytes × HandshakeState) := do
  let bk := biscuitKeyOf biscuitCt
  let ad := biscuitAd P srv.spkm sidi sidr
  let biscuit ← match P.xaeadDecrypt (srv.biscuitKeys bk.val).value ad biscuitCt with
    | .ok pt => pure pt
    | .error _ => throw (.error "aead::Error")
  let no := Biscuit.biscuitNo.get biscuit
  let hs := ({ sidi, sidr, ck := Biscuit.ck.get biscuit } : HandshakeState).mix P biscuitCt
  let peer ← match srv.findPeer (Biscuit.pidi.get biscuit) with
    | some peer => pure peer
    | none => throw (.error "Could not decode biscuit for peer \x7bpid:?\x7d: No such peer.")
  let p ← srv.peer peer.val
  -- the most recent biscuit may come again, in a retransmitted InitConf
  match ConstantTime.compare no p.biscuitUsed with
  | none => throw (.panic "assertion failed: a.len() == b.len()")
  | some c =>
    if 0 ≤ c then pure (peer, no, hs)
    else throw (.error "Rejecting biscuit: Outdated biscuit number")

/-- `enter_live(srv, role)`: the session the handshake leads to. -/
def enterLive (hs : HandshakeState) (now : Timing) (role : HandshakeRole) : Session :=
  let tki := P.hash hs.ck P.iniEnc
  let tkr := P.hash hs.ck P.resEnc
  match role with
  | .Initiator =>
    { createdAt := now, sidm := hs.sidi, sidt := hs.sidr, handshakeRole := role, ck := hs.ck,
      txkm := tki, txkt := tkr, txnm := 0, txnt := 0 }
  | .Responder =>
    { createdAt := now, sidm := hs.sidr, sidt := hs.sidi, handshakeRole := role, ck := hs.ck,
      txkm := tkr, txkt := tki, txnm := 0, txnt := 0 }

end HandshakeState

/-- `InitiatorHandshake::zero_with_timestamp(srv)`. -/
def InitiatorHandshake.zeroWithTimestamp (env : Env) : InitiatorHandshake where
  createdAt := env.now
  next := .RespHello
  core := HandshakeState.zero
  eski := zeros P.ephemeralKem.SK_LEN
  epki := zeros P.ephemeralKem.PK_LEN
  txRetryAt := 0
  txCount := 0
  txLen := 0
  txBuf := zeros MAX_MESSAGE_LEN
  cookieValue := CookieStore.new COOKIE_VALUE_LEN env.coins.cookieValue

/-- `osk(peer)`: the key exported for the peer's current session. -/
def CryptoServer.osk (srv : CryptoServer) (peer : PeerPtr) : Except Fault Bytes := do
  let p ← srv.peer peer.val
  match p.session with
  | some s => pure (P.hash s.ck P.osk)
  | none => throw (.error "No current session for peer \x7b:?\x7d")

/-! ## What the operations keep -/

namespace HandshakeState

variable {P}

@[simp] theorem sidi_mix (hs : HandshakeState) (a : Bytes) : (hs.mix P a).sidi = hs.sidi := rfl
@[simp] theorem sidr_mix (hs : HandshakeState) (a : Bytes) : (hs.mix P a).sidr = hs.sidr := rfl

@[simp] theorem sidi_encryptAndMix (hs : HandshakeState) (pt : Bytes) :
    (hs.encryptAndMix P pt).2.sidi = hs.sidi := rfl

@[simp] theorem sidr_encryptAndMix (hs : HandshakeState) (pt : Bytes) :
    (hs.encryptAndMix P pt).2.sidr = hs.sidr := rfl

@[simp] theorem sidi_encapsAndMix (K : Kem) (r : Rand) (hs : HandshakeState) (pk : Bytes) :
    (hs.encapsAndMix P K r pk).2.sidi = hs.sidi := rfl

@[simp] theorem sidr_encapsAndMix (K : Kem) (r : Rand) (hs : HandshakeState) (pk : Bytes) :
    (hs.encapsAndMix P K r pk).2.sidr = hs.sidr := rfl

@[simp] theorem sidi_decapsAndMix (K : Kem) (hs : HandshakeState) (sk pk ct : Bytes) :
    (hs.decapsAndMix P K sk pk ct).sidi = hs.sidi := rfl

@[simp] theorem sidr_decapsAndMix (K : Kem) (hs : HandshakeState) (sk pk ct : Bytes) :
    (hs.decapsAndMix P K sk pk ct).sidr = hs.sidr := rfl

@[simp] theorem length_ck_mix (hs : HandshakeState) (a : Bytes) : (hs.mix P a).ck.length = KEY_LEN :=
  P.length_hash _ _

@[simp] theorem length_ck_encapsAndMix (K : Kem) (r : Rand) (hs : HandshakeState) (pk : Bytes) :
    (hs.encapsAndMix P K r pk).2.ck.length = KEY_LEN :=
  length_ck_mix _ _

@[simp] theorem length_encapsAndMix_fst (K : Kem) (r : Rand) (hs : HandshakeState) (pk : Bytes) :
    (hs.encapsAndMix P K r pk).1.length = K.CT_LEN :=
  (K.encaps_length r pk).2

@[simp] theorem length_encryptAndMix_fst (hs : HandshakeState) (pt : Bytes) :
    (hs.encryptAndMix P pt).1.length = pt.length + TAG_LEN :=
  P.length_aeadEncrypt _ _ _ _

@[simp] theorem length_markNonce (n : Bytes) (bk : BiscuitKeyPtr) : (markNonce n bk).length = n.length := by
  cases n <;> rfl

/-- The bit `markNonce` sets is the one `biscuitKeyOf` reads, for each of the 256 bytes. -/
theorem markBit_roundtrip (b : UInt8) (k : Fin 2) :
    ((((b &&& (0x7f : UInt8)) ||| ((k.val.toUInt8 &&& (1 : UInt8)) <<< (7 : UInt8))) &&& (0x80 : UInt8)) >>>
      (7 : UInt8)).toNat % 2 = k.val := by
  have h : ∀ n : Fin 256, ∀ k : Fin 2, ((((UInt8.ofFin n &&& (0x7f : UInt8)) |||
      ((k.val.toUInt8 &&& (1 : UInt8)) <<< (7 : UInt8))) &&& (0x80 : UInt8)) >>> (7 : UInt8)).toNat % 2 = k.val := by
    decide +kernel
  simpa using h b.toFin k

/-- A biscuit names the key whose number was marked into its nonce. -/
theorem biscuitKeyOf_markNonce {n rest : Bytes} (hn : n ≠ []) (bk : BiscuitKeyPtr) :
    biscuitKeyOf (markNonce n bk ++ rest) = bk := by
  obtain ⟨b, n, rfl⟩ := List.exists_cons_of_ne_nil hn
  obtain ⟨k⟩ := bk
  simp only [biscuitKeyOf, markNonce, List.cons_append, List.headD_cons, BiscuitKeyPtr.mk.injEq]
  exact Fin.ext (markBit_roundtrip b k)

/-- The key a biscuit names is the one `store_biscuit` marked into its nonce. -/
theorem biscuitKeyOf_xaeadEncrypt (key ad pt : Bytes) (r : Rand) (bk : BiscuitKeyPtr) :
    biscuitKeyOf (P.xaeadEncrypt key (markNonce (draw XAEAD_NONCE_LEN r) bk) ad pt) = bk := by
  have hn : draw XAEAD_NONCE_LEN r ≠ [] := by
    rw [← List.length_pos_iff, length_draw]
    decide
  simp only [Primitives.xaeadEncrypt, List.append_assoc]
  exact biscuitKeyOf_markNonce hn bk

section BiscuitPlaintext

variable {pid no ck : Bytes}

theorem length_biscuitPt_pidi (hpid : pid.length = KEY_LEN) :
    (Biscuit.pidi.set pid (zeros BISCUIT_PT_LEN)).length = BISCUIT_PT_LEN :=
  (Field.length_set _ hpid (by decide)).trans (by simp [zeros])

theorem length_biscuitPt_biscuitNo (hpid : pid.length = KEY_LEN) (hno : no.length = BISCUIT_ID_LEN) :
    (Biscuit.biscuitNo.set no (Biscuit.pidi.set pid (zeros BISCUIT_PT_LEN))).length = BISCUIT_PT_LEN :=
  (Field.length_set _ hno (by rw [length_biscuitPt_pidi hpid]; decide)).trans (length_biscuitPt_pidi hpid)

/-- The plaintext `store_biscuit` encrypts fills the whole biscuit. -/
theorem length_biscuitPt (hpid : pid.length = KEY_LEN) (hno : no.length = BISCUIT_ID_LEN)
    (hck : ck.length = KEY_LEN) :
    (Biscuit.ck.set ck (Biscuit.biscuitNo.set no (Biscuit.pidi.set pid (zeros BISCUIT_PT_LEN)))).length =
      BISCUIT_PT_LEN :=
  (Field.length_set _ hck (by rw [length_biscuitPt_biscuitNo hpid hno]; decide)).trans
    (length_biscuitPt_biscuitNo hpid hno)

/-- The plaintext `store_biscuit` encrypts carries the biscuit number it was given. -/
theorem biscuitNo_biscuitPt (hpid : pid.length = KEY_LEN) (hno : no.length = BISCUIT_ID_LEN)
    (hck : ck.length = KEY_LEN) :
    Biscuit.biscuitNo.get (Biscuit.ck.set ck (Biscuit.biscuitNo.set no (Biscuit.pidi.set pid (zeros BISCUIT_PT_LEN)))) =
      no := by
  rw [Field.get_set_of_disjoint (by decide) hck (by rw [length_biscuitPt_biscuitNo hpid hno]; decide)]
  exact Field.get_set_self _ hno (by rw [length_biscuitPt_pidi hpid]; decide)

/-- The plaintext carries the peer id it was given. -/
theorem pidi_biscuitPt (hpid : pid.length = KEY_LEN) (hno : no.length = BISCUIT_ID_LEN)
    (hck : ck.length = KEY_LEN) :
    Biscuit.pidi.get (Biscuit.ck.set ck (Biscuit.biscuitNo.set no (Biscuit.pidi.set pid (zeros BISCUIT_PT_LEN)))) =
      pid := by
  rw [Field.get_set_of_disjoint (by decide) hck (by rw [length_biscuitPt_biscuitNo hpid hno]; decide),
    Field.get_set_of_disjoint (by decide) hno (by rw [length_biscuitPt_pidi hpid]; decide)]
  exact Field.get_set_self _ hpid (by decide)

/-- The plaintext carries the chaining key it was given. -/
theorem ck_biscuitPt (hpid : pid.length = KEY_LEN) (hno : no.length = BISCUIT_ID_LEN)
    (hck : ck.length = KEY_LEN) :
    Biscuit.ck.get (Biscuit.ck.set ck (Biscuit.biscuitNo.set no (Biscuit.pidi.set pid (zeros BISCUIT_PT_LEN)))) =
      ck :=
  Field.get_set_self _ hck (by rw [length_biscuitPt_biscuitNo hpid hno]; decide)

end BiscuitPlaintext

theorem decryptAndMix_eq_ok {hs hs' : HandshakeState} {ct pt : Bytes}
    (h : hs.decryptAndMix P ct = .ok (pt, hs')) :
    P.aeadDecrypt (hs.hsKey P) (zeros AEAD_NONCE_LEN) [] ct = .ok pt ∧ hs' = hs.mix P ct := by
  unfold decryptAndMix at h
  split at h <;> simp_all

/-- Decryption undoes `encrypt_and_mix`, and both sides end in the same state. -/
theorem decryptAndMix_encryptAndMix (h : P.aead.Correct) (hs : HandshakeState) (pt : Bytes) :
    hs.decryptAndMix P (hs.encryptAndMix P pt).1 = .ok (pt, (hs.encryptAndMix P pt).2) := by
  simp only [decryptAndMix, encryptAndMix, P.aeadDecrypt_aeadEncrypt h]

end HandshakeState

end Rosenpass
