/-
The transcript of a handshake (`protocol.rs`, "PROTOCOL HANDLING", IHI1–ICR7).

What the two parties contribute to a handshake is collected once: the initiator's
`Hello` (its session id, ephemeral key, and the key it encapsulates to the responder's
static key) and the responder's `Resp` (its session id and the keys it encapsulates to
the initiator's ephemeral and static keys). The chaining-key states both sides pass
through, and the tags of the three messages, are functions of these two and of the
biscuit. Each message is then described by the fields it carries (`initHelloFields`,
…) and by the envelope around them: its size, its type byte, and the mac for the
receiver's static key (`Envelope.SentTo`). The `Layout` lemmas say that a message's
fields fit its envelope and do not overlap, so that a message filled in by one party
reads back, field by field, as the other party parses it.
-/
import Rosenpass.Protocol.Handlers

namespace Rosenpass

open Buffer LittleEndian

variable {P : Primitives}

/-! ## The key schedule -/

/-- What the initiator puts into a handshake (IHI2–IHI5): the static public keys of both
parties, the pre-shared key, its session id, its ephemeral public key, and the key it
encapsulates to the responder with the ciphertext. -/
structure Hello where
  spki : Bytes
  spkr : Bytes
  psk : Bytes
  sidi : Bytes
  epki : Bytes
  shk : Bytes
  sctr : Bytes

/-- What the responder adds (RHR1–RHR5): its session id, and the keys it encapsulates to the
initiator's ephemeral and static keys, with the ciphertexts. -/
structure Resp where
  sidr : Bytes
  shke : Bytes
  ecti : Bytes
  shks : Bytes
  scti : Bytes

namespace Hello

variable (P) (h : Hello)

/-- The hello of the initiator `spki` to its peer `q`, from the coins it draws. -/
def ofInitiator (env : Env) (spki : Bytes) (q : Peer) : Hello where
  spki := spki
  spkr := q.spkt
  psk := q.psk
  sidi := draw SESSION_ID_LEN env.coins.sid
  epki := (P.ephemeralKem.keygen env.coins.eski).2
  shk := (P.staticKem.encaps env.coins.staticEncaps q.spkt).1
  sctr := (P.staticKem.encaps env.coins.staticEncaps q.spkt).2

/-- IHI1–IHI5. -/
def s₅ : HandshakeState :=
  let s := { HandshakeState.zero with sidi := h.sidi }.init P h.spkr
  let s := (s.mix P h.sidi).mix P h.epki
  ((s.mix P h.spkr).mix P h.shk).mix P h.sctr

/-- IHI6: the initiator's id, encrypted. -/
def pidic : Bytes := ((h.s₅ P).encryptAndMix P (P.hash P.peerid h.spki)).1

/-- IHI6 and IHI7. -/
def s₇ : HandshakeState := (((h.s₅ P).encryptAndMix P (P.hash P.peerid h.spki)).2.mix P h.spki).mix P h.psk

/-- IHI8: the tag of the InitHello. -/
def auth : Bytes := ((h.s₇ P).encryptAndMix P []).1

/-- The state both parties hold after the InitHello. -/
def s₈ : HandshakeState := ((h.s₇ P).encryptAndMix P []).2

@[simp] theorem sidi_s₈ : (h.s₈ P).sidi = h.sidi := rfl

end Hello

namespace Resp

variable (P) (h : Hello) (r : Resp) (bis : Bytes)

/-- The response of a responder to the hello `h`, from the coins it draws. -/
def ofResponder (env : Env) (h : Hello) : Resp where
  sidr := draw SESSION_ID_LEN env.coins.sid
  shke := (P.ephemeralKem.encaps env.coins.ephemeralEncaps h.epki).1
  ecti := (P.ephemeralKem.encaps env.coins.ephemeralEncaps h.epki).2
  shks := (P.staticKem.encaps env.coins.staticEncaps h.spki).1
  scti := (P.staticKem.encaps env.coins.staticEncaps h.spki).2

/-- RHR1–RHR5: the state the biscuit keeps. -/
def s₅ : HandshakeState :=
  let s := { h.s₈ P with sidr := r.sidr }
  let s := (s.mix P r.sidr).mix P h.sidi
  let s := ((s.mix P h.epki).mix P r.shke).mix P r.ecti
  ((s.mix P h.spki).mix P r.shks).mix P r.scti

/-- RHR7: the tag of the RespHello, over the state with the biscuit mixed in (RHR6). -/
def auth : Bytes := (((r.s₅ P h).mix P bis).encryptAndMix P []).1

/-- RHR7 and ICI3. -/
def s₉ : HandshakeState := ((((r.s₅ P h).mix P bis).encryptAndMix P []).2.mix P h.sidi).mix P r.sidr

/-- ICI4: the tag of the InitConf. -/
def confAuth : Bytes := ((r.s₉ P h bis).encryptAndMix P []).1

/-- The state both parties go live with. -/
def final : HandshakeState := ((r.s₉ P h bis).encryptAndMix P []).2

@[simp] theorem sidi_s₉ : (r.s₉ P h bis).sidi = h.sidi := rfl

@[simp] theorem sidr_final : (r.final P h bis).sidr = r.sidr := rfl

end Resp

/-! ## Messages as they are sent -/

namespace Envelope

/-- The mac of an envelope around `n` payload bytes is the one `check_seal` of the server
with the public key `spk` expects. -/
def MacFor (P : Primitives) (n : Nat) (spk m : Bytes) : Prop :=
  (mac n).get m = (P.hash (P.hash P.mac spk) ((macSpan n).get m)).take 16

/-- A message of the type `t` around `n` payload bytes, sealed for the server with the
public key `spk`: what `handle_msg` of that server takes past its checks of the size and
the seal. -/
def SentTo (P : Primitives) (n : Nat) (t : MsgType) (spk m : Bytes) : Prop :=
  m.length = size n ∧ m.headD 0 = t.toU8 ∧ MacFor P n spk m

theorem checkSeal_of_macFor {srv : CryptoServer} {n : Nat} {m : Bytes} (h : MacFor P n srv.spkm m) :
    checkSeal P srv n m = true := by
  have hm : (mac n).get m = _ := h
  simp only [checkSeal, ConstantTime.memcmp, hm, beq_self_eq_true]

/-- A field of the payload of a message of the right size has the field's size. -/
theorem SentTo.length_get {n : Nat} {t : MsgType} {spk m : Bytes} (hm : SentTo P n t spk m) {f : Field}
    (hf : f.stop ≤ n) : ((field f).get m).length = f.len :=
  Field.length_get _ (by rw [hm.1]; simp only [field, size, Field.stop] at hf ⊢; omega)

theorem MacFor.take {n : Nat} {spk m : Bytes} (h : MacFor P n spk m) : MacFor P n spk (m.take (size n)) := by
  have hspan : (macSpan n).stop ≤ size n := by simp [macSpan, size, Field.stop]; omega
  rw [MacFor, Field.get_take _ (mac_stop_le n), Field.get_take _ hspan]
  exact h

/-- The envelope at the front of a buffer that holds one, of its type and sealed for `spk`. -/
theorem sentTo_take {n : Nat} {t : MsgType} {spk m : Bytes} (hlen : size n ≤ m.length) (hty : m.headD 0 = t.toU8)
    (hmac : MacFor P n spk m) : SentTo P n t spk (m.take (size n)) := by
  refine ⟨by simp [hlen], ?_, hmac.take⟩
  rw [List.headD_take (by simp [size]), hty]

/-- The message `m` holds in each field of `ws` the value beside it. -/
def Carries : List (Field × Bytes) → Bytes → Prop
  | [], _ => True
  | (f, v) :: ws, m => f.get m = v ∧ Carries ws m

theorem carries_iff {ws : List (Field × Bytes)} {m : Bytes} : Carries ws m ↔ ∀ w ∈ ws, w.1.get m = w.2 := by
  induction ws with
  | nil => simp [Carries]
  | cons w ws ih =>
    obtain ⟨f, v⟩ := w
    simp [Carries, ih]

/-- Payload fields of an envelope around `n` bytes, each with a value of its size, none
overlapping another: what a handler writes into a message. -/
structure Layout (n : Nat) (ws : List (Field × Bytes)) : Prop where
  fields : ∀ w ∈ ws, ∃ f : Field, w.1 = field f ∧ f.stop ≤ n ∧ w.2.length = f.len
  disjoint : ws.Pairwise fun w w' => w.1.Disjoint w'.1

theorem Layout.fits {n len : Nat} {ws : List (Field × Bytes)} (hl : Layout n ws) (hlen : size n ≤ len) :
    Field.Fits len ws := by
  intro w hw
  obtain ⟨f, hf, hfn, hv⟩ := hl.fields w hw
  rw [hf]
  exact ⟨hv, by simp only [field, size, Field.stop] at hfn hlen ⊢; omega⟩

/-- The envelope at the front of a buffer that agrees, on the payload, with a buffer the
fields `ws` were stored in carries them. -/
theorem Layout.carries_take {n : Nat} {ws : List (Field × Bytes)} {tx tx' : Bytes} (hl : Layout n ws)
    (hlen : size n ≤ tx.length)
    (hpl : ∀ f : Field, f.stop ≤ n → (field f).get tx' = (field f).get (Field.setAll ws tx)) :
    Carries ws (tx'.take (size n)) := by
  refine carries_iff.2 fun w hw => ?_
  obtain ⟨f, hf, hfn, -⟩ := hl.fields w hw
  rw [hf, Field.get_take _ (by simp only [field, size, Field.stop] at hfn ⊢; omega), hpl f hfn, ← hf]
  exact Field.get_setAll_of_mem (hl.fits hlen) hl.disjoint hw

end Envelope

/-! ## The InitHello -/

/-- The fields of the InitHello of the hello `h`, in the order `handle_initiation` stores
them. -/
def initHelloFields (P : Primitives) (h : Hello) : List (Field × Bytes) :=
  [(Envelope.field InitHello.sidi, h.sidi), (Envelope.field (InitHello.epki P), h.epki),
    (Envelope.field (InitHello.sctr P), h.sctr), (Envelope.field (InitHello.pidic P), h.pidic P),
    (Envelope.field (InitHello.auth P), h.auth P)]

/-- The InitHello of the hello `h`, as the responder receives it. -/
def InitHelloOf (P : Primitives) (h : Hello) (m : Bytes) : Prop :=
  Envelope.SentTo P (InitHello.size P) .InitHello h.spkr m ∧ Envelope.Carries (initHelloFields P h) m

/-- The lengths of the fields of a hello that the InitHello has room for. -/
structure Hello.Sized (P : Primitives) (h : Hello) : Prop where
  sidi : h.sidi.length = SESSION_ID_LEN
  epki : h.epki.length = P.ephemeralKem.PK_LEN
  sctr : h.sctr.length = P.staticKem.CT_LEN

theorem Hello.sized_ofInitiator (env : Env) (spki : Bytes) (q : Peer) : (Hello.ofInitiator P env spki q).Sized P :=
  ⟨length_draw _ _, (P.ephemeralKem.keygen_length _).2, (P.staticKem.encaps_length _ _).2⟩

theorem Hello.length_pidic (h : Hello) : (h.pidic P).length = TAG_LEN + 32 := by
  simp [Hello.pidic, KEY_LEN]
  omega

theorem Hello.length_auth (h : Hello) : (h.auth P).length = TAG_LEN := by
  simp [Hello.auth]

/-- The fields of an InitHello as `handle_initiation` stores them. -/
theorem initHello_layout {h : Hello} (hs : h.Sized P) : Envelope.Layout (InitHello.size P) (initHelloFields P h) := by
  have hp := h.length_pidic (P := P)
  have ha := h.length_auth (P := P)
  refine ⟨fun w hw => ?_, ?_⟩
  · simp only [initHelloFields, List.mem_cons, List.not_mem_nil, or_false] at hw
    rcases hw with rfl | rfl | rfl | rfl | rfl <;> refine ⟨_, rfl, ?_, ?_⟩ <;>
      simp only [InitHello.sidi, InitHello.epki, InitHello.sctr, InitHello.pidic, InitHello.auth, InitHello.size,
        Field.stop, hs.sidi, hs.epki, hs.sctr, hp, ha, SESSION_ID_LEN] <;> omega
  · simp only [initHelloFields, List.pairwise_cons, List.mem_cons, List.not_mem_nil, or_false, forall_eq_or_imp,
      forall_eq, false_implies, implies_true, List.Pairwise.nil, and_true, Envelope.field, InitHello.sidi,
      InitHello.epki, InitHello.sctr, InitHello.pidic, InitHello.auth, Field.Disjoint, Field.stop]
    omega

/-! ## The RespHello -/

namespace Hello

variable (h : Hello)

/-- IHR1–IHR5: the responder decapsulates what the initiator encapsulated. -/
theorem decapsAndMix_s₄ {sk : Bytes} (hdec : P.staticKem.decaps sk h.sctr = h.shk) :
    ((({ HandshakeState.zero with sidi := h.sidi }.init P h.spkr).mix P h.sidi).mix P h.epki).decapsAndMix P
      P.staticKem sk h.spkr h.sctr = h.s₅ P := by
  rw [HandshakeState.decapsAndMix, hdec]
  rfl

theorem decryptAndMix_pidic (ha : P.aead.Correct) :
    (h.s₅ P).decryptAndMix P (h.pidic P) = .ok (P.hash P.peerid h.spki, ((h.s₅ P).encryptAndMix P (P.hash P.peerid h.spki)).2) :=
  HandshakeState.decryptAndMix_encryptAndMix ha _ _

theorem s₇_eq : ((((h.s₅ P).encryptAndMix P (P.hash P.peerid h.spki)).2.mix P h.spki).mix P h.psk) = h.s₇ P := rfl

theorem decryptAndMix_auth (ha : P.aead.Correct) : (h.s₇ P).decryptAndMix P (h.auth P) = .ok ([], h.s₈ P) :=
  HandshakeState.decryptAndMix_encryptAndMix ha _ _

end Hello

/-- The fields of the RespHello answering the hello `h` with the response `r` and the
biscuit `bis`, in the order `handle_init_hello` stores them. -/
def respHelloFields (P : Primitives) (h : Hello) (r : Resp) (bis : Bytes) : List (Field × Bytes) :=
  [(Envelope.field RespHello.sidi, h.sidi), (Envelope.field RespHello.sidr, r.sidr),
    (Envelope.field (RespHello.ecti P), r.ecti), (Envelope.field (RespHello.scti P), r.scti),
    (Envelope.field (RespHello.biscuit P), bis), (Envelope.field (RespHello.auth P), r.auth P h bis)]

/-- The RespHello of the response `r` to the hello `h` with the biscuit `bis`, as the
initiator receives it. -/
def RespHelloOf (P : Primitives) (h : Hello) (r : Resp) (bis m : Bytes) : Prop :=
  Envelope.SentTo P (RespHello.size P) .RespHello h.spki m ∧ Envelope.Carries (respHelloFields P h r bis) m

/-- The lengths of the fields of a response that the RespHello has room for. -/
structure Resp.Sized (P : Primitives) (r : Resp) : Prop where
  sidr : r.sidr.length = SESSION_ID_LEN
  ecti : r.ecti.length = P.ephemeralKem.CT_LEN
  scti : r.scti.length = P.staticKem.CT_LEN

theorem Resp.sized_ofResponder (env : Env) (h : Hello) : (Resp.ofResponder P env h).Sized P :=
  ⟨length_draw _ _, (P.ephemeralKem.encaps_length _ _).2, (P.staticKem.encaps_length _ _).2⟩

theorem Resp.length_auth (h : Hello) (r : Resp) (bis : Bytes) : (r.auth P h bis).length = TAG_LEN := by
  simp [Resp.auth]

theorem respHello_layout {h : Hello} {r : Resp} {bis : Bytes} (hh : h.sidi.length = SESSION_ID_LEN) (hr : r.Sized P)
    (hbis : bis.length = BISCUIT_CT_LEN) : Envelope.Layout (RespHello.size P) (respHelloFields P h r bis) := by
  have ha := r.length_auth (P := P) h bis
  refine ⟨fun w hw => ?_, ?_⟩
  · simp only [respHelloFields, List.mem_cons, List.not_mem_nil, or_false] at hw
    rcases hw with rfl | rfl | rfl | rfl | rfl | rfl <;> refine ⟨_, rfl, ?_, ?_⟩ <;>
      simp only [RespHello.sidi, RespHello.sidr, RespHello.ecti, RespHello.scti, RespHello.biscuit, RespHello.auth,
        RespHello.size, Field.stop, hh, hr.sidr, hr.ecti, hr.scti, hbis, ha, SESSION_ID_LEN] <;> omega
  · simp only [respHelloFields, List.pairwise_cons, List.mem_cons, List.not_mem_nil, or_false, forall_eq_or_imp,
      forall_eq, false_implies, implies_true, List.Pairwise.nil, and_true, Envelope.field, RespHello.sidi,
      RespHello.sidr, RespHello.ecti, RespHello.scti, RespHello.biscuit, RespHello.auth, Field.Disjoint, Field.stop]
    omega

/-! ## The InitConf -/

namespace Resp

variable (h : Hello) (r : Resp) (bis : Bytes)

/-- RHI3–RHI5: decapsulating what the responder encapsulated, the initiator reaches the
state the biscuit keeps. -/
theorem decapsAndMix_s₅ {eski sski : Bytes} (he : P.ephemeralKem.decaps eski r.ecti = r.shke)
    (hs : P.staticKem.decaps sski r.scti = r.shks) :
    (((({ h.s₈ P with sidr := r.sidr }.mix P r.sidr).mix P h.sidi).decapsAndMix P P.ephemeralKem eski h.epki
      r.ecti).decapsAndMix P P.staticKem sski h.spki r.scti) = r.s₅ P h := by
  rw [HandshakeState.decapsAndMix, HandshakeState.decapsAndMix, he, hs]
  rfl

theorem decryptAndMix_auth (ha : P.aead.Correct) :
    ((r.s₅ P h).mix P bis).decryptAndMix P (r.auth P h bis) =
      .ok ([], (((r.s₅ P h).mix P bis).encryptAndMix P []).2) :=
  HandshakeState.decryptAndMix_encryptAndMix ha _ _

theorem s₉_eq : (((((r.s₅ P h).mix P bis).encryptAndMix P []).2.mix P h.sidi).mix P r.sidr) = r.s₉ P h bis := rfl

theorem decryptAndMix_confAuth (ha : P.aead.Correct) :
    (r.s₉ P h bis).decryptAndMix P (r.confAuth P h bis) = .ok ([], r.final P h bis) :=
  HandshakeState.decryptAndMix_encryptAndMix ha _ _

end Resp

/-- The fields of the InitConf that ends the exchange of the hello `h` and the response `r`
with the biscuit `bis`, in the order `handle_resp_hello` stores them. -/
def initConfFields (P : Primitives) (h : Hello) (r : Resp) (bis : Bytes) : List (Field × Bytes) :=
  [(Envelope.field InitConf.sidi, h.sidi), (Envelope.field InitConf.sidr, r.sidr),
    (Envelope.field InitConf.biscuit, bis), (Envelope.field InitConf.auth, r.confAuth P h bis)]

/-- The InitConf of that exchange, as the responder receives it. -/
def InitConfOf (P : Primitives) (h : Hello) (r : Resp) (bis m : Bytes) : Prop :=
  Envelope.SentTo P InitConf.size .InitConf h.spkr m ∧ Envelope.Carries (initConfFields P h r bis) m

theorem Resp.length_confAuth (h : Hello) (r : Resp) (bis : Bytes) : (r.confAuth P h bis).length = TAG_LEN := by
  simp [Resp.confAuth]

theorem initConf_layout {h : Hello} {r : Resp} {bis : Bytes} (hh : h.sidi.length = SESSION_ID_LEN)
    (hr : r.sidr.length = SESSION_ID_LEN) (hbis : bis.length = BISCUIT_CT_LEN) :
    Envelope.Layout InitConf.size (initConfFields P h r bis) := by
  have ha := r.length_confAuth (P := P) h bis
  refine ⟨fun w hw => ?_, ?_⟩
  · simp only [initConfFields, List.mem_cons, List.not_mem_nil, or_false] at hw
    rcases hw with rfl | rfl | rfl | rfl <;> refine ⟨_, rfl, ?_, ?_⟩ <;>
      simp only [InitConf.sidi, InitConf.sidr, InitConf.biscuit, InitConf.auth, InitConf.size, Field.stop, hh, hr,
        hbis, ha, SESSION_ID_LEN] <;> omega
  · simp only [initConfFields, List.pairwise_cons, List.mem_cons, List.not_mem_nil, or_false, forall_eq_or_imp,
      forall_eq, false_implies, implies_true, List.Pairwise.nil, and_true, Envelope.field, InitConf.sidi,
      InitConf.sidr, InitConf.biscuit, InitConf.auth, Field.Disjoint, Field.stop]
    omega

/-! ## The acknowledgement -/

/-- The fields of the EmptyData that acknowledges on the session `ses`, under its next
nonce. -/
def emptyDataFields (P : Primitives) (ses : Session) : List (Field × Bytes) :=
  [(Envelope.field EmptyData.sid, ses.sidt), (Envelope.field EmptyData.ctr, bytes 8 ses.txnm.toNat),
    (Envelope.field EmptyData.auth, P.aeadEncrypt ses.txkm (bytes 8 ses.txnm.toNat ++ zeros 4) [] [])]

/-- That EmptyData, as the peer with the static key `spk` receives it. -/
def EmptyDataOf (P : Primitives) (spk : Bytes) (ses : Session) (m : Bytes) : Prop :=
  Envelope.SentTo P EmptyData.size .EmptyData spk m ∧ Envelope.Carries (emptyDataFields P ses) m

theorem emptyData_layout {ses : Session} (hsid : ses.sidt.length = SESSION_ID_LEN) :
    Envelope.Layout EmptyData.size (emptyDataFields P ses) := by
  refine ⟨fun w hw => ?_, ?_⟩
  · simp only [emptyDataFields, List.mem_cons, List.not_mem_nil, or_false] at hw
    rcases hw with rfl | rfl | rfl <;> refine ⟨_, rfl, ?_, ?_⟩ <;>
      simp [EmptyData.sid, EmptyData.ctr, EmptyData.auth, EmptyData.size, Field.stop, hsid, SESSION_ID_LEN, TAG_LEN]
  · simp only [emptyDataFields, List.pairwise_cons, List.mem_cons, List.not_mem_nil, or_false, forall_eq_or_imp,
      forall_eq, false_implies, implies_true, List.Pairwise.nil, and_true, Envelope.field, EmptyData.sid,
      EmptyData.ctr, EmptyData.auth, Field.Disjoint, Field.stop]
    omega

end Rosenpass
