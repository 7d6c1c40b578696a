/-
Sealing, retransmission and the message handlers (`protocol.rs`, "MESSAGE
RETRANSMISSION", "CRYPTO/HANDSHAKE HANDLING" and the `handle_*` methods).

A handler reads the received message `rx` (the whole envelope) and writes its answer
into the transmit buffer, field by field, at the offsets the envelope gives the
payload. The comments `IHI1` to `ICR7` are the source's names of the protocol steps.
Where the source mixes a field it has just copied into the answer, the model mixes the
value it copied: `copy_from_slice` makes them equal.

Every `?` is a point where the handler may return with the writes made so far, which
is what the error paths of the handlers keep: `handle_resp_conf` stores the received
nonce before it checks the tag, and `handle_cookie_reply` refreshes the cookie value
before it decrypts into it.
-/
import Rosenpass.Protocol.Handshake

namespace Rosenpass

open Buffer

variable (P : Primitives)

/-! ## Buffers -/

/-- `cpy_min(src, dst)`: copy what fits of `src` to the front of `dst`. -/
def cpyMin (src dst : Bytes) : Bytes :=
  src.take (min src.length dst.length) ++ dst.drop (min src.length dst.length)

/-- `&buf[..len]`, which panics past the end. -/
def slicePrefix (buf : Bytes) (len : Nat) : Except Fault Bytes :=
  if len ≤ buf.length then .ok (buf.take len)
  else .error (.panic "range end index out of range for slice")

/-- `truncating_cast_into::<T>(tx_buf)`: the view of the first `size` bytes of the transmit
buffer, which panics when the buffer is shorter. -/
def truncatingCastInto (size : Nat) : ServerM Unit := do
  let _ ← liftE (slicePrefix (← get).tx size)

/-- `Ref::new(rx_buf)`: the received message must have exactly the size of its type. -/
def refNew (rx : Bytes) (size : Nat) : ServerM Unit :=
  ensure (rx.length = size) RosenpassError.BufferSizeMismatch.msg

/-- Write a payload field of the envelope in the transmit buffer. -/
def writePayload (f : Field) (v : Bytes) : ServerM Unit := modifyTx ((Envelope.field f).set v)

/-! ## Seals -/

namespace Envelope

/-- `seal_cookie(peer, srv)`: the cookie, when the peer has a handshake. -/
def sealCookie (n : Nat) (peer : PeerPtr) : ServerM Unit := do
  let p ← peer.get
  match p.handshake with
  | some hs =>
    let cookie := P.hash (P.hash P.cookie hs.cookieValue.value) ((cookieSpan n).get (← get).tx)
    modifyTx ((Envelope.cookie n).set (cookie.take 16))
  | none => pure ()

/-- `seal(peer, srv)` (a keyword of Lean): the mac of everything before it, under the
peer's public key, then the cookie. -/
def sealMsg (n : Nat) (peer : PeerPtr) : ServerM Unit := do
  let p ← peer.get
  let mac := P.hash (P.hash P.mac p.spkt) ((macSpan n).get (← get).tx)
  modifyTx ((Envelope.mac n).set (mac.take 16))
  sealCookie P n peer

/-- `check_seal(srv)`: the mac is the one under the server's own public key. -/
def checkSeal (srv : CryptoServer) (n : Nat) (msg : Bytes) : Bool :=
  ConstantTime.memcmp ((mac n).get msg) ((P.hash (P.hash P.mac srv.spkm) ((macSpan n).get msg)).take 16)

end Envelope

/-- `seal_and_commit_msg(peer, msg_type, msg)`: set the type, seal, and the size. -/
def sealAndCommitMsg (peer : PeerPtr) (msgType : MsgType) (n : Nat) : ServerM Nat := do
  modifyTx (Envelope.msgType.set [msgType.toU8])
  Envelope.sealMsg P n peer
  return Envelope.size n

/-! ## Retransmission -/

/-- The delay before a retransmission: `RETRANSMIT_DELAY_BEGIN * GROWTH^min(log_GROWTH(END /
BEGIN), tx_count) * JITTER * (r + 1)`. The power `2^min(log₂ 20, n)` is `min(20, 2^n)`,
which is how it is written here. -/
def retransmitDelay (txCount : Nat) (r : Jitter) : Timing :=
  RETRANSMIT_DELAY_BEGIN *
    min (RETRANSMIT_DELAY_END / RETRANSMIT_DELAY_BEGIN) (RETRANSMIT_DELAY_GROWTH ^ txCount) *
    RETRANSMIT_DELAY_JITTER * (r.val + 1)

namespace IniHsPtr

/-- `get_mut().as_mut().with_context(..)?` and a change to the handshake. -/
def modifyHandshake (p : IniHsPtr) (f : InitiatorHandshake → InitiatorHandshake) : ServerM Unit := do
  match (← p.peer.get).handshake with
  | some hs => p.peer.modify fun q => { q with handshake := some (f hs) }
  | none => bail "No current handshake for peer \x7b:?\x7d"

/-- `register_retransmission()`. -/
def registerRetransmission (env : Env) (p : IniHsPtr) : ServerM Unit :=
  p.modifyHandshake fun hs =>
    { hs with txRetryAt := env.now + retransmitDelay hs.txCount env.coins.jitter,
              txCount := hs.txCount + 1 }

/-- `register_immediate_retransmission()`. -/
def registerImmediateRetransmission (env : Env) (p : IniHsPtr) : ServerM Unit :=
  p.modifyHandshake fun hs => { hs with txRetryAt := env.now, txCount := hs.txCount + 1 }

/-- `store_msg_for_retransmission(msg)`. -/
def storeMsgForRetransmission (env : Env) (p : IniHsPtr) (msg : Bytes) : ServerM Unit := do
  p.modifyHandshake fun hs =>
    { hs with txBuf := cpyMin msg hs.txBuf, txCount := 0, txLen := msg.length }
  p.registerRetransmission env

/-- `apply_retransmission(tx_buf)`: the stored message, with a fresh cookie. -/
def applyRetransmission (p : IniHsPtr) : ServerM Nat := do
  let hs ← match (← p.peer.get).handshake with
    | some hs => pure hs
    | none => bail "No current handshake for peer \x7b:?\x7d"
  let msg ← liftE (slicePrefix hs.txBuf hs.txLen)
  modifyTx (cpyMin msg)
  -- the stored message is sealed again as an InitHello, whatever it is
  truncatingCastInto (Envelope.size (InitHello.size P))
  Envelope.sealCookie P (InitHello.size P) p.peer
  return hs.txLen

/-- `retransmission_in()`. -/
def retransmissionIn (q : Peer) (now : Timing) : Option Timing :=
  q.handshake.map (·.txRetryAt - now)

end IniHsPtr

/-! ## Handlers -/

/-- `handle_initiation(peer, ih)`: start a handshake, writing the InitHello. -/
def handleInitiation (env : Env) (peer : PeerPtr) : ServerM PeerPtr := do
  let hs := InitiatorHandshake.zeroWithTimestamp P env
  let p ← peer.get
  let srv ← getSrv
  -- IHI1
  let core := hs.core.init P p.spkt
  -- IHI2
  let sidi := draw SESSION_ID_LEN env.coins.sid
  let core := { core with sidi }
  writePayload InitHello.sidi sidi
  -- IHI3
  let (eski, epki) := P.ephemeralKem.keygen env.coins.eski
  writePayload (InitHello.epki P) epki
  -- IHI4
  let core := (core.mix P sidi).mix P epki
  -- IHI5
  let (sctr, core) := core.encapsAndMix P P.staticKem env.coins.staticEncaps p.spkt
  writePayload (InitHello.sctr P) sctr
  -- IHI6
  let (pidic, core) := core.encryptAndMix P (srv.pidm P)
  writePayload (InitHello.pidic P) pidic
  -- IHI7
  let core := (core.mix P srv.spkm).mix P p.psk
  -- IHI8
  let (auth, core) := core.encryptAndMix P []
  writePayload (InitHello.auth P) auth
  -- the handshake is stored last
  peer.hs.insert { hs with core, eski, epki }
  return peer

/-- `handle_init_hello(ih, rh)`: answer an InitHello with a RespHello. -/
def handleInitHello (env : Env) (rx : Bytes) : ServerM PeerPtr := do
  let ih (f : Field) := (Envelope.field f).get rx
  let srv ← getSrv
  let core := { HandshakeState.zero with sidi := ih InitHello.sidi }
  -- IHR1
  let core := core.init P srv.spkm
  -- IHR4
  let core := (core.mix P (ih InitHello.sidi)).mix P (ih (InitHello.epki P))
  -- IHR5
  let core := core.decapsAndMix P P.staticKem srv.sskm srv.spkm (ih (InitHello.sctr P))
  -- IHR6
  let (peerid, core) ← liftE (core.decryptAndMix P (ih (InitHello.pidic P)))
  let peer ← match srv.findPeer peerid with
    | some peer => pure peer
    | none => bail "No such peer \x7bpeerid:?\x7d."
  -- IHR7
  let p ← peer.get
  let core := (core.mix P p.spkt).mix P p.psk
  -- IHR8
  let (_, core) ← liftE (core.decryptAndMix P (ih (InitHello.auth P)))
  -- RHR1
  let core := { core with sidr := draw SESSION_ID_LEN env.coins.sid }
  writePayload RespHello.sidi core.sidi
  writePayload RespHello.sidr core.sidr
  -- RHR3
  let core := (core.mix P core.sidr).mix P core.sidi
  -- RHR4
  let (ecti, core) := core.encapsAndMix P P.ephemeralKem env.coins.ephemeralEncaps (ih (InitHello.epki P))
  writePayload (RespHello.ecti P) ecti
  -- RHR5
  let (scti, core) := core.encapsAndMix P P.staticKem env.coins.staticEncaps p.spkt
  writePayload (RespHello.scti P) scti
  -- RHR6
  let (biscuit, core) ← core.storeBiscuit P env peer
  writePayload (RespHello.biscuit P) biscuit
  -- RHR7
  let (auth, _) := core.encryptAndMix P []
  writePayload (RespHello.auth P) auth
  return peer

/-- The panic of `unwrap()` on `None`. -/
def unwrapNone : Fault := .panic "called `Option::unwrap()` on a `None` value"

/-- `handle_resp_hello(rh, ic)`: answer a RespHello with an InitConf and go live. -/
def handleRespHello (env : Env) (rx : Bytes) : ServerM PeerPtr := do
  let rh (f : Field) := (Envelope.field f).get rx
  let srv ← getSrv
  -- RHI2
  let peer ← match ← liftE (srv.lookupHandshake (rh RespHello.sidi)) with
    | some hs => pure hs.peer
    | none => bail "Got RespHello packet for non-existent session \x7b:?\x7d"
  let hs ← match (← peer.get).handshake with
    | some hs => pure hs
    | none => throw unwrapNone
  ensure (hs.next = .RespHello) "Unexpected package in session \x7b:?\x7d. Expected \x7b:?\x7d, got \x7b:?\x7d."
  let core := { hs.core with sidr := rh RespHello.sidr }
  -- RHI3
  let core := (core.mix P (rh RespHello.sidr)).mix P (rh RespHello.sidi)
  -- RHI4
  let core := core.decapsAndMix P P.ephemeralKem hs.eski hs.epki (rh (RespHello.ecti P))
  -- RHI5
  let core := core.decapsAndMix P P.staticKem srv.sskm srv.spkm (rh (RespHello.scti P))
  -- RHI6
  let core := core.mix P (rh (RespHello.biscuit P))
  -- RHI7
  let (_, core) ← liftE (core.decryptAndMix P (rh (RespHello.auth P)))
  writePayload InitConf.sidi (rh RespHello.sidi)
  writePayload InitConf.sidr (rh RespHello.sidr)
  -- ICI3
  let core := (core.mix P (rh RespHello.sidi)).mix P (rh RespHello.sidr)
  writePayload InitConf.biscuit (rh (RespHello.biscuit P))
  -- ICI4
  let (auth, core) := core.encryptAndMix P []
  writePayload InitConf.auth auth
  -- ICI7: the handshake stays, without its secrets, for retransmitting the InitConf
  peer.session.insert (core.enterLive P env.now .Initiator)
  match (← peer.get).handshake with
  | some hs =>
    peer.modify fun q => { q with handshake := some { hs with core := hs.core.erase, next := .RespConf } }
  | none => throw unwrapNone
  return peer

/-- `handle_init_conf(ic, rc)`: go live on a fresh biscuit, and acknowledge. -/
def handleInitConf (env : Env) (rx : Bytes) : ServerM PeerPtr := do
  let ic (f : Field) := (Envelope.field f).get rx
  let srv ← getSrv
  -- ICR1
  let (peer, biscuitNo, core) ←
    liftE (HandshakeState.loadBiscuit P srv (ic InitConf.biscuit) (ic InitConf.sidi) (ic InitConf.sidr))
  -- ICR2
  let (_, core) := core.encryptAndMix P []
  -- ICR3
  let core := (core.mix P (ic InitConf.sidi)).mix P (ic InitConf.sidr)
  -- ICR4
  let (_, core) ← liftE (core.decryptAndMix P (ic InitConf.auth))
  -- ICR5
  match ConstantTime.compare biscuitNo (← peer.get).biscuitUsed with
  | none => throw (.panic "assertion failed: a.len() == b.len()")
  | some c =>
    if 0 < c then
      -- ICR6
      peer.modify fun q => { q with biscuitUsed := biscuitNo }
      -- ICR7
      peer.session.insert (core.enterLive P env.now .Responder)
      let _ ← peer.hs.take
  -- the acknowledgement, on whatever session the peer now has
  let ses ← match (← peer.get).session with
    | some ses => pure ses
    | none => bail "Cannot send acknowledgement. No session."
  writePayload EmptyData.sid ses.sidt
  let ctr := LittleEndian.bytes 8 ses.txnm.toNat
  writePayload EmptyData.ctr ctr
  -- the nonce is incremented before the encryption
  peer.modify fun q => { q with session := some { ses with txnm := ses.txnm + 1 } }
  writePayload EmptyData.auth (P.aeadEncrypt ses.txkm (ctr ++ zeros 4) [] [])
  return peer

/-- `handle_resp_conf(rc)`: the acknowledgement ends the handshake. -/
def handleRespConf (rx : Bytes) : ServerM PeerPtr := do
  let rc (f : Field) := (Envelope.field f).get rx
  let sid := rc EmptyData.sid
  let hs ← match ← liftE ((← getSrv).lookupHandshake sid) with
    | some hs => pure hs
    | none => bail "Got RespConf packet for non-existent session \x7bsid:?\x7d"
  let q ← hs.peer.get
  ensure (q.handshake.map (·.next) = some .RespConf)
    "Unexpected package in session \x7b:?\x7d. Expected \x7b:?\x7d, got \x7b:?\x7d."
  let s ← match q.session with
    | some s => pure s
    | none => bail "Cannot validate EmptyData message. Missing encryption session for \x7bsid:?\x7d"
  let n := UInt64.ofNat (LittleEndian.value (rc EmptyData.ctr))
  ensure (n ≥ s.txnt) "Stale nonce"
  hs.peer.modify fun q => { q with session := some { s with txnt := n } }
  match P.aeadDecrypt s.txkt (rc EmptyData.ctr ++ zeros 4) [] (rc EmptyData.auth) with
  | .ok _ => pure ()
  | .error _ => bail "aead::Error"
  -- no more retransmission of the InitConf
  let _ ← hs.take
  return hs.peer

/-- `handle_cookie_reply(cr)`: store the cookie and retransmit at once. -/
def handleCookieReply (env : Env) (rx : Bytes) : ServerM PeerPtr := do
  let sid := CookieReply.sid.get rx
  let srv ← getSrv
  let found ← match ← liftE (srv.lookupSession sid) with
    | some s => pure (some s.peer)
    | none => do
      let hs ← liftE (srv.lookupHandshake sid)
      pure (hs.map (·.peer))
  let peer ← match found with
    | some peer => pure peer
    | none => bail "No such peer \x7bpidr:?\x7d."
  let p ← peer.get
  let ih ← match p.handshake with
    | some ih => pure ih
    | none => bail "No last sent message for peer \x7bpidr:?\x7d to decrypt cookie reply."
  -- the mac of the last message sent
  let first ← match ih.txBuf[0]? with
    | some b => pure b
    | none => throw (.panic "index out of bounds")
  let mac ← match MsgType.tryFrom first with
    | .ok .InitHello => do
      let m ← liftE (slicePrefix ih.txBuf (Envelope.size (InitHello.size P)))
      pure ((Envelope.mac (InitHello.size P)).get m)
    | .ok .InitConf => do
      let m ← liftE (slicePrefix ih.txBuf (Envelope.size InitConf.size))
      pure ((Envelope.mac InitConf.size).get m)
    | _ => bail "No last sent message for peer \x7bpidr:?\x7d to decrypt cookie reply."
  let cookieKey := P.hash P.cookieKey p.spkt
  -- `update_mut` stamps the cookie value before the decryption fills it
  let stamp (v : Bytes) : Peer → Peer := fun q =>
    { q with handshake := q.handshake.map fun h => { h with cookieValue := h.cookieValue.update v env.now } }
  match P.xaeadDecrypt cookieKey mac (CookieReply.cookieEncrypted.get rx) with
  | .ok v => peer.modify (stamp v)
  | .error v =>
    peer.modify (stamp v)
    bail "aead::Error"
  peer.hs.registerImmediateRetransmission env
  return peer

end Rosenpass
