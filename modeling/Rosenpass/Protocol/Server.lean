/-
The entry points of the protocol (`protocol.rs`, "MESSAGE HANDLING"):
`initiate_handshake`, `handle_msg`, `handle_msg_under_load` and
`retransmit_handshake`.

`handle_msg` dispatches on the first byte, checks that the message has exactly the
size of its type and that its mac is the one under the server's own key, runs the
handler, and seals the answer. `handle_msg_under_load` admits an InitHello only with a
valid cookie, computed from the live cookie secrets and the sender's address, and
otherwise answers with a CookieReply; it reads `rx_buf[0]` before any check of the
length.
-/
import Rosenpass.Protocol.Handlers

namespace Rosenpass

open Buffer

variable (P : Primitives)

/-- `HandleMsgResult`. -/
structure HandleMsgResult where
  exchangedWith : Option PeerPtr
  resp : Option Nat
  deriving DecidableEq, Repr

/-- `initiate_handshake(peer, tx_buf)`: a new InitHello, sealed and kept for retransmission. -/
def initiateHandshake (env : Env) (peer : PeerPtr) : ServerM Nat := do
  let size := Envelope.size (InitHello.size P)
  truncatingCastInto size
  let _ ← handleInitiation P env peer
  let len ← sealAndCommitMsg P peer .InitHello (InitHello.size P)
  peer.hs.storeMsgForRetransmission env ((← get).tx.take size)
  return len

/-- The text `handle_msg` fails with when the mac does not verify. -/
def sealBroken : String := "Message seal broken!"

/-- `handle_msg(rx_buf, tx_buf)`. -/
def handleMsg (env : Env) (rx : Bytes) : ServerM HandleMsgResult := do
  ensure (rx ≠ []) "received empty message, ignoring it"
  let srv ← getSrv
  let (peer, len, exchanged) ← match MsgType.tryFrom (rx.headD 0) with
    | .ok .InitHello => do
      let n := InitHello.size P
      refNew rx (Envelope.size n)
      ensure (Envelope.checkSeal P srv n rx) sealBroken
      truncatingCastInto (Envelope.size (RespHello.size P))
      let peer ← handleInitHello P env rx
      let len ← sealAndCommitMsg P peer .RespHello (RespHello.size P)
      pure (peer, len, false)
    | .ok .RespHello => do
      let n := RespHello.size P
      refNew rx (Envelope.size n)
      ensure (Envelope.checkSeal P srv n rx) sealBroken
      truncatingCastInto (Envelope.size InitConf.size)
      let peer ← handleRespHello P env rx
      let len ← sealAndCommitMsg P peer .InitConf InitConf.size
      peer.hs.storeMsgForRetransmission env ((← get).tx.take len)
      pure (peer, len, true)
    | .ok .InitConf => do
      let n := InitConf.size
      refNew rx (Envelope.size n)
      ensure (Envelope.checkSeal P srv n rx) sealBroken
      truncatingCastInto (Envelope.size EmptyData.size)
      let peer ← handleInitConf P env rx
      let len ← sealAndCommitMsg P peer .EmptyData EmptyData.size
      pure (peer, len, true)
    | .ok .EmptyData => do
      let n := EmptyData.size
      refNew rx (Envelope.size n)
      ensure (Envelope.checkSeal P srv n rx) sealBroken
      let peer ← handleRespConf P rx
      pure (peer, 0, false)
    | .ok .DataMsg => bail "DataMsg handling not implemented!"
    | .ok .CookieReply => do
      refNew rx (CookieReply.size P)
      let peer ← handleCookieReply P env rx
      pure (peer, 0, false)
    | .error _ => bail "CookieReply handling not implemented!"
  return { exchangedWith := if exchanged then some peer else none,
           resp := if len = 0 then none else some len }

/-- What the loop over the cookie secrets of `handle_msg_under_load` carries. -/
structure CookieScan where
  activeCookieValue : Option Bytes
  rxMac : Bytes
  rxSid : Bytes

/-- The cookie value of a secret for a host. -/
def cookieValueOf (secret host : Bytes) : Bytes :=
  (P.hash (P.hash P.cookieValue secret) host).take 16

/-- The loop `for cookie_secret in active_or_retired_cookie_secrets()` of
`handle_msg_under_load`: the result of `handle_msg` once a cookie is valid, or what the
loop leaves when none is. -/
def scanCookieSecrets (env : Env) (rx host : Bytes) :
    List (Option ServerCookieSecretPtr) → CookieScan → ServerM (HandleMsgResult ⊕ CookieScan)
  | [], st => pure (.inr st)
  | none :: _, st => pure (.inr st)
  | some cs :: rest, st => do
    let srv ← getSrv
    let cookieValue := cookieValueOf P (srv.cookieSecrets cs.val).value host
    -- the most recently filled value is the active one
    let st := { st with activeCookieValue := st.activeCookieValue.getD cookieValue }
    let n := InitHello.size P
    refNew rx (Envelope.size n)
    let expected := (P.hash (P.hash P.cookie cookieValue) ((Envelope.cookieSpan n).get rx)).take 16
    let st := { st with rxMac := (Envelope.mac n).get rx, rxSid := (Envelope.field InitHello.sidi).get rx }
    if ConstantTime.memcmp ((Envelope.cookie n).get rx) expected then
      return .inl (← handleMsg P env rx)
    else
      scanCookieSecrets env rx host rest st

/-- `handle_msg_under_load(rx_buf, tx_buf, host_identification)`. -/
def handleMsgUnderLoad (env : Env) (rx host : Bytes) : ServerM HandleMsgResult := do
  let first ← match rx[0]? with
    | some b => pure b
    | none => throw (.panic "index out of bounds: the len is 0 but the index is 0")
  match MsgType.tryFrom first with
  | .ok .InitConf => handleMsg P env rx
  | .ok .InitHello => do
    let secrets ← activeOrRetiredCookieSecrets env
    match ← scanCookieSecrets P env rx host secrets ⟨none, zeros MAC_SIZE, zeros 4⟩ with
    | .inl result => pure result
    | .inr st =>
      -- no valid cookie: answer with a cookie reply
      match st.activeCookieValue with
      | none => bail "No active cookie value found"
      | some cookieValue =>
        let cookieKey := P.hash P.cookieKey (← getSrv).spkm
        truncatingCastInto (CookieReply.size P)
        let nonce := draw XAEAD_NONCE_LEN env.coins.nonce
        modifyTx (CookieReply.msgType.set [MsgType.CookieReply.toU8])
        modifyTx (CookieReply.sid.set st.rxSid)
        modifyTx (CookieReply.cookieEncrypted.set (P.xaeadEncrypt cookieKey nonce st.rxMac cookieValue))
        modifyTx ((CookieReply.padding P).set (draw (CookieReply.padding P).len env.coins.padding))
        pure { exchangedWith := none, resp := some (CookieReply.size P) }
  | _ => bail "Rx \x7b:?\x7d from \x7b\x7d is not processed under load"

/-- `retransmit_handshake(peer, tx_buf)`. -/
def retransmitHandshake (peer : PeerPtr) : ServerM Nat := peer.hs.applyRetransmission P

end Rosenpass
