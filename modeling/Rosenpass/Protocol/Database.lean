/-
The database of a `CryptoServer` (`protocol.rs`, "DATABASE" and the pointer types):
the peers, the index from peer ids and session ids to peers, the insertion and removal
of a peer's handshake and session, and the rotation of biscuit keys and cookie
secrets.

The index is `HashMap<IndexKey, PeerNo>`, a function here. A session id enters it by
`register_session`, which refuses an id another peer holds, and leaves it by
`unregister_session_if_vacant`, which keeps it while the same peer's session or
handshake still uses it. `IniHsPtr::take` and `SessionPtr::take` are one operation on
two fields of a peer (`takeSlot`); the two `insert`s differ in order, which matters:
`SessionPtr::insert` takes the old session before it registers the new id, while
`IniHsPtr::insert` registers the new id first and then takes the old handshake.
-/
import Rosenpass.Protocol.State

namespace Rosenpass

open Buffer

variable (P : Primitives)

/-! ## Construction -/

/-- `CryptoServer::new(sk, pk)`. -/
def CryptoServer.new (coins : Coins) (sk pk : Bytes) : CryptoServer where
  sskm := sk
  spkm := pk
  biscuitCtr := [1, 0, 0, 0, 0, 0, 0, 0, 0, 0, 0, 0]
  biscuitKeys := fun i => CookieStore.new KEY_LEN (coins.biscuitKey i)
  peers := []
  index := fun _ => none
  peerPollOff := 0
  cookieSecrets := fun i => CookieStore.new COOKIE_SECRET_LEN (coins.cookieSecret i)

/-- `pidm`: the server's own peer id. -/
def CryptoServer.pidm (srv : CryptoServer) : Bytes := P.hash P.peerid srv.spkm

/-- `pidt`: the peer's id. -/
def Peer.pidt (p : Peer) : Bytes := P.hash P.peerid p.spkt

/-- `Peer::new(psk, pk)`, with the psk `add_peer` defaults to zero. -/
def Peer.new (psk pk : Bytes) : Peer where
  psk := psk
  spkt := pk
  biscuitUsed := zeros BISCUIT_ID_LEN
  session := none
  handshake := none
  initiationRequested := false

/-- `add_peer(psk, pk)`. -/
def addPeer (psk : Option Bytes) (pk : Bytes) : ServerM PeerPtr := do
  let peer := Peer.new (psk.getD (zeros KEY_LEN)) pk
  let peerid := peer.pidt P
  let srv ← getSrv
  let peerno := srv.peers.length
  match srv.index (.Peer peerid) with
  | some _ => bail "Cannot insert peer with id \x7b:?\x7d; peer with this id already registered."
  | none =>
    modifySrv fun srv =>
      { srv with index := Function.update srv.index (.Peer peerid) (some peerno),
                 peers := srv.peers ++ [peer] }
    return ⟨peerno⟩

/-! ## The index -/

/-- `register_session(id, peer)`. -/
def registerSession (id : Bytes) (peer : PeerPtr) : ServerM Unit := do
  match (← getSrv).index (.Sid id) with
  | some p =>
    if p = peer.val then pure ()  -- already registered
    else bail "Cannot insert session with id \x7b:?\x7d; id is in use."
  | none => modifySrv fun srv => { srv with index := Function.update srv.index (.Sid id) (some peer.val) }

/-- `unregister_session(id)`. -/
def unregisterSession (id : Bytes) : ServerM Unit :=
  modifySrv fun srv => { srv with index := Function.update srv.index (.Sid id) none }

/-- The peer's session or handshake uses the session id. -/
def Peer.usesSid (p : Peer) (id : Bytes) : Bool :=
  p.session.any (·.sidm == id) || p.handshake.any (·.core.sidi == id)

/-- `unregister_session_if_vacant(id, peer)`: drop the id unless the peer still uses it. -/
def unregisterSessionIfVacant (id : Bytes) (peer : PeerPtr) : ServerM Unit := do
  let p ← peer.get
  if p.usesSid id then pure () else unregisterSession id

/-- `find_peer(id)`. -/
def CryptoServer.findPeer (srv : CryptoServer) (id : Bytes) : Option PeerPtr :=
  (srv.index (.Peer id)).map PeerPtr.mk

/-- `lookup_handshake(id)`: the indexed peer, if its handshake has that id. -/
def CryptoServer.lookupHandshake (srv : CryptoServer) (id : Bytes) : Except Fault (Option IniHsPtr) :=
  match srv.index (.Sid id) with
  | none => .ok none
  | some no => do
    let p ← srv.peer no
    return if p.handshake.any (·.core.sidi == id) then some ⟨no⟩ else none

/-- `lookup_session(id)`: the indexed peer, if its session has that id. -/
def CryptoServer.lookupSession (srv : CryptoServer) (id : Bytes) : Except Fault (Option SessionPtr) :=
  match srv.index (.Sid id) with
  | none => .ok none
  | some no => do
    let p ← srv.peer no
    return if p.session.any (·.sidm == id) then some ⟨no⟩ else none

/-! ## Handshakes and sessions of a peer -/

/-- `take()` of a peer's handshake or session: clear the field, then drop the id of what
it held from the index unless the peer still uses it. -/
def takeSlot {α : Type} (slot : Peer → Option α) (clear : Peer → Peer) (sid : α → Bytes)
    (peer : PeerPtr) : ServerM (Option α) := do
  let r := slot (← peer.get)
  peer.modify clear
  match r with
  | some stale => unregisterSessionIfVacant (sid stale) peer
  | none => pure ()
  return r

/-- `IniHsPtr::take`. -/
def IniHsPtr.take (p : IniHsPtr) : ServerM (Option InitiatorHandshake) :=
  takeSlot (·.handshake) (fun q => { q with handshake := none }) (·.core.sidi) p.peer

/-- `SessionPtr::take`. -/
def SessionPtr.take (p : SessionPtr) : ServerM (Option Session) :=
  takeSlot (·.session) (fun q => { q with session := none }) (·.sidm) p.peer

/-- `IniHsPtr::insert`: registers the new id, then takes the old handshake. -/
def IniHsPtr.insert (p : IniHsPtr) (hs : InitiatorHandshake) : ServerM Unit := do
  registerSession hs.core.sidi p.peer
  let _ ← p.take
  p.peer.modify fun q => { q with initiationRequested := false, handshake := some hs }

/-- `SessionPtr::insert`: takes the old session, then registers the new id. -/
def SessionPtr.insert (p : SessionPtr) (ses : Session) : ServerM Unit := do
  let _ ← p.take
  registerSession ses.sidm p.peer
  p.peer.modify fun q => { q with session := some ses }

/-! ## Biscuit keys and cookie secrets -/

/-- `active_biscuit_key()`: the younger key if it is young, otherwise the older one,
re-randomized. -/
def activeBiscuitKey (env : Env) : ServerM BiscuitKeyPtr := do
  let srv ← getSrv
  let (a, b) : BiscuitKeyPtr × BiscuitKeyPtr := (⟨0⟩, ⟨1⟩)
  let (t, u) := ((srv.biscuitKeys 0).createdAt, (srv.biscuitKeys 1).createdAt)
  -- the youngest, the first on a tie
  let r := if t ≥ u then a else b
  if r.lifecycle srv env.now = .Young then
    pure r
  else
    -- reap the oldest, the last on a tie
    let r := if t < u then a else b
    modifySrv (·.updateBiscuitKey r.val (·.randomize (env.coins.biscuitKey r.val) env.now))
    pure r

/-- `active_or_retired_cookie_secrets()`: the live secrets, youngest first; when none is
live the older one is re-randomized and returned. -/
def activeOrRetiredCookieSecrets (env : Env) : ServerM (List (Option ServerCookieSecretPtr)) := do
  let srv ← getSrv
  let (a, b) : ServerCookieSecretPtr × ServerCookieSecretPtr := (⟨0⟩, ⟨1⟩)
  let (t, u) := ((srv.cookieSecrets 0).createdAt, (srv.cookieSecrets 1).createdAt)
  let (young, old) := if t ≥ u then (a, b) else (b, a)
  let live (k : ServerCookieSecretPtr) : Bool :=
    k.lifecycle srv env.now = .Young || k.lifecycle srv env.now = .Retired
  let returnArr := (if live young then [some young] else []) ++ (if live old then [some old] else [])
  if returnArr = [] then
    modifySrv (·.updateCookieSecret old.val (·.randomize (env.coins.cookieSecret old.val) env.now))
    pure [some old, none]
  else
    pure (returnArr ++ List.replicate (2 - returnArr.length) none)

end Rosenpass
