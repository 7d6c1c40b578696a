/-
The state of a `CryptoServer` (`rosenpass/src/protocol.rs`, data structures and
accessors) and the monad its `&mut self` methods run in.

A method that takes `&mut self` and returns a `Result` is a `ServerM` computation:
`EStateM` over the server and the transmit buffer `tx_buf` the method writes its
answer into, where an `Err` or a panic keeps every write made before it, as the
Rust code does. What a method reads from outside its arguments is an `Env`: the
time `timebase.now()` gives (one instant for the whole call) and the random bytes
of each place the call draws from (`Coins`). `Timing` is an `f64` in the source and
an exact rational here.

`srv.peers[i]` panics out of bounds; every access to a peer goes through `peer`,
which fails with `Fault.panic` there, so nothing assumes the index of an arbitrary
state is consistent. The lifetimes of biscuit keys, cookie secrets, handshakes
and sessions (`Mortal`, `MortalExt`) are functions of the store or the peer they
read and of the current time.
-/
import Rosenpass.Msgs
import Rosenpass.Lib.EState
import Mathlib.Algebra.Order.Ring.Rat

namespace Rosenpass

/-- Seconds, as exact rationals. -/
abbrev Timing := ℚ

/-! ## Constants and settings -/

/-- Before Common Era: so old it needs refreshing. -/
def BCE : Timing := -3600 * 24 * 356 * 10000
def UNENDING : Timing := 3600 * 8
def REKEY_AFTER_TIME_RESPONDER : Timing := 120
def REKEY_AFTER_TIME_INITIATOR : Timing := 130
def REJECT_AFTER_TIME : Timing := 180
/-- Not read by the code; the pacing it names is a property of the whole server. -/
def REKEY_TIMEOUT : Timing := 5
def COOKIE_SECRET_LEN : Nat := MAC_SIZE
def COOKIE_SECRET_EPOCH : Timing := 120
def COOKIE_VALUE_LEN : Nat := MAC_SIZE
def PEER_COOKIE_VALUE_EPOCH : Timing := 120
def BISCUIT_EPOCH : Timing := 300
/-- Not read by the code, though its comment promises retransmission stops after it. -/
def RETRANSMIT_ABORT : Timing := 120
def RETRANSMIT_DELAY_GROWTH : Timing := 2
def RETRANSMIT_DELAY_BEGIN : Timing := 1 / 2
def RETRANSMIT_DELAY_END : Timing := 10
def RETRANSMIT_DELAY_JITTER : Timing := 1 / 2
def EVENT_GRACE : Timing := 1 / 400

/-- An event at `ev` is acted on from `ev - EVENT_GRACE` on. -/
def hasHappened (ev now : Timing) : Bool := decide (ev - now < EVENT_GRACE)

/-- `n` zero bytes: `Secret::zero()` and `Public::zero()`. -/
def zeros (n : Nat) : Bytes := List.replicate n 0

theorem length_zeros (n : Nat) : (zeros n).length = n := List.length_replicate ..

/-- `n` zero bytes as an opaque list of that length: proofs about concrete runs hold their
transmit buffers this way, so that no step of theirs evaluates one. -/
theorem exists_zeros_eq (n : Nat) : ∃ z, zeros n = z ∧ z.length = n := ⟨_, rfl, length_zeros n⟩

/-! ## Data structures -/

/-- `CookieStore<N>`: biscuit keys, cookie secrets and cookie values. -/
structure CookieStore where
  createdAt : Timing
  value : Bytes
  deriving DecidableEq, Repr

structure HandshakeState where
  /-- Session id of the initiator. -/
  sidi : Bytes
  /-- Session id of the responder. -/
  sidr : Bytes
  /-- Chaining key. -/
  ck : Bytes
  deriving DecidableEq, Repr

inductive HandshakeRole where
  | Initiator
  | Responder
  deriving DecidableEq, Repr

inductive HandshakeStateMachine where
  | RespHello
  | RespConf
  deriving DecidableEq, Repr

structure InitiatorHandshake where
  createdAt : Timing
  next : HandshakeStateMachine
  core : HandshakeState
  /-- Ephemeral secret key of the initiator. -/
  eski : Bytes
  /-- Ephemeral public key of the initiator. -/
  epki : Bytes
  txRetryAt : Timing
  txCount : Nat
  txLen : Nat
  txBuf : Bytes
  /-- Cookie for retransmission, from the responder's CookieReply. -/
  cookieValue : CookieStore
  deriving DecidableEq, Repr

structure Session where
  createdAt : Timing
  sidm : Bytes
  sidt : Bytes
  handshakeRole : HandshakeRole
  ck : Bytes
  /-- Key for transmission. -/
  txkm : Bytes
  /-- Key for reception. -/
  txkt : Bytes
  /-- Nonce for transmission. -/
  txnm : UInt64
  /-- Nonce for reception. -/
  txnt : UInt64
  deriving DecidableEq, Repr

structure Peer where
  psk : Bytes
  spkt : Bytes
  biscuitUsed : Bytes
  session : Option Session
  handshake : Option InitiatorHandshake
  initiationRequested : Bool
  deriving DecidableEq, Repr

inductive IndexKey where
  | Peer (id : Bytes)
  | Sid (id : Bytes)
  deriving DecidableEq, Repr

/-- The literals `0` and `1` of the two key slots, named once so that every definition
over the slots refers to the same instance. -/
instance instNeZeroTwo : @NeZero Nat Zero.ofOfNat0 2 := Nat.instNeZeroSucc

structure CryptoServer where
  sskm : Bytes
  spkm : Bytes
  biscuitCtr : Bytes
  biscuitKeys : Fin 2 → CookieStore
  peers : List Peer
  index : IndexKey → Option Nat
  peerPollOff : Nat
  cookieSecrets : Fin 2 → CookieStore

/-- Index to `CryptoServer.peers`. -/
structure PeerPtr where
  val : Nat
  deriving DecidableEq, Repr

/-- Index to `CryptoServer.peers`, for the peer's handshake. -/
structure IniHsPtr where
  val : Nat
  deriving DecidableEq, Repr

/-- Index to `CryptoServer.peers`, for the peer's session. -/
structure SessionPtr where
  val : Nat
  deriving DecidableEq, Repr

/-- Index to `CryptoServer.biscuit_keys`. -/
structure BiscuitKeyPtr where
  val : Fin 2
  deriving DecidableEq, Repr

/-- Index to `CryptoServer.cookie_secrets`. -/
structure ServerCookieSecretPtr where
  val : Fin 2
  deriving DecidableEq, Repr

def PeerPtr.session (p : PeerPtr) : SessionPtr := ⟨p.val⟩
def PeerPtr.hs (p : PeerPtr) : IniHsPtr := ⟨p.val⟩
def IniHsPtr.peer (p : IniHsPtr) : PeerPtr := ⟨p.val⟩
def SessionPtr.peer (p : SessionPtr) : PeerPtr := ⟨p.val⟩

@[simp] theorem PeerPtr.hs_peer (p : PeerPtr) : p.hs.peer = p := rfl
@[simp] theorem PeerPtr.session_peer (p : PeerPtr) : p.session.peer = p := rfl

/-! ## What a call reads from outside -/

/-- A draw of `rand::random::<f64>()`. -/
abbrev Jitter := {r : ℚ // 0 ≤ r ∧ r < 1}

/-- The random bytes of each place a call draws from. -/
structure Coins where
  /-- `sidi.randomize()` / `sidr.randomize()`. -/
  sid : Rand
  /-- `EphemeralKem::keygen`. -/
  eski : Rand
  /-- `StaticKem::encaps`. -/
  staticEncaps : Rand
  /-- `EphemeralKem::encaps`. -/
  ephemeralEncaps : Rand
  /-- `XAEADNonce::random()`. -/
  nonce : Rand
  /-- `CookieStore::new()` of a new handshake's cookie value. -/
  cookieValue : Rand
  /-- Re-randomizing the biscuit key at an index. -/
  biscuitKey : Fin 2 → Rand
  /-- Re-randomizing the cookie secret at an index. -/
  cookieSecret : Fin 2 → Rand
  /-- The padding of a CookieReply. -/
  padding : Rand
  /-- The retransmission jitter. -/
  jitter : Jitter

/-- What a call reads besides its arguments: the time and its random draws. -/
structure Env where
  now : Timing
  coins : Coins

/-- Draws that all give the byte `b`, with no jitter. -/
def Coins.constant (b : UInt8) : Coins where
  sid _ := b
  eski _ := b
  staticEncaps _ := b
  ephemeralEncaps _ := b
  nonce _ := b
  cookieValue _ := b
  biscuitKey _ _ := b
  cookieSecret _ _ := b
  padding _ := b
  jitter := ⟨0, le_refl 0, zero_lt_one⟩

/-! ## The monad -/

/-- What a call may change: the server, and the transmit buffer it was given. -/
structure Ctx where
  srv : CryptoServer
  tx : Bytes

/-- The methods of `CryptoServer` that take `&mut self`. -/
abbrev ServerM := EStateM Fault Ctx

section Monad

variable {α : Type}

def getSrv : ServerM CryptoServer := do return (← get).srv

def modifySrv (f : CryptoServer → CryptoServer) : ServerM Unit :=
  modify fun c => { c with srv := f c.srv }

def modifyTx (f : Bytes → Bytes) : ServerM Unit :=
  modify fun c => { c with tx := f c.tx }

/-- `bail!(msg)`: return an `Err`. -/
def bail (msg : String) : ServerM α := throw (.error msg)

/-- `ensure!(c, msg)`. -/
def ensure (c : Prop) [Decidable c] (msg : String) : ServerM Unit :=
  if c then pure () else bail msg

/-- A computation of `&self` run inside one of `&mut self`. -/
def liftE : Except Fault α → ServerM α
  | .ok a => pure a
  | .error e => throw e

@[simp] theorem run_getSrv (c : Ctx) : getSrv.run c = .ok c.srv c := rfl

@[simp] theorem run_modifySrv (f : CryptoServer → CryptoServer) (c : Ctx) :
    (modifySrv f).run c = .ok () { c with srv := f c.srv } := rfl

@[simp] theorem run_modifyTx (f : Bytes → Bytes) (c : Ctx) :
    (modifyTx f).run c = .ok () { c with tx := f c.tx } := rfl

@[simp] theorem run_bail (msg : String) (c : Ctx) :
    (bail msg : ServerM α).run c = .error (.error msg) c := rfl

@[simp] theorem run_liftE_ok (a : α) (c : Ctx) : (liftE (.ok a)).run c = .ok a c := rfl

@[simp] theorem run_liftE_error (e : Fault) (c : Ctx) :
    (liftE (.error e) : ServerM α).run c = .error e c := rfl

theorem run_ensure (c : Prop) [Decidable c] (msg : String) (s : Ctx) :
    (ensure c msg).run s = if c then .ok () s else .error (.error msg) s := by
  unfold ensure
  split <;> rfl

end Monad

/-! ## Peers -/

namespace CryptoServer

/-- `srv.peers[i]`, which panics out of bounds. -/
def peer (srv : CryptoServer) (i : Nat) : Except Fault Peer :=
  match srv.peers[i]? with
  | some p => .ok p
  | none => .error (.panic "index out of bounds")

/-- Change the peer at `i`. -/
def updatePeer (srv : CryptoServer) (i : Nat) (f : Peer → Peer) : CryptoServer :=
  { srv with peers := srv.peers.modify i f }

theorem peer_eq_ok {srv : CryptoServer} {i : Nat} {p : Peer} :
    srv.peer i = .ok p ↔ srv.peers[i]? = some p := by
  unfold peer
  split <;> simp_all

theorem peer_of_lt {srv : CryptoServer} {i : Nat} (h : i < srv.peers.length) :
    srv.peer i = .ok srv.peers[i] := by
  simp [peer_eq_ok, h]

@[simp] theorem length_updatePeer (srv : CryptoServer) (i : Nat) (f : Peer → Peer) :
    (srv.updatePeer i f).peers.length = srv.peers.length := by
  simp [updatePeer]

@[simp] theorem index_updatePeer (srv : CryptoServer) (i : Nat) (f : Peer → Peer) :
    (srv.updatePeer i f).index = srv.index := rfl

@[simp] theorem biscuitCtr_updatePeer (srv : CryptoServer) (i : Nat) (f : Peer → Peer) :
    (srv.updatePeer i f).biscuitCtr = srv.biscuitCtr := rfl

@[simp] theorem biscuitKeys_updatePeer (srv : CryptoServer) (i : Nat) (f : Peer → Peer) :
    (srv.updatePeer i f).biscuitKeys = srv.biscuitKeys := rfl

@[simp] theorem cookieSecrets_updatePeer (srv : CryptoServer) (i : Nat) (f : Peer → Peer) :
    (srv.updatePeer i f).cookieSecrets = srv.cookieSecrets := rfl

@[simp] theorem spkm_updatePeer (srv : CryptoServer) (i : Nat) (f : Peer → Peer) :
    (srv.updatePeer i f).spkm = srv.spkm := rfl

/-- Two changes to one peer are one change. -/
theorem updatePeer_updatePeer (srv : CryptoServer) (i : Nat) (f g : Peer → Peer) :
    (srv.updatePeer i f).updatePeer i g = srv.updatePeer i (g ∘ f) := by
  simp only [updatePeer, List.modify_modify_eq]

@[simp] theorem sskm_updatePeer (srv : CryptoServer) (i : Nat) (f : Peer → Peer) :
    (srv.updatePeer i f).sskm = srv.sskm := rfl

/-- Change the biscuit key at `k`. -/
def updateBiscuitKey (srv : CryptoServer) (k : Fin 2) (f : CookieStore → CookieStore) : CryptoServer :=
  { srv with biscuitKeys := Function.update srv.biscuitKeys k (f (srv.biscuitKeys k)) }

/-- Change the cookie secret at `k`. -/
def updateCookieSecret (srv : CryptoServer) (k : Fin 2) (f : CookieStore → CookieStore) :
    CryptoServer :=
  { srv with cookieSecrets := Function.update srv.cookieSecrets k (f (srv.cookieSecrets k)) }

theorem getElem?_updatePeer (srv : CryptoServer) (i j : Nat) (f : Peer → Peer) :
    (srv.updatePeer i f).peers[j]? = (if i = j then f <$> srv.peers[j]? else srv.peers[j]?) := by
  simp only [updatePeer, List.getElem?_modify]
  split <;> simp

@[simp] theorem peer_updatePeer (srv : CryptoServer) (i j : Nat) (f : Peer → Peer) :
    (srv.updatePeer i f).peer j = if i = j then (srv.peer j).map f else srv.peer j := by
  unfold peer
  rw [getElem?_updatePeer]
  by_cases h : i = j <;> cases srv.peers[j]? <;> simp [h, Except.map]

end CryptoServer

/-- `PeerPtr::get`. -/
def PeerPtr.get (p : PeerPtr) : ServerM Peer := do liftE ((← getSrv).peer p.val)

/-- `PeerPtr::get_mut`, and a change to what it points to. -/
def PeerPtr.modify (p : PeerPtr) (f : Peer → Peer) : ServerM Unit := do
  let _ ← p.get
  modifySrv (·.updatePeer p.val f)

theorem PeerPtr.run_get {p : PeerPtr} {c : Ctx} {q : Peer} (h : c.srv.peer p.val = .ok q) :
    p.get.run c = .ok q c := by
  simp [PeerPtr.get, getSrv, h]

theorem PeerPtr.run_modify {p : PeerPtr} {c : Ctx} {q : Peer} (h : c.srv.peer p.val = .ok q)
    (f : Peer → Peer) :
    (p.modify f).run c = .ok () { c with srv := c.srv.updatePeer p.val f } := by
  simp only [PeerPtr.modify]
  rw [EStateM.run_bind_of_ok (PeerPtr.run_get h)]
  rfl

/-! ## Lifetimes (`Mortal`, `MortalExt`) -/

inductive Lifecycle where
  | Void
  | Dead
  | Retired
  | Young
  deriving DecidableEq, Repr

/-- `MortalExt::lifecycle`, from the time left until retirement and until death. -/
def Lifecycle.of (youthLeft lifeLeft : Option Timing) : Lifecycle :=
  if lifeLeft.any (hasHappened · 0) then .Dead
  else if youthLeft.any (hasHappened · 0) then .Retired
  else if youthLeft.isSome && lifeLeft.isSome then .Young
  else .Void

/-- `life_left` and `youth_left`: the time from `now` until an event. -/
def timeLeft (now : Timing) (t : Option Timing) : Option Timing := t.map (· - now)

/-- `created_at` of a biscuit key or cookie secret: none until it is first made. -/
def CookieStore.createdAt? (c : CookieStore) : Option Timing :=
  if c.createdAt < 0 then none else some c.createdAt

/-- `retire_at` of a store that is young for one `epoch` (biscuit keys, cookie secrets). -/
def CookieStore.retireAt (epoch : Timing) (c : CookieStore) : Option Timing :=
  c.createdAt?.map (· + epoch)

/-- `die_at` of such a store: retired for one more `epoch`. -/
def CookieStore.dieAt (epoch : Timing) (c : CookieStore) : Option Timing :=
  (c.retireAt epoch).map (· + epoch)

/-- The lifecycle at `now` of a store that lives two `epoch`s. -/
def CookieStore.lifecycle (epoch now : Timing) (c : CookieStore) : Lifecycle :=
  Lifecycle.of (timeLeft now (c.retireAt epoch)) (timeLeft now (c.dieAt epoch))

def BiscuitKeyPtr.lifecycle (k : BiscuitKeyPtr) (srv : CryptoServer) (now : Timing) : Lifecycle :=
  (srv.biscuitKeys k.val).lifecycle BISCUIT_EPOCH now

def ServerCookieSecretPtr.lifecycle (k : ServerCookieSecretPtr) (srv : CryptoServer) (now : Timing) :
    Lifecycle :=
  (srv.cookieSecrets k.val).lifecycle COOKIE_SECRET_EPOCH now

/-- `IniHsPtr::die_at`, which is also its `retire_at`, of the peer it points to. -/
def IniHsPtr.dieAt (p : Peer) : Option Timing :=
  p.handshake.map (·.createdAt + REJECT_AFTER_TIME)

/-- `SessionPtr::retire_at`: the initiator waits ten seconds longer, so that both
sides do not start a handshake at once. -/
def SessionPtr.retireAt (p : Peer) : Option Timing :=
  p.session.map fun s =>
    s.createdAt + match s.handshakeRole with
      | .Initiator => REKEY_AFTER_TIME_INITIATOR
      | .Responder => REKEY_AFTER_TIME_RESPONDER

def SessionPtr.dieAt (p : Peer) : Option Timing :=
  p.session.map (·.createdAt + REJECT_AFTER_TIME)

/-! ## Cookie stores -/

namespace CookieStore

/-- `CookieStore::new()`: a random value, made before any time. -/
def new (n : Nat) (r : Rand) : CookieStore := { createdAt := BCE, value := draw n r }

/-- `erase`: a fresh random value, and no longer made. -/
def erase (c : CookieStore) (r : Rand) : CookieStore :=
  { c with value := draw c.value.length r, createdAt := BCE }

/-- `randomize`: a fresh random value, made now. -/
def randomize (c : CookieStore) (r : Rand) (now : Timing) : CookieStore :=
  { c with value := draw c.value.length r, createdAt := now }

/-- `update`: the given value, made now. -/
def update (c : CookieStore) (v : Bytes) (now : Timing) : CookieStore :=
  { c with value := v, createdAt := now }

end CookieStore

end Rosenpass
