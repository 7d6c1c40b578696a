/-
Event polling (`protocol.rs`, "EVENT POLLING"): what the server asks its caller to do
next, and the expiry it carries out on the way.

`poll` folds the events of the two biscuit keys, the two cookie secrets and every peer,
starting after the peer that produced the last event, and stops at the first action
(a result other than `Sleep`). A stale key or secret is erased, a dead handshake or
session is taken; a peer asks for a new initiation once it has not asked yet and its
session and handshake have retired; a handshake asks for a retransmission when its
retry time has come. An event is due when less than `EVENT_GRACE` remains until it.
-/
import Rosenpass.Protocol.Handlers

namespace Rosenpass

variable (P : Primitives)

/-! ## Waits -/

namespace Wait

def immediate : Timing := 0
def hibernate : Timing := UNENDING

def immediateUnless (cond : Bool) : Timing := if cond then hibernate else immediate

/-- `Wait::or_hibernate`, also `From<Option<Timing>>`. -/
def orHibernate (t : Option Timing) : Timing := t.getD hibernate

def orImmediate (t : Option Timing) : Timing := t.getD immediate

/-- `and`: the later of two waits. -/
def and (a b : Timing) : Timing := if a > b then a else b

end Wait

/-- `PollResult`. -/
inductive PollResult where
  | Sleep (t : Timing)
  | DeleteKey (p : PeerPtr)
  | SendInitiation (p : PeerPtr)
  | SendRetransmission (p : PeerPtr)
  deriving DecidableEq, Repr

namespace PollResult

/-- `begin_poll()`, the default: sleep as long as possible. -/
def hibernate : PollResult := Sleep UNENDING

def peer : PollResult → Option PeerPtr
  | DeleteKey p | SendInitiation p | SendRetransmission p => some p
  | Sleep _ => none

/-- An action for the caller: anything but `Sleep`. -/
def saturated : PollResult → Bool
  | Sleep _ => false
  | _ => true

/-- `fold(otr)`: the earlier sleep, or the one action; two actions are a panic. -/
def fold : PollResult → PollResult → Except Fault PollResult
  | Sleep a, Sleep b => .ok (Sleep (min a b))
  | a, Sleep _ => .ok a
  | Sleep _, b => .ok b
  | _, _ => .error (.panic "Do not fold two saturated poll results! It doesn't make sense; we would have to discard one of the events. As soon as some result that requires an action (i.e. something other than sleep is reached you should just return and have the API consumer poll again.")

/-- `sched(wait, f)` and `try_sched(wait, f)`: run `f` if it is due. -/
def sched (self : PollResult) (wait : Timing) (f : ServerM PollResult) : ServerM PollResult :=
  if self.saturated then pure self
  else if hasHappened wait 0 then do liftE (self.fold (← f))
  else liftE (self.fold (Sleep wait))

/-- `poll_child(srv, p)` (`try_fold_with`). -/
def pollChild (self : PollResult) (f : ServerM PollResult) : ServerM PollResult :=
  if self.saturated then pure self else do liftE (self.fold (← f))

/-- `poll_children(srv, iter)`: poll in order until an action comes. -/
def pollChildren {α : Type} (poll : α → ServerM PollResult) : PollResult → List α → ServerM PollResult
  | acc, [] => pure acc
  | acc, e :: es =>
    if acc.saturated then pure acc
    else do
      let acc ← liftE (acc.fold (← poll e))
      pollChildren poll acc es

end PollResult

open PollResult

/-! ## What is polled -/

/-- The poll of a biscuit key or a cookie secret: erase it when it dies. -/
def pollStore (get : CryptoServer → CookieStore) (erase : CryptoServer → CryptoServer)
    (epoch now : Timing) : ServerM PollResult := do
  let die := (get (← getSrv)).dieAt epoch
  hibernate.sched (Wait.orHibernate (timeLeft now die)) (do modifySrv erase; pure hibernate)

/-- `Pollable for BiscuitKeyPtr`: erase stale biscuit keys. -/
def BiscuitKeyPtr.poll (env : Env) (k : BiscuitKeyPtr) : ServerM PollResult :=
  pollStore (·.biscuitKeys k.val) (·.updateBiscuitKey k.val (·.erase (env.coins.biscuitKey k.val)))
    BISCUIT_EPOCH env.now

/-- `Pollable for ServerCookieSecretPtr`: erase stale cookie secrets. -/
def ServerCookieSecretPtr.poll (env : Env) (k : ServerCookieSecretPtr) : ServerM PollResult :=
  pollStore (·.cookieSecrets k.val) (·.updateCookieSecret k.val (·.erase (env.coins.cookieSecret k.val)))
    COOKIE_SECRET_EPOCH env.now

/-- `Pollable for IniHsPtr`: ask for a retransmission when it is due, registering the next. -/
def IniHsPtr.poll (env : Env) (hs : IniHsPtr) : ServerM PollResult := do
  let q ← hs.peer.get
  hibernate.sched (Wait.orHibernate (IniHsPtr.retransmissionIn q env.now)) do
    hs.registerRetransmission env
    pure (SendRetransmission hs.peer)

/-- `Pollable for PeerPtr`. -/
def PeerPtr.poll (env : Env) (peer : PeerPtr) : ServerM PollResult := do
  let (ses, hs) := (peer.session, peer.hs)
  -- silently erase old handshakes
  let r ← hibernate.sched (Wait.orHibernate (timeLeft env.now (IniHsPtr.dieAt (← peer.get)))) do
    let _ ← hs.take
    pure hibernate
  -- erase old sessions
  let r ← r.sched (Wait.orHibernate (timeLeft env.now (SessionPtr.dieAt (← peer.get)))) do
    let _ ← ses.take
    pure (DeleteKey peer)
  -- ask for an initiation once, after the session and the handshake have retired
  let q ← peer.get
  let wait := Wait.and (Wait.and (Wait.immediateUnless q.initiationRequested)
    (Wait.orImmediate (timeLeft env.now (SessionPtr.retireAt q))))
    (Wait.orImmediate (timeLeft env.now (IniHsPtr.dieAt q)))
  let r ← r.sched wait do
    peer.modify fun q => { q with initiationRequested := true }
    pure (SendInitiation peer)
  r.pollChild (hs.poll env)

/-- `peer_ptrs_off(n)`: every peer, from the `n`th on, wrapping around. -/
def peerPtrsOff (l n : Nat) : List PeerPtr := (List.range l).map fun i => ⟨(i + n) % l⟩

/-- `CryptoServer::poll()`. -/
def poll (env : Env) : ServerM PollResult := do
  let r ← pollChildren (BiscuitKeyPtr.poll env) hibernate [⟨0⟩, ⟨1⟩]
  let r ← pollChildren (ServerCookieSecretPtr.poll env) r [⟨0⟩, ⟨1⟩]
  let srv ← getSrv
  let r ← pollChildren (PeerPtr.poll env) r (peerPtrsOff srv.peers.length srv.peerPollOff)
  -- the next poll starts after the peer that had an event
  modifySrv fun srv => { srv with peerPollOff := match r.peer with
    | some p => p.val + 1
    | none => 0 }
  return r

end Rosenpass
