/-
The configuration from the command line (`rosenpass/src/config.rs`, `Rosenpass::parse_args`).

`parse_args` reads the arguments one at a time with a state: what the next argument is
(`State`), the peer being read (`current_peer`) and which settings the current section
has made (`already_set`, a set of states). Each argument is one `match` on the three; the
arms are tried in the source's order, here split by state and peer first and by the
argument's text second. An `Err` stops the loop; so does a panic, of which the source
has four (two impossible arms, an `assert!` and an `expect`).

`to_socket_addrs` of a listen address asks the system resolver; it is a parameter,
generic in the type of addresses. Paths are their strings.
-/
import Rosenpass.Lib.EState

namespace Rosenpass.App

inductive Verbosity where
  | Quiet
  | Verbose
  deriving DecidableEq, Repr

/-- `WireGuard`, with `#[derive(Default)]`. -/
structure WireGuard where
  device : String := ""
  peer : String := ""
  extraParams : List String := []
  deriving DecidableEq, Repr

/-- `RosenpassPeer`, with `#[derive(Default)]`. -/
structure RosenpassPeer where
  publicKey : String := ""
  endpoint : Option String := none
  preSharedKey : Option String := none
  keyOut : Option String := none
  wg : Option WireGuard := none
  deriving DecidableEq, Repr

set_option linter.dupNamespace false in
/-- `Rosenpass`, the configuration. -/
structure Rosenpass (α : Type) where
  publicKey : String
  secretKey : String
  listen : List α
  verbosity : Verbosity
  peers : List RosenpassPeer
  configFilePath : String
  deriving DecidableEq, Repr

set_option linter.dupNamespace false in
/-- `Rosenpass::new(public_key, secret_key)`. -/
def Rosenpass.new {α : Type} (publicKey secretKey : String) : Rosenpass α where
  publicKey := publicKey
  secretKey := secretKey
  listen := []
  verbosity := .Quiet
  peers := []
  configFilePath := ""

/-- The states of `parse_args`. -/
inductive State where
  | Own
  | OwnPublicKey
  | OwnSecretKey
  | OwnListen
  | Peer
  | PeerPsk
  | PeerPublicKey
  | PeerEndpoint
  | PeerOutfile
  | PeerWireguardDev
  | PeerWireguardPeer
  | PeerWireguardExtraArgs
  deriving DecidableEq, Repr

/-- `HashSet::insert`: whether the element was new, and the set with it. -/
def setInsert (set : List State) (x : State) : Bool × List State :=
  if x ∈ set then (false, set) else (true, x :: set)

/-- The variables of the loop of `parse_args`. -/
structure ParseState (α : Type) where
  config : Rosenpass α
  state : State
  currentPeer : Option RosenpassPeer
  alreadySet : List State
  deriving DecidableEq, Repr

section Parse

variable {α : Type} (toSocketAddrs : String → Except String (List α))

/-- `ensure!(already_set.insert(s), msg)`, then the rest with the larger set. -/
def ParseState.ensureInsert (st : ParseState α) (s : State) (msg : String)
    (k : ParseState α → Except Fault (ParseState α)) : Except Fault (ParseState α) :=
  match setInsert st.alreadySet s with
  | (true, set) => k { st with alreadySet := set }
  | (false, _) => .error (.error msg)

/-- The peer's WireGuard settings, through `peer.wg.as_mut().expect(wg_exists)`. -/
def modifyWg (peer : RosenpassPeer) (f : WireGuard → WireGuard) : Except Fault RosenpassPeer :=
  match peer.wg with
  | some wg => .ok { peer with wg := some (f wg) }
  | none => .error (.panic "a peer wireguard should exist by now")

/-- One pass of the loop of `parse_args`. -/
def parseArg (st : ParseState α) (arg : String) : Except Fault (ParseState α) :=
  match st.state, st.currentPeer with
  | .Own, none =>
    if arg = "public-key" then .ok { st with state := .OwnPublicKey }
    else if arg = "secret-key" then .ok { st with state := .OwnSecretKey }
    -- deprecated, with a warning
    else if arg = "private-key" then .ok { st with state := .OwnSecretKey }
    else if arg = "listen" then .ok { st with state := .OwnListen }
    else if arg = "verbose" then .ok { st with config := { st.config with verbosity := .Verbose } }
    else if arg = "peer" then
      if .OwnPublicKey ∉ st.alreadySet then .error (.error "public-key file must be set")
      else if .OwnSecretKey ∉ st.alreadySet then .error (.error "secret-key file must be set")
      else .ok { st with alreadySet := [], currentPeer := some {}, state := .Peer }
    else .error (.error s!"unrecognised argument {arg}")
  | .OwnPublicKey, none =>
    st.ensureInsert .OwnPublicKey "public-key was already set" fun st =>
      .ok { st with config := { st.config with publicKey := arg }, state := .Own }
  | .OwnSecretKey, none =>
    st.ensureInsert .OwnSecretKey "secret-key was already set" fun st =>
      .ok { st with config := { st.config with secretKey := arg }, state := .Own }
  | .OwnListen, none =>
    -- multiple listen directives are allowed
    let set := (setInsert st.alreadySet .OwnListen).2
    match toSocketAddrs arg with
    | .ok addrs =>
      .ok { st with
        alreadySet := set
        config := { st.config with listen := st.config.listen ++ addrs }
        state := .Own }
    | .error e => .error (.error e)
  | .Own, some _ | .OwnPublicKey, some _ | .OwnSecretKey, some _ | .OwnListen, some _ =>
    .error (.panic "current_peer is not None while in Own* state, this must never happen")
  | .Peer, some peer =>
    if arg = "peer" then
      .ok { st with
        config := { st.config with peers := st.config.peers ++ [peer] }
        alreadySet := []
        currentPeer := some {}
        state := .Peer }
    else if arg = "public-key" then .ok { st with state := .PeerPublicKey }
    else if arg = "endpoint" then .ok { st with state := .PeerEndpoint }
    else if arg = "preshared-key" then .ok { st with state := .PeerPsk }
    else if arg = "outfile" then .ok { st with state := .PeerOutfile }
    else if arg = "wireguard" then .ok { st with state := .PeerWireguardDev }
    else .error (.error s!"unrecongnised argument {arg}")
  | .PeerWireguardExtraArgs, some peer =>
    if arg = "peer" then
      .ok { st with
        config := { st.config with peers := st.config.peers ++ [peer] }
        alreadySet := []
        currentPeer := some {}
        state := .Peer }
    else
      match modifyWg peer fun wg => { wg with extraParams := wg.extraParams ++ [arg] } with
      | .ok peer => .ok { st with currentPeer := some peer }
      | .error e => .error e
  | .PeerPublicKey, some peer =>
    st.ensureInsert .PeerPublicKey "public-key was already set" fun st =>
      .ok { st with currentPeer := some { peer with publicKey := arg }, state := .Peer }
  | .PeerEndpoint, some peer =>
    st.ensureInsert .PeerEndpoint "endpoint was already set" fun st =>
      .ok { st with currentPeer := some { peer with endpoint := some arg }, state := .Peer }
  | .PeerPsk, some peer =>
    -- the set records `PeerEndpoint`, not `PeerPsk`
    st.ensureInsert .PeerEndpoint "peer psk was already set" fun st =>
      .ok { st with currentPeer := some { peer with preSharedKey := some arg }, state := .Peer }
  | .PeerOutfile, some peer =>
    st.ensureInsert .PeerOutfile "peer outfile was already set" fun st =>
      .ok { st with currentPeer := some { peer with keyOut := some arg }, state := .Peer }
  | .PeerWireguardDev, some peer =>
    st.ensureInsert .PeerWireguardDev "peer wireguard-dev was already set" fun st =>
      if peer.wg.isSome then .error (.panic "assertion failed: peer.wg.is_none()")
      else .ok { st with
        currentPeer := some { peer with wg := some { device := arg } }
        state := .PeerWireguardPeer }
  | .PeerWireguardPeer, some peer =>
    st.ensureInsert .PeerWireguardPeer "peer wireguard-peer was already set" fun st =>
      match modifyWg peer fun wg => { wg with peer := arg } with
      | .ok peer => .ok { st with currentPeer := some peer, state := .PeerWireguardExtraArgs }
      | .error e => .error e
  | _, none => .error (.panic "got peer options but no peer was created")

/-- `Rosenpass::parse_args(args)`. -/
def parseArgs (args : List String) : Except Fault (Rosenpass α) := do
  let st ← args.foldlM (parseArg toSocketAddrs)
    { config := Rosenpass.new "" "", state := .Own, currentPeer := none, alreadySet := [] }
  match st.currentPeer with
  | some p => pure { st.config with peers := st.config.peers ++ [p] }
  | none => pure st.config

/-! ## The loop never panics

The four panics need a peer where there is none or none where there is one, or
WireGuard settings that are there before `wireguard` or missing after it. The invariant
says which states have a peer and which peers have settings; every pass keeps it. -/

/-- The states of the configuration's own section. -/
def State.isOwn : State → Bool
  | .Own | .OwnPublicKey | .OwnSecretKey | .OwnListen => true
  | _ => false

/-- The states after `wireguard DEV`. -/
def State.hasWg : State → Bool
  | .PeerWireguardPeer | .PeerWireguardExtraArgs => true
  | _ => false

/-- A peer is read exactly in the peer states, and has WireGuard settings exactly after
`wireguard DEV`. -/
def ParseState.Inv (st : ParseState α) : Prop :=
  match st.currentPeer with
  | none => st.state.isOwn = true
  | some peer => st.state.isOwn = false ∧ peer.wg.isSome = st.state.hasWg

/-- A pass ends with the invariant, or fails without a panic. -/
def StepOk : Except Fault (ParseState α) → Prop
  | .ok st => st.Inv
  | .error e => e.isPanic = false

theorem modifyWg_of_isSome {peer : RosenpassPeer} (h : peer.wg.isSome = true) (f : WireGuard → WireGuard) :
    ∃ wg, modifyWg peer f = .ok { peer with wg := some (f wg) } := by
  obtain ⟨wg, hwg⟩ := Option.isSome_iff_exists.1 h
  exact ⟨wg, by simp [modifyWg, hwg]⟩

theorem parseArg_stepOk {st : ParseState α} (hi : st.Inv) (arg : String) : StepOk (parseArg toSocketAddrs st arg) := by
  rcases st with ⟨config, state, _ | peer, set⟩
  · -- no peer is being read: the state is one of the own ones
    cases state <;> simp only [ParseState.Inv, State.isOwn, Bool.false_eq_true] at hi <;>
      simp only [parseArg, ParseState.ensureInsert, setInsert] <;> (repeat' split) <;>
      simp [StepOk, ParseState.Inv, State.isOwn, State.hasWg, Fault.isPanic]
  · -- a peer is being read: the state is a peer state, and the peer has WireGuard settings
    -- exactly after `wireguard DEV`
    simp only [ParseState.Inv] at hi
    obtain ⟨hown, hwg⟩ := hi
    cases state <;> simp only [State.isOwn, State.hasWg, Bool.true_eq_false] at hown hwg
    case PeerWireguardPeer =>
      obtain ⟨wg, h⟩ := modifyWg_of_isSome hwg fun wg => { wg with peer := arg }
      simp only [parseArg, ParseState.ensureInsert, setInsert, h]
      split <;> simp [StepOk, ParseState.Inv, State.isOwn, State.hasWg, Fault.isPanic]
    case PeerWireguardExtraArgs =>
      obtain ⟨wg, h⟩ := modifyWg_of_isSome hwg fun wg => { wg with extraParams := wg.extraParams ++ [arg] }
      simp only [parseArg, h]
      split <;> simp [StepOk, ParseState.Inv, State.isOwn, State.hasWg]
    all_goals
      simp only [parseArg, ParseState.ensureInsert, setInsert]
      repeat' split
      all_goals simp_all [StepOk, ParseState.Inv, State.isOwn, State.hasWg, Fault.isPanic]

/-- The loop from a state with the invariant ends in one with it, or fails without panicking. -/
theorem foldlM_parseArg_stepOk (args : List String) :
    ∀ st : ParseState α, st.Inv → StepOk (args.foldlM (parseArg toSocketAddrs) st) := by
  induction args with
  | nil => exact fun st hi => hi
  | cons arg args ih =>
    intro st hi
    have hstep := parseArg_stepOk toSocketAddrs hi arg
    rw [List.foldlM_cons]
    cases h : parseArg toSocketAddrs st arg with
    | error e =>
      rw [h] at hstep
      exact hstep
    | ok st' =>
      rw [h] at hstep
      exact ih st' hstep

end Parse

end Rosenpass.App
