/-
The exchange command line and host-path discovery: which argument lists the parser
takes, and which address-socket pairs the scout tries.
-/
import Rosenpass.App.Config
import Rosenpass.App.Endpoint

namespace Rosenpass.App

section Parse

variable {α : Type} (toSocketAddrs : String → Except String (List α))

/-- A peer given both `endpoint E` and `preshared-key K`, in the order the grammar
documents, is rejected: the `preshared-key` arm records `PeerEndpoint` as set, which
`endpoint` has set already. -/
theorem parseArgs_rejects_endpoint_and_psk (P S Q E K : String) :
    parseArgs toSocketAddrs ["public-key", P, "secret-key", S, "peer", "public-key", Q, "endpoint", E,
      "preshared-key", K] = .error (.error "peer psk was already set") := by
  rfl

/-- Whatever it rejects, `parse_args` never panics, on any argument list. The `current_peer`
invariant carries it (`foldlM_parseArg_stepOk`): a peer exists exactly in the `Peer*`
states, with WireGuard settings exactly after `wireguard DEV`. -/
theorem parseArgs_ne_panic (args : List String) (msg : String) :
    parseArgs toSocketAddrs args ≠ .error (.panic msg) := by
  have h := foldlM_parseArg_stepOk toSocketAddrs args
    { config := Rosenpass.new "" "", state := .Own, currentPeer := none, alreadySet := [] } rfl
  unfold parseArgs
  cases hf : args.foldlM (parseArg toSocketAddrs)
      { config := Rosenpass.new "" "", state := .Own, currentPeer := none, alreadySet := [] } with
  | error e =>
    rw [hf] at h
    intro he
    cases he
    simp [StepOk, Fault.isPanic] at h
  | ok st =>
    simp only [bind, Except.bind]
    split <;> simp [pure, Except.pure]

end Parse

section Scouting

variable {A S : Type} (sendTo : S → A → Bool)

/-- The socket iterator is shared by all addresses: when the first address of the scan
fails on every socket it drains the iterator, and `send_scouting` fails whatever the
other addresses would do. -/
theorem sendScouting_stops_after_first_address (ep : HostPathDiscoveryEndpoint A) (sockets : List S)
    (addrNo : Nat) (addr : A) (rest : List (Nat × A))
    (hfirst : cyclicFrom ep.addresses ep.scoutingState.1 = (addrNo, addr) :: rest)
    (hfail : ∀ s ∈ sockets, sendTo s addr = false) :
    ep.sendScouting sendTo sockets = (.error (.error "Unable to send message: All sockets returned errors."), ep) := by
  have hdrain : trySockets sendTo addr (cyclicFrom sockets ep.scoutingState.2) = (none, []) :=
    trySockets_of_forall sendTo addr _ fun p hp => hfail p.2 (mem_of_mem_cyclicFrom hp)
  simp only [HostPathDiscoveryEndpoint.sendScouting, hfirst, scoutLoop, hdrain, scoutLoop_nil]

/-- Two addresses and one socket that reaches only the second: the scout fails. -/
theorem sendScouting_stops_after_first_address_two :
    cyclicFrom [0, 1] (⟨(0, 0), [0, 1]⟩ : HostPathDiscoveryEndpoint Nat).scoutingState.1 = (0, 0) :: [(1, 1)] ∧
    (∀ s ∈ [0], (fun (_ : Nat) (a : Nat) => a == 1) s 0 = false) ∧
    (fun (_ : Nat) (a : Nat) => a == 1) 0 1 = true ∧
    (⟨(0, 0), [0, 1]⟩ : HostPathDiscoveryEndpoint Nat).sendScouting (fun _ a => a == 1) [0] =
      (.error (.error "Unable to send message: All sockets returned errors."), ⟨(0, 0), [0, 1]⟩) :=
  ⟨rfl, by decide, rfl,
    sendScouting_stops_after_first_address (fun (_ : Nat) (a : Nat) => a == 1) ⟨(0, 0), [0, 1]⟩ [0] 0 0 [(1, 1)]
      rfl (by decide)⟩

end Scouting

end Rosenpass.App
