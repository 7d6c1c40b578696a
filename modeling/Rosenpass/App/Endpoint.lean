/-
Host-path discovery (`rosenpass/src/app_server.rs`, `HostPathDiscoveryEndpoint`): a
message to a peer whose address is not settled is tried on the pairs of an address of
the peer and a socket of the server, starting from the pair after the last one that
worked.

Both scans are `iter().enumerate().cycle().skip(off).take(len)`: each list once, with
its positions, from the offset round. The socket scan is a single iterator, which the
loop over addresses drains `by_ref`: what one address has consumed of it, the next
address does not see again. Whether `send_to` of a socket to an address succeeds is a
parameter; the warning printed for a failure is left out.
-/
import Rosenpass.Lib.EState

namespace Rosenpass.App

/-- `iter().enumerate().cycle().skip(off).take(len)`: the positions and elements from
`off` round, each once. -/
def cyclicFrom {β : Type} (l : List β) (off : Nat) : List (Nat × β) :=
  (l.zipIdx.rotateLeft off).map fun p => (p.2, p.1)

/-- The scan visits elements of the list. -/
theorem mem_of_mem_cyclicFrom {β : Type} {l : List β} {off : Nat} {p : Nat × β} (h : p ∈ cyclicFrom l off) :
    p.2 ∈ l := by
  obtain ⟨q, hq, rfl⟩ := List.mem_map.1 h
  have hq' : q ∈ l.zipIdx := by
    simp only [List.rotateLeft] at hq
    split at hq
    · exact hq
    · rcases List.mem_append.1 hq with hq | hq
      · exact List.mem_of_mem_drop hq
      · exact List.mem_of_mem_take hq
  exact List.fst_mem_of_mem_zipIdx hq'

section Scouting

variable {A S : Type} (sendTo : S → A → Bool)

/-- The inner loop of `send_scouting` on what is left of the socket iterator: the first
socket that reaches the address, and the iterator after it; `None` once the iterator
is drained. -/
def trySockets (addr : A) : List (Nat × S) → Option Nat × List (Nat × S)
  | [] => (none, [])
  | (sockNo, sock) :: socks => if sendTo sock addr then (some sockNo, socks) else trySockets addr socks

/-- The outer loop: each address in turn, on the same socket iterator. -/
def scoutLoop : List (Nat × A) → List (Nat × S) → Option (Nat × Nat)
  | [], _ => none
  | (addrNo, addr) :: addrs, socks =>
    match trySockets sendTo addr socks with
    | (some sockNo, _) => some (addrNo, sockNo)
    | (none, rest) => scoutLoop addrs rest

/-- `HostPathDiscoveryEndpoint`: the offsets to start from, and the peer's addresses. -/
structure HostPathDiscoveryEndpoint (A : Type) where
  scoutingState : Nat × Nat
  addresses : List A

/-- `send_scouting` with the server's sockets: on success the offsets move past the pair
that worked (`insert_next_scout_offset`). -/
def HostPathDiscoveryEndpoint.sendScouting (ep : HostPathDiscoveryEndpoint A) (sockets : List S) :
    Except Fault Unit × HostPathDiscoveryEndpoint A :=
  let (addrOff, sockOff) := ep.scoutingState
  match scoutLoop sendTo (cyclicFrom ep.addresses addrOff) (cyclicFrom sockets sockOff) with
  | some (addrNo, sockNo) =>
    (.ok (), { ep with scoutingState := ((addrNo + 1) % ep.addresses.length, (sockNo + 1) % sockets.length) })
  | none => (.error (.error "Unable to send message: All sockets returned errors."), ep)

/-- A socket scan that reaches nothing drains the iterator. -/
theorem trySockets_of_forall (addr : A) :
    ∀ socks : List (Nat × S), (∀ p ∈ socks, sendTo p.2 addr = false) → trySockets sendTo addr socks = (none, [])
  | [], _ => rfl
  | (sockNo, sock) :: socks, h => by
    rw [trySockets, if_neg (by simp [h (sockNo, sock) List.mem_cons_self]),
      trySockets_of_forall addr socks fun p hp => h p (List.mem_cons_of_mem _ hp)]

/-- Once the socket iterator is drained, no address is tried. -/
theorem scoutLoop_nil : ∀ addrs : List (Nat × A), scoutLoop sendTo addrs ([] : List (Nat × S)) = none
  | [] => rfl
  | (_, _) :: addrs => by
    rw [scoutLoop, trySockets]
    exact scoutLoop_nil addrs

end Scouting

end Rosenpass.App
