/-
Two servers talking to each other over a network that may lose, duplicate and reorder
messages.

Each party is a `CryptoServer` driven by the operations of `Run`. What a call writes to
its transmit buffer and reports as a length (`initiate_handshake`,
`retransmit_handshake`, the `resp` of `handle_msg`) is sent to the other party and
stays in flight for good: a party may receive any message ever sent to it, any number
of times, in any order, or never. Both parties read one clock, which never goes back.
This is the loop of the test `handles_incorrect_size_messages`, with the deliveries
left to an adversary.
-/
import Rosenpass.Protocol.Run

namespace Rosenpass

variable (P : Primitives)

/-- The two parties. -/
inductive Side where
  | a
  | b
  deriving DecidableEq, Repr

def Side.other : Side → Side
  | .a => .b
  | .b => .a

/-- Both servers, the time of the last call, and the messages sent to each side, the
latest first. -/
structure Net where
  a : CryptoServer
  b : CryptoServer
  now : Timing
  inbox : Side → List Bytes

namespace Net

def srv (n : Net) : Side → CryptoServer
  | .a => n.a
  | .b => n.b

def setSrv (n : Net) : Side → CryptoServer → Net
  | .a, srv => { n with a := srv }
  | .b, srv => { n with b := srv }

/-- Put a message, if there is one, in flight to a side. -/
def send (n : Net) (s : Side) : Option Bytes → Net
  | some m => { n with inbox := Function.update n.inbox s (m :: n.inbox s) }
  | none => n

@[simp] theorem srv_setSrv_self (n : Net) (s : Side) (srv : CryptoServer) :
    (n.setSrv s srv).srv s = srv := by
  cases s <;> rfl

@[simp] theorem srv_setSrv_other (n : Net) (s : Side) (srv : CryptoServer) :
    (n.setSrv s srv).srv s.other = n.srv s.other := by
  cases s <;> rfl

@[simp] theorem srv_send (n : Net) (s s' : Side) (m : Option Bytes) : (n.send s m).srv s' = n.srv s' := by
  cases m <;> cases s' <;> rfl

end Net

/-- What a call sends: the first bytes of the transmit buffer, as many as it reports. -/
def Outcome.sent (tx : Bytes) : Outcome → Option Bytes
  | .len n => some (tx.take n)
  | .msg r => r.resp.map tx.take
  | _ => none

/-- What the network lets a party do: start a handshake with a peer, poll, retransmit,
or handle the `i`th message sent to it (the latest is the 0th). -/
inductive Action where
  | initiate (s : Side) (peer : PeerPtr)
  | poll (s : Side)
  | retransmit (s : Side) (peer : PeerPtr)
  | receive (s : Side) (i : Nat)

namespace Action

def side : Action → Side
  | initiate s _ | poll s | retransmit s _ | receive s _ => s

/-- The operation of an action; none for a message that was never sent. -/
def op (n : Net) : Action → Option Op
  | initiate _ peer => some (.initiateHandshake peer)
  | poll _ => some .poll
  | retransmit _ peer => some (.retransmitHandshake peer)
  | receive s i => (n.inbox s)[i]?.map .handleMsg

end Action

/-- A call of an operation on one side at `env`, with the transmit buffer `tx`: what it
returns and the net after it, its answer in flight to the other side; or its fault
and the net as the failure left it. -/
def Net.exec (s : Side) (op : Op) (env : Env) (tx : Bytes) (n : Net) : Except (Fault × Net) (Outcome × Net) :=
  match (op.exec P env).run ⟨n.srv s, tx⟩ with
  | .ok out c => .ok (out, ({ n.setSrv s c.srv with now := env.now } : Net).send s.other (out.sent c.tx))
  | .error e c => .error (e, { n.setSrv s c.srv with now := env.now })

/-- A step of the network: an action at a time not before the last, with any transmit
buffer, that does not panic. A call that fails leaves the state it reached. -/
def Net.Step (n n' : Net) : Prop :=
  ∃ (act : Action) (op : Op) (env : Env) (tx : Bytes),
    act.op n = some op ∧ n.now ≤ env.now ∧
    ((∃ out, Net.exec P act.side op env tx n = .ok (out, n')) ∨
      ∃ msg, Net.exec P act.side op env tx n = .error (.error msg, n'))

/-- Actions one after another, each at its environment with a zeroed transmit buffer of
`MAX_MESSAGE_LEN` bytes: the net where they stop, and, when a call fails, how many
succeeded before it and its fault. -/
def Net.script : List (Action × Env) → Net → Net × Option (Nat × Fault)
  | [], n => (n, none)
  | (act, env) :: rest, n =>
    match act.op n with
    | none => (n, some (0, .error "no such message"))
    | some op =>
      match Net.exec P act.side op env (zeros MAX_MESSAGE_LEN) n with
      | .ok (_, n') =>
        let r := Net.script rest n'
        (r.1, r.2.map fun (k, e) => (k + 1, e))
      | .error (e, n') => (n', some (0, e))

section Runs

variable {P}

/-- A call that cannot fail: its answer, and the net it leaves, with the answer in flight. -/
theorem Net.exec_of_wp {s : Side} {op : Op} {env : Env} {tx : Bytes} {n : Net} {Q : Outcome → Ctx → Prop}
    (h : EStateM.wp (op.exec P env) Q (fun _ _ => False) ⟨n.srv s, tx⟩) :
    ∃ out c', Net.exec P s op env tx n =
      .ok (out, ({ n.setSrv s c'.srv with now := env.now } : Net).send s.other (out.sent c'.tx)) ∧ Q out c' := by
  obtain ⟨out, c', hrun, hq⟩ := EStateM.run_of_wp h
  exact ⟨out, c', by simp only [Net.exec, hrun], hq⟩

/-- A script whose first action answers goes on from the net that answer leaves. -/
theorem Net.script_cons_ok {act : Action} {env : Env} {rest : List (Action × Env)} {n n' n'' : Net} {op : Op}
    {out : Outcome} {tx : Bytes} (htx : zeros MAX_MESSAGE_LEN = tx) (hop : act.op n = some op)
    (hexec : Net.exec P act.side op env tx n = .ok (out, n'))
    (hrest : Net.script P rest n' = (n'', none)) : Net.script P ((act, env) :: rest) n = (n'', none) := by
  subst htx
  simp only [Net.script, hop, hexec, hrest, Option.map_none]

/-- A call that cannot succeed: its fault, and the net as the failure left it. -/
theorem Net.exec_of_wp_error {s : Side} {op : Op} {env : Env} {tx : Bytes} {n : Net} {F : Fault → Ctx → Prop}
    (h : EStateM.wp (op.exec P env) (fun _ _ => False) F ⟨n.srv s, tx⟩) :
    ∃ e c', Net.exec P s op env tx n = .error (e, { n.setSrv s c'.srv with now := env.now }) ∧ F e c' := by
  obtain ⟨e, c', hrun, hf⟩ := EStateM.run_of_wp_error h
  exact ⟨e, c', by simp only [Net.exec, hrun], hf⟩

/-- A script whose first action answers fails where the rest fails, one action later. -/
theorem Net.script_cons_snd {act : Action} {env : Env} {rest : List (Action × Env)} {n n' : Net} {op : Op}
    {out : Outcome} {tx : Bytes} {k : Nat} {e : Fault} (htx : zeros MAX_MESSAGE_LEN = tx) (hop : act.op n = some op)
    (hexec : Net.exec P act.side op env tx n = .ok (out, n'))
    (hrest : (Net.script P rest n').2 = some (k, e)) : (Net.script P ((act, env) :: rest) n).2 = some (k + 1, e) := by
  subst htx
  simp only [Net.script, hop, hexec, hrest, Option.map_some]

/-- A script whose first action fails stops there. -/
theorem Net.script_cons_error {act : Action} {env : Env} {rest : List (Action × Env)} {n n' : Net} {op : Op}
    {tx : Bytes} {e : Fault} (htx : zeros MAX_MESSAGE_LEN = tx) (hop : act.op n = some op)
    (hexec : Net.exec P act.side op env tx n = .error (e, n')) :
    (Net.script P ((act, env) :: rest) n).2 = some (0, e) := by
  subst htx
  simp only [Net.script, hop, hexec]

end Runs

/-- The net of two servers at time zero with nothing in flight. -/
def Net.start (a b : CryptoServer) : Net := ⟨a, b, 0, fun _ => []⟩

/-- `make_server_pair()`: two servers made by `CryptoServer::new`, each given the other
as its peer 0 under one psk. -/
def Net.pair (coinsA coinsB : Coins) (skA pkA skB pkB psk : Bytes) : Net :=
  Net.start ((addPeer P (some psk) pkB).run ⟨CryptoServer.new coinsA skA pkA, []⟩).state.srv
    ((addPeer P (some psk) pkA).run ⟨CryptoServer.new coinsB skB pkB, []⟩).state.srv

end Rosenpass
