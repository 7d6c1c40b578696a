/-
A server over its lifetime: the public operations, one after another.

A run starts from `CryptoServer::new` and applies `add_peer`, `initiate_handshake`,
`handle_msg`, `handle_msg_under_load`, `poll` and `retransmit_handshake` in any order,
each with any arguments, any transmit buffer and any random draws, at times that never
go back (`timebase.now()` is the time since the server was made). An operation that
returns an `Err` leaves the state its writes reached and the server goes on, as the
application does; a panic ends the server, so no step continues from one.
-/
import Rosenpass.Protocol.Server
import Rosenpass.Protocol.Poll
import Rosenpass.Lib.System

namespace Rosenpass

variable (P : Primitives)

/-- The public operations of a `CryptoServer`. -/
inductive Op where
  | addPeer (psk : Option Bytes) (pk : Bytes)
  | initiateHandshake (peer : PeerPtr)
  | handleMsg (rx : Bytes)
  | handleMsgUnderLoad (rx host : Bytes)
  | poll
  | retransmitHandshake (peer : PeerPtr)

/-- What an operation returns. -/
inductive Outcome where
  | peer (p : PeerPtr)
  | len (n : Nat)
  | msg (r : HandleMsgResult)
  | poll (r : PollResult)

/-- Run an operation. -/
def Op.exec (env : Env) : Op → ServerM Outcome
  | .addPeer psk pk => Outcome.peer <$> Rosenpass.addPeer P psk pk
  | .initiateHandshake peer => Outcome.len <$> Rosenpass.initiateHandshake P env peer
  | .handleMsg rx => Outcome.msg <$> Rosenpass.handleMsg P env rx
  | .handleMsgUnderLoad rx host => Outcome.msg <$> Rosenpass.handleMsgUnderLoad P env rx host
  | .poll => Outcome.poll <$> Rosenpass.poll env
  | .retransmitHandshake peer => Outcome.len <$> Rosenpass.retransmitHandshake P peer

/-- The server and the time of its last operation. -/
structure World where
  srv : CryptoServer
  now : Timing

/-- A step of the server: an operation at a time not before the last, with any transmit
buffer, which does not panic. -/
def World.Step (w w' : World) : Prop :=
  ∃ (op : Op) (env : Env) (tx : Bytes),
    w.now ≤ env.now ∧
    (∀ e c, (op.exec P env).run ⟨w.srv, tx⟩ ≠ .error (.panic e) c) ∧
    w' = ⟨((op.exec P env).run ⟨w.srv, tx⟩).state.srv, env.now⟩

/-- The lifetime of a server made by `CryptoServer::new`. -/
def serverSpec : System.Spec World where
  init w := ∃ coins sk pk, w = ⟨CryptoServer.new coins sk pk, 0⟩
  next := World.Step P

end Rosenpass
