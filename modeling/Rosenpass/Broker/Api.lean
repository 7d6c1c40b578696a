/-
The PSK broker's message API (`wireguard-broker/src/api`): the `SetPsk` request a
`BrokerClient` sends, the `BrokerServer` that hands it to an inner broker, and the
response the client polls for.

Both sides view a zero-initialised byte buffer through a packed `Envelope` of a
payload struct (`zerocopy::Ref`); here the buffer is a byte string and each struct
field a `Buffer.Field` at its packed offset. `Ref::new` succeeds exactly on a buffer
of the struct's size. The client's I/O and the inner broker are the generic parameters
the source has: `BrokerClientIo` with its two operations, and a `set_psk` on a state of
its own.

`Public<32>` and `Secret<32>` are byte strings of 32 bytes; an interface name is a
UTF-8 byte string, checked by `std::str::from_utf8`.
-/
import Rosenpass.Ciphers
import Rosenpass.Lib.Buffer
import Rosenpass.Lib.EState

namespace Rosenpass.Broker

open Buffer EStateM

/-! ## Messages (`api/msgs.rs`) -/

def ENVELOPE_OVERHEAD : Nat := 1 + 3
def REQUEST_MSG_BUFFER_SIZE : Nat := ENVELOPE_OVERHEAD + 32 + 32 + 1 + 255
def RESPONSE_MSG_BUFFER_SIZE : Nat := ENVELOPE_OVERHEAD + 1

/-- `Envelope::msg_type`. -/
def msgTypeField : Field := ⟨0, 1⟩

/-- A field of the payload, behind the envelope's type and reserved bytes. -/
def payload (f : Field) : Field := ⟨ENVELOPE_OVERHEAD + f.off, f.len⟩

namespace SetPskRequest

def peerId : Field := payload ⟨0, 32⟩
def psk : Field := payload ⟨32, 32⟩
def ifaceSize : Field := payload ⟨64, 1⟩
def ifaceBuf : Field := payload ⟨65, 255⟩

/-- `iface_bin`: the first `iface_size` bytes of the name buffer. -/
def ifaceBin (req : Bytes) : Bytes :=
  (ifaceBuf.get req).take ((ifaceSize.get req).headD 0).toNat

/-- `set_iface_bin`: a name of at most 255 bytes, with its length, in a zeroed buffer. -/
def setIfaceBin (req iface : Bytes) : Option Bytes :=
  if iface.length < 256 then
    some (ifaceBuf.set (write 0 iface (List.replicate 255 0)) (ifaceSize.set [UInt8.ofNat iface.length] req))
  else none

end SetPskRequest

/-- `SetPskResponse::return_code`. -/
def returnCodeField : Field := payload ⟨0, 1⟩

inductive SetPskError where
  | InternalError
  | NoSuchInterface
  | NoSuchPeer
  deriving DecidableEq, Repr

abbrev SetPskResult := Except SetPskError Unit

inductive SetPskResponseReturnCode where
  | Success
  | InternalError
  | NoSuchInterface
  | NoSuchPeer
  deriving DecidableEq, Repr

namespace SetPskResponseReturnCode

def toU8 : SetPskResponseReturnCode → UInt8
  | Success => 0x00
  | InternalError => 0x01
  | NoSuchInterface => 0x02
  | NoSuchPeer => 0x03

/-- `TryFrom<u8>`; the error is `InvalidSetPskResponseError`. -/
def tryFrom (value : UInt8) : Except Unit SetPskResponseReturnCode :=
  match value with
  | 0x00 => .ok Success
  | 0x01 => .ok InternalError
  | 0x02 => .ok NoSuchInterface
  | 0x03 => .ok NoSuchPeer
  | _ => .error ()

/-- `From<SetPskResponseReturnCode> for SetPskResult`. -/
def toResult : SetPskResponseReturnCode → SetPskResult
  | Success => .ok ()
  | InternalError => .error .InternalError
  | NoSuchInterface => .error .NoSuchInterface
  | NoSuchPeer => .error .NoSuchPeer

/-- `From<SetPskResult> for SetPskResponseReturnCode`. -/
def ofResult : SetPskResult → SetPskResponseReturnCode
  | .ok () => Success
  | .error .InternalError => InternalError
  | .error .NoSuchInterface => NoSuchInterface
  | .error .NoSuchPeer => NoSuchPeer

@[simp] theorem tryFrom_toU8 (c : SetPskResponseReturnCode) : tryFrom c.toU8 = .ok c := by
  cases c <;> rfl

/-- The four results survive the trip through a return code. -/
@[simp] theorem toResult_ofResult (r : SetPskResult) : (ofResult r).toResult = r := by
  rcases r with (_ | _ | _) | ⟨⟩ <;> rfl

end SetPskResponseReturnCode

inductive MsgType where
  | SetPsk
  deriving DecidableEq, Repr

namespace MsgType

def toU8 : MsgType → UInt8
  | SetPsk => 0x01

/-- `TryFrom<u8>`; the error is `InvalidMessageTypeError`. -/
def tryFrom (value : UInt8) : Except Unit MsgType :=
  if value = 0x01 then .ok SetPsk else .error ()

@[simp] theorem tryFrom_toU8 (t : MsgType) : tryFrom t.toU8 = .ok t := by
  cases t
  rfl

end MsgType

/-- `zerocopy::Ref::new` of a packed struct of `n` bytes: the buffer, if it has that size. -/
def refNew (n : Nat) (b : Bytes) : Option Bytes :=
  if b.length = n then some b else none

/-- `std::str::from_utf8`: the bytes, if they are UTF-8. -/
def fromUtf8 (b : Bytes) : Except Unit Bytes :=
  if (ByteArray.mk b.toArray).IsValidUTF8 then .ok b else .error ()

/-- The bytes of a Rust `&str`. -/
def strBytes (s : String) : Bytes := s.toUTF8.data.toList

@[simp] theorem fromUtf8_strBytes (s : String) : fromUtf8 (strBytes s) = .ok (strBytes s) := by
  have h : ByteArray.mk (strBytes s).toArray = s.toByteArray := by
    simp [strBytes]
  rw [fromUtf8, if_pos (h ▸ s.isValidUTF8)]

/-! ## Configurations (`lib.rs`, `api/config.rs`) -/

/-- `SerializedBrokerConfig`. -/
structure SerializedBrokerConfig where
  interface : Bytes
  peerId : Bytes
  psk : Bytes
  additionalParams : Bytes
  deriving DecidableEq, Repr

inductive NetworkBrokerConfigErr where
  | Interface
  deriving DecidableEq, Repr

/-- `NetworkBrokerConfig`: the interface name is a `&str`. -/
structure NetworkBrokerConfig where
  iface : Bytes
  peerId : Bytes
  psk : Bytes
  deriving DecidableEq, Repr

/-- `TryFrom<SerializedBrokerConfig> for NetworkBrokerConfig`. -/
def NetworkBrokerConfig.tryFrom (value : SerializedBrokerConfig) : Except NetworkBrokerConfigErr NetworkBrokerConfig :=
  match fromUtf8 value.interface with
  | .ok iface => .ok { iface, peerId := value.peerId, psk := value.psk }
  | .error _ => .error .Interface

/-- `Into<SerializedBrokerConfig> for NetworkBrokerConfig`. -/
def NetworkBrokerConfig.into (c : NetworkBrokerConfig) : SerializedBrokerConfig :=
  { interface := c.iface, peerId := c.peerId, psk := c.psk, additionalParams := [] }

/-- What `set_psk` writes into the zeroed request: the type, the peer, the key, and the
interface name, which may be too long. -/
def SetPskRequest.fill (req : Bytes) (config : NetworkBrokerConfig) : Option Bytes :=
  let req := msgTypeField.set [MsgType.SetPsk.toU8] req
  let req := SetPskRequest.peerId.set config.peerId req
  let req := SetPskRequest.psk.set config.psk req
  SetPskRequest.setIfaceBin req config.iface

/-! ## The client (`api/client.rs`) -/

/-- `BrokerClientIo` on a state `σ`. -/
structure BrokerClientIo (σ SendError RecvError : Type) where
  sendMsg : Bytes → EStateM SendError σ Unit
  recvMsg : EStateM RecvError σ (Option Bytes)

inductive BrokerClientPollResponseError (RecvError : Type) where
  | IoError (e : RecvError)
  | InvalidMessage
  deriving DecidableEq, Repr

inductive BrokerClientSetPskError (SendError : Type) where
  | MsgError
  | BrokerError (e : NetworkBrokerConfigErr)
  | IoError (e : SendError)
  | IfaceOutOfBounds
  deriving DecidableEq, Repr

namespace BrokerClient

variable {σ SendError RecvError : Type} (io : BrokerClientIo σ SendError RecvError)

/-- `poll_response`. -/
def pollResponse : EStateM (BrokerClientPollResponseError RecvError) σ (Option SetPskResult) := do
  match ← adaptExcept .IoError io.recvMsg with
  | none => pure none
  | some res =>
    let typ ← match res.head? with
      | some t => pure t
      | none => throw .InvalidMessage
    match MsgType.tryFrom typ with
    | .ok .SetPsk => pure ()
    | .error _ => throw .InvalidMessage
    let res ← match refNew RESPONSE_MSG_BUFFER_SIZE res with
      | some r => pure r
      | none => throw .InvalidMessage
    match SetPskResponseReturnCode.tryFrom ((returnCodeField.get res).headD 0) with
    | .ok code => pure (some code.toResult)
    | .error _ => throw .InvalidMessage

/-- `set_psk` of `WireGuardBroker for BrokerClient`. -/
def setPsk (config : SerializedBrokerConfig) : EStateM (BrokerClientSetPskError SendError) σ Unit := do
  let config ← match NetworkBrokerConfig.tryFrom config with
    | .ok c => pure c
    | .error e => throw (.BrokerError e)
  let req ← match refNew REQUEST_MSG_BUFFER_SIZE (List.replicate REQUEST_MSG_BUFFER_SIZE 0) with
    | some r => pure r
    | none => throw .MsgError
  let req ← match SetPskRequest.fill req config with
    | some r => pure r
    | none => throw .IfaceOutOfBounds
  adaptExcept .IoError (io.sendMsg req)

end BrokerClient

/-! ## The server (`api/server.rs`) -/

inductive BrokerServerError where
  | NoSuchRequestType (t : UInt8)
  | InvalidMessage
  | BrokerError (e : NetworkBrokerConfigErr)
  deriving DecidableEq, Repr

/-- The inner `WireGuardBroker` of a `BrokerServer`: its `set_psk` on a state of its own,
and the `From` of its error into `SetPskError`. -/
structure InnerBroker (τ Err : Type) where
  setPsk : SerializedBrokerConfig → τ → Except Err Unit × τ
  toSetPskError : Err → SetPskError

namespace BrokerServer

variable {τ Err : Type} (inner : InnerBroker τ Err)

/-- `handle_set_psk`: the inner broker's answer, as a return code in the response. -/
def handleSetPsk (req res : Bytes) : EStateM BrokerServerError τ Bytes := do
  -- `Public::from_slice` and `Secret::from_slice` of the two 32-byte fields
  let peerId := SetPskRequest.peerId.get req
  let psk := SetPskRequest.psk.get req
  let interface ← match fromUtf8 (SetPskRequest.ifaceBin req) with
    | .ok s => pure s
    | .error _ => throw .InvalidMessage
  -- the builder has every field, so `build().unwrap()` succeeds
  let config : NetworkBrokerConfig := { iface := interface, peerId, psk }
  let r ← modifyGet (inner.setPsk config.into)
  let r : SetPskResult := r.mapError inner.toSetPskError
  pure (returnCodeField.set [(SetPskResponseReturnCode.ofResult r).toU8] res)

/-- `handle_message`: the response and its length. -/
def handleMessage (req res : Bytes) : EStateM BrokerServerError τ (Nat × Bytes) := do
  let typ ← match req.head? with
    | some t => pure t
    | none => throw .InvalidMessage
  match MsgType.tryFrom typ with
  | .ok .SetPsk => pure ()
  | .error _ => throw .InvalidMessage
  let req ← match refNew REQUEST_MSG_BUFFER_SIZE req with
    | some r => pure r
    | none => throw .InvalidMessage
  let res ← match refNew RESPONSE_MSG_BUFFER_SIZE res with
    | some r => pure r
    | none => throw .InvalidMessage
  let res := returnCodeField.set [MsgType.SetPsk.toU8] res
  let res ← handleSetPsk inner req res
  pure (res.length, res)

end BrokerServer

/-! ## The request on the wire -/

namespace SetPskRequest

/-- The stores `fill` makes, in order. -/
def stores (config : NetworkBrokerConfig) : List (Field × Bytes) :=
  [(msgTypeField, [MsgType.SetPsk.toU8]), (peerId, config.peerId), (psk, config.psk),
    (ifaceSize, [UInt8.ofNat config.iface.length]), (ifaceBuf, write 0 config.iface (List.replicate 255 0))]

theorem fill_eq (req : Bytes) (config : NetworkBrokerConfig) :
    fill req config = if config.iface.length < 256 then some (Field.setAll (stores config) req) else none := by
  simp only [fill, setIfaceBin]
  split <;> rfl

/-- The stores after the type leave the type byte alone. -/
theorem disjoint_msgType : ∀ w ∈ (stores config).tail, msgTypeField.Disjoint w.1 := by
  simp only [stores, List.tail_cons, List.mem_cons, List.mem_nil_iff, or_false]
  rintro w (rfl | rfl | rfl | rfl) <;> dsimp only <;> decide

section Stores

variable {config : NetworkBrokerConfig} (hp : config.peerId.length = 32) (hk : config.psk.length = 32)
  (hi : config.iface.length ≤ 255)
include hp hk hi

theorem stores_fits : Field.Fits REQUEST_MSG_BUFFER_SIZE (stores config) := by
  have hname : (write 0 config.iface (List.replicate 255 0)).length = 255 := by
    rw [length_write (by rw [List.length_replicate]; omega), List.length_replicate]
  intro w hw
  simp only [stores, List.mem_cons, List.mem_nil_iff, or_false] at hw
  rcases hw with rfl | rfl | rfl | rfl | rfl
  all_goals
    refine ⟨?_, by dsimp only; decide⟩
    first | rfl | exact hp | exact hk | exact hname

/-- The request `fill` makes of the zeroed buffer. -/
theorem length_setAll_stores :
    (Field.setAll (stores config) (List.replicate REQUEST_MSG_BUFFER_SIZE 0)).length = REQUEST_MSG_BUFFER_SIZE := by
  rw [Field.length_setAll (by rw [List.length_replicate]; exact stores_fits hp hk hi), List.length_replicate]

theorem head_setAll_stores :
    (Field.setAll (stores config) (List.replicate REQUEST_MSG_BUFFER_SIZE 0)).head? = some MsgType.SetPsk.toU8 := by
  have h : msgTypeField.get (Field.setAll (stores config) (List.replicate REQUEST_MSG_BUFFER_SIZE 0)) =
      [MsgType.SetPsk.toU8] :=
    Field.get_setAll_of_last [] (by rw [List.length_replicate]; exact stores_fits hp hk hi) disjoint_msgType
  have hd := congrArg List.head? h
  rwa [msgTypeField, Field.get, slice, List.drop_zero, List.head?_take, if_neg Nat.one_ne_zero] at hd

theorem get_peerId_setAll_stores :
    peerId.get (Field.setAll (stores config) (List.replicate REQUEST_MSG_BUFFER_SIZE 0)) = config.peerId :=
  Field.get_setAll_of_last [(msgTypeField, [MsgType.SetPsk.toU8])]
    (by rw [List.length_replicate]; exact stores_fits hp hk hi)
    (by simp only [List.mem_cons, List.mem_nil_iff, or_false, forall_eq_or_imp, forall_eq]; decide)

theorem get_psk_setAll_stores :
    psk.get (Field.setAll (stores config) (List.replicate REQUEST_MSG_BUFFER_SIZE 0)) = config.psk :=
  Field.get_setAll_of_last [(msgTypeField, [MsgType.SetPsk.toU8]), (peerId, config.peerId)]
    (by rw [List.length_replicate]; exact stores_fits hp hk hi)
    (by simp only [List.mem_cons, List.mem_nil_iff, or_false, forall_eq_or_imp, forall_eq]; decide)

/-- The server reads back the interface name the client wrote. -/
theorem ifaceBin_setAll_stores :
    ifaceBin (Field.setAll (stores config) (List.replicate REQUEST_MSG_BUFFER_SIZE 0)) = config.iface := by
  have hfits : Field.Fits (List.replicate REQUEST_MSG_BUFFER_SIZE (0 : UInt8)).length (stores config) := by
    rw [List.length_replicate]; exact stores_fits hp hk hi
  have hsize : ifaceSize.get (Field.setAll (stores config) (List.replicate REQUEST_MSG_BUFFER_SIZE 0)) =
      [UInt8.ofNat config.iface.length] :=
    Field.get_setAll_of_last [(msgTypeField, [MsgType.SetPsk.toU8]), (peerId, config.peerId), (psk, config.psk)]
      hfits (by simp only [List.mem_cons, List.mem_nil_iff, or_false, forall_eq]; decide)
  have hbuf : ifaceBuf.get (Field.setAll (stores config) (List.replicate REQUEST_MSG_BUFFER_SIZE 0)) =
      write 0 config.iface (List.replicate 255 0) :=
    Field.get_setAll_of_last [(msgTypeField, [MsgType.SetPsk.toU8]), (peerId, config.peerId), (psk, config.psk),
      (ifaceSize, [UInt8.ofNat config.iface.length])] hfits (by simp)
  have hlen : (UInt8.ofNat config.iface.length).toNat = config.iface.length := by
    simp only [UInt8.toNat_ofNat']
    omega
  rw [ifaceBin, hsize, hbuf, List.headD_cons, hlen, write, List.take_zero, List.nil_append]
  exact List.take_left' rfl

end Stores

end SetPskRequest

/-- A valid configuration goes out as the request `fill` makes. -/
theorem BrokerClient.setPsk_eq {σ SendError RecvError : Type} (io : BrokerClientIo σ SendError RecvError)
    {config : SerializedBrokerConfig} {c : NetworkBrokerConfig} (hc : NetworkBrokerConfig.tryFrom config = .ok c)
    (hi : c.iface.length < 256) :
    BrokerClient.setPsk io config =
      adaptExcept .IoError (io.sendMsg (Field.setAll (SetPskRequest.stores c) (List.replicate REQUEST_MSG_BUFFER_SIZE 0))) := by
  simp [BrokerClient.setPsk, hc, refNew, SetPskRequest.fill_eq, hi]

/-- The server hands the inner broker the configuration the request carries, and answers
with its return code behind a zero envelope. -/
theorem BrokerServer.handleMessage_request {τ Err : Type} (inner : InnerBroker τ Err) (t : τ)
    {c : NetworkBrokerConfig} (hp : c.peerId.length = 32) (hk : c.psk.length = 32) (hi : c.iface.length ≤ 255)
    (hu : fromUtf8 c.iface = .ok c.iface) :
    (BrokerServer.handleMessage inner (Field.setAll (SetPskRequest.stores c) (List.replicate REQUEST_MSG_BUFFER_SIZE 0))
        (List.replicate RESPONSE_MSG_BUFFER_SIZE 0)).run t =
      .ok (RESPONSE_MSG_BUFFER_SIZE,
        [0, 0, 0, 0, (SetPskResponseReturnCode.ofResult ((inner.setPsk c.into t).1.mapError inner.toSetPskError)).toU8])
        (inner.setPsk c.into t).2 := by
  simp only [BrokerServer.handleMessage, SetPskRequest.head_setAll_stores hp hk hi, refNew,
    SetPskRequest.length_setAll_stores hp hk hi, ↓reduceIte, List.length_replicate, BrokerServer.handleSetPsk,
    bind_pure_comp, pure_bind, SetPskRequest.ifaceBin_setAll_stores hp hk hi, hu,
    SetPskRequest.get_peerId_setAll_stores hp hk hi, SetPskRequest.get_psk_setAll_stores hp hk hi, Functor.map_map,
    MsgType.tryFrom_toU8]
  rfl

end Rosenpass.Broker
