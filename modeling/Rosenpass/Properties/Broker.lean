/-
The PSK broker between its client and its server: what a `set_psk` request becomes on
the way through, and what the client reads of the answer.

`loopbackIo` is a client I/O that records the requests it sends and hands out the
responses it is given, so that the client's two operations can be run against the
bytes the server produced.
-/
import Rosenpass.Broker.MioClient

namespace Rosenpass.Broker

open EStateM Buffer

/-- A client I/O over a list of sent requests and a list of responses to deliver. -/
def loopbackIo : BrokerClientIo (List Bytes × List Bytes) Empty Empty where
  sendMsg b := modify fun io => (io.1 ++ [b], io.2)
  recvMsg := modifyGet fun io => (io.2.head?, (io.1, io.2.tail))

/-- A request from `BrokerClient::set_psk`, through `BrokerServer::handle_message`, back to
`poll_response`: the server calls the inner broker with the client's peer, key and
interface, and answers with its return code in a response whose envelope type is never
set; the client then rejects every such response as an invalid message. -/
theorem setPsk_response_rejected {τ Err : Type} (inner : InnerBroker τ Err) (t : τ) (peerId psk : Bytes)
    (iface : String) (hp : peerId.length = 32) (hk : psk.length = 32) (hi : (strBytes iface).length ≤ 255) :
    ∃ req,
      (BrokerClient.setPsk loopbackIo ⟨strBytes iface, peerId, psk, []⟩).run ([], []) = .ok () ([req], []) ∧
      (BrokerServer.handleMessage inner req (List.replicate RESPONSE_MSG_BUFFER_SIZE 0)).run t =
        .ok (RESPONSE_MSG_BUFFER_SIZE,
          [0, 0, 0, 0, (SetPskResponseReturnCode.ofResult
            ((inner.setPsk ⟨strBytes iface, peerId, psk, []⟩ t).1.mapError inner.toSetPskError)).toU8])
          (inner.setPsk ⟨strBytes iface, peerId, psk, []⟩ t).2 ∧
      ∀ code : UInt8, (BrokerClient.pollResponse loopbackIo).run ([], [[0, 0, 0, 0, code]]) =
        .error .InvalidMessage ([], []) := by
  let c : NetworkBrokerConfig := ⟨strBytes iface, peerId, psk⟩
  have hc : NetworkBrokerConfig.tryFrom ⟨strBytes iface, peerId, psk, []⟩ = .ok c := by
    simp [NetworkBrokerConfig.tryFrom, c]
  refine ⟨Field.setAll (SetPskRequest.stores c) (List.replicate REQUEST_MSG_BUFFER_SIZE 0), ?_, ?_, ?_⟩
  · rw [BrokerClient.setPsk_eq loopbackIo hc (show (strBytes iface).length < 256 by omega)]
    rfl
  · exact BrokerServer.handleMessage_request inner t hp hk hi (fromUtf8_strBytes iface)
  · -- the first byte of the response is the envelope's type, still zero
    intro code
    rfl

/-- A server whose inner broker always succeeds. -/
def acceptingBroker : InnerBroker Unit Empty where
  setPsk _ t := (.ok (), t)
  toSetPskError e := nomatch e

theorem setPsk_response_rejected_wg0 :
    (List.replicate 32 (7 : UInt8)).length = 32 ∧ (List.replicate 32 (9 : UInt8)).length = 32 ∧
    (strBytes "wg0").length ≤ 255 ∧
    ∃ req,
      (BrokerClient.setPsk loopbackIo ⟨strBytes "wg0", List.replicate 32 7, List.replicate 32 9, []⟩).run ([], []) =
        .ok () ([req], []) ∧
      (BrokerServer.handleMessage acceptingBroker req (List.replicate RESPONSE_MSG_BUFFER_SIZE 0)).run () =
        .ok (RESPONSE_MSG_BUFFER_SIZE,
          [0, 0, 0, 0, (SetPskResponseReturnCode.ofResult
            ((acceptingBroker.setPsk ⟨strBytes "wg0", List.replicate 32 7, List.replicate 32 9, []⟩ ()).1.mapError
              acceptingBroker.toSetPskError)).toU8])
          (acceptingBroker.setPsk ⟨strBytes "wg0", List.replicate 32 7, List.replicate 32 9, []⟩ ()).2 ∧
      ∀ code : UInt8, (BrokerClient.pollResponse loopbackIo).run ([], [[0, 0, 0, 0, code]]) =
        .error .InvalidMessage ([], []) :=
  ⟨rfl, rfl, by decide,
    setPsk_response_rejected acceptingBroker () (List.replicate 32 7) (List.replicate 32 9) "wg0" rfl rfl (by decide)⟩

/-! ## The client's framing -/

/-- `recv_msg` on a client just made reads the length into `recv_buf[0..8]`, but the
buffer has `RESPONSE_MSG_BUFFER_SIZE = 5` bytes: the first call panics, whatever the
socket holds. -/
theorem recvMsg_panics_on_first_call (socket : Socket) :
    recvMsg.run (MioBrokerClientIo.new socket) =
      .error (.panic "range end index 8 out of range for slice of length 5") (MioBrokerClientIo.new socket) := by
  simp only [EStateM.run, recvMsg]
  rw [recvMsgGo]
  simp [MioBrokerClientIo.new, LEN_SIZE, recvRange, sliceRange, RECV_BUF_SIZE, RESPONSE_MSG_BUFFER_SIZE,
    ENVELOPE_OVERHEAD]
  decide

/-- When the socket takes the length of a frame and then fails on its first write of
the message, `send_msg` returns the error with the length gone out and the message
neither sent nor queued: the other end has half a frame, and the next frame will be
read as its message. -/
theorem sendMsg_leaves_half_frame (io : MioBrokerClientIo) (buf : Bytes) (n : Nat) (msg : String)
    (ws : List Socket.WriteOutcome) (hbuf : io.sendBuf = []) (hw : io.socket.writes = .accept n :: .failed msg :: ws)
    (hn : LEN_SIZE ≤ n) (hne : buf ≠ []) :
    ∃ io', (sendMsg buf).run io = .error (.error msg) io' ∧
      io'.socket.accepted = io.socket.accepted ++ LittleEndian.bytes LEN_SIZE buf.length ∧ io'.sendBuf = [] := by
  have hpre : (LittleEndian.bytes LEN_SIZE buf.length).length = LEN_SIZE := LittleEndian.length_bytes _ _
  -- the socket once the length has gone out
  let s₁ : Socket := ⟨io.socket.accepted ++ LittleEndian.bytes LEN_SIZE buf.length, .failed msg :: ws, io.socket.input⟩
  have hlen : (sendOrBuffer (LittleEndian.bytes LEN_SIZE buf.length)).run io =
      .ok () { io with socket := s₁, sendBuf := [] } := by
    rw [run_sendOrBuffer_of_empty hbuf, rawSendLoop_accept hw (by omega)
      (List.ne_nil_of_length_pos (by rw [hpre]; decide))]
    simp [hpre, s₁]
  -- the message does not
  have hmsg : (sendOrBuffer buf).run { io with socket := s₁, sendBuf := [] } = _ :=
    run_sendOrBuffer_of_empty rfl buf
  rw [rawSendLoop_failed rfl hne] at hmsg
  refine ⟨{ io with socket := { s₁ with writes := ws }, sendBuf := [] }, ?_, rfl, rfl⟩
  rw [sendMsg, run_bind_of_ok (run_flush_of_empty hbuf), run_bind_of_ok hlen, run_bind_of_error hmsg]

theorem sendMsg_leaves_half_frame_pipe :
    (MioBrokerClientIo.new ⟨[], [.accept 8, .failed "Broken pipe (os error 32)"], []⟩).sendBuf = [] ∧
    (MioBrokerClientIo.new ⟨[], [.accept 8, .failed "Broken pipe (os error 32)"], []⟩).socket.writes =
      .accept 8 :: .failed "Broken pipe (os error 32)" :: [] ∧ LEN_SIZE ≤ 8 ∧ [(1 : UInt8)] ≠ [] ∧
    ∃ io', (sendMsg [1]).run (MioBrokerClientIo.new ⟨[], [.accept 8, .failed "Broken pipe (os error 32)"], []⟩) =
        .error (.error "Broken pipe (os error 32)") io' ∧
      io'.socket.accepted = [] ++ LittleEndian.bytes LEN_SIZE [(1 : UInt8)].length ∧ io'.sendBuf = [] :=
  ⟨rfl, rfl, by decide, by decide,
    sendMsg_leaves_half_frame _ [1] 8 "Broken pipe (os error 32)" [] rfl rfl (by decide) (by decide)⟩

end Rosenpass.Broker
