/-
`MioBrokerClientIo` (`wireguard-broker/src/brokers/mio_client.rs`), the framing of the
broker connection on the client side: each message goes out as its length, eight
little-endian bytes, then the message; responses come back framed the same way.

The state is the socket, the bytes waiting to be sent (`send_buf`) and the receive
automaton: how much of the length or of the message has been read (`recv_state`),
how much is expected (`expected_state`), and the buffer read into (`recv_buf`). The
socket is a `Socket` script; `raw_send` and `raw_recv` loop on it until they have
moved everything, the socket would block, or it fails.

`recv_msg` loops until it returns; it continues only after the length is complete,
into the message state, so it runs at most twice (`termination_by`). Slicing
`recv_buf[x..y]` panics unless `x ≤ y ≤ recv_buf.len()`, with the text Rust gives.

`VecDeque::as_slices` is taken on contents stored in one piece, so its second slice is
empty.
-/
import Rosenpass.Broker.Api
import Rosenpass.Lib.LittleEndian
import Rosenpass.Lib.Socket

namespace Rosenpass.Broker

open EStateM Buffer LittleEndian

def LEN_SIZE : Nat := 8
def RECV_BUF_SIZE : Nat := RESPONSE_MSG_BUFFER_SIZE

inductive RxState where
  | RxSize (n : Nat)
  | RxBuffer (n : Nat)
  deriving DecidableEq, Repr

structure MioBrokerClientIo where
  socket : Socket
  sendBuf : Bytes
  recvState : RxState
  expectedState : RxState
  recvBuf : Bytes
  deriving DecidableEq, Repr

/-- The client as `MioBrokerClient::new` makes it. -/
def MioBrokerClientIo.new (socket : Socket) : MioBrokerClientIo where
  socket := socket
  sendBuf := []
  recvState := .RxSize 0
  recvBuf := List.replicate RECV_BUF_SIZE 0
  expectedState := .RxSize LEN_SIZE

abbrev MioM := EStateM Fault MioBrokerClientIo

/-- The text of an `io::Error` turned into an `anyhow::Error`. -/
def ioErrorText : Socket.IoError → String
  | .WouldBlock => "Resource temporarily unavailable (os error 11)"
  | .Interrupted => "Interrupted system call (os error 4)"
  | .Other msg => msg

/-- `&buf[x..y]`. -/
def sliceRange (x y : Nat) (buf : Bytes) : Except Fault Bytes :=
  let n := buf.length
  if n < y then .error (.panic s!"range end index {y} out of range for slice of length {n}")
  else if y < x then .error (.panic s!"slice index starts at {x} but ends at {y}")
  else .ok (slice x (y - x) buf)

/-! ## Sending -/

/-- The loop of `raw_send` from offset `off`: write the rest until all is written, the
socket would block, or a write fails; a failure after some bytes counts as blocking. -/
def rawSendLoop (data : Bytes) (off : Nat) (s : Socket) : Except Fault Nat × Socket :=
  if off = data.length then (.ok off, s)
  else
    match h : s.write (data.drop off) with
    | (.ok n, s') => rawSendLoop data (off + n) s'
    | (.error .Interrupted, s') => rawSendLoop data off s'
    | (.error e, s') =>
      if 0 < off ∨ e = .WouldBlock then (.ok off, s') else (.error (.error (ioErrorText e)), s')
termination_by s.writes.length
decreasing_by
  · exact Socket.write_writes_lt h (by simp)
  · exact Socket.write_writes_lt h (by simp)

/-- `raw_send(socket, data)`: how many bytes went out. -/
def rawSend (data : Bytes) : MioM Nat := fun io =>
  match rawSendLoop data 0 io.socket with
  | (.ok n, s) => .ok n { io with socket := s }
  | (.error e, s) => .error e { io with socket := s }

/-- `flush`: send what waits, and drop what went out. -/
def flush : MioM Unit := do
  let fst := (← get).sendBuf
  let snd : Bytes := []
  let (written, res) ← match ← attempt (rawSend fst) with
    | .ok w1 =>
      if fst.length ≤ w1 then
        match ← attempt (rawSend snd) with
        | .ok w2 => pure (w1 + w2, Except.ok ())
        | .error e => pure (w1, .error e)
      else pure (w1, .ok ())
    | .error e => pure (0, .error e)
  modify fun io => { io with sendBuf := io.sendBuf.drop written }
  -- `(&self.socket).try_io(|| (&self.socket).flush())?`: a stream socket has no buffer to flush
  match res with
  | .ok () => pure ()
  | .error e => throw e

/-- `send_or_buffer`: write directly when nothing waits, and queue the rest. -/
def sendOrBuffer (buf : Bytes) : MioM Unit := do
  let off ← if (← get).sendBuf.isEmpty then rawSend buf else pure 0
  modify fun io => { io with sendBuf := io.sendBuf ++ buf.drop off }

/-- `send_msg`: the length, then the message. -/
def sendMsg (buf : Bytes) : MioM Unit := do
  flush
  sendOrBuffer (bytes LEN_SIZE buf.length)
  sendOrBuffer buf
  flush

section SendLemmas

variable {data : Bytes} {s : Socket}

theorem rawSendLoop_length (data : Bytes) (s : Socket) : rawSendLoop data data.length s = (.ok data.length, s) := by
  rw [rawSendLoop, if_pos rfl]

/-- A write that takes everything ends the loop. -/
theorem rawSendLoop_accept {n : Nat} {ws : List Socket.WriteOutcome} (hw : s.writes = .accept n :: ws)
    (hn : data.length ≤ n) (hne : data ≠ []) :
    rawSendLoop data 0 s = (.ok data.length, { s with accepted := s.accepted ++ data, writes := ws }) := by
  have hwrite : s.write data = (.ok data.length, { s with accepted := s.accepted ++ data, writes := ws }) := by
    simp only [Socket.write, hw, List.take_of_length_le hn, Nat.min_eq_right hn]
  rw [rawSendLoop, if_neg (by simpa [eq_comm] using hne)]
  split
  · next n' s' h =>
    simp only [List.drop_zero, hwrite, Prod.mk.injEq, Except.ok.injEq] at h
    obtain ⟨rfl, rfl⟩ := h
    rw [Nat.zero_add, rawSendLoop_length]
  · next s' h => simp [hwrite] at h
  · next e s' hi h => simp [hwrite] at h

/-- A write that fails before anything went out fails the loop. -/
theorem rawSendLoop_failed {msg : String} {ws : List Socket.WriteOutcome} (hw : s.writes = .failed msg :: ws)
    (hne : data ≠ []) :
    rawSendLoop data 0 s = (.error (.error msg), { s with writes := ws }) := by
  have hwrite : s.write data = (.error (.Other msg), { s with writes := ws }) := by
    simp only [Socket.write, hw]
  rw [rawSendLoop, if_neg (by simpa [eq_comm] using hne)]
  split
  · next n' s' h => simp [hwrite] at h
  · next s' h => simp [hwrite] at h
  · next e s' hi h =>
    simp only [List.drop_zero, hwrite, Prod.mk.injEq, Except.error.injEq] at h
    obtain ⟨rfl, rfl⟩ := h
    simp [ioErrorText]

/-- With nothing waiting, `flush` writes nothing and changes nothing. -/
theorem run_flush_of_empty {io : MioBrokerClientIo} (h : io.sendBuf = []) : flush.run io = .ok () io := by
  have hsend : ∀ io' : MioBrokerClientIo, (rawSend [] : MioM Nat).run io' = .ok 0 io' := fun io' => by
    have h0 : rawSendLoop [] 0 io'.socket = (.ok 0, io'.socket) := rawSendLoop_length [] io'.socket
    simp only [EStateM.run, rawSend, h0]
  obtain ⟨_, _, _, _, _⟩ := io
  subst h
  simp [flush, hsend]

/-- With nothing waiting, `send_or_buffer` writes directly and queues what did not go out. -/
theorem run_sendOrBuffer_of_empty {io : MioBrokerClientIo} (h : io.sendBuf = []) (buf : Bytes) :
    (sendOrBuffer buf).run io =
      match rawSendLoop buf 0 io.socket with
      | (.ok k, s) => .ok () { io with socket := s, sendBuf := buf.drop k }
      | (.error e, s) => .error e { io with socket := s } := by
  rw [sendOrBuffer, run_bind_of_ok (show (get : MioM _).run io = .ok io io from rfl)]
  dsimp only
  rw [if_pos (by simp [h])]
  rcases hr : rawSendLoop buf 0 io.socket with ⟨e | k, s⟩
  · exact run_bind_of_error (by simp only [EStateM.run, rawSend, hr])
  · rw [run_bind_of_ok (show (rawSend buf).run io = .ok k { io with socket := s } by
      simp only [EStateM.run, rawSend, hr])]
    show Result.ok () { io with socket := s, sendBuf := io.sendBuf ++ buf.drop k } = _
    rw [h, List.nil_append]

end SendLemmas

/-! ## Receiving -/

/-- The loop of `raw_recv` into a buffer of `n` bytes, with `acc` read so far. -/
def rawRecvLoop (n : Nat) (acc : Bytes) (s : Socket) : Except Fault Bytes × Socket :=
  if h₀ : n ≤ acc.length then (.ok acc, s)
  else
    match h : s.read (n - acc.length) with
    | (.ok d, s') => rawRecvLoop n (acc ++ d) s'
    | (.error .Interrupted, s') => rawRecvLoop n acc s'
    | (.error e, s') =>
      if 0 < acc.length ∨ e = .WouldBlock then (.ok acc, s') else (.error (.error (ioErrorText e)), s')
termination_by s.input.length
decreasing_by
  · exact Socket.read_input_lt h (by omega)
  · exact absurd h (Socket.read_ne_interrupted _ _ _)

/-- `raw_recv(socket, &mut recv_buf[x..y])`: read into the range, and say how much was read. -/
def rawRecv (x y : Nat) : MioM Nat := fun io =>
  match rawRecvLoop (y - x) [] io.socket with
  | (.ok d, s) => .ok d.length { io with socket := s, recvBuf := write x d io.recvBuf }
  | (.error e, s) => .error e { io with socket := s }

/-- Back to waiting for a length. -/
def MioBrokerClientIo.reset (io : MioBrokerClientIo) : MioBrokerClientIo :=
  { io with recvState := .RxSize 0, expectedState := .RxSize LEN_SIZE }

/-- The read of `recv_msg` while `x < y`: the range is read; a complete read returns the
buffer up to `y`, anything less resets the automaton and fails. -/
def recvRange (x y : Nat) : MioM (Option Bytes) := fun io =>
  match sliceRange x y io.recvBuf with
  | .error e => .error e io
  | .ok _ =>
    match rawRecv x y io with
    | .error e io' => .error e io'
    | .ok bytes io' =>
      if x + bytes = y then
        match sliceRange 0 y io'.recvBuf with
        | .ok r => .ok (some r) io'
        | .error e => .error e io'
      else .error (.error "Invalid state") io'.reset

/-- Which loop passes are left: the size state may continue into the buffer state. -/
def RxState.passes : RxState → Nat
  | .RxSize _ => 1
  | .RxBuffer _ => 0

/-- `recv_msg`. -/
def recvMsgGo (io : MioBrokerClientIo) : Result Fault MioBrokerClientIo (Option Bytes) :=
  match hr : io.recvState, io.expectedState with
  | .RxSize x, .RxSize y =>
    if x = y then
      -- the length is complete: `recv_buf[0..s].try_into().unwrap()` as `[u8; 8]`
      match sliceRange 0 x io.recvBuf with
      | .error e => .error e io
      | .ok lenBytes =>
        if lenBytes.length = LEN_SIZE then
          let len := value lenBytes
          if len ≤ RESPONSE_MSG_BUFFER_SIZE then
            recvMsgGo { io with recvState := .RxBuffer 0, expectedState := .RxBuffer len }
          else .error (.error s!"Oversized buffer ({len}) in psk buffer response.") io
        else .error (.panic "called `Result::unwrap()` on an `Err` value: TryFromSliceError(())") io
    else if x < y then recvRange x y io
    else .error (.error "Invalid state") io.reset
  | .RxBuffer x, .RxBuffer y =>
    if x = y then
      match sliceRange 0 x io.recvBuf with
      | .ok r => .ok (some r) io.reset
      | .error e => .error e io.reset
    else if x < y then recvRange x y io
    else .error (.error "Invalid state") io.reset
  | _, _ => .error (.error "Invalid state") io.reset
termination_by io.recvState.passes
decreasing_by simp [hr, RxState.passes]

def recvMsg : MioM (Option Bytes) := recvMsgGo

/-- The `BrokerClientIo` of `MioBrokerClient`. -/
def mioBrokerClientIo : BrokerClientIo MioBrokerClientIo Fault Fault where
  sendMsg := sendMsg
  recvMsg := recvMsg

end Rosenpass.Broker
