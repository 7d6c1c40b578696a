/-
Base64 and file reading from the `util` crate (`util/src/b64.rs`, `util/src/file.rs`).

The Base64 codec is `base64ct`'s, a parameter here: a `B64Reader` (its `Decoder`) and a
`B64Writer` (its `Encoder`), each over a state of its own. What a theorem needs of
them is a named hypothesis: `B64Reader.DecodesInOrder` says what the decoder does on
the canonical encoding of a non-empty byte string, `B64Writer.EncodesCanonically` that
the encoder writes the canonical encoding when it fits. `b64_decode` counts an
`InvalidLength` from the decoder as success and then asks only whether all input was
consumed; `b64Decode_encode` says what that makes of an input shorter than the output.

A file is the bytes it holds, and `Read::read` on it returns as many as fit in the
buffer (`fileRead`), as a regular file does; the I/O errors of reading are left out.
-/
import Rosenpass.Ciphers
import Rosenpass.Lib.Base64
import Rosenpass.Lib.Buffer
import Rosenpass.Lib.EState

namespace Rosenpass

open EStateM

/-- `base64ct::Error`. -/
inductive Base64Error where
  | InvalidEncoding
  | InvalidLength
  deriving DecidableEq, Repr

/-- The `Display` text of a `base64ct::Error`, which `anyhow!(e)` reports. -/
def Base64Error.msg : Base64Error → String
  | .InvalidEncoding => "invalid Base64 encoding"
  | .InvalidLength => "invalid Base64 length"

/-- `base64ct::Decoder<Base64>` over its state `D`: `new` on the input; `decode` into an
output buffer, with its result, what the buffer holds after it and the decoder after
it; and `is_finished`. -/
structure B64Reader (D : Type) where
  new : Bytes → Except Base64Error D
  decode : D → Bytes → Except Base64Error Unit × Bytes × D
  isFinished : D → Bool

/-- `base64ct::Encoder<Base64>` over its state `E`: `new` on the output buffer, `encode`
of an input, and `finish`, which returns the encoded text. -/
structure B64Writer (E : Type) where
  new : Bytes → Except Base64Error E
  encode : E → Bytes → Except Base64Error E
  finish : E → Except Base64Error Bytes

/-- What is assumed of `base64ct`'s decoder on the canonical encoding of a non-empty `x`:
`new` accepts it; `decode` writes the bytes of `x` into the output in order, as many as
fit, and reports `InvalidLength` when they do not fill it; and the decoder is finished
exactly when all of `x` has been written. -/
def B64Reader.DecodesInOrder {D : Type} (r : B64Reader D) : Prop :=
  ∀ x : Bytes, x ≠ [] → ∃ d, r.new (Base64.encode x) = .ok d ∧ ∀ out : Bytes,
    (r.decode d out).1 = (if x.length < out.length then .error .InvalidLength else .ok ()) ∧
    (r.decode d out).2.1 = x.take out.length ++ out.drop x.length ∧
    r.isFinished (r.decode d out).2.2 = decide (x.length ≤ out.length)

/-- A decoder of canonical Base64 that holds the decoded bytes not yet written: it does
what `DecodesInOrder` assumes. -/
def specReader : B64Reader Bytes where
  new input :=
    if input = [] then .error .InvalidLength
    else match Base64.decode input with
      | some x => .ok x
      | none => .error .InvalidEncoding
  decode rest out :=
    (if rest.length < out.length then .error .InvalidLength else .ok (),
      rest.take out.length ++ out.drop rest.length, rest.drop out.length)
  isFinished rest := rest.isEmpty

theorem specReader_decodesInOrder : specReader.DecodesInOrder := by
  intro x hx
  refine ⟨x, ?_, fun out => ⟨rfl, rfl, ?_⟩⟩
  · simp only [specReader, if_neg (Base64.encode_ne_nil hx), Base64.decode_encode]
  · rw [Bool.eq_iff_iff, decide_eq_true_iff]
    simp only [specReader, List.isEmpty_iff, List.drop_eq_nil_iff]

/-- What is assumed of `base64ct`'s encoder: into a non-empty buffer that the encoding
fits in, it writes the canonical encoding. -/
def B64Writer.EncodesCanonically {E : Type} (w : B64Writer E) : Prop :=
  ∀ x out : Bytes, 0 < out.length → (Base64.encode x).length ≤ out.length →
    ∃ e e', w.new out = .ok e ∧ w.encode e x = .ok e' ∧ w.finish e' = .ok (Base64.encode x)

section B64

variable {D E : Type} (reader : B64Reader D) (writer : B64Writer E)

/-- `b64_decode(input, output)`, with the output buffer as the state. -/
def b64Decode (input : Bytes) : EStateM Fault Bytes Unit := do
  match reader.new input with
  | .error e => throw (.error e.msg)
  | .ok d =>
    let (res, output, d) := reader.decode d (← get)
    set output
    match res with
    | .ok () | .error .InvalidLength =>
      if reader.isFinished d then pure ()
      else throw (.error "Input not decoded completely (buffer size too small?)")
    | .error e => throw (.error e.msg)

/-- `b64_encode(input, output)`: the encoded text. -/
def b64Encode (input output : Bytes) : Except Fault Bytes := do
  let w ← (writer.new output).mapError fun e => .error e.msg
  let w ← (writer.encode w input).mapError fun e => .error e.msg
  (writer.finish w).mapError fun e => .error e.msg

/-- On the canonical encoding of a non-empty `x`, `b64_decode` succeeds exactly when `x`
fits in the output, and writes `x` at its front: an `x` shorter than the output leaves
the rest of the output as it was. -/
theorem b64Decode_encode (hr : reader.DecodesInOrder) {x : Bytes} (hx : x ≠ []) (out : Bytes) :
    (b64Decode reader (Base64.encode x)).run out =
      if x.length ≤ out.length then .ok () (x ++ out.drop x.length)
      else .error (.error "Input not decoded completely (buffer size too small?)") (x.take out.length) := by
  obtain ⟨d, hnew, hdec⟩ := hr x hx
  obtain ⟨hres, hout, hfin⟩ := hdec out
  rcases hdec' : reader.decode d out with ⟨res, out', d'⟩
  simp only [hdec'] at hres hout hfin
  subst hout
  apply EStateM.run_eq_of_wp
  simp only [b64Decode, hnew, EStateM.wp_bind, EStateM.wp_get, hdec', EStateM.wp_set, hfin]
  by_cases hle : x.length ≤ out.length
  · -- the decoder ran out of input, or filled the output exactly
    have hres' : res = .ok () ∨ res = .error .InvalidLength := by
      rw [hres]; split <;> simp
    have htake : x.take out.length = x := List.take_of_length_le hle
    rcases hres' with rfl | rfl <;> simp [hle, htake]
  · -- the output is full and input is left over
    have hres' : res = .ok () := by rw [hres, if_neg (by omega)]
    have hdrop : out.drop x.length = [] := List.drop_eq_nil_of_le (by omega)
    subst hres'
    simp [hle, hdrop]

/-- `b64_encode` into a non-empty buffer the encoding fits in returns it. -/
theorem b64Encode_eq (hw : writer.EncodesCanonically) {x out : Bytes} (hpos : 0 < out.length)
    (hfit : (Base64.encode x).length ≤ out.length) : b64Encode writer x out = .ok (Base64.encode x) := by
  obtain ⟨e, e', hnew, henc, hfin⟩ := hw x out hpos hfit
  simp [b64Encode, hnew, henc, hfin, Except.mapError, bind, Except.bind]

end B64

/-! ## Reading a whole file into a buffer -/

/-- `Read::read` of a file into a buffer of `n` bytes: as much as fits of what is left,
and what is left after it. -/
def fileRead (file : Bytes) (n : Nat) : Bytes × Bytes := (file.take n, file.drop n)

/-- The loop of `read_slice_to_end`: read into `buf[read..]` until the buffer is full or
a read returns nothing; the file left, the buffer, and how much was read. -/
def readSliceLoop (file buf : Bytes) (read : Nat) : Bytes × Bytes × Nat :=
  if read < buf.length then
    if (fileRead file (buf.length - read)).1.length = 0 then (file, buf, read)
    else
      readSliceLoop (fileRead file (buf.length - read)).2
        (Buffer.write read (fileRead file (buf.length - read)).1 buf)
        (read + (fileRead file (buf.length - read)).1.length)
  else (file, buf, read)
termination_by buf.length - read
decreasing_by
  have hle : (fileRead file (buf.length - read)).1.length ≤ buf.length - read := by
    simp only [fileRead, List.length_take]
    omega
  rw [Buffer.length_write (by omega)]
  omega

/-- `read_slice_to_end(buf)`: after the loop, an eight-byte probe must find the end of
the file. -/
def readSliceToEnd (file buf : Bytes) : Except Fault (Nat × Bytes) :=
  let (rest, buf, read) := readSliceLoop file buf 0
  if (fileRead rest 8).1.length = 0 then .ok (read, buf) else .error (.error "File too long!")

/-- The loop reads what is left of the file, up to the room left in the buffer, into
the buffer at `read`. A read that fills the buffer or reaches the end of the file ends
it at the next turn. -/
theorem readSliceLoop_eq (file buf : Bytes) (read : Nat) (h : read ≤ buf.length) :
    readSliceLoop file buf read =
      (file.drop (buf.length - read), Buffer.write read (file.take (buf.length - read)) buf,
        read + min file.length (buf.length - read)) := by
  induction file, buf, read using readSliceLoop.induct with
  | case1 file buf read hlt hz =>
    -- a read returned nothing: the file is at its end
    rw [readSliceLoop, if_pos hlt, if_pos hz]
    have hnil : file = [] := by
      simp only [fileRead, List.length_take] at hz
      exact List.eq_nil_of_length_eq_zero (by omega)
    subst hnil
    simp
  | case2 file buf read hlt hz ih =>
    rw [readSliceLoop, if_pos hlt, if_neg hz]
    simp only [fileRead, List.length_take] at hz ih ⊢
    have hlen : (Buffer.write read (file.take (buf.length - read)) buf).length = buf.length :=
      Buffer.length_write (by simp only [List.length_take]; omega)
    rw [ih (by rw [hlen]; omega), hlen]
    -- the second turn finds the buffer full or the file at its end, and reads nothing
    rcases Nat.le_total (buf.length - read) file.length with hk | hk
    · have hfull : buf.length - (read + min (buf.length - read) file.length) = 0 := by omega
      simp only [hfull, List.drop_zero, List.take_zero, Buffer.write_nil, Nat.min_zero, Nat.add_zero]
      rw [Nat.min_comm]
    · simp only [List.drop_eq_nil_of_le hk, List.drop_nil, List.take_nil, Buffer.write_nil, List.length_nil,
        Nat.zero_min, Nat.add_zero]
      rw [Nat.min_comm]
  | case3 file buf read hlt =>
    have heq : read = buf.length := by omega
    subst heq
    rw [readSliceLoop, if_neg hlt]
    simp [Buffer.write, List.take_length]

/-- A file that fits in the buffer is read whole to its front. -/
theorem readSliceToEnd_of_le {file buf : Bytes} (h : file.length ≤ buf.length) :
    readSliceToEnd file buf = .ok (file.length, Buffer.write 0 file buf) := by
  simp only [readSliceToEnd, readSliceLoop_eq file buf 0 (Nat.zero_le _), Nat.sub_zero,
    List.drop_eq_nil_of_le h, List.take_of_length_le h, fileRead, List.take_nil, List.length_nil,
    Nat.zero_add, Nat.min_eq_left h, if_true]

/-- A file longer than the buffer is refused. -/
theorem readSliceToEnd_of_lt {file buf : Bytes} (h : buf.length < file.length) :
    readSliceToEnd file buf = .error (.error "File too long!") := by
  have hprobe : ¬((file.drop buf.length).take 8).length = 0 := by
    simp only [List.length_take, List.length_drop]
    omega
  simp only [readSliceToEnd, readSliceLoop_eq file buf 0 (Nat.zero_le _), Nat.sub_zero, fileRead]
  rw [if_neg hprobe]

end Rosenpass
