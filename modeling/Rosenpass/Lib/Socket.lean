/-
A nonblocking stream socket seen from one end, as a script. Each `write` takes the next
outcome of the script: it accepts a prefix of the bytes offered (as much as the outcome
allows), or fails as `WouldBlock`, `Interrupted` or with another error; once the script
is used up, every write would block. Reads deliver the bytes the other end has sent, as
many as are asked for and there are, and would block when there are none.

So a statement over every script is a statement over every behaviour of the socket
that writes can show, and `accepted` is what the other end receives, in order.
-/
import Mathlib.Order.Basic

namespace Socket

/-- The kinds of `std::io::Error` a caller tells apart. -/
inductive IoError where
  | WouldBlock
  | Interrupted
  | Other (msg : String)
  deriving DecidableEq, Repr

/-- What one write does. -/
inductive WriteOutcome where
  | accept (n : Nat)
  | wouldBlock
  | interrupted
  | failed (msg : String)
  deriving DecidableEq, Repr

end Socket

open Socket

structure Socket where
  /-- Every byte the socket has taken, in order. -/
  accepted : List UInt8
  /-- The outcomes of the next writes. -/
  writes : List WriteOutcome
  /-- What the other end has sent and no read has taken yet. -/
  input : List UInt8
  deriving DecidableEq, Repr

namespace Socket

/-- `write(data)`: how many bytes were taken, or the error. -/
def write (s : Socket) (data : List UInt8) : Except IoError Nat × Socket :=
  match s.writes with
  | [] => (.error .WouldBlock, s)
  | .accept n :: ws =>
    (.ok (min n data.length), { s with accepted := s.accepted ++ data.take n, writes := ws })
  | .wouldBlock :: ws => (.error .WouldBlock, { s with writes := ws })
  | .interrupted :: ws => (.error .Interrupted, { s with writes := ws })
  | .failed msg :: ws => (.error (.Other msg), { s with writes := ws })

/-- `read(buf)` into a buffer of `n` bytes: the bytes read, or the error. -/
def read (s : Socket) (n : Nat) : Except IoError (List UInt8) × Socket :=
  if s.input = [] then (.error .WouldBlock, s)
  else (.ok (s.input.take n), { s with input := s.input.drop n })

/-- A write takes the bytes it says it took, from the front of what is offered. -/
theorem write_accepted {s s' : Socket} {data : List UInt8} {n : Nat} (h : s.write data = (.ok n, s')) :
    s'.accepted = s.accepted ++ data.take n ∧ n ≤ data.length := by
  unfold write at h
  split at h <;> simp only [Prod.mk.injEq, reduceCtorEq, false_and, Except.ok.injEq] at h
  obtain ⟨rfl, rfl⟩ := h
  exact ⟨congrArg (s.accepted ++ ·) List.take_eq_take_min, Nat.min_le_right _ _⟩

/-- A failed write takes nothing. -/
theorem write_error_accepted {s s' : Socket} {data : List UInt8} {e : IoError} (h : s.write data = (.error e, s')) :
    s'.accepted = s.accepted := by
  unfold write at h
  split at h <;> simp only [Prod.mk.injEq, reduceCtorEq, false_and, Except.error.injEq] at h <;>
    obtain ⟨-, rfl⟩ := h <;> rfl

/-- A write that does not block uses up one outcome of the script. -/
theorem write_writes_lt {s s' : Socket} {data : List UInt8} {r : Except IoError Nat}
    (h : s.write data = (r, s')) (hr : r ≠ .error .WouldBlock) : s'.writes.length < s.writes.length := by
  unfold write at h
  split at h <;> simp only [Prod.mk.injEq] at h <;> obtain ⟨rfl, rfl⟩ := h
  · exact absurd rfl hr
  all_goals simp_all

/-- A read of at least one byte that does not block takes some of the input. -/
theorem read_input_lt {s s' : Socket} {n : Nat} {d : List UInt8} (h : s.read n = (.ok d, s')) (hn : 0 < n) :
    s'.input.length < s.input.length := by
  unfold read at h
  split at h
  · simp at h
  · next hne =>
    simp only [Prod.mk.injEq, Except.ok.injEq] at h
    obtain ⟨-, rfl⟩ := h
    have : 0 < s.input.length := List.length_pos_iff.2 hne
    simp only [List.length_drop]
    omega

/-- Reads are not interrupted here: a signal is not part of the script. -/
theorem read_ne_interrupted (s s' : Socket) (n : Nat) : s.read n ≠ (.error .Interrupted, s') := by
  unfold read
  split <;> simp

end Socket
