/-
Key files in Base64 (`secret-memory/src/secret.rs`, `secret-memory/src/public.rs`):
`load_b64::<F>` and `store_b64::<F>` of `Secret<N>` and `Public<N>`.

Both types load the same way, and differ in what the two buffers start as: a `Secret`
reads the file into `Secret::<F>::random()` and decodes into `Self::random()`, a
`Public` uses `[0u8; F]` and `Public::zero()`. Each is `loadB64` at its own buffers.
Opening the file and its I/O errors are left out: a load starts from the bytes the file
holds, and a store ends with the text it writes. The path only appears in error texts,
which keep their format strings.

The pool of secret memory (`SecretMemoryPool`) keeps released buffers by size, each size a
stack. `release::<N>` zeroizes a buffer and pushes it; `take::<N>` pops one, or makes `N`
zero bytes when the stack is empty, and converts the popped slice back to `[u8; N]` with
`try_into().unwrap()`. `SecretMemoryPool.Zeroed` is what every run keeps: each stored
buffer is the `N` zeros of its key. So `take` never panics and hands out zeros, whatever
was written into the buffers before they were released (`runCalls_zeroed`).
-/
import Rosenpass.Util
import Mathlib.Data.Vector.Defs

namespace Rosenpass

section KeyFiles

variable {D E : Type} (reader : B64Reader D) (writer : B64Writer E)

/-- `load_b64::<F>` from a file holding `file`, with the staging buffer `f` and the
value `v` as they start out. -/
def loadB64 (file f v : Bytes) : Except Fault Bytes := do
  let (len, f) ← (readSliceToEnd file f).mapError (Fault.context "Could not load file \x7bp:?\x7d")
  match (b64Decode reader (f.take len)).run v with
  | .ok () v => pure v
  | .error e _ => throw (e.context "Could not decode base64 file \x7bp:?\x7d")

/-- `Secret::<N>::load_b64::<F>`: both buffers start random. -/
def Secret.loadB64 (N F : Nat) (rf rv : Rand) (file : Bytes) : Except Fault Bytes :=
  Rosenpass.loadB64 reader file (draw F rf) (draw N rv)

/-- `Public::<N>::load_b64::<F>`: both buffers start zero. -/
def Public.loadB64 (N F : Nat) (file : Bytes) : Except Fault Bytes :=
  Rosenpass.loadB64 reader file (List.replicate F 0) (List.replicate N 0)

/-- `store_b64::<F>` of `s` through the buffer `f`: the text written to the file. -/
def storeB64 (s f : Bytes) : Except Fault Bytes :=
  (b64Encode writer s f).mapError (Fault.context "Could not encode base64 file \x7bp:?\x7d")

/-- `Secret::<N>::store_b64::<F>`: the buffer starts random. -/
def Secret.storeB64 (F : Nat) (rf : Rand) (s : Bytes) : Except Fault Bytes :=
  Rosenpass.storeB64 writer s (draw F rf)

/-- `Public::<N>::store_b64::<F>`: the buffer starts zero. -/
def Public.storeB64 (F : Nat) (s : Bytes) : Except Fault Bytes :=
  Rosenpass.storeB64 writer s (List.replicate F 0)

/-- A file holding the canonical encoding of a non-empty `x` that fits in the staging
buffer loads as `x` followed by the rest of what the value started as, if `x` is no
longer than the value, and fails otherwise. -/
theorem loadB64_encode (hr : reader.DecodesInOrder) {x f : Bytes} (hx : x ≠ [])
    (hf : (Base64.encode x).length ≤ f.length) (v : Bytes) :
    loadB64 reader (Base64.encode x) f v =
      if x.length ≤ v.length then .ok (x ++ v.drop x.length)
      else .error (.error "Could not decode base64 file \x7bp:?\x7d") := by
  -- the staging buffer holds the file at its front
  have hstage : (Buffer.write 0 (Base64.encode x) f).take (Base64.encode x).length = Base64.encode x := by
    simp [Buffer.write]
  simp only [loadB64, readSliceToEnd_of_le hf, Except.mapError, bind, Except.bind, hstage,
    b64Decode_encode reader hr hx v]
  by_cases hle : x.length ≤ v.length
  · simp only [hle, if_true]
    rfl
  · simp only [hle, if_false]
    rfl

/-- What is stored loads back: a non-empty value stored through a buffer of at least
`4 ⌈N / 3⌉` bytes, and loaded through one as long, is loaded as itself. -/
theorem loadB64_storeB64 (hr : reader.DecodesInOrder) (hw : writer.EncodesCanonically) {s f f' v : Bytes}
    (hs : s ≠ []) (hv : s.length = v.length) (hf : f.length = f'.length)
    (hF : 4 * ((s.length + 2) / 3) ≤ f.length) :
    (storeB64 writer s f).bind (fun file => loadB64 reader file f' v) = .ok s := by
  have hfit : (Base64.encode s).length ≤ f.length := by rw [Base64.length_encode]; exact hF
  have hpos : 0 < f.length := by
    have := List.length_pos_iff.2 (Base64.encode_ne_nil hs)
    omega
  rw [storeB64, b64Encode_eq writer hw hpos hfit]
  show loadB64 reader (Base64.encode s) f' v = .ok s
  rw [loadB64_encode reader hr hs (by omega), if_pos (by omega), List.drop_eq_nil_of_le (by omega),
    List.append_nil]

/-- The content `encode x` of a key file, for an `x` shorter than the key, is the
encoding of no key, yet a `Secret` and a `Public` both load it: as `x` followed by the
rest of the random value the secret started as, or by zeros. -/
theorem loadB64_accepts_short_key (hr : reader.DecodesInOrder) (N F : Nat) (rf rv : Rand) (x : Bytes)
    (hx : x ≠ []) (hxN : x.length < N) (hF : (Base64.encode x).length ≤ F) :
    (∀ y : Bytes, y.length = N → Base64.encode y ≠ Base64.encode x) ∧
    Secret.loadB64 reader N F rf rv (Base64.encode x) = .ok (x ++ (draw N rv).drop x.length) ∧
    Public.loadB64 reader N F (Base64.encode x) = .ok (x ++ List.replicate (N - x.length) 0) := by
  refine ⟨?_, ?_, ?_⟩
  · -- the encoding has one length of content
    intro y hy he
    have := Base64.encode_injective he
    subst this
    omega
  · rw [Secret.loadB64, loadB64_encode reader hr hx (by rw [length_draw]; exact hF), if_pos (by simp; omega)]
  · rw [Public.loadB64, loadB64_encode reader hr hx (by rw [List.length_replicate]; exact hF),
      if_pos (by simp; omega), List.drop_replicate]

theorem loadB64_accepts_short_key_aa :
    specReader.DecodesInOrder ∧ [(0 : UInt8)] ≠ [] ∧ [(0 : UInt8)].length < 32 ∧
    (Base64.encode [0]).length ≤ 44 ∧
    (∀ y : Bytes, y.length = 32 → Base64.encode y ≠ Base64.encode [0]) ∧
    Secret.loadB64 specReader 32 44 (fun _ => 7) (fun _ => 7) (Base64.encode [0]) =
      .ok ([0] ++ (draw 32 (fun _ => 7)).drop [(0 : UInt8)].length) ∧
    Public.loadB64 specReader 32 44 (Base64.encode [0]) =
      .ok ([0] ++ List.replicate (32 - [(0 : UInt8)].length) 0) :=
  ⟨specReader_decodesInOrder, by decide, by decide, by decide,
    loadB64_accepts_short_key specReader specReader_decodesInOrder 32 44 (fun _ => 7) (fun _ => 7) [0]
      (by decide) (by decide) (by decide)⟩

end KeyFiles

/-! ## The secret memory pool -/

/-- `zeroize()` on a buffer: every byte becomes zero. -/
def zeroize (b : Bytes) : Bytes := b.map fun _ => 0

theorem zeroize_eq_replicate (b : Bytes) : zeroize b = List.replicate b.length 0 := by
  simp [zeroize, List.map_const']

/-- `SecretMemoryPool`: the map from a size to the stack of released buffers of that size,
top first; a size with no entry has the empty stack, as `entry(N).or_default()` makes it. -/
structure SecretMemoryPool where
  pool : Nat → List Bytes

namespace SecretMemoryPool

def new : SecretMemoryPool := ⟨fun _ => []⟩

/-- `release::<N>(sec)`: the buffer is zeroized, turned into a boxed slice of the same
allocation and pushed on the stack for `N`. -/
def release (p : SecretMemoryPool) (N : Nat) (sec : List.Vector UInt8 N) : SecretMemoryPool :=
  ⟨Function.update p.pool N (zeroize sec.toList :: p.pool N)⟩

/-- `take::<N>()`: pop the stack for `N`, or allocate `[0u8; N]` when it is empty. A popped
slice becomes a `[u8; N]` by `try_into().unwrap()`, which panics unless it has `N` bytes. -/
def take (p : SecretMemoryPool) (N : Nat) : Except Fault (List.Vector UInt8 N × SecretMemoryPool) :=
  match p.pool N with
  | [] => .ok (⟨List.replicate N 0, List.length_replicate⟩, p)
  | sec :: rest =>
    if h : sec.length = N then .ok (⟨sec, h⟩, ⟨Function.update p.pool N rest⟩)
    else .error (.panic "called `Result::unwrap()` on an `Err` value")

/-- Every buffer in the pool is the `N` zeros of its key `N`. -/
def Zeroed (p : SecretMemoryPool) : Prop := ∀ N, ∀ b ∈ p.pool N, b = List.replicate N 0

theorem zeroed_new : new.Zeroed := fun _ _ hb => nomatch hb

theorem Zeroed.release {p : SecretMemoryPool} (h : p.Zeroed) (N : Nat) (sec : List.Vector UInt8 N) :
    (p.release N sec).Zeroed := by
  intro M b hb
  by_cases hM : M = N
  · subst hM
    simp only [SecretMemoryPool.release, Function.update_self, List.mem_cons] at hb
    rcases hb with rfl | hb
    · rw [zeroize_eq_replicate, sec.toList_length]
    · exact h M b hb
  · simp only [SecretMemoryPool.release, Function.update_of_ne hM] at hb
    exact h M b hb

/-- From a zeroed pool, `take::<N>` does not panic: it returns `N` zero bytes and leaves a
zeroed pool. -/
theorem Zeroed.take {p : SecretMemoryPool} (h : p.Zeroed) (N : Nat) :
    ∃ v p', p.take N = .ok (v, p') ∧ v.toList = List.replicate N 0 ∧ p'.Zeroed := by
  unfold SecretMemoryPool.take
  split
  · exact ⟨_, _, rfl, rfl, h⟩
  · next sec rest hpool =>
    -- the top of the stack is the zeros of its key, so `try_into` succeeds
    have hsec : sec = List.replicate N 0 := h N sec (by simp [hpool])
    have hlen : sec.length = N := by rw [hsec, List.length_replicate]
    refine ⟨⟨sec, hlen⟩, _, by rw [dif_pos hlen], hsec, fun M b hb => ?_⟩
    by_cases hM : M = N
    · subst hM
      simp only [Function.update_self] at hb
      exact h M b (by simp [hpool, hb])
    · simp only [Function.update_of_ne hM] at hb
      exact h M b hb

end SecretMemoryPool

/-- A call on the pool, with the buffer a `release` gets as the program left it. -/
inductive PoolCall where
  | take (N : Nat)
  | release (N : Nat) (sec : List.Vector UInt8 N)

/-- The pool after a call. -/
def PoolCall.step (p : SecretMemoryPool) : PoolCall → Except Fault SecretMemoryPool
  | .take N => (p.take N).map Prod.snd
  | .release N sec => .ok (p.release N sec)

/-- A sequence of calls, stopping at the first panic. -/
def runCalls (p : SecretMemoryPool) (calls : List PoolCall) : Except Fault SecretMemoryPool :=
  calls.foldlM PoolCall.step p

/-- Every call keeps the pool zeroed and does not panic. -/
theorem PoolCall.step_zeroed {p : SecretMemoryPool} (h : p.Zeroed) (c : PoolCall) :
    ∃ p', c.step p = .ok p' ∧ p'.Zeroed := by
  cases c with
  | take N =>
    obtain ⟨v, p', htake, -, hz⟩ := h.take N
    exact ⟨p', by simp [PoolCall.step, htake, Except.map], hz⟩
  | release N sec => exact ⟨_, rfl, h.release N sec⟩

theorem runCalls_zeroed {p : SecretMemoryPool} (h : p.Zeroed) :
    ∀ calls : List PoolCall, ∃ p', runCalls p calls = .ok p' ∧ p'.Zeroed
  | [] => ⟨p, rfl, h⟩
  | c :: calls => by
    obtain ⟨p₁, h₁, hz₁⟩ := PoolCall.step_zeroed h c
    obtain ⟨p', h', hz'⟩ := runCalls_zeroed hz₁ calls
    refine ⟨p', ?_, hz'⟩
    simp only [runCalls, List.foldlM_cons, h₁, bind, Except.bind]
    exact h'

/-- `Secret::<N>::zero()`: a buffer from the pool, or `[0u8; N]` when the pool cannot be
borrowed (`with_secret_memory_pool` then passes `None`). -/
def Secret.zero (N : Nat) (avail : Bool) (p : SecretMemoryPool) :
    Except Fault (List.Vector UInt8 N × SecretMemoryPool) :=
  if avail then p.take N else .ok (⟨List.replicate N 0, List.length_replicate⟩, p)

/-- `Drop for Secret<N>`: the buffer goes back to the pool when the pool can be borrowed. -/
def Secret.drop (N : Nat) (avail : Bool) (sec : List.Vector UInt8 N) (p : SecretMemoryPool) :
    SecretMemoryPool :=
  if avail then p.release N sec else p

/-- **The pool hands out zeroed buffers of the right size.** After any sequence of `take`
and `release` calls from a new pool, whatever the released buffers held, every stored
buffer has the length of its key and is all zeros. `take::<N>` then returns `N` zero bytes
without panicking, and so does `Secret::<N>::zero`, with the pool or without it. A
`Secret`'s drop is a `release` or leaves the pool as it is, so the runs of `Secret`s are
among these. -/
theorem secretMemoryPool_hands_out_zeros (calls : List PoolCall) :
    ∃ p, runCalls SecretMemoryPool.new calls = .ok p ∧
      (∀ N, ∀ b ∈ p.pool N, b.length = N ∧ ∀ x ∈ b, x = 0) ∧
      ∀ N, (∃ v p', p.take N = .ok (v, p') ∧ v.toList = List.replicate N 0) ∧
        ∀ avail, ∃ v p', Secret.zero N avail p = .ok (v, p') ∧ v.toList = List.replicate N 0 := by
  obtain ⟨p, hrun, hz⟩ := runCalls_zeroed SecretMemoryPool.zeroed_new calls
  -- what `take` gives from the pool the run ends in
  have htake : ∀ N, ∃ v p', p.take N = .ok (v, p') ∧ v.toList = List.replicate N 0 := fun N => by
    obtain ⟨v, p', htake, hv, -⟩ := hz.take N
    exact ⟨v, p', htake, hv⟩
  refine ⟨p, hrun, fun N b hb => List.eq_replicate_iff.1 (hz N b hb), fun N => ⟨htake N, fun avail => ?_⟩⟩
  cases avail
  · exact ⟨_, _, rfl, rfl⟩
  · exact htake N

end Rosenpass
