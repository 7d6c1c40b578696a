/-
Functions that take `&mut self` and return a `Result`, modelled in `EStateM`: an
exception there keeps the state reached so far, as the Rust code keeps every write
made before a `?` returns. A `Fault` is either an `Err` the function returns or a
panic.

Three kinds of lemma. How `run` goes through `bind` once the first computation's
result is known, so that a proof executes a function one call at a time
(`run_bind_of_ok`), and the inversion of a successful `bind` (`run_bind_eq_ok`).
Weakest preconditions: `wp x Q E s` says the run of `x` from `s` ends in `Q` if it
returns and in `E` if it fails; `wp_bind` turns a sequence into nested
postconditions, so that `simp` executes a function symbolically and leaves what is
to be shown of its end. And frame rules: `Keeps R x` says that every run of `x` ends in
a state `R`-related to the one it began in, whatever its outcome; for a reflexive and
transitive `R` it is closed under `bind`, so a frame property of a long function
follows from those of the calls it makes.
-/
import Mathlib.Order.Defs.Unbundled
import Mathlib.Control.Monad.Basic

/-- How a Rust function can fail: it returns an `Err`, or it panics. -/
inductive Fault where
  | error (msg : String)
  | panic (msg : String)
  deriving DecidableEq, Repr

namespace Fault

/-- The fault is a panic. -/
def isPanic : Fault → Bool
  | .error _ => false
  | .panic _ => true

/-- `.with_context(|| msg)`: an error is reported under `msg`; a panic is not an error. -/
def context (msg : String) : Fault → Fault
  | .error _ => .error msg
  | .panic m => .panic m

end Fault

namespace EStateM

variable {ε σ α β : Type}

/-- The state a run ends in, whatever its outcome. -/
def Result.state : Result ε σ α → σ
  | .ok _ s => s
  | .error _ s => s

@[simp] theorem Result.state_ok (a : α) (s : σ) : (Result.ok a s : Result ε σ α).state = s := rfl

@[simp] theorem Result.state_error (e : ε) (s : σ) :
    (Result.error e s : Result ε σ α).state = s := rfl

/-- The failure of a run, if it failed. -/
def Result.error? : Result ε σ α → Option ε
  | .ok _ _ => none
  | .error e _ => some e

/-- The value of a run, if it returned. -/
def Result.value? : Result ε σ α → Option α
  | .ok a _ => some a
  | .error _ _ => none

/-- A run with a value returned it, in the state it ends in. -/
theorem Result.eq_ok_of_value? {r : Result ε σ α} {a : α} (h : r.value? = some a) : r = .ok a r.state := by
  cases r with
  | ok b s =>
    cases h
    rfl
  | error e s => cases h

theorem run_bind_of_ok {x : EStateM ε σ α} {f : α → EStateM ε σ β} {s s' : σ} {a : α}
    (h : x.run s = .ok a s') : (x >>= f).run s = (f a).run s' := by
  simp [h]

theorem run_bind_of_error {x : EStateM ε σ α} {f : α → EStateM ε σ β} {s s' : σ} {e : ε}
    (h : x.run s = .error e s') : (x >>= f).run s = .error e s' := by
  simp [h]

theorem run_bind_eq_ok {x : EStateM ε σ α} {f : α → EStateM ε σ β} {s s'' : σ} {b : β} :
    (x >>= f).run s = .ok b s'' ↔ ∃ a s', x.run s = .ok a s' ∧ (f a).run s' = .ok b s'' := by
  simp only [run_bind]
  constructor
  · intro h
    split at h
    · exact ⟨_, _, ‹_›, h⟩
    · cases h
  · rintro ⟨a, s', hx, hf⟩
    simp [hx, hf]

/-! ## Weakest preconditions -/

/-- The run of `x` from `s` ends in `Q` if it returns and in `E` if it fails. -/
def wp (x : EStateM ε σ α) (Q : α → σ → Prop) (E : ε → σ → Prop) (s : σ) : Prop :=
  match x.run s with
  | .ok a s' => Q a s'
  | .error e s' => E e s'

section Wp

variable {Q : α → σ → Prop} {E : ε → σ → Prop} {s : σ}

@[simp] theorem wp_pure (a : α) : wp (pure a) Q E s = Q a s := rfl

@[simp] theorem wp_bind (x : EStateM ε σ α) (f : α → EStateM ε σ β) (Q : β → σ → Prop) :
    wp (x >>= f) Q E s = wp x (fun a s' => wp (f a) Q E s') E s := by
  simp only [wp, run_bind]
  cases x.run s <;> rfl

@[simp] theorem wp_throw (e : ε) : wp (throw e : EStateM ε σ α) Q E s = E e s := rfl

@[simp] theorem wp_get {Q : σ → σ → Prop} : wp (get : EStateM ε σ σ) Q E s = Q s s := rfl

@[simp] theorem wp_modify (f : σ → σ) {Q : PUnit → σ → Prop} :
    wp (modify f : EStateM ε σ PUnit) Q E s = Q () (f s) := rfl

@[simp] theorem wp_set (s' : σ) {Q : PUnit → σ → Prop} :
    wp (set s' : EStateM ε σ PUnit) Q E s = Q () s' := rfl

@[simp] theorem wp_map (f : α → β) (x : EStateM ε σ α) (Q : β → σ → Prop) :
    wp (f <$> x) Q E s = wp x (fun a => Q (f a)) E s := by
  show (match EStateM.map f x s with | .ok a s' => Q a s' | .error e s' => E e s') = _
  simp only [wp, EStateM.map, EStateM.run]
  cases x s <;> rfl

theorem wp_ite {c : Prop} [Decidable c] (x y : EStateM ε σ α) :
    wp (if c then x else y) Q E s = if c then wp x Q E s else wp y Q E s := by
  split <;> rfl

theorem wp_eq_of_run_ok {x : EStateM ε σ α} {a : α} {s' : σ} (h : x.run s = .ok a s') :
    wp x Q E s = Q a s' := by
  simp only [wp, h]

theorem wp_eq_of_run_error {x : EStateM ε σ α} {e : ε} {s' : σ} (h : x.run s = .error e s') :
    wp x Q E s = E e s' := by
  simp only [wp, h]

/-- Run `x` and keep its outcome as a value, in the state it reached: `let r = f();` on a
function returning a `Result`. -/
def attempt {ε' : Type} (x : EStateM ε σ α) : EStateM ε' σ (Except ε α) := fun s =>
  match x s with
  | .ok a s' => .ok (.ok a) s'
  | .error e s' => .ok (.error e) s'

@[simp] theorem run_attempt {ε' : Type} (x : EStateM ε σ α) (s : σ) :
    (attempt x : EStateM ε' σ (Except ε α)).run s =
      match x.run s with
      | .ok a s' => .ok (.ok a) s'
      | .error e s' => .ok (.error e) s' := rfl

/-- A property of the whole result, from its two halves. -/
theorem wp_result {x : EStateM ε σ α} {R : Result ε σ α → Prop}
    (h : wp x (fun a s' => R (.ok a s')) (fun e s' => R (.error e s')) s) : R (x.run s) := by
  unfold wp at h
  split at h <;> simp_all

theorem wp_mono {x : EStateM ε σ α} {Q' : α → σ → Prop} {E' : ε → σ → Prop} (h : wp x Q E s)
    (hQ : ∀ a s', Q a s' → Q' a s') (hE : ∀ e s', E e s' → E' e s') : wp x Q' E' s := by
  unfold wp at *
  split at h <;> simp_all

/-- Sequencing, Hoare-style: an intermediate postcondition of the first computation from
which the second establishes the final one. -/
theorem wp_bind_of {x : EStateM ε σ α} {f : α → EStateM ε σ β} {P : α → σ → Prop} {Q : β → σ → Prop}
    (hx : wp x P E s) (hf : ∀ a s', P a s' → wp (f a) Q E s') : wp (x >>= f) Q E s := by
  rw [wp_bind]
  exact wp_mono hx hf fun _ _ h => h

/-- A run that cannot fail and ends in `Q` returns a result and a state `Q` holds of. -/
theorem run_of_wp {x : EStateM ε σ α} {Q : α → σ → Prop} (h : wp x Q (fun _ _ => False) s) :
    ∃ a s', x.run s = .ok a s' ∧ Q a s' := by
  unfold wp at h
  split at h
  · next a s' hr => exact ⟨a, s', hr, h⟩
  · exact h.elim

/-- A run that cannot succeed and fails in `E` fails with an error and a state `E` holds of. -/
theorem run_of_wp_error {x : EStateM ε σ α} {E : ε → σ → Prop} (h : wp x (fun _ _ => False) E s) :
    ∃ e s', x.run s = .error e s' ∧ E e s' := by
  unfold wp at h
  split at h
  · exact h.elim
  · next e s' hr => exact ⟨e, s', hr, h⟩

/-- The run's own result is a postcondition of it. -/
theorem wp_run (x : EStateM ε σ α) (s : σ) :
    wp x (fun a s' => x.run s = .ok a s') (fun e s' => x.run s = .error e s') s := by
  unfold wp
  split <;> assumption

/-- A run is the result `r` when `r` is what every outcome of it is. -/
theorem run_eq_of_wp {x : EStateM ε σ α} {r : Result ε σ α}
    (h : wp x (fun a s' => r = .ok a s') (fun e s' => r = .error e s') s) : x.run s = r := by
  unfold wp at h
  split at h <;> next hx => rw [hx, h]

/-- What holds at the end of every run holds of the state it ends in. -/
theorem wp_state {x : EStateM ε σ α} {R : σ → Prop} (h : wp x (fun _ => R) (fun _ => R) s) :
    R (x.run s).state := by
  unfold wp at h
  split at h <;> simp_all

end Wp

/-! ## Frame rules -/

/-- Every run of `x` ends in a state `R`-related to the one it began in. -/
def Keeps (R : σ → σ → Prop) (x : EStateM ε σ α) : Prop := ∀ s, R s (x.run s).state

/-- Two frame relations at once, as `Keeps.and` builds them, are reflexive and transitive
when both are. -/
instance reflAnd {R R' : σ → σ → Prop} [Std.Refl R] [Std.Refl R'] : Std.Refl fun a b => R a b ∧ R' a b :=
  ⟨fun a => ⟨refl_of R a, refl_of R' a⟩⟩

instance isTransAnd {R R' : σ → σ → Prop} [IsTrans σ R] [IsTrans σ R'] : IsTrans σ fun a b => R a b ∧ R' a b :=
  ⟨fun _ _ _ h h' => ⟨trans_of R h.1 h'.1, trans_of R' h.2 h'.2⟩⟩

section Keeps

variable {R : σ → σ → Prop}

theorem Keeps.pure [Std.Refl R] (a : α) : Keeps R (Pure.pure a : EStateM ε σ α) :=
  fun s => refl_of R s

theorem Keeps.get [Std.Refl R] : Keeps R (MonadStateOf.get : EStateM ε σ σ) :=
  fun s => refl_of R s

theorem Keeps.throw [Std.Refl R] (e : ε) : Keeps R (MonadExceptOf.throw e : EStateM ε σ α) :=
  fun s => refl_of R s

theorem Keeps.modify {f : σ → σ} (h : ∀ s, R s (f s)) : Keeps R (modify f : EStateM ε σ PUnit) :=
  fun s => h s

theorem Keeps.bind [Std.Refl R] [IsTrans σ R] {x : EStateM ε σ α} {f : α → EStateM ε σ β}
    (hx : Keeps R x) (hf : ∀ a, Keeps R (f a)) : Keeps R (x >>= f) := by
  intro s
  simp only [run_bind]
  have h1 := hx s
  split
  · next a s' h => rw [h] at h1; exact trans_of R h1 (hf a s')
  · next e s' h => rw [h] at h1; exact h1

theorem Keeps.ite {c : Prop} [Decidable c] {x y : EStateM ε σ α} (hx : Keeps R x) (hy : Keeps R y) :
    Keeps R (if c then x else y) := by
  split
  · exact hx
  · exact hy

theorem Keeps.mono {R' : σ → σ → Prop} {x : EStateM ε σ α} (h : ∀ s t, R s t → R' s t)
    (hx : Keeps R x) : Keeps R' x :=
  fun s => h _ _ (hx s)

theorem Keeps.and {R' : σ → σ → Prop} {x : EStateM ε σ α} (h : Keeps R x) (h' : Keeps R' x) :
    Keeps (fun s t => R s t ∧ R' s t) x :=
  fun s => ⟨h s, h' s⟩

/-- A frame property as a weakest precondition: it holds however the run ends. -/
theorem Keeps.wp {x : EStateM ε σ α} (hx : Keeps R x) (s : σ) :
    EStateM.wp x (fun _ s' => R s s') (fun _ s' => R s s') s := by
  have h := hx s
  unfold EStateM.wp
  split <;> simp_all

theorem Keeps.map {β : Type} (f : α → β) {x : EStateM ε σ α} (hx : Keeps R x) : Keeps R (f <$> x) :=
  fun s => wp_state (by rw [wp_map]; exact hx.wp s)

theorem Keeps.wp_of {x : EStateM ε σ α} (hx : Keeps R x) {s : σ} {Q : α → σ → Prop} {E : ε → σ → Prop}
    (hQ : ∀ a s', R s s' → Q a s') (hE : ∀ e s', R s s' → E e s') : EStateM.wp x Q E s :=
  wp_mono (hx.wp s) hQ hE

/-- Sequencing under a frame: the first computation keeps a transitive `R` and starts from
a state `R`-related to `s₀`, so the second starts from one too. -/
theorem Keeps.wp_bind_of [IsTrans σ R] {x : EStateM ε σ α} {f : α → EStateM ε σ β} {Q : β → σ → Prop}
    {E : ε → σ → Prop} {s₀ s : σ} (h₀ : R s₀ s) (hx : Keeps R x) (hf : ∀ a s', R s₀ s' → EStateM.wp (f a) Q E s')
    (hE : ∀ e s', R s₀ s' → E e s') : EStateM.wp (x >>= f) Q E s := by
  rw [wp_bind]
  exact Keeps.wp_of hx (fun a s' h => hf a s' (trans_of R h₀ h)) fun e s' h => hE e s' (trans_of R h₀ h)

end Keeps

end EStateM
