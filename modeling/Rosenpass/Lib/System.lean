/-
Transition systems: an initial predicate and a next-state relation, the states
reachable from the one by the other, and the rules that prove something of all of
them.

An invariant is proved by induction on reachability once (`invariant_of_inductive`);
every safety theorem is then two goals, the initial states and one step. A step
property (`ActionInvariant`) says something of every step a reachable state takes,
which is how a property that compares a state with its successor (a counter that only
grows) is stated. The second rule lets the step of one invariant use another that is
already proved.

A run's record of what it sent is a log of entries under keys (`Log`): what a key has
seen is the log filtered by it, a step appends to it, and a log in which every key has
seen the start of a sequence without repeats has no repeated entry.
-/
import Mathlib.Order.Basic
import Mathlib.Data.List.Nodup

namespace System

/-- A transition system. -/
structure Spec (σ : Type) where
  init : σ → Prop
  next : σ → σ → Prop

variable {σ : Type}

inductive Reachable (S : Spec σ) : σ → Prop where
  | init {s : σ} : S.init s → Reachable S s
  | step {s t : σ} : Reachable S s → S.next s t → Reachable S t

/-- `P` holds of every reachable state. -/
def Invariant (S : Spec σ) (P : σ → Prop) : Prop := ∀ s, Reachable S s → P s

/-- `A` relates every reachable state to each of its successors. -/
def ActionInvariant (S : Spec σ) (A : σ → σ → Prop) : Prop :=
  ∀ s t, Reachable S s → S.next s t → A s t

section Rules

variable {S : Spec σ}

/-- An inductive invariant that implies `P`. -/
theorem invariant_of_inductive {P Inv : σ → Prop}
    (hInit : ∀ s, S.init s → Inv s)
    (hStep : ∀ s t, Inv s → S.next s t → Inv t)
    (hImp : ∀ s, Inv s → P s) : Invariant S P := by
  intro s hs
  apply hImp
  induction hs with
  | init h => exact hInit _ h
  | step _ hn ih => exact hStep _ _ ih hn

theorem Invariant.and {P Q : σ → Prop} (hP : Invariant S P) (hQ : Invariant S Q) :
    Invariant S (fun s => P s ∧ Q s) :=
  fun s hs => ⟨hP s hs, hQ s hs⟩

/-- A step property that follows from an invariant of the state stepped from. -/
theorem ActionInvariant.of_invariant {Q : σ → Prop} {A : σ → σ → Prop} (hQ : Invariant S Q)
    (hA : ∀ s t, Q s → S.next s t → A s t) : ActionInvariant S A :=
  fun s t hs hn => hA s t (hQ s hs) hn

end Rules

end System

namespace Log

variable {κ α : Type} [DecidableEq κ]

/-- The entries of the log `l` under the key `k`, in order. -/
def under (l : List (κ × α)) (k : κ) : List (κ × α) := l.filter (·.1 = k)

@[simp] theorem under_nil (k : κ) : under ([] : List (κ × α)) k = [] := rfl

theorem under_append_of_ne {l : List (κ × α)} {a : κ × α} {k : κ} (h : a.1 ≠ k) :
    under (l ++ [a]) k = under l k := by
  simp [under, h]

/-- The entries under `k` are the first `m` of the sequence `f`. -/
def Counts (l : List (κ × α)) (k : κ) (f : Nat → α) (m : Nat) : Prop :=
  under l k = (List.range m).map fun j => (k, f j)

theorem Counts.append_of_ne {l : List (κ × α)} {k : κ} {f : Nat → α} {m : Nat} (h : Counts l k f m)
    {a : κ × α} (ha : a.1 ≠ k) : Counts (l ++ [a]) k f m := by
  rw [Counts, under_append_of_ne ha]
  exact h

/-- Appending the next of the sequence under `k` counts one more. -/
theorem Counts.append_next {l : List (κ × α)} {k : κ} {f : Nat → α} {m : Nat} (h : Counts l k f m) :
    Counts (l ++ [(k, f m)]) k f (m + 1) := by
  simp only [Counts, under, List.filter_append, List.filter_singleton, decide_true, cond_true,
    List.range_succ, List.map_append, List.map_cons, List.map_nil]
  exact congrArg (· ++ [(k, f m)]) h

theorem Counts.length {l : List (κ × α)} {k : κ} {f : Nat → α} {m : Nat} (h : Counts l k f m) :
    (under l k).length = m := by
  rw [h, List.length_map, List.length_range]

/-- The entries under `k` repeat nothing while `f` repeats nothing below `m`. -/
theorem Counts.nodup {l : List (κ × α)} {k : κ} {f : Nat → α} {m : Nat} (h : Counts l k f m)
    (hf : ∀ i < m, ∀ j < m, f i = f j → i = j) : (under l k).Nodup := by
  rw [h]
  refine List.Nodup.map_on (fun i hi j hj hij => ?_) List.nodup_range
  exact hf i (List.mem_range.1 hi) j (List.mem_range.1 hj) (Prod.ext_iff.1 hij).2

/-- A log repeats no entry if no key's entries repeat. -/
theorem nodup_of_under [DecidableEq α] {l : List (κ × α)} (h : ∀ k, (under l k).Nodup) : l.Nodup := by
  rw [List.nodup_iff_count_le_one]
  intro a
  -- `a` is counted as often in the whole log as under its own key
  have hc : (under l a.1).count a = l.count a := List.count_filter (by simp)
  exact hc ▸ List.nodup_iff_count_le_one.1 (h a.1) a

end Log
