/-
Buffers as lists, for code that reads and writes fixed layouts in place.

`slice off len b` is the view `&b[off..off + len]`, and `write off v b` the store
`(&mut b[off..off + v.len()]).copy_from_slice(v)`. A `Field` names a view by its
offset and length, as a field of a `#[repr(packed)]` struct does. What every round
trip through such a layout needs is here once: a field reads back what was stored in
it, a store leaves every disjoint field and the buffer's length alone, and a prefix
agrees with the whole buffer on every field inside it.
-/
import Mathlib.Order.Basic

namespace Buffer

variable {α : Type*}

/-- The view `&b[off..off + len]` (cut short at the end of `b`). -/
def slice (off len : Nat) (b : List α) : List α := (b.drop off).take len

/-- The store `(&mut b[off..off + v.len()]).copy_from_slice(v)`. -/
def write (off : Nat) (v b : List α) : List α := b.take off ++ v ++ b.drop (off + v.length)

@[simp] theorem length_slice (off len : Nat) (b : List α) :
    (slice off len b).length = min len (b.length - off) := by
  simp [slice]

theorem length_write {off : Nat} {v b : List α} (h : off + v.length ≤ b.length) :
    (write off v b).length = b.length := by
  simp only [write, List.length_append, List.length_take, List.length_drop]
  omega

@[simp] theorem write_nil (off : Nat) (b : List α) : write off [] b = b := by
  simp [write]

theorem slice_write_self {off : Nat} {v b : List α} (h : off + v.length ≤ b.length) :
    slice off v.length (write off v b) = v := by
  have hl : (b.take off).length = off := by simp; omega
  simp only [slice, write, List.append_assoc]
  rw [List.drop_left' hl, List.take_left' rfl]

/-- A store after the view leaves it alone. -/
theorem slice_write_of_le {off off' len : Nat} {v b : List α} (hb : off ≤ b.length)
    (h : off' + len ≤ off) : slice off' len (write off v b) = slice off' len b := by
  simp only [slice, write, List.append_assoc]
  rw [List.take_drop, List.take_drop, List.take_append_of_le_length (by simp; omega),
    List.take_take, Nat.min_eq_left (by omega)]

/-- A store before the view leaves it alone. -/
theorem slice_write_of_ge {off off' len : Nat} {v b : List α} (hb : off + v.length ≤ b.length)
    (h : off + v.length ≤ off') : slice off' len (write off v b) = slice off' len b := by
  have hl : (b.take off ++ v).length = off + v.length := by simp; omega
  obtain ⟨k, rfl⟩ : ∃ k, off' = off + v.length + k := ⟨off' - (off + v.length), by omega⟩
  simp only [slice, write]
  rw [← List.drop_drop, List.drop_left' hl, List.drop_drop]

theorem take_write_of_le {n off : Nat} {v b : List α} (hb : off ≤ b.length) (h : n ≤ off) :
    (write off v b).take n = b.take n := by
  simp only [write, List.append_assoc]
  rw [List.take_append_of_le_length (by simp; omega), List.take_take, Nat.min_eq_left h]

/-- A store past the first element keeps it. -/
theorem write_succ_cons (off : Nat) (v : List α) (a : α) (l : List α) :
    write (off + 1) v (a :: l) = a :: write off v l := by
  simp only [write, List.take_succ_cons, List.cons_append, Nat.add_right_comm off 1, List.drop_succ_cons]

theorem slice_take {off len n : Nat} {b : List α} (h : off + len ≤ n) :
    slice off len (b.take n) = slice off len b := by
  simp only [slice]
  rw [List.drop_take, List.take_take, Nat.min_eq_left (by omega)]

/-! ## Fields -/

/-- A field of a packed layout: its offset and its length in bytes. -/
structure Field where
  off : Nat
  len : Nat
  deriving DecidableEq, Repr

namespace Field

/-- The first offset past the field. -/
def stop (f : Field) : Nat := f.off + f.len

/-- Read the field. -/
def get (f : Field) (b : List α) : List α := slice f.off f.len b

/-- Store `v` in the field. -/
def set (f : Field) (v b : List α) : List α := write f.off v b

/-- Two fields that share no byte. -/
def Disjoint (f g : Field) : Prop := f.stop ≤ g.off ∨ g.stop ≤ f.off

instance (f g : Field) : Decidable (f.Disjoint g) := inferInstanceAs (Decidable (_ ∨ _))

theorem Disjoint.symm {f g : Field} (h : f.Disjoint g) : g.Disjoint f := Or.symm h

@[simp] theorem length_get (f : Field) {b : List α} (h : f.stop ≤ b.length) :
    (f.get b).length = f.len := by
  simp only [get, length_slice, stop] at *
  omega

theorem length_set (f : Field) {v b : List α} (hv : v.length = f.len) (h : f.stop ≤ b.length) :
    (f.set v b).length = b.length :=
  length_write (by simp only [stop] at h; omega)

/-- A write into a buffer that reaches where it starts leaves it no shorter, whatever the
length of what is written. -/
theorem length_le_length_set (f : Field) {v b : List α} (h : f.off ≤ b.length) : b.length ≤ (f.set v b).length := by
  simp only [set, write, List.length_append, List.length_take, List.length_drop]
  omega

theorem get_set_self (f : Field) {v b : List α} (hv : v.length = f.len) (h : f.stop ≤ b.length) :
    f.get (f.set v b) = v := by
  simp only [get, set, ← hv]
  exact slice_write_self (by simp only [stop] at h; omega)

theorem get_set_of_disjoint {f g : Field} {v b : List α} (hd : f.Disjoint g) (hv : v.length = g.len)
    (h : g.stop ≤ b.length) : f.get (g.set v b) = f.get b := by
  simp only [Disjoint, stop] at hd h
  rcases hd with hd | hd
  · exact slice_write_of_le (by omega) hd
  · exact slice_write_of_ge (by omega) (by omega)

theorem get_take (f : Field) {n : Nat} {b : List α} (h : f.stop ≤ n) : f.get (b.take n) = f.get b :=
  slice_take h

theorem set_cons (f : Field) {v l : List α} {a : α} (h : 0 < f.off) :
    f.set v (a :: l) = a :: write (f.off - 1) v l := by
  obtain ⟨k, hk⟩ : ∃ k, f.off = k + 1 := ⟨f.off - 1, by omega⟩
  simp only [set, hk, write_succ_cons, Nat.add_sub_cancel]

theorem take_set_of_le (f : Field) {n : Nat} {v b : List α} (hb : f.off ≤ b.length)
    (h : n ≤ f.off) : (f.set v b).take n = b.take n :=
  take_write_of_le hb h

/-- A store behind the first byte leaves the first byte alone. -/
theorem headD_set (f : Field) {v b : List α} {d : α} (h : 0 < f.off) (hb : b ≠ []) :
    (f.set v b).headD d = b.headD d := by
  obtain ⟨a, b, rfl⟩ := List.exists_cons_of_ne_nil hb
  rw [set_cons _ h]
  rfl

/-! ## Several stores -/

/-- Stores to several fields, in order: how a message is filled in. -/
def setAll : List (Field × List α) → List α → List α
  | [], b => b
  | (f, v) :: ws, b => setAll ws (f.set v b)

/-- Each store has its field's length and lies inside a buffer of length `n`. -/
def Fits (n : Nat) (ws : List (Field × List α)) : Prop := ∀ w ∈ ws, w.2.length = w.1.len ∧ w.1.stop ≤ n

theorem setAll_append (ws ws' : List (Field × List α)) (b : List α) :
    setAll (ws ++ ws') b = setAll ws' (setAll ws b) := by
  induction ws generalizing b with
  | nil => rfl
  | cons w ws ih => exact ih _

theorem length_setAll {ws : List (Field × List α)} {b : List α} (h : Fits b.length ws) :
    (setAll ws b).length = b.length := by
  induction ws generalizing b with
  | nil => rfl
  | cons w ws ih =>
    have hw := h w (List.mem_cons_self ..)
    have hl : (w.1.set w.2 b).length = b.length := Field.length_set _ hw.1 hw.2
    exact (ih (hl ▸ fun w' hw' => h w' (List.mem_cons_of_mem _ hw'))).trans hl

/-- Stores to other fields leave a field as it was. -/
theorem get_setAll_of_disjoint {f : Field} {ws : List (Field × List α)} {b : List α} (h : Fits b.length ws)
    (hd : ∀ w ∈ ws, f.Disjoint w.1) : f.get (setAll ws b) = f.get b := by
  induction ws generalizing b with
  | nil => rfl
  | cons w ws ih =>
    have hw := h w (List.mem_cons_self ..)
    have hl : (w.1.set w.2 b).length = b.length := Field.length_set _ hw.1 hw.2
    refine (ih (hl ▸ fun w' hw' => h w' (List.mem_cons_of_mem _ hw'))
      (fun w' hw' => hd w' (List.mem_cons_of_mem _ hw'))).trans ?_
    exact Field.get_set_of_disjoint (hd w (List.mem_cons_self ..)) hw.1 hw.2

/-- A field reads what was last stored in it. -/
theorem get_setAll_of_last (ws : List (Field × List α)) {f : Field} {v : List α} {ws' : List (Field × List α)}
    {b : List α} (h : Fits b.length (ws ++ (f, v) :: ws')) (hd : ∀ w ∈ ws', f.Disjoint w.1) :
    f.get (setAll (ws ++ (f, v) :: ws') b) = v := by
  have hpre : Fits b.length ws := fun w hw => h w (List.mem_append_left _ hw)
  have hfv := h (f, v) (List.mem_append_right _ (List.mem_cons_self ..))
  have hl : (f.set v (setAll ws b)).length = b.length := by
    rw [Field.length_set _ hfv.1 (by rw [length_setAll hpre]; exact hfv.2), length_setAll hpre]
  rw [setAll_append]
  refine (get_setAll_of_disjoint (hl ▸ fun w hw => h w (List.mem_append_right _ (List.mem_cons_of_mem _ hw))) hd).trans ?_
  exact Field.get_set_self _ hfv.1 (by rw [length_setAll hpre]; exact hfv.2)

/-- Stores to fields that share no byte: each field reads what was stored in it. -/
theorem get_setAll_of_mem {ws : List (Field × List α)} {b : List α} (h : Fits b.length ws)
    (hd : ws.Pairwise fun w w' => w.1.Disjoint w'.1) {f : Field} {v : List α} (hf : (f, v) ∈ ws) :
    f.get (setAll ws b) = v := by
  induction ws generalizing b with
  | nil => cases hf
  | cons w ws ih =>
    have hw := h w (List.mem_cons_self ..)
    have hl : (w.1.set w.2 b).length = b.length := Field.length_set _ hw.1 hw.2
    have hfit : Fits (w.1.set w.2 b).length ws := hl ▸ fun w' hw' => h w' (List.mem_cons_of_mem _ hw')
    rw [List.pairwise_cons] at hd
    rcases List.mem_cons.1 hf with rfl | hf
    · -- the first store: the later ones are to disjoint fields
      rw [setAll, get_setAll_of_disjoint hfit hd.1]
      exact Field.get_set_self _ hw.1 hw.2
    · exact ih hfit hd.2 hf

/-- Two buffers that agree on a field at the front agree on every field inside it. -/
theorem get_eq_of_span {g span : Field} {b b' : List α} (h0 : span.off = 0) (hg : g.stop ≤ span.stop)
    (hs : span.get b' = span.get b) : g.get b' = g.get b := by
  have hspan : ∀ x : List α, span.get x = x.take span.len := fun x => by simp [get, slice, h0]
  have hstop : span.stop = span.len := by simp [stop, h0]
  rw [← get_take g (hstop ▸ hg : g.stop ≤ span.len), ← hspan, hs, hspan, get_take g (hstop ▸ hg)]

end Field

end Buffer

/-! ## Lists -/

/-- A prefix that is not empty starts as the list does. -/
theorem List.headD_take {α : Type*} {b : List α} {n : Nat} {d : α} (h : 0 < n) : (b.take n).headD d = b.headD d := by
  cases b with
  | nil => simp
  | cons x b =>
    obtain ⟨m, rfl⟩ := Nat.exists_eq_add_one_of_ne_zero (Nat.pos_iff_ne_zero.1 h)
    rfl

/-- A change at one position that a map does not see leaves the mapped list as it was. -/
theorem List.map_modify_of_forall {α β : Type} {g : α → β} {f : α → α} (h : ∀ a, g (f a) = g a) :
    ∀ (l : List α) (i : Nat), (l.modify i f).map g = l.map g
  | [], _ => by simp
  | a :: l, 0 => by simp [h]
  | a :: l, i + 1 => by simp [List.map_modify_of_forall h l i]
