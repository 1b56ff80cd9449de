import Mathlib.Data.List.Basic
import Mathlib.Data.List.Range

/-!
# Tables that rows are deleted from

A table against the log of all rows that were ever inserted. Deletions take rows that a condition
meets; a selection which asks for no such row finds in the table what it would find in the log.
Rows are inserted in slices of a list, which together are the list.
-/

namespace Retention

variable {ρ : Type*}

structure Retains (kept : ρ → Prop) (table log : List ρ) : Prop where
  sublist : table.Sublist log
  filter_eq : ∀ p : ρ → Bool, (∀ r, p r = true → kept r) → table.filter p = log.filter p

variable {kept : ρ → Prop} {table log : List ρ}

theorem Retains.refl (kept : ρ → Prop) (log : List ρ) : Retains kept log log :=
  ⟨List.Sublist.refl log, fun _ _ => rfl⟩

theorem Retains.append (h : Retains kept table log) (rows : List ρ) :
    Retains kept (table ++ rows) (log ++ rows) where
  sublist := h.sublist.append (List.Sublist.refl rows)
  filter_eq p hp := by rw [List.filter_append, List.filter_append, h.filter_eq p hp]

/-- Of what is kept from now on, nothing is deleted. -/
theorem Retains.delete (h : Retains kept table log) {kept' : ρ → Prop} {d : ρ → Bool}
    (hkept : ∀ r, kept' r → kept r) (hd : ∀ r ∈ table, kept' r → d r = false) :
    Retains kept' (table.filter (fun r => !d r)) log where
  sublist := List.filter_sublist.trans h.sublist
  filter_eq p hp := by
    have hboth : (table.filter (fun r => !d r)).filter p = table.filter p := by
      rw [List.filter_filter]
      apply List.filter_congr
      intro r hr
      cases hpr : p r with
      | false => rfl
      | true => rw [hd r hr (hp r hpr)]; rfl
    rw [hboth, h.filter_eq p (fun r hr => hkept r (hp r hr))]

theorem Retains.mem (h : Retains kept table log) {r : ρ} (hr : r ∈ log) (hkept : kept r) :
    r ∈ table := by
  classical
  have hfilter := h.filter_eq (fun r' => decide (r' = r))
    (fun r' hr' => (of_decide_eq_true hr').symm ▸ hkept)
  have hmem : r ∈ log.filter (fun r' => decide (r' = r)) :=
    List.mem_filter.2 ⟨hr, decide_eq_true rfl⟩
  rw [← hfilter] at hmem
  exact (List.mem_filter.1 hmem).1

/-- What is deleted and what is left. -/
theorem length_filter_add (d : ρ → Bool) (rows : List ρ) :
    (rows.filter (fun r => !d r)).length + (rows.filter d).length = rows.length := by
  induction rows with
  | nil => rfl
  | cons r rows ih =>
      cases hr : d r with
      | false => simp only [List.filter_cons, hr, Bool.not_false, if_true, List.length_cons,
          Bool.false_eq_true, if_false]; omega
      | true => simp only [List.filter_cons, hr, Bool.not_true, if_true, List.length_cons,
          Bool.false_eq_true, if_false]; omega

section Slices

/-- `rows[i : i + size]` for the multiples `i` of `size` below the length. -/
def slices (size : ℕ) (rows : List ρ) : List (List ρ) :=
  (List.range ((rows.length + size - 1) / size)).map (fun i => (rows.drop (i * size)).take size)

theorem flatten_take_drop (size : ℕ) (rows : List ρ) (n : ℕ) :
    ((List.range n).map (fun i => (rows.drop (i * size)).take size)).flatten =
      rows.take (n * size) := by
  induction n with
  | zero => simp
  | succ n ih =>
      rw [List.range_succ, List.map_append, List.flatten_append, ih, List.map_singleton,
        List.flatten_singleton, Nat.succ_mul, List.take_add]

theorem flatten_slices {size : ℕ} (hsize : 0 < size) (rows : List ρ) :
    (slices size rows).flatten = rows := by
  rw [slices, flatten_take_drop, List.take_of_length_le]
  have hdiv := Nat.div_add_mod (rows.length + size - 1) size
  have hmod := Nat.mod_lt (rows.length + size - 1) hsize
  rw [Nat.mul_comm]
  omega

end Slices

end Retention
