import Mathlib.Data.List.Nodup

/-!
# How often a row comes out of a join

A join is a list comprehension. A row of the left table comes out as often as rows of the right
table match it, at most once where the match is by a unique key; and keys stay apart in the result
exactly where no row comes out twice.
-/

namespace Joins

variable {α β κ : Type}

/-- A unique key is matched at most once. -/
theorem length_filter_le_one [DecidableEq κ] {key : α → κ} {l : List α} (h : (l.map key).Nodup)
    (k : κ) : (l.filter (fun a => key a = k)).length ≤ 1 := by
  induction l with
  | nil => exact Nat.zero_le 1
  | cons a l ih =>
      obtain ⟨hnot, hnodup⟩ := List.nodup_cons.1 h
      by_cases hkey : key a = k
      · have hrest : l.filter (fun a => key a = k) = [] := by
          rw [List.filter_eq_nil_iff]
          intro b hb hbkey
          rw [decide_eq_true_eq, ← hkey] at hbkey
          exact hnot (hbkey ▸ List.mem_map_of_mem hb)
        rw [List.filter_cons_of_pos (by simpa using hkey), hrest]
        exact Nat.le_refl 1
      · rw [List.filter_cons_of_neg (by simpa using hkey)]
        exact ih hnodup

theorem nodup_iff_length_le_one {l : List κ} {k : κ} (h : ∀ a ∈ l, a = k) :
    l.Nodup ↔ l.length ≤ 1 := by
  rw [List.eq_replicate_of_mem h, List.nodup_replicate, List.length_replicate]

theorem length_flatMap_le_one {l : List α} {f : α → List β} (hl : l.length ≤ 1)
    (hf : ∀ a ∈ l, (f a).length ≤ 1) : (l.flatMap f).length ≤ 1 := by
  match l with
  | [] => exact Nat.zero_le 1
  | [a] =>
      rw [List.flatMap_singleton]
      exact hf a List.mem_cons_self
  | _ :: _ :: _ =>
      rw [List.length_cons, List.length_cons] at hl
      omega

/-- A join whose rows have the keys of the left table keeps the keys apart exactly where each row
of the left table comes out at most once. -/
theorem nodup_map_flatMap_iff {l : List α} {f : α → List β} {key : α → κ} {key' : β → κ}
    (hkey : ∀ a ∈ l, ∀ b ∈ f a, key' b = key a) (hl : (l.map key).Nodup) :
    ((l.flatMap f).map key').Nodup ↔ ∀ a ∈ l, (f a).length ≤ 1 := by
  have hmem : ∀ a ∈ l, ∀ k ∈ (f a).map key', k = key a := by
    intro a ha k hk
    obtain ⟨b, hb, rfl⟩ := List.mem_map.1 hk
    exact hkey a ha b hb
  rw [List.map_flatMap, List.nodup_flatMap]
  constructor
  · intro h a ha
    have hone := (nodup_iff_length_le_one (hmem a ha)).1 (h.1 a ha)
    rwa [List.length_map] at hone
  · intro h
    refine ⟨fun a ha => (nodup_iff_length_le_one (hmem a ha)).2 ?_, ?_⟩
    · rw [List.length_map]
      exact h a ha
    · rw [List.Nodup, List.pairwise_map] at hl
      refine hl.imp_of_mem (fun {a a'} ha ha' hne k hk hk' => hne ?_)
      rw [← hmem a ha k hk, ← hmem a' ha' k hk']

end Joins
