import Mathlib.Data.List.Dedup
import Mathlib.Data.List.Nodup
import Mathlib.Data.List.Perm.Basic

/-!
# Joins along a reference

Rows of one table refer to rows of another by a key. An inner join gives a row of the other table
for each row that refers to it, an outer join with no match the rows that nothing refers to. Where
the key is unique and each reference is met, an inner join has as many rows as the referring table,
and the two kinds of rows together are as many as the other table only where no two rows refer to
the same.
-/

namespace References

variable {α β κ : Type*} [DecidableEq κ] (key : α → κ) (ref : β → κ)

/-- `SELECT a FROM rows a JOIN references b ON b.ref = a.key`. -/
def joined (rows : List α) (references : List β) : List α :=
  rows.flatMap (fun a => (references.filter (fun b => ref b = key a)).map (fun _ => a))

/-- `SELECT a FROM rows a LEFT JOIN references b ON b.ref = a.key WHERE b IS NULL`. -/
def unmatched (rows : List α) (references : List β) : List α :=
  rows.filter (fun a => references.all (fun b => ref b ≠ key a))

variable {key ref} {rows : List α} {references : List β}

theorem mem_joined {a : α} : a ∈ joined key ref rows references ↔
    a ∈ rows ∧ ∃ b ∈ references, ref b = key a := by
  rw [joined, List.mem_flatMap]
  constructor
  · rintro ⟨a', ha', hmem⟩
    obtain ⟨b, hb, rfl⟩ := List.mem_map.1 hmem
    obtain ⟨hb, hkey⟩ := List.mem_filter.1 hb
    exact ⟨ha', b, hb, of_decide_eq_true hkey⟩
  · rintro ⟨ha, b, hb, hkey⟩
    exact ⟨a, ha, List.mem_map.2 ⟨b, List.mem_filter.2 ⟨hb, decide_eq_true hkey⟩, rfl⟩⟩

theorem mem_unmatched {a : α} : a ∈ unmatched key ref rows references ↔
    a ∈ rows ∧ ∀ b ∈ references, ref b ≠ key a := by
  simp [unmatched]

/-- A list taken apart by distinct keys. -/
theorem flatMap_filter_perm (refs : List κ) {keys : List κ} (hkeys : keys.Nodup) :
    (keys.flatMap (fun k => refs.filter (fun r => r = k))).Perm
      (refs.filter (fun r => r ∈ keys)) := by
  induction keys with
  | nil => simp
  | cons k keys ih =>
      obtain ⟨hnot, hkeys⟩ := List.nodup_cons.1 hkeys
      have hself : (refs.filter (fun r => r ∈ k :: keys)).filter (fun r => r = k) =
          refs.filter (fun r => r = k) := by
        rw [List.filter_filter]
        exact List.filter_congr (fun r _ => by simp +contextual)
      have hrest : (refs.filter (fun r => r ∈ k :: keys)).filter (fun r => !decide (r = k)) =
          refs.filter (fun r => r ∈ keys) := by
        rw [List.filter_filter]
        refine List.filter_congr (fun r _ => ?_)
        by_cases hr : r = k
        · simp [hr, hnot]
        · simp [hr]
      have hparts := List.filter_append_perm (fun r => decide (r = k))
        (refs.filter (fun r => r ∈ k :: keys))
      rw [hself, hrest] at hparts
      rw [List.flatMap_cons]
      exact ((ih hkeys).append_left _).trans hparts

/-- The keys of an inner join are the references, where each is met. -/
theorem map_key_joined_perm (hkeys : (rows.map key).Nodup)
    (href : ∀ b ∈ references, ∃ a ∈ rows, key a = ref b) :
    ((joined key ref rows references).map key).Perm (references.map ref) := by
  have hjoined : (joined key ref rows references).map key =
      (rows.map key).flatMap (fun k => (references.map ref).filter (fun r => r = k)) := by
    rw [joined, List.map_flatMap, List.flatMap_map]
    refine List.flatMap_congr (fun a _ => ?_)
    rw [List.map_map, List.filter_map]
    refine List.map_congr_left (fun b hb => ?_)
    exact (of_decide_eq_true (List.mem_filter.1 hb).2).symm
  have hall : (references.map ref).filter (fun r => r ∈ rows.map key) = references.map ref := by
    refine List.filter_eq_self.2 (fun r hr => ?_)
    obtain ⟨b, hb, rfl⟩ := List.mem_map.1 hr
    obtain ⟨a, ha, hkey⟩ := href b hb
    exact decide_eq_true (List.mem_map.2 ⟨a, ha, hkey⟩)
  have hparts := flatMap_filter_perm (references.map ref) hkeys
  rwa [hall, ← hjoined] at hparts

theorem length_joined (hkeys : (rows.map key).Nodup)
    (href : ∀ b ∈ references, ∃ a ∈ rows, key a = ref b) :
    (joined key ref rows references).length = references.length := by
  have hlength := (map_key_joined_perm hkeys href).length_eq
  rwa [List.length_map, List.length_map] at hlength

theorem nodup_joined_iff (hkeys : (rows.map key).Nodup)
    (href : ∀ b ∈ references, ∃ a ∈ rows, key a = ref b) :
    ((joined key ref rows references).map key).Nodup ↔ (references.map ref).Nodup :=
  (map_key_joined_perm hkeys href).nodup_iff

theorem unmatched_eq : unmatched key ref rows references =
    rows.filter (fun a => !decide (key a ∈ references.map ref)) := by
  refine List.filter_congr (fun a _ => ?_)
  rw [Bool.eq_iff_iff]
  simp

/-- The rows that are referred to are as many as the different references. -/
theorem length_matched (hkeys : (rows.map key).Nodup)
    (href : ∀ b ∈ references, ∃ a ∈ rows, key a = ref b) :
    (rows.filter (fun a => key a ∈ references.map ref)).length =
      (references.map ref).dedup.length := by
  have hnodup : ((rows.filter (fun a => key a ∈ references.map ref)).map key).Nodup :=
    hkeys.sublist (List.filter_sublist.map _)
  have hmem : ∀ k, k ∈ (rows.filter (fun a => key a ∈ references.map ref)).map key ↔
      k ∈ (references.map ref).dedup := by
    intro k
    rw [List.mem_dedup]
    constructor
    · intro hk
      obtain ⟨a, ha, rfl⟩ := List.mem_map.1 hk
      exact of_decide_eq_true (List.mem_filter.1 ha).2
    · intro hk
      obtain ⟨b, hb, rfl⟩ := List.mem_map.1 hk
      obtain ⟨a, ha, hkey⟩ := href b hb
      exact List.mem_map.2 ⟨a, List.mem_filter.2 ⟨ha, decide_eq_true (hkey ▸ hk)⟩, hkey⟩
  have hperm := (List.perm_ext_iff_of_nodup hnodup (List.nodup_dedup _)).2 hmem
  rw [← hperm.length_eq, List.length_map]

/-- The references and the rows without one are as many as the rows where no two are the same. -/
theorem length_rows_iff (hkeys : (rows.map key).Nodup)
    (href : ∀ b ∈ references, ∃ a ∈ rows, key a = ref b) :
    rows.length = references.length + (unmatched key ref rows references).length ↔
      (references.map ref).Nodup := by
  have hrows := List.length_eq_length_filter_add (l := rows)
    (fun a => decide (key a ∈ references.map ref))
  rw [length_matched hkeys href, ← unmatched_eq] at hrows
  have hlength : (references.map ref).length = references.length := List.length_map _
  constructor
  · intro h
    have heq : (references.map ref).dedup = references.map ref :=
      (List.dedup_sublist _).eq_of_length (by omega)
    exact List.dedup_eq_self.1 heq
  · intro h
    rw [h.dedup, hlength] at hrows
    exact hrows

end References
