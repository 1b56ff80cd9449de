import Mathlib.Data.List.Perm.Subperm
import Mathlib.Data.Set.Finite.Lemmas

/-!
# The newest rows of a key

Rows have a key and a time, and only some count for the newest time of their key. The rows that
have that time are those of the last part of a table, where its times are the latest, exactly
where every key that counts comes again in that part and no other row shares a key and a time
with a row of it.
-/

namespace LatestRows

variable {α κ τ : Type*} [LinearOrder τ] (counts : α → Prop) (key : α → κ) (time : α → τ)

/-- The time is the greatest among the rows of the key that count. -/
structure IsNewest (rows : List α) (r : α) : Prop where
  attained : ∃ s ∈ rows, counts s ∧ key s = key r ∧ time s = time r
  greatest : ∀ s ∈ rows, counts s → key s = key r → time s ≤ time r

variable {counts}

theorem exists_greatest {rows : List α} {r : α} (hr : r ∈ rows) (hcounts : counts r) :
    ∃ s ∈ rows, counts s ∧ key s = key r ∧
      ∀ t ∈ rows, counts t → key t = key r → time t ≤ time s := by
  have hfinite : {s | s ∈ rows ∧ counts s ∧ key s = key r}.Finite :=
    rows.finite_toSet.subset (fun _ hs => hs.1)
  obtain ⟨s, ⟨hs, hcs, hks⟩, hmax⟩ := Set.exists_max_image _ time hfinite ⟨r, hr, hcounts, rfl⟩
  exact ⟨s, hs, hcs, hks, fun t ht hct hkt => hmax t ⟨ht, hct, hkt⟩⟩

variable {key time}

section LastPart

variable {before last : List α}

/-- A row of the last part that counts is newest, where no other row of the part has its key. -/
theorem isNewest_of_mem_last (htimes : ∀ s ∈ before, ∀ t ∈ last, time s ≤ time t)
    (hkeys : ∀ s ∈ last, ∀ t ∈ last, counts s → counts t → key s = key t → s = t) {r : α}
    (hr : r ∈ last) (hcounts : counts r) : IsNewest counts key time (before ++ last) r := by
  refine ⟨⟨r, List.mem_append_right before hr, hcounts, rfl, rfl⟩, fun s hs hcs hks => ?_⟩
  rcases List.mem_append.1 hs with hs | hs
  · exact htimes s hs r hr
  · rw [hkeys s hs r hr hcs hcounts hks]

theorem newest_iff_last (htimes : ∀ s ∈ before, ∀ t ∈ last, time s ≤ time t)
    (hkeys : ∀ s ∈ last, ∀ t ∈ last, counts s → counts t → key s = key t → s = t) :
    (∀ r ∈ before ++ last, IsNewest counts key time (before ++ last) r ↔
      counts r ∧ r ∈ last) ↔
      (∀ s ∈ before, counts s → ∃ t ∈ last, counts t ∧ key t = key s) ∧
        ∀ t ∈ last, counts t → ∀ r ∈ before ++ last, key r = key t → time r = time t → r = t := by
  constructor
  · intro h
    constructor
    · intro s hs hcs
      obtain ⟨r, hr, hcr, hkr, hmax⟩ :=
        exists_greatest key time (List.mem_append_left last hs) hcs
      have hnewest : IsNewest counts key time (before ++ last) r :=
        ⟨⟨r, hr, hcr, rfl, rfl⟩, fun t ht hct hkt => hmax t ht hct (hkt.trans hkr)⟩
      exact ⟨r, ((h r hr).1 hnewest).2, hcr, hkr⟩
    · intro t ht hct r hr hkr htr
      have hnewest := isNewest_of_mem_last htimes hkeys ht hct
      have hnewest' : IsNewest counts key time (before ++ last) r :=
        ⟨⟨t, List.mem_append_right before ht, hct, hkr.symm, htr.symm⟩,
          fun s hs hcs hks => (hnewest.greatest s hs hcs (hks.trans hkr)).trans htr.ge⟩
      obtain ⟨hcr, hrlast⟩ := (h r hr).1 hnewest'
      exact hkeys r hrlast t ht hcr hct hkr
  · rintro ⟨hrecur, hunique⟩ r hr
    constructor
    · intro hnewest
      obtain ⟨s, hs, hcs, hks, hts⟩ := hnewest.attained
      obtain ⟨t, ht, hct, hkt⟩ : ∃ t ∈ last, counts t ∧ key t = key s := by
        rcases List.mem_append.1 hs with hs | hs
        · exact hrecur s hs hcs
        · exact ⟨s, hs, hcs, rfl⟩
      have hle := hnewest.greatest t (List.mem_append_right before ht) hct (hkt.trans hks)
      have hge := (isNewest_of_mem_last htimes hkeys ht hct).greatest s hs hcs hkt.symm
      obtain rfl := hunique t ht hct r hr (hks.symm.trans hkt.symm)
        (le_antisymm (hts ▸ hge) hle)
      exact ⟨hct, ht⟩
    · exact fun ⟨hcr, hrlast⟩ => isNewest_of_mem_last htimes hkeys hrlast hcr

end LastPart

/-- Of two lists without repetition, one has the images of the other and only its members where they
have the same members. -/
theorem perm_map_and_subset_iff {β : Type*} {l m : List α} (hl : l.Nodup) (hm : m.Nodup)
    (f : α → β) : (l.map f).Perm (m.map f) ∧ (∀ r ∈ l, r ∈ m) ↔ ∀ r, r ∈ l ↔ r ∈ m := by
  constructor
  · rintro ⟨hperm, hsub⟩ r
    have hlength := hperm.length_eq
    rw [List.length_map, List.length_map] at hlength
    exact (List.Subperm.perm_of_length_le (hl.subperm hsub) hlength.ge).mem_iff
  · intro h
    exact ⟨((List.perm_ext_iff_of_nodup hl hm).2 h).map f, fun r hr => (h r).1 hr⟩

end LatestRows
