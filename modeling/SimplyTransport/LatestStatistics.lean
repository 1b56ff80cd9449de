import SimplyTransport.DatabaseStatistics

/-!
# The most recent statistics of a type

What the join of the table with the newest times returns after any number of runs, and when this
is what the last run computed.
-/

namespace SimplyTransport

open LatestRows

section Subquery

variable {rows : List DatabaseStatisticModel} {type : StatisticType}

/-- The newest rows of a type: the join asks for a key and a time of the type. -/
def IsMostRecent (rows : List DatabaseStatisticModel) (type : StatisticType)
    (r : DatabaseStatisticModel) : Prop :=
  IsNewest (fun s => s.statisticType = type) (fun s => s.key) (fun s => s.createdAt) rows r

theorem nodup_maxCreatedSubquery (statisticType : Option StatisticType) (date : Option Date) :
    (maxCreatedSubquery rows statisticType date).Nodup := by
  refine (List.nodup_dedup _).filterMap (fun key key' newest hkey hkey' => ?_)
  obtain ⟨_, -, rfl⟩ := Option.map_eq_some_iff.1 hkey
  obtain ⟨_, -, heq⟩ := Option.map_eq_some_iff.1 hkey'
  exact (congrArg Prod.fst heq).symm

theorem mem_maxCreatedSubquery {key : String} {newest : DateTime} :
    (key, newest) ∈ maxCreatedSubquery rows (some type) none ↔
      (∃ s ∈ rows, s.statisticType = type ∧ s.key = key ∧ s.createdAt = newest) ∧
        ∀ s ∈ rows, s.statisticType = type → s.key = key → s.createdAt ≤ newest := by
  have hselected : ∀ s, s ∈ rows.filter (fun r => (some type).all (fun type =>
      r.statisticType = type) ∧ (none : Option Date).all (fun day => r.createdAt.date = day)) ↔
      s ∈ rows ∧ s.statisticType = type := fun s => by simp
  simp only [maxCreatedSubquery, List.mem_filterMap, List.mem_dedup, List.mem_map, hselected,
    Option.map_eq_some_iff, List.max?_eq_some_iff, Prod.mk.injEq, List.mem_filter,
    decide_eq_true_eq]
  constructor
  · rintro ⟨_, -, _, ⟨⟨s, ⟨⟨hs, htype⟩, hkey⟩, htime⟩, hmax⟩, rfl, rfl⟩
    exact ⟨⟨s, hs, htype, hkey, htime⟩,
      fun t ht htype' hkey' => hmax _ ⟨t, ⟨⟨ht, htype'⟩, hkey'⟩, rfl⟩⟩
  · rintro ⟨⟨s, hs, htype, hkey, htime⟩, hmax⟩
    refine ⟨key, ⟨s, ⟨hs, htype⟩, hkey⟩, newest, ⟨⟨s, ⟨⟨hs, htype⟩, hkey⟩, htime⟩, ?_⟩, rfl, rfl⟩
    rintro _ ⟨t, ⟨⟨ht, htype'⟩, hkey'⟩, rfl⟩
    exact hmax t ht htype' hkey'

/-- A row is joined with one row of the subquery at most. -/
theorem join_subquery (subquery : List (String × DateTime)) (hnodup : subquery.Nodup)
    (r : DatabaseStatisticModel) :
    (subquery.filter (fun newest => r.key = newest.1 ∧ r.createdAt = newest.2)).map (fun _ => r) =
      if (r.key, r.createdAt) ∈ subquery then [r] else [] := by
  have hfilter : subquery.filter (fun newest => r.key = newest.1 ∧ r.createdAt = newest.2) =
      subquery.filter (fun newest => newest == (r.key, r.createdAt)) := by
    refine List.filter_congr (fun newest _ => ?_)
    rw [Bool.eq_iff_iff, decide_eq_true_eq, beq_iff_eq, Prod.ext_iff]
    exact and_congr eq_comm eq_comm
  rw [hfilter, List.filter_beq, hnodup.count]
  split_ifs <;> rfl

theorem flatMap_ite_singleton {α : Type} (p : α → Prop) [DecidablePred p] (l : List α) :
    l.flatMap (fun a => if p a then [a] else []) = l.filter (fun a => p a) := by
  induction l with
  | nil => rfl
  | cons a l ih =>
      rw [List.flatMap_cons, ih, List.filter_cons]
      by_cases h : p a
      · rw [if_pos h, if_pos (decide_eq_true h), List.singleton_append]
      · rw [if_neg h, decide_eq_false h, List.nil_append]
        rfl

/-- The result has the rows of the table that are newest, each as often as the table. -/
theorem getStatisticsMostRecentByType_perm (rows : List DatabaseStatisticModel)
    (type : StatisticType) :
    (getStatisticsMostRecentByType rows type).Perm (rows.filter (fun r =>
      (r.key, r.createdAt) ∈ maxCreatedSubquery rows (some type) none)) := by
  refine (List.mergeSort_perm _ _).trans ?_
  simp only [join_subquery _ (nodup_maxCreatedSubquery (some type) none), flatMap_ite_singleton]
  exact List.Perm.refl _

theorem mem_getStatisticsMostRecentByType {r : DatabaseStatisticModel} :
    r ∈ getStatisticsMostRecentByType rows type ↔ r ∈ rows ∧ IsMostRecent rows type r := by
  rw [(getStatisticsMostRecentByType_perm rows type).mem_iff, List.mem_filter, decide_eq_true_eq,
    mem_maxCreatedSubquery]
  exact and_congr_right (fun _ => ⟨fun h => ⟨h.1, h.2⟩, fun h => ⟨h.attained, h.greatest⟩⟩)

end Subquery

section Runs

variable {φ : Type} {clock : ℕ →o DateTime} {history : List (StatisticsSources φ)}
variable {last : StatisticsSources φ} {type : StatisticType}

def lastRows (clock : ℕ →o DateTime) (history : List (StatisticsSources φ))
    (last : StatisticsSources φ) : List DatabaseStatisticModel :=
  rowsFrom clock (statisticsAfter clock history).length (contents last)

/-- The rows of the last run are those with the later numbers. -/
theorem mem_lastRows_iff {r : DatabaseStatisticModel} : r ∈ lastRows clock history last ↔
    r ∈ statisticsAfter clock (history ++ [last]) ∧
      (statisticsAfter clock history).length < r.id := by
  rw [statisticsAfter_append, List.mem_append]
  constructor
  · exact fun hr => ⟨Or.inr hr, (id_of_mem_rowsFrom hr).1⟩
  · rintro ⟨hr | hr, hid⟩
    · have hle := (id_of_mem_statisticsAfter hr).1
      omega
    · exact hr

theorem time_before_last {s t : DatabaseStatisticModel} (hs : s ∈ statisticsAfter clock history)
    (ht : t ∈ lastRows clock history last) : s.createdAt ≤ t.createdAt := by
  obtain ⟨hsid, hstime⟩ := id_of_mem_statisticsAfter hs
  obtain ⟨htid, -, httime⟩ := id_of_mem_rowsFrom ht
  rw [hstime, httime]
  exact clock.monotone (by omega)

theorem map_lastRows : ((lastRows clock history last).filter
    (fun r => r.statisticType = type)).map (fun r => (r.key, r.value)) = computed last type := by
  rw [lastRows, map_filter_rowsFrom, filter_contents]

theorem nodup_keys_lastRows : (((lastRows clock history last).filter
    (fun r => r.statisticType = type)).map (fun r => r.key)).Nodup := by
  have hkeys := nodup_computed last type
  rw [← @map_lastRows φ clock history last type, List.map_map] at hkeys
  exact hkeys

theorem key_inj_lastRows {s t : DatabaseStatisticModel} (hs : s ∈ lastRows clock history last)
    (ht : t ∈ lastRows clock history last) (hstype : s.statisticType = type)
    (httype : t.statisticType = type) (hkey : s.key = t.key) : s = t :=
  List.inj_on_of_nodup_map nodup_keys_lastRows
    (List.mem_filter.2 ⟨hs, decide_eq_true hstype⟩)
    (List.mem_filter.2 ⟨ht, decide_eq_true httype⟩) hkey

/-- The rows of a type before the last run have the keys that the runs computed. -/
theorem exists_row_iff {key : String} :
    (∃ s ∈ statisticsAfter clock history, s.statisticType = type ∧ s.key = key) ↔
      ∃ earlier ∈ history, ∃ count ∈ computed earlier type, count.1 = key := by
  have hkeys : ∀ count, count ∈ ((statisticsAfter clock history).filter
      (fun r => r.statisticType = type)).map (fun r => (r.key, r.value)) ↔
      ∃ earlier ∈ history, count ∈ computed earlier type := fun count => by
    rw [statisticsAfter_eq, map_filter_rowsFrom, List.filter_flatMap, List.map_flatMap,
      List.mem_flatMap]
    simp only [filter_contents]
  constructor
  · rintro ⟨s, hs, htype, rfl⟩
    obtain ⟨earlier, hearlier, hcount⟩ := (hkeys (s.key, s.value)).1
      (List.mem_map_of_mem (List.mem_filter.2 ⟨hs, decide_eq_true htype⟩))
    exact ⟨earlier, hearlier, _, hcount, rfl⟩
  · rintro ⟨earlier, hearlier, count, hcount, rfl⟩
    obtain ⟨s, hs, rfl⟩ := List.mem_map.1 ((hkeys count).2 ⟨earlier, hearlier, hcount⟩)
    rw [List.mem_filter, decide_eq_true_eq] at hs
    exact ⟨s, hs.1, hs.2, rfl⟩

theorem exists_lastRow_iff {key : String} :
    (∃ t ∈ lastRows clock history last, t.statisticType = type ∧ t.key = key) ↔
      ∃ count ∈ computed last type, count.1 = key := by
  rw [← @map_lastRows φ clock history last type]
  simp only [List.mem_map, List.mem_filter, decide_eq_true_eq]
  constructor
  · rintro ⟨t, ht, htype, rfl⟩
    exact ⟨_, ⟨t, ⟨ht, htype⟩, rfl⟩, rfl⟩
  · rintro ⟨_, ⟨t, ⟨ht, htype⟩, rfl⟩, rfl⟩
    exact ⟨t, ht, htype, rfl⟩

theorem keysRecur_iff : KeysRecur history last type ↔
    ∀ s ∈ statisticsAfter clock history, s.statisticType = type →
      ∃ t ∈ lastRows clock history last, t.statisticType = type ∧ t.key = s.key := by
  constructor
  · intro h s hs htype
    obtain ⟨earlier, hearlier, count, hcount, hkey⟩ := exists_row_iff.1 ⟨s, hs, htype, rfl⟩
    obtain ⟨count', hcount', hkey'⟩ := h earlier hearlier count hcount
    exact exists_lastRow_iff.2 ⟨count', hcount', hkey'.trans hkey⟩
  · intro h earlier hearlier count hcount
    obtain ⟨s, hs, htype, hkey⟩ :=
      (@exists_row_iff φ clock history type _).2 ⟨earlier, hearlier, count, hcount, rfl⟩
    obtain ⟨t, ht, httype, htkey⟩ := h s hs htype
    exact exists_lastRow_iff.1 ⟨t, ht, httype, htkey.trans hkey⟩

theorem noneShared_iff : NoneShared clock history last type ↔
    ∀ t ∈ lastRows clock history last, t.statisticType = type →
      ∀ r ∈ statisticsAfter clock (history ++ [last]), r.key = t.key →
        r.createdAt = t.createdAt → r = t := by
  constructor
  · exact fun h t ht htype => h t (mem_lastRows_iff.1 ht).1 htype (mem_lastRows_iff.1 ht).2
  · exact fun h t ht htype hid => h t (mem_lastRows_iff.2 ⟨ht, hid⟩) htype

/-- The statistics are the last run's where the newest rows of the type are its rows. -/
theorem latestAreLastRuns_iff : LatestAreLastRuns clock history last type ↔
    ∀ r ∈ statisticsAfter clock (history ++ [last]),
      IsMostRecent (statisticsAfter clock (history ++ [last])) type r ↔
        r.statisticType = type ∧ r ∈ lastRows clock history last := by
  have hresult : (getStatisticsMostRecentByType (statisticsAfter clock (history ++ [last]))
      type).Nodup :=
    (getStatisticsMostRecentByType_perm _ type).nodup_iff.2
      ((nodup_statisticsAfter (history ++ [last])).filter _)
  have hlast : ((lastRows clock history last).filter (fun r => r.statisticType = type)).Nodup :=
    List.Nodup.of_map _ nodup_keys_lastRows
  constructor
  · intro h r hr
    -- rows of the last run only, and as many as it computed: all of them
    have hperm : (getStatisticsMostRecentByType (statisticsAfter clock (history ++ [last]))
        type).Perm ((lastRows clock history last).filter (fun r => r.statisticType = type)) := by
      refine List.Subperm.perm_of_length_le (hresult.subperm (fun s hs => ?_)) ?_
      · obtain ⟨htype, hid⟩ := h.own s hs
        have hmem := (mem_getStatisticsMostRecentByType.1 hs).1
        exact List.mem_filter.2 ⟨mem_lastRows_iff.2 ⟨hmem, hid⟩, decide_eq_true htype⟩
      · have hlength := h.counts.length_eq
        rw [← @map_lastRows φ clock history last type, List.length_map, List.length_map] at hlength
        exact hlength.ge
    have hmem := @hperm.mem_iff _ r
    rw [mem_getStatisticsMostRecentByType, List.mem_filter, decide_eq_true_eq] at hmem
    exact ⟨fun hrecent => (hmem.1 ⟨hr, hrecent⟩).symm, fun hr' => (hmem.2 hr'.symm).2⟩
  · intro h
    have hmem : ∀ r, r ∈ getStatisticsMostRecentByType (statisticsAfter clock (history ++ [last]))
        type ↔ r ∈ (lastRows clock history last).filter (fun r => r.statisticType = type) := by
      intro r
      rw [mem_getStatisticsMostRecentByType, List.mem_filter, decide_eq_true_eq]
      constructor
      · exact fun ⟨hr, hrecent⟩ => ((h r hr).1 hrecent).symm
      · intro ⟨hr, htype⟩
        have hr' := (mem_lastRows_iff.1 hr).1
        exact ⟨hr', (h r hr').2 ⟨htype, hr⟩⟩
    have hperm := (List.perm_ext_iff_of_nodup hresult hlast).2 hmem
    refine ⟨?_, fun r hr => ?_⟩
    · rw [← @map_lastRows φ clock history last type]
      exact hperm.map _
    · obtain ⟨hlastRow, htype⟩ := List.mem_filter.1 ((hmem r).1 hr)
      exact ⟨of_decide_eq_true htype, (mem_lastRows_iff.1 hlastRow).2⟩

theorem keysRecur_and_noneShared_iff : KeysRecur history last type ∧ NoneShared clock history last type ↔
    LatestAreLastRuns clock history last type := by
  rw [latestAreLastRuns_iff, @keysRecur_iff φ clock, noneShared_iff, statisticsAfter_append]
  exact (newest_iff_last (fun s hs t ht => time_before_last hs ht)
    (fun s hs t ht hstype httype hkey => key_inj_lastRows hs ht hstype httype hkey)).symm

/-- Where no two rows have one time, nothing is shared. -/
theorem noneShared_of_injective (hclock : Function.Injective clock) :
    NoneShared clock history last type := by
  intro t ht _ _ r hr _ htime
  apply id_inj_statisticsAfter hr ht
  rw [(id_of_mem_statisticsAfter hr).2, (id_of_mem_statisticsAfter ht).2] at htime
  have hnumbers := hclock htime
  have hpos := id_pos_of_mem_statisticsAfter hr
  have hpos' := id_pos_of_mem_statisticsAfter ht
  omega

end Runs

/-- After the last run, the most recent statistics of a type are those that it computed exactly
where every key that an earlier run computed for the type comes again, and no other row of the
table shares its key and its time with a row of this run. -/
theorem latest_statistics_iff {φ : Type} (clock : ℕ →o DateTime)
    (history : List (StatisticsSources φ)) (last : StatisticsSources φ) (type : StatisticType) :
    LatestAreLastRuns clock history last type ↔
      KeysRecur history last type ∧ NoneShared clock history last type :=
  keysRecur_and_noneShared_iff.symm

section Examples

def operatorRows (name : String) : (t : StaticTable) → List (t.Row Unit)
  | .agency => [⟨⟨"1", name, "TFI"⟩, "", ""⟩]
  | .route => [⟨"3-39", "1", "39", "Burlington Road - Ongar", "", 3, "", "", "", "TFI"⟩]
  | .calendar | .calendarDate | .stop | .trip | .stopTime | .shape => []

theorem nodup_operatorRows (name : String) (t : StaticTable) :
    ((operatorRows name t).filterMap t.key).Nodup := by
  cases t <;> simp [operatorRows, StaticTable.key]

def operatorDb (name : String) : StaticDb Unit :=
  ⟨operatorRows name, [], nodup_operatorRows name, fun _ hf => absurd hf List.not_mem_nil⟩

def operatorSources (name : String) : StatisticsSources Unit :=
  ⟨operatorDb name, [], rfl, [], ⟨0⟩⟩

def secondsClock : ℕ →o DateTime :=
  ⟨fun n => ⟨n * 1000000⟩, fun m n h => DateTime.le_iff.2 (by simp only; omega)⟩

/-- The operator of a route changes its name between two runs, and the old name stays. -/
theorem renamed_operator_stays :
    ¬ LatestAreLastRuns secondsClock [operatorSources "Dublin Bus"]
      (operatorSources "Go-Ahead Ireland") .operatorRouteCounts := by
  intro h
  obtain ⟨count, hcount, hkey⟩ := (keysRecur_and_noneShared_iff.2 h).1 (operatorSources "Dublin Bus")
    List.mem_cons_self ("Dublin Bus", 1) (by decide)
  have hlast : computed (operatorSources "Go-Ahead Ireland") .operatorRouteCounts =
      [("Go-Ahead Ireland", 1)] := by decide
  rw [hlast, List.mem_singleton] at hcount
  rw [hcount] at hkey
  exact absurd hkey (by decide)

end Examples

end SimplyTransport
