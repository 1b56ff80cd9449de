import SimplyTransport.LatestStatistics

/-!
# The statistics of a day

The API gives the statistics of a type on a given day by the same join as the most recent ones, on
the rows of the day. Runs on later days do not change them. They are what the last run of the day
computed exactly where this run computed every key of the day's rows again and shares no key and
time with another row.
-/

namespace SimplyTransport

open LatestRows

def getStatisticsByTypeAndDate (rows : List DatabaseStatisticModel) (type : StatisticType)
    (date : Date) : List DatabaseStatisticModel :=
  let subquery := maxCreatedSubquery rows (some type) (some date)
  ((rows.flatMap (fun r => (subquery.filter (fun newest =>
    r.key = newest.1 ∧ r.createdAt = newest.2)).map (fun _ => r))).filter
      (fun r => r.createdAt.date = date)).mergeSort (fun a b => a.key ≤ b.key)

def rowsOn (date : Date) (rows : List DatabaseStatisticModel) : List DatabaseStatisticModel :=
  rows.filter (fun r => r.createdAt.date = date)

section Rows

theorem maxCreatedSubquery_rowsOn (rows : List DatabaseStatisticModel) (type : StatisticType)
    (date : Date) : maxCreatedSubquery rows (some type) (some date) =
      maxCreatedSubquery (rowsOn date rows) (some type) none := by
  have hselected : rows.filter (fun r => (some type).all (fun type => r.statisticType = type) ∧
      (some date).all (fun day => r.createdAt.date = day)) =
      (rowsOn date rows).filter (fun r => (some type).all (fun type => r.statisticType = type) ∧
        (none : Option Date).all (fun day => r.createdAt.date = day)) := by
    rw [rowsOn, List.filter_filter]
    refine List.filter_congr (fun r _ => ?_)
    simp
  unfold maxCreatedSubquery
  rw [hselected]

theorem filter_flatMap_of_forall {α β : Type} {f : α → List β} {p : α → Bool} {q : β → Bool}
    (h : ∀ a, ∀ b ∈ f a, q b = p a) (l : List α) :
    (l.flatMap f).filter q = (l.filter p).flatMap f := by
  induction l with
  | nil => rfl
  | cons a l ih =>
      rw [List.flatMap_cons, List.filter_append, ih, List.filter_cons]
      cases hp : p a with
      | true =>
          have hall : (f a).filter q = f a :=
            List.filter_eq_self.2 (fun b hb => (h a b hb).trans hp)
          rw [hall, if_pos rfl, List.flatMap_cons]
      | false =>
          have hnone : (f a).filter q = [] :=
            List.filter_eq_nil_iff.2 (fun b hb => by rw [h a b hb, hp]; exact Bool.false_ne_true)
          rw [hnone, if_neg Bool.false_ne_true, List.nil_append]

/-- The statistics of a day are the most recent ones of the rows of the day. -/
theorem getStatisticsByTypeAndDate_eq (rows : List DatabaseStatisticModel) (type : StatisticType)
    (date : Date) : getStatisticsByTypeAndDate rows type date =
      getStatisticsMostRecentByType (rowsOn date rows) type := by
  simp only [getStatisticsByTypeAndDate, getStatisticsMostRecentByType, maxCreatedSubquery_rowsOn]
  congr 1
  refine filter_flatMap_of_forall (fun r s hs => ?_) rows
  obtain ⟨_, -, rfl⟩ := List.mem_map.1 hs
  rfl

end Rows

section Runs

variable {φ : Type} {clock : ℕ →o DateTime} {before after : List (StatisticsSources φ)}
variable {last : StatisticsSources φ} {type : StatisticType} {date : Date}

/-- The statistics of the day are what its last run computed for the type, and rows of this run. -/
structure DayIsLastRuns (clock : ℕ →o DateTime) (before : List (StatisticsSources φ))
    (last : StatisticsSources φ) (after : List (StatisticsSources φ)) (type : StatisticType)
    (date : Date) : Prop where
  counts : ((getStatisticsByTypeAndDate (statisticsAfter clock (before ++ [last] ++ after)) type
    date).map (fun r => (r.key, r.value))).Perm (computed last type)
  own : ∀ r ∈ getStatisticsByTypeAndDate (statisticsAfter clock (before ++ [last] ++ after)) type
    date, r.statisticType = type ∧ r ∈ lastRows clock before last

/-- Every key that the rows of the type and the day have already is computed again. -/
def DayKeysRecur (clock : ℕ →o DateTime) (before : List (StatisticsSources φ))
    (last : StatisticsSources φ) (type : StatisticType) (date : Date) : Prop :=
  ∀ s ∈ rowsOn date (statisticsAfter clock before), s.statisticType = type →
    ∃ count ∈ computed last type, count.1 = s.key

theorem statisticsAfter_append_list (clock : ℕ →o DateTime)
    (history later : List (StatisticsSources φ)) :
    ∃ rows, statisticsAfter clock (history ++ later) = statisticsAfter clock history ++ rows ∧
      ∀ r ∈ rows, (statisticsAfter clock history).length < r.id := by
  refine ⟨rowsFrom clock (statisticsAfter clock history).length (later.flatMap contents), ?_, ?_⟩
  · rw [statisticsAfter_eq, statisticsAfter_eq, List.flatMap_append, rowsFrom_append, Nat.zero_add,
      length_rowsFrom]
  · exact fun r hr => (id_of_mem_rowsFrom hr).1

/-- Runs whose rows are of other days do not change the statistics of the day. -/
theorem getStatisticsByTypeAndDate_append (history later : List (StatisticsSources φ))
    (hlater : ∀ r ∈ statisticsAfter clock (history ++ later),
      (statisticsAfter clock history).length < r.id → r.createdAt.date ≠ date) :
    getStatisticsByTypeAndDate (statisticsAfter clock (history ++ later)) type date =
      getStatisticsByTypeAndDate (statisticsAfter clock history) type date := by
  obtain ⟨rows, hrows, hids⟩ := statisticsAfter_append_list clock history later
  have hnone : rowsOn date rows = [] := by
    refine List.filter_eq_nil_iff.2 (fun r hr hdate => ?_)
    have hmem : r ∈ statisticsAfter clock (history ++ later) := by
      rw [hrows]
      exact List.mem_append_right _ hr
    exact hlater r hmem (hids r hr) (of_decide_eq_true hdate)
  have hon : rowsOn date (statisticsAfter clock (history ++ later)) =
      rowsOn date (statisticsAfter clock history) := by
    rw [hrows, rowsOn, List.filter_append]
    change rowsOn date (statisticsAfter clock history) ++ rowsOn date rows = _
    rw [hnone, List.append_nil]
  rw [getStatisticsByTypeAndDate_eq, getStatisticsByTypeAndDate_eq, hon]

theorem rowsOn_last (hwithin : ∀ r ∈ lastRows clock before last, r.createdAt.date = date) :
    rowsOn date (statisticsAfter clock (before ++ [last])) =
      rowsOn date (statisticsAfter clock before) ++ lastRows clock before last := by
  rw [statisticsAfter_append, rowsOn, List.filter_append]
  congr 1
  exact List.filter_eq_self.2 (fun r hr => decide_eq_true (hwithin r hr))

theorem dayKeysRecur_iff : DayKeysRecur clock before last type date ↔
    ∀ s ∈ rowsOn date (statisticsAfter clock before), s.statisticType = type →
      ∃ t ∈ lastRows clock before last, t.statisticType = type ∧ t.key = s.key :=
  forall₂_congr (fun _ _ => imp_congr_right (fun _ => exists_lastRow_iff.symm))

/-- Without the runs of later days, the statistics are the last run's where the newest rows of the
day and the type are its rows. -/
theorem dayIsLastRuns_iff_newest (hwithin : ∀ r ∈ lastRows clock before last, r.createdAt.date = date)
    (hafter : ∀ r ∈ statisticsAfter clock (before ++ [last] ++ after),
      (statisticsAfter clock (before ++ [last])).length < r.id → r.createdAt.date ≠ date) :
    DayIsLastRuns clock before last after type date ↔
      ∀ r ∈ rowsOn date (statisticsAfter clock before) ++ lastRows clock before last,
        IsMostRecent (rowsOn date (statisticsAfter clock before) ++ lastRows clock before last) type r ↔
          r.statisticType = type ∧ r ∈ lastRows clock before last := by
  have hanswer : getStatisticsByTypeAndDate (statisticsAfter clock (before ++ [last] ++ after)) type
      date = getStatisticsMostRecentByType
        (rowsOn date (statisticsAfter clock before) ++ lastRows clock before last) type := by
    rw [getStatisticsByTypeAndDate_append _ _ hafter, getStatisticsByTypeAndDate_eq,
      rowsOn_last hwithin]
  have hdifferent : (rowsOn date (statisticsAfter clock before) ++
      lastRows clock before last).Nodup := by
    rw [← rowsOn_last hwithin]
    exact (nodup_statisticsAfter _).filter _
  have hnodup : (getStatisticsMostRecentByType (rowsOn date (statisticsAfter clock before) ++
      lastRows clock before last) type).Nodup :=
    (getStatisticsMostRecentByType_perm _ type).nodup_iff.2 (hdifferent.filter _)
  have hlast : ((lastRows clock before last).filter (fun r => r.statisticType = type)).Nodup :=
    List.Nodup.of_map _ nodup_keys_lastRows
  have hsame := perm_map_and_subset_iff hnodup hlast (fun r => (r.key, r.value))
  rw [map_lastRows] at hsame
  have hparts : DayIsLastRuns clock before last after type date ↔
      ((getStatisticsMostRecentByType (rowsOn date (statisticsAfter clock before) ++
        lastRows clock before last) type).map (fun r => (r.key, r.value))).Perm
          (computed last type) ∧
      ∀ r ∈ getStatisticsMostRecentByType (rowsOn date (statisticsAfter clock before) ++
        lastRows clock before last) type,
          r ∈ (lastRows clock before last).filter (fun r => r.statisticType = type) := by
    constructor
    · intro h
      refine ⟨hanswer ▸ h.counts, fun r hr => ?_⟩
      obtain ⟨htype, hmem⟩ := h.own r (hanswer ▸ hr)
      exact List.mem_filter.2 ⟨hmem, decide_eq_true htype⟩
    · rintro ⟨hcounts, hown⟩
      refine ⟨hanswer ▸ hcounts, fun r hr => ?_⟩
      obtain ⟨hmem, htype⟩ := List.mem_filter.1 (hown r (hanswer ▸ hr))
      exact ⟨of_decide_eq_true htype, hmem⟩
  rw [hparts, hsame]
  simp only [mem_getStatisticsMostRecentByType, List.mem_filter, decide_eq_true_eq]
  constructor
  · intro h r hr
    rw [← and_comm, ← h r, and_iff_right hr]
  · intro h r
    constructor
    · exact fun ⟨hr, hrecent⟩ => ((h r hr).1 hrecent).symm
    · intro ⟨hr, htype⟩
      have hmem := List.mem_append_right (rowsOn date (statisticsAfter clock before)) hr
      exact ⟨hmem, (h r hmem).2 ⟨htype, hr⟩⟩

theorem mem_rowsOn_last (hwithin : ∀ r ∈ lastRows clock before last, r.createdAt.date = date)
    {r : DatabaseStatisticModel} :
    r ∈ rowsOn date (statisticsAfter clock before) ++ lastRows clock before last ↔
      r ∈ statisticsAfter clock (before ++ [last]) ∧ r.createdAt.date = date := by
  rw [← rowsOn_last hwithin, rowsOn, List.mem_filter, decide_eq_true_eq]

/-- What has the time of a row of the last run is of its day. -/
theorem noneShared_iff_on_day
    (hwithin : ∀ r ∈ lastRows clock before last, r.createdAt.date = date) :
    NoneShared clock before last type ↔
      ∀ t ∈ lastRows clock before last, t.statisticType = type →
        ∀ r ∈ rowsOn date (statisticsAfter clock before) ++ lastRows clock before last,
          r.key = t.key → r.createdAt = t.createdAt → r = t := by
  rw [noneShared_iff]
  constructor
  · exact fun h t ht htype r hr => h t ht htype r ((mem_rowsOn_last hwithin).1 hr).1
  · intro h t ht htype r hr hkey htime
    have hdate : r.createdAt.date = date := (congrArg DateTime.date htime).trans (hwithin t ht)
    exact h t ht htype r ((mem_rowsOn_last hwithin).2 ⟨hr, hdate⟩) hkey htime

end Runs

/-- After a run on a day, and any runs on later days, the statistics of the day are what they were
after this run. They are what it computed for the type exactly where it computed every key again that
the day's rows of the type have, and no other row shares its key and its time with a row of it. -/
theorem day_statistics_iff {φ : Type} (clock : ℕ →o DateTime) (before : List (StatisticsSources φ))
    (last : StatisticsSources φ) (after : List (StatisticsSources φ)) (type : StatisticType)
    (date : Date) (hwithin : ∀ r ∈ lastRows clock before last, r.createdAt.date = date)
    (hafter : ∀ r ∈ statisticsAfter clock (before ++ [last] ++ after),
      (statisticsAfter clock (before ++ [last])).length < r.id → r.createdAt.date ≠ date) :
    getStatisticsByTypeAndDate (statisticsAfter clock (before ++ [last] ++ after)) type date =
        getStatisticsByTypeAndDate (statisticsAfter clock (before ++ [last])) type date ∧
      (DayIsLastRuns clock before last after type date ↔
        DayKeysRecur clock before last type date ∧ NoneShared clock before last type) := by
  refine ⟨getStatisticsByTypeAndDate_append _ _ hafter, ?_⟩
  rw [dayIsLastRuns_iff_newest hwithin hafter, dayKeysRecur_iff, noneShared_iff_on_day hwithin]
  exact newest_iff_last
    (fun s hs t ht => time_before_last (List.mem_of_mem_filter hs) ht)
    (fun s hs t ht hstype httype hkey => key_inj_lastRows hs ht hstype httype hkey)

section Sample

/-- The time of a row, where runs add 22 rows each: the first run has a day of its own, and then each
day has two. -/
def timeOfRow (n : ℕ) : DateTime := ⟨((n + 22) / 44 : ℕ) * dayMicros + ((n + 22) % 44 : ℕ)⟩

theorem timeOfRow_monotone : Monotone timeOfRow := by
  intro m n h
  have hdays := Nat.div_add_mod (m + 22) 44
  have hdays' := Nat.div_add_mod (n + 22) 44
  exact DateTime.le_iff.2 (by simp only [timeOfRow, dayMicros]; omega)

def runsOfDays : ℕ →o DateTime := ⟨timeOfRow, timeOfRow_monotone⟩

theorem runsOfDays_injective : Function.Injective runsOfDays := by
  intro m n h
  have hmicros : (((m + 22) / 44 : ℕ) : ℤ) * dayMicros + ((m + 22) % 44 : ℕ) =
      ((n + 22) / 44 : ℕ) * dayMicros + ((n + 22) % 44 : ℕ) := congrArg DateTime.micros h
  simp only [dayMicros] at hmicros
  omega

theorem date_runsOfDays (n : ℕ) : (runsOfDays n).date = ⟨((n + 22) / 44 : ℕ)⟩ := by
  change (⟨((((n + 22) / 44 : ℕ) : ℤ) * dayMicros + ((n + 22) % 44 : ℕ)) / dayMicros⟩ : Date) = _
  congr 1
  simp only [dayMicros]
  omega

def former : StatisticsSources Unit := operatorSources "Dublin Bus"

def renamed : StatisticsSources Unit := operatorSources "Go-Ahead Ireland"

theorem length_statisticsAfter_names (names : List String)
    (h : ∀ name ∈ names, (contents (operatorSources name)).length = 22) :
    (statisticsAfter runsOfDays (names.map operatorSources)).length = 22 * names.length := by
  rw [statisticsAfter_eq, length_rowsFrom]
  induction names with
  | nil => rfl
  | cons name names ih =>
      have hrest := ih (fun other hother => h other (List.mem_cons_of_mem name hother))
      rw [List.map_cons, List.flatMap_cons, List.length_append, h name List.mem_cons_self, hrest,
        List.length_cons]
      omega

theorem length_contents_renamed : (contents renamed).length = 22 := by decide

theorem length_former : (statisticsAfter runsOfDays [former]).length = 22 :=
  length_statisticsAfter_names ["Dublin Bus"] (by decide)

theorem length_before : (statisticsAfter runsOfDays [former, renamed]).length = 44 :=
  length_statisticsAfter_names ["Dublin Bus", "Go-Ahead Ireland"] (by decide)

theorem length_runs : (statisticsAfter runsOfDays ([former, renamed] ++ [renamed])).length = 66 :=
  length_statisticsAfter_names ["Dublin Bus", "Go-Ahead Ireland", "Go-Ahead Ireland"] (by decide)

/-- The operator of a route changes its name between two days. The day of the second and the third
run has the new name only, in the statistics of the third, and the run of the day after, with the old
name, does not change them. -/
theorem renamed_operator_day : DayIsLastRuns runsOfDays [former, renamed] renamed [former]
    .operatorRouteCounts ⟨1⟩ := by
  have hwithin : ∀ r ∈ lastRows runsOfDays [former, renamed] renamed, r.createdAt.date = ⟨1⟩ := by
    intro r hr
    obtain ⟨hlt, hle, hclock⟩ := id_of_mem_rowsFrom hr
    rw [length_before] at hlt
    rw [length_before, length_contents_renamed] at hle
    rw [hclock, date_runsOfDays]
    congr 1
    omega
  have hafter : ∀ r ∈ statisticsAfter runsOfDays ([former, renamed] ++ [renamed] ++ [former]),
      (statisticsAfter runsOfDays ([former, renamed] ++ [renamed])).length < r.id →
        r.createdAt.date ≠ ⟨1⟩ := by
    intro r hr hid hdate
    rw [length_runs] at hid
    rw [(id_of_mem_statisticsAfter hr).2, date_runsOfDays] at hdate
    have hday := congrArg Date.ordinal hdate
    simp only at hday
    omega
  refine (day_statistics_iff runsOfDays [former, renamed] renamed [former] .operatorRouteCounts ⟨1⟩
    hwithin hafter).2.2 ⟨?_, noneShared_of_injective runsOfDays_injective⟩
  intro s hs htype
  obtain ⟨hs, hdate⟩ := List.mem_filter.1 hs
  rw [decide_eq_true_eq] at hdate
  rcases (List.mem_append.1 (statisticsAfter_append runsOfDays [former] renamed ▸ hs)) with hs | hs
  · obtain ⟨hle, hclock⟩ := id_of_mem_statisticsAfter hs
    rw [length_former] at hle
    rw [hclock, date_runsOfDays] at hdate
    have hday := congrArg Date.ordinal hdate
    simp only at hday
    omega
  · have hlast : ∃ t ∈ lastRows runsOfDays [former] renamed,
        t.statisticType = .operatorRouteCounts ∧ t.key = s.key := ⟨s, hs, htype, rfl⟩
    exact exists_lastRow_iff.1 hlast

end Sample

end SimplyTransport
