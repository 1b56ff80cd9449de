import SimplyTransport.DatasetImports
import SimplyTransport.DelaysRepo
import SimplyTransport.LatestRows
import Mathlib.Data.List.Dedup
import Mathlib.Order.Hom.Basic

/-!
# Statistics of the database

A run of `update_all_statistics` counts rows of the tables and adds a row for each count to an
append-only table. The most recent statistics of a type are read by a join of that table with the
newest time of each key of the type, and the join does not ask for the type again. The table
numbers its rows, and the clock of their `created_at` never goes back.
-/

namespace SimplyTransport

inductive StatisticType
  | gtfsRecordCounts
  | operatorRouteCounts
  | operatorTripCounts
  | stopFeatureCounts
  | delayRecordCounts
  deriving DecidableEq

structure DatabaseStatisticModel where
  id : ℕ
  statisticType : StatisticType
  key : String
  value : ℕ
  createdAt : DateTime
  deriving DecidableEq

structure StopFeatureModel extends StopFeatureRow where
  bench : Option Bool
  bin : Option Bool
  wheelchairAccessability : Option Bool
  surveyed : Option Bool
  rtpiActive : Bool
  shelterActive : Bool
  light : Option Bool

structure StatisticsSources (φ : Type) where
  static : StaticDb φ
  stopFeatures : List StopFeatureModel
  stopFeatures_eq : stopFeatures.map StopFeatureModel.toStopFeatureRow = static.features
  delays : List TSStopTimeRow
  now : DateTime

section Counts

variable {φ : Type} (s : StatisticsSources φ)

def getGtfsRecordCounts : List (String × ℕ) :=
  [("Operators", (s.static.rows .agency).length),
    ("Routes", (s.static.rows .route).length),
    ("Trips", (s.static.rows .trip).length),
    ("Stops", (s.static.rows .stop).length),
    ("Stop Features", s.stopFeatures.length),
    ("Calendars", (s.static.rows .calendar).length),
    ("Calendar Dates", (s.static.rows .calendarDate).length),
    ("Stop Times", (s.static.rows .stopTime).length),
    ("Shapes", (s.static.rows .shape).length)]

def groupCounts (names : List String) : List (String × ℕ) :=
  names.dedup.map (fun name => (name, names.count name))

def agencyRoutes : List (AgencyRow × RouteModel) :=
  (s.static.rows .agency).flatMap (fun agency =>
    ((s.static.rows .route).filter (fun route => route.agencyId = agency.id)).map
      (fun route => (agency, route)))

def getOperatorRouteCounts : List (String × ℕ) :=
  groupCounts ((agencyRoutes s).map (fun joined => joined.1.name))

def getOperatorTripCounts : List (String × ℕ) :=
  groupCounts ((agencyRoutes s).flatMap (fun joined =>
    ((s.static.rows .trip).filter (fun trip => trip.routeId = joined.2.id)).map
      (fun _ => joined.1.name)))

def countFeatures (p : StopFeatureModel → Bool) : ℕ := (s.stopFeatures.filter p).length

def getStopFeatureCounts : List (String × ℕ) :=
  [("Surveyed Stops", countFeatures s (fun f => f.surveyed = some true)),
    ("Unsurveyed Stops", countFeatures s (fun f => f.surveyed = some false)),
    ("Stops with no features", ((s.static.rows .stop).filter (fun stop =>
      s.stopFeatures.all (fun f => f.stopId ≠ stop.id))).length),
    ("Wheelchair Accessible", countFeatures s (fun f => f.wheelchairAccessability = some true)),
    ("RealTime Display", countFeatures s (fun f => f.rtpiActive)),
    ("Shelter Available", countFeatures s (fun f => f.shelterActive)),
    ("Light Available(Shelter)", countFeatures s (fun f => f.light = some true)),
    ("Bench Available", countFeatures s (fun f => f.bench = some true)),
    ("Bin Available", countFeatures s (fun f => f.bin = some true))]

def delayCountKey (hours : ℕ) : String :=
  if hours < 25 then "Last " ++ toString hours ++ " Hours"
  else "Last " ++ toString (hours / 24) ++ " Days"

def getDelayRecordCountsForLastNHours (hours : ℕ) : List (String × ℕ) :=
  [(delayCountKey hours,
    (s.delays.filter (fun row => row.timestamp > s.now.addSeconds (-(hours * 3600)))).length)]

def statisticCounts : List (StatisticType × List (String × ℕ)) :=
  [(.gtfsRecordCounts, getGtfsRecordCounts s),
    (.operatorRouteCounts, getOperatorRouteCounts s),
    (.operatorTripCounts, getOperatorTripCounts s),
    (.stopFeatureCounts, getStopFeatureCounts s),
    (.delayRecordCounts, getDelayRecordCountsForLastNHours s 24),
    (.delayRecordCounts, getDelayRecordCountsForLastNHours s (24 * 7)),
    (.delayRecordCounts, getDelayRecordCountsForLastNHours s (24 * 30))]

def computed (type : StatisticType) : List (String × ℕ) :=
  ((statisticCounts s).filter (fun counts => counts.1 = type)).flatMap (fun counts => counts.2)

end Counts

section Table

variable {φ : Type} (clock : ℕ →o DateTime)

def statisticRow (n : ℕ) (type : StatisticType) (count : String × ℕ) : DatabaseStatisticModel :=
  ⟨n + 1, type, count.1, count.2, clock n⟩

def addRowCounts (rows : List DatabaseStatisticModel) (rowCounts : List (String × ℕ))
    (type : StatisticType) : List DatabaseStatisticModel :=
  rows ++ rowCounts.mapIdx (fun i count => statisticRow clock (rows.length + i) type count)

def updateAllStatistics (rows : List DatabaseStatisticModel) (s : StatisticsSources φ) :
    List DatabaseStatisticModel :=
  (statisticCounts s).foldl (fun rows counts => addRowCounts clock rows counts.2 counts.1) rows

def statisticsAfter (history : List (StatisticsSources φ)) : List DatabaseStatisticModel :=
  history.foldl (updateAllStatistics clock) []

end Table

section Queries

variable (rows : List DatabaseStatisticModel)

/-- The newest time of each key, of a type and a day where these are given. -/
def maxCreatedSubquery (statisticType : Option StatisticType) (date : Option Date) :
    List (String × DateTime) :=
  let selected := rows.filter (fun r => statisticType.all (fun type => r.statisticType = type) ∧
    date.all (fun day => r.createdAt.date = day))
  (selected.map (fun r => r.key)).dedup.filterMap (fun key =>
    (((selected.filter (fun r => r.key = key)).map (fun r => r.createdAt)).max?).map
      (fun newest => (key, newest)))

def getStatisticsMostRecentByType (type : StatisticType) : List DatabaseStatisticModel :=
  let subquery := maxCreatedSubquery rows (some type) none
  (rows.flatMap (fun r => (subquery.filter (fun newest =>
    r.key = newest.1 ∧ r.createdAt = newest.2)).map (fun _ => r))).mergeSort
      (fun a b => a.key ≤ b.key)

end Queries

/-- After the last run, the statistics of the type are the counts of this run, each once, and rows
of this run and the type only. -/
structure LatestAreLastRuns {φ : Type} (clock : ℕ →o DateTime)
    (history : List (StatisticsSources φ)) (last : StatisticsSources φ) (type : StatisticType) :
    Prop where
  counts : ((getStatisticsMostRecentByType (statisticsAfter clock (history ++ [last]))
    type).map (fun r => (r.key, r.value))).Perm (computed last type)
  own : ∀ r ∈ getStatisticsMostRecentByType (statisticsAfter clock (history ++ [last])) type,
    r.statisticType = type ∧ (statisticsAfter clock history).length < r.id

/-- Every key that a run before computed for the type is computed again. -/
def KeysRecur {φ : Type} (history : List (StatisticsSources φ)) (last : StatisticsSources φ)
    (type : StatisticType) : Prop :=
  ∀ earlier ∈ history, ∀ count ∈ computed earlier type,
    ∃ count' ∈ computed last type, count'.1 = count.1

/-- No other row has the key and the time of a row of the last run and the type. -/
def NoneShared {φ : Type} (clock : ℕ →o DateTime) (history : List (StatisticsSources φ))
    (last : StatisticsSources φ) (type : StatisticType) : Prop :=
  ∀ t ∈ statisticsAfter clock (history ++ [last]), t.statisticType = type →
    (statisticsAfter clock history).length < t.id →
    ∀ r ∈ statisticsAfter clock (history ++ [last]), r.key = t.key →
      r.createdAt = t.createdAt → r = t

section Contents

variable {φ : Type} (clock : ℕ →o DateTime)

def rowsFrom (n : ℕ) (contents : List (StatisticType × String × ℕ)) :
    List DatabaseStatisticModel :=
  contents.mapIdx (fun i c => statisticRow clock (n + i) c.1 c.2)

def contents (s : StatisticsSources φ) : List (StatisticType × String × ℕ) :=
  (statisticCounts s).flatMap (fun counts => counts.2.map (fun count => (counts.1, count)))

theorem length_rowsFrom (n : ℕ) (l : List (StatisticType × String × ℕ)) :
    (rowsFrom clock n l).length = l.length := List.length_mapIdx

theorem rowsFrom_append (n : ℕ) (l l' : List (StatisticType × String × ℕ)) :
    rowsFrom clock n (l ++ l') = rowsFrom clock n l ++ rowsFrom clock (n + l.length) l' := by
  rw [rowsFrom, List.mapIdx_append]
  congr 1
  simp only [rowsFrom, Nat.add_assoc, Nat.add_comm l.length]

theorem addRowCounts_rowsFrom (l : List (StatisticType × String × ℕ))
    (rowCounts : List (String × ℕ)) (type : StatisticType) :
    addRowCounts clock (rowsFrom clock 0 l) rowCounts type =
      rowsFrom clock 0 (l ++ rowCounts.map (fun count => (type, count))) := by
  rw [rowsFrom_append, addRowCounts, length_rowsFrom, Nat.zero_add]
  congr 1
  refine List.ext_getElem (by simp [rowsFrom]) (fun i _ _ => ?_)
  simp only [rowsFrom, List.getElem_mapIdx, List.getElem_map]

theorem updateAllStatistics_rowsFrom (l : List (StatisticType × String × ℕ))
    (s : StatisticsSources φ) :
    updateAllStatistics clock (rowsFrom clock 0 l) s = rowsFrom clock 0 (l ++ contents s) := by
  rw [updateAllStatistics, contents]
  induction statisticCounts s generalizing l with
  | nil => rw [List.foldl_nil, List.flatMap_nil, List.append_nil]
  | cons counts batches ih =>
      rw [List.foldl_cons, addRowCounts_rowsFrom, ih, List.flatMap_cons, List.append_assoc]

theorem foldl_updateAllStatistics (history : List (StatisticsSources φ))
    (l : List (StatisticType × String × ℕ)) :
    history.foldl (updateAllStatistics clock) (rowsFrom clock 0 l) =
      rowsFrom clock 0 (l ++ history.flatMap contents) := by
  induction history generalizing l with
  | nil => rw [List.foldl_nil, List.flatMap_nil, List.append_nil]
  | cons s history ih =>
      rw [List.foldl_cons, updateAllStatistics_rowsFrom, ih, List.flatMap_cons, List.append_assoc]

theorem statisticsAfter_eq (history : List (StatisticsSources φ)) :
    statisticsAfter clock history = rowsFrom clock 0 (history.flatMap contents) :=
  foldl_updateAllStatistics clock history []

theorem statisticsAfter_append (history : List (StatisticsSources φ)) (s : StatisticsSources φ) :
    statisticsAfter clock (history ++ [s]) =
      statisticsAfter clock history ++
        rowsFrom clock (statisticsAfter clock history).length (contents s) := by
  rw [statisticsAfter_eq, statisticsAfter_eq, List.flatMap_append, List.flatMap_singleton,
    rowsFrom_append, Nat.zero_add, length_rowsFrom]

variable {clock}

theorem mem_rowsFrom {n : ℕ} {l : List (StatisticType × String × ℕ)}
    {r : DatabaseStatisticModel} : r ∈ rowsFrom clock n l ↔
      ∃ (i : ℕ) (h : i < l.length), statisticRow clock (n + i) l[i].1 l[i].2 = r :=
  List.mem_mapIdx

/-- A row has its number, and the time of its number. -/
theorem id_of_mem_rowsFrom {n : ℕ} {l : List (StatisticType × String × ℕ)}
    {r : DatabaseStatisticModel} (hr : r ∈ rowsFrom clock n l) :
    n < r.id ∧ r.id ≤ n + l.length ∧ r.createdAt = clock (r.id - 1) := by
  obtain ⟨i, hi, rfl⟩ := mem_rowsFrom.1 hr
  simp only [statisticRow, Nat.add_sub_cancel]
  exact ⟨by omega, by omega, trivial⟩

theorem id_of_mem_statisticsAfter {history : List (StatisticsSources φ)}
    {r : DatabaseStatisticModel} (hr : r ∈ statisticsAfter clock history) :
    r.id ≤ (statisticsAfter clock history).length ∧ r.createdAt = clock (r.id - 1) := by
  rw [statisticsAfter_eq] at hr ⊢
  rw [length_rowsFrom]
  obtain ⟨-, hle, hclock⟩ := id_of_mem_rowsFrom hr
  exact ⟨by omega, hclock⟩

theorem id_pos_of_mem_statisticsAfter {history : List (StatisticsSources φ)}
    {r : DatabaseStatisticModel} (hr : r ∈ statisticsAfter clock history) : 0 < r.id := by
  rw [statisticsAfter_eq] at hr
  exact (id_of_mem_rowsFrom hr).1

theorem map_id_rowsFrom (n : ℕ) (l : List (StatisticType × String × ℕ)) :
    (rowsFrom clock n l).map DatabaseStatisticModel.id = List.range' (n + 1) l.length := by
  refine List.ext_getElem (by simp [length_rowsFrom]) (fun i _ _ => ?_)
  simp only [rowsFrom, statisticRow, List.getElem_map, List.getElem_mapIdx, List.getElem_range']
  omega

/-- Rows have different numbers. -/
theorem id_inj_statisticsAfter {history : List (StatisticsSources φ)} {r t : DatabaseStatisticModel}
    (hr : r ∈ statisticsAfter clock history) (ht : t ∈ statisticsAfter clock history)
    (hid : r.id = t.id) : r = t := by
  rw [statisticsAfter_eq] at hr ht
  refine List.inj_on_of_nodup_map ?_ hr ht hid
  rw [map_id_rowsFrom]
  exact List.nodup_range'

theorem nodup_statisticsAfter (history : List (StatisticsSources φ)) :
    (statisticsAfter clock history).Nodup := by
  rw [statisticsAfter_eq]
  refine List.Nodup.of_map DatabaseStatisticModel.id ?_
  rw [map_id_rowsFrom]
  exact List.nodup_range'

/-- The rows of a type have the keys and the values of the type. -/
theorem map_filter_rowsFrom (type : StatisticType) (n : ℕ)
    (l : List (StatisticType × String × ℕ)) :
    ((rowsFrom clock n l).filter (fun r => r.statisticType = type)).map
        (fun r => (r.key, r.value)) =
      (l.filter (fun c => c.1 = type)).map (fun c => c.2) := by
  induction l generalizing n with
  | nil => rfl
  | cons c l ih =>
      have htail : rowsFrom clock n (c :: l) =
          statisticRow clock n c.1 c.2 :: rowsFrom clock (n + 1) l := by
        rw [← List.singleton_append, rowsFrom_append]
        rfl
      have hrow : (statisticRow clock n c.1 c.2).statisticType = c.1 := rfl
      rw [htail, List.filter_cons, List.filter_cons, hrow]
      by_cases htype : c.1 = type
      · simp only [if_pos (decide_eq_true htype), List.map_cons, ih]
        rfl
      · simp only [decide_eq_false htype, Bool.false_eq_true, if_false, ih]

theorem filter_contents (s : StatisticsSources φ) (type : StatisticType) :
    ((contents s).filter (fun c => c.1 = type)).map (fun c => c.2) = computed s type := by
  rw [contents, computed]
  induction statisticCounts s with
  | nil => rfl
  | cons counts batches ih =>
      rw [List.flatMap_cons, List.filter_append, List.map_append, ih, List.filter_cons]
      by_cases htype : counts.1 = type
      · rw [if_pos (decide_eq_true htype), List.flatMap_cons, List.filter_eq_self.2, List.map_map]
        · congr 1
          exact List.map_id _
        · intro c hc
          obtain ⟨count, -, rfl⟩ := List.mem_map.1 hc
          exact decide_eq_true htype
      · rw [if_neg (by simpa using htype), List.filter_eq_nil_iff.2, List.map_nil, List.nil_append]
        intro c hc
        obtain ⟨count, -, rfl⟩ := List.mem_map.1 hc
        simpa using htype

end Contents

section Keys

variable {φ : Type} (s : StatisticsSources φ)

theorem nodup_groupCounts (names : List String) :
    ((groupCounts names).map (fun count => count.1)).Nodup := by
  rw [groupCounts, List.map_map]
  exact (List.map_id names.dedup).symm ▸ List.nodup_dedup names

/-- A run computes each key of a type once. -/
theorem nodup_computed (type : StatisticType) :
    ((computed s type).map (fun count => count.1)).Nodup := by
  cases type with
  | gtfsRecordCounts =>
      change List.Nodup ["Operators", "Routes", "Trips", "Stops", "Stop Features", "Calendars",
        "Calendar Dates", "Stop Times", "Shapes"]
      decide
  | operatorRouteCounts =>
      change List.Nodup ((getOperatorRouteCounts s ++ []).map Prod.fst)
      rw [List.append_nil]
      exact nodup_groupCounts _
  | operatorTripCounts =>
      change List.Nodup ((getOperatorTripCounts s ++ []).map Prod.fst)
      rw [List.append_nil]
      exact nodup_groupCounts _
  | stopFeatureCounts =>
      change List.Nodup ["Surveyed Stops", "Unsurveyed Stops", "Stops with no features",
        "Wheelchair Accessible", "RealTime Display", "Shelter Available",
        "Light Available(Shelter)", "Bench Available", "Bin Available"]
      decide
  | delayRecordCounts =>
      change List.Nodup ["Last 24 Hours", "Last 7 Days", "Last 30 Days"]
      decide

end Keys

end SimplyTransport
