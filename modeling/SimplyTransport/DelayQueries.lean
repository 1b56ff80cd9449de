import SimplyTransport.CachedHandlers

/-!
# The three queries of the delays

The statistics of a call, its samples and the samples for the graph, as the repository makes them
of the parameters of a request. The statistics drop the offsets of the range; the other two queries
hand the datetimes to the driver, which refuses an offset. They agree on every sample of at most
`MAXIMUM_LIMIT` rows exactly where the range has no offsets.
-/

namespace SimplyTransport

namespace DelayQueries

/-- What the database computes of a column of delays, as the repository rounds it. -/
structure SqlAggregates (F : Type) where
  avg : List ℤ → ℤ
  stddev : List ℤ → F
  percentileCont : ℚ → List ℤ → ℤ

structure TSStopTimeDelayAggregated (F : Type) where
  avg : ℤ
  max : ℤ
  min : ℤ
  standardDeviation : F
  p50 : ℤ
  p75 : ℤ
  p90 : ℤ
  samples : ℕ

structure TSStopTimeForGraph where
  timestamp : DateTime
  delayInSeconds : ℤ
  deriving DecidableEq

def forGraph (row : TSStopTimeRow) : TSStopTimeForGraph := ⟨row.timestamp, row.delayInSeconds⟩

section Repository

variable {F : Type} (S : SqlAggregates F) (rows : List TSStopTimeRow) (now : DateTime)

def aggregatedRow (delays : List ℤ) : TSStopTimeDelayAggregated F where
  avg := S.avg delays
  max := delays.max?.getD 0
  min := delays.min?.getD 0
  standardDeviation := S.stddev delays
  p50 := S.percentileCont (50 / 100) delays
  p75 := S.percentileCont (75 / 100) delays
  p90 := S.percentileCont (90 / 100) delays
  samples := delays.length

/-- The conditions of the statistics, with `replace(tzinfo=None)`. -/
def aggregatedConditions (routeCode : String) (stopId : Option String)
    (scheduledTime : Option Time) (startTime endTime : Option OffsetDateTime) : DelayConditions :=
  ⟨routeCode, stopId, scheduledTime, startTime.map OffsetDateTime.wall,
    endTime.map OffsetDateTime.wall⟩

def getAggregatedDelayOnStopOnRouteOnTime (routeCode : String) (stopId : Option String)
    (scheduledTime : Option Time) (startTime endTime : Option OffsetDateTime) :
    Except DataError (Option (TSStopTimeDelayAggregated F)) :=
  .ok (getAggregatedDelay rows now
    (aggregatedConditions routeCode stopId scheduledTime startTime endTime) (aggregatedRow S))

def sampleRows (routeCode stopId : String) (scheduledTime : Time)
    (startTime endTime : Option DateTime) : List TSStopTimeRow :=
  newestRows rows (fun row => row.routeCode = routeCode ∧ row.stopId = stopId ∧
    row.scheduledTime = scheduledTime ∧ row.timestamp > maximumTimestamp now ∧
    startTime.all (fun t => row.timestamp ≥ t) ∧ endTime.all (fun t => row.timestamp ≤ t))

def getDelayOnStopOnRouteOnTime (routeCode stopId : String) (scheduledTime : Time)
    (startTime endTime : Option OffsetDateTime) : Except DataError (List TSStopTimeRow) := do
  let startTime ← timestampParameter startTime
  let endTime ← timestampParameter endTime
  return sampleRows rows now routeCode stopId scheduledTime startTime endTime

def getTruncatedDelayOnStopOnRouteOnTime (routeCode stopId : String) (scheduledTime : Time)
    (startTime endTime : Option OffsetDateTime) : Except DataError (List TSStopTimeForGraph) := do
  let startTime ← timestampParameter startTime
  let endTime ← timestampParameter endTime
  return (sampleRows rows now routeCode stopId scheduledTime startTime endTime).map forGraph

end Repository

def IsNaive (t : Option OffsetDateTime) : Prop := ∀ d, t = some d → d.offset = none

section Agreement

/-- The delays have the least and the greatest delay of the statistics, and its number. -/
structure Summarises {F : Type} (s : TSStopTimeDelayAggregated F) (delays : List ℤ) : Prop where
  samples : s.samples = delays.length
  min : delays.min? = some s.min
  max : delays.max? = some s.max

structure SampleAgrees {F : Type} (summarised : List TSStopTimeRow)
    (aggregated : Except DataError (Option (TSStopTimeDelayAggregated F)))
    (listed : Except DataError (List TSStopTimeRow))
    (graph : Except DataError (List TSStopTimeForGraph)) : Prop where
  listed_isOk : listed.isOk = aggregated.isOk
  graph_isOk : graph.isOk = aggregated.isOk
  sample : ∀ a l g, aggregated = .ok a → listed = .ok l → graph = .ok g →
    summarised.length ≤ maximumLimit →
      l.Perm summarised ∧ g.Perm (summarised.map forGraph) ∧
      (a = none ↔ l = []) ∧ (a = none ↔ g = []) ∧
      ∀ s, a = some s → Summarises s (l.map (fun row => row.delayInSeconds)) ∧
        Summarises s (g.map (fun row => row.delayInSeconds))

variable {F : Type} (S : SqlAggregates F) (rows : List TSStopTimeRow) (now : DateTime)
variable (stopId routeCode : Segment) (scheduledTime : Time)
variable (startTime endTime : Option OffsetDateTime)

/-- The queries agree, in whatever order the list and the graph read the rows. -/
def QueriesAgree : Prop :=
  ∀ rows' rows'' : List TSStopTimeRow, rows'.Perm rows → rows''.Perm rows →
    SampleAgrees
      (rows.filter ((aggregatedConditions routeCode.text (some stopId.text) (some scheduledTime)
        startTime endTime).hold now))
      (getAggregatedDelayOnStopOnRouteOnTime S rows now routeCode.text (some stopId.text)
        (some scheduledTime) startTime endTime)
      (getDelayOnStopOnRouteOnTime rows' now routeCode.text stopId.text scheduledTime
        startTime endTime)
      (getTruncatedDelayOnStopOnRouteOnTime rows'' now routeCode.text stopId.text scheduledTime
        startTime endTime)

end Agreement

section Parameters

theorem timestampParameter_of_isNaive {t : Option OffsetDateTime} (h : IsNaive t) :
    timestampParameter t = .ok (t.map OffsetDateTime.wall) := by
  cases t with
  | none => rfl
  | some d =>
      obtain ⟨wall, offset⟩ := d
      obtain rfl : offset = none := h ⟨wall, offset⟩ rfl
      rfl

theorem isNaive_of_timestampParameter {t : Option OffsetDateTime} {w : Option DateTime}
    (h : timestampParameter t = .ok w) : IsNaive t := by
  intro d hd
  subst hd
  obtain ⟨wall, offset⟩ := d
  cases offset with
  | none => rfl
  | some m => cases h

/-- The samples are the rows that the statistics summarise, where the stop has an id. -/
theorem sampleRows_eq {rows : List TSStopTimeRow} {now : DateTime} (stopId routeCode : Segment)
    (scheduledTime : Time) (startTime endTime : Option OffsetDateTime) :
    sampleRows rows now routeCode.text stopId.text scheduledTime
        (startTime.map OffsetDateTime.wall) (endTime.map OffsetDateTime.wall) =
      getDelay rows now (aggregatedConditions routeCode.text (some stopId.text)
        (some scheduledTime) startTime endTime) := by
  unfold sampleRows getDelay newestRows
  congr 2
  refine List.filter_congr (fun row _ => ?_)
  have hstop : (some stopId.text).filter (fun id => id ≠ "") = some stopId.text :=
    Option.filter_some_pos (decide_eq_true stopId.ne_empty)
  simp only [DelayConditions.hold, aggregatedConditions, hstop, Option.all_some,
    decide_eq_true_eq]
  rw [decide_eq_decide]
  tauto

end Parameters

section Lists

theorem min?_eq_of_perm {l l' : List ℤ} (h : l.Perm l') : l.min? = l'.min? := by
  ext d
  rw [List.min?_eq_some_iff, List.min?_eq_some_iff, h.mem_iff]
  simp only [h.mem_iff]

theorem max?_eq_of_perm {l l' : List ℤ} (h : l.Perm l') : l.max? = l'.max? := by
  ext d
  rw [List.max?_eq_some_iff, List.max?_eq_some_iff, h.mem_iff]
  simp only [h.mem_iff]

/-- Statistics of a column that is not empty summarise it in every order. -/
theorem aggregatedRow_summarises {F : Type} (S : SqlAggregates F) {delays delays' : List ℤ}
    (hne : delays ≠ []) (h : delays'.Perm delays) :
    Summarises (aggregatedRow S delays) delays' := by
  obtain ⟨least, hleast⟩ := Option.isSome_iff_exists.1 (List.isSome_min?_iff.2 hne)
  obtain ⟨greatest, hgreatest⟩ := Option.isSome_iff_exists.1 (List.isSome_max?_iff.2 hne)
  refine ⟨h.length_eq.symm, ?_, ?_⟩
  · rw [min?_eq_of_perm h, aggregatedRow, hleast, Option.getD_some]
  · rw [max?_eq_of_perm h, aggregatedRow, hgreatest, Option.getD_some]

/-- A sample within the limit is all of its rows. -/
theorem getDelay_perm {rows rows' : List TSStopTimeRow} {now : DateTime} {q : DelayConditions}
    (h : rows'.Perm rows) (hlimit : (rows.filter (q.hold now)).length ≤ maximumLimit) :
    (getDelay rows' now q).Perm (rows.filter (q.hold now)) := by
  have hsorted := (List.mergeSort_perm (rows'.filter (q.hold now))
    (fun a b => a.timestamp ≥ b.timestamp)).trans (h.filter (q.hold now))
  rw [getDelay, newestRows, List.take_of_length_le (hsorted.length_eq.trans_le hlimit)]
  exact hsorted

/-- The statistics are missing exactly where there is nothing to summarise. -/
theorem getAggregatedDelay_eq_none_iff {α : Type} {rows : List TSStopTimeRow} {now : DateTime}
    {q : DelayConditions} {aggregate : List ℤ → α} :
    getAggregatedDelay rows now q aggregate = none ↔ rows.filter (q.hold now) = [] := by
  simp only [getAggregatedDelay]
  split_ifs with hempty
  · exact ⟨fun _ => List.map_eq_nil_iff.1 (List.isEmpty_iff.1 hempty), fun _ => rfl⟩
  · exact ⟨nofun, fun h => absurd (List.isEmpty_iff.2 (List.map_eq_nil_iff.2 h)) hempty⟩

theorem getAggregatedDelay_eq_some {α : Type} {rows : List TSStopTimeRow} {now : DateTime}
    {q : DelayConditions} {aggregate : List ℤ → α} {a : α}
    (h : getAggregatedDelay rows now q aggregate = some a) :
    (rows.filter (q.hold now)).map (fun row => row.delayInSeconds) ≠ [] ∧
      a = aggregate ((rows.filter (q.hold now)).map (fun row => row.delayInSeconds)) := by
  simp only [getAggregatedDelay] at h
  split_ifs at h with hempty
  exact ⟨fun hnil => hempty (List.isEmpty_iff.2 hnil), (Option.some.inj h).symm⟩

end Lists

section Ranges

variable {F : Type} {S : SqlAggregates F} {rows : List TSStopTimeRow} {now : DateTime}
variable {stopId routeCode : Segment} {scheduledTime : Time}
variable {startTime endTime : Option OffsetDateTime}

/-- Without offsets the samples are those of the conditions of the statistics. -/
theorem getDelay_of_isNaive (hstart : IsNaive startTime) (hend : IsNaive endTime) :
    getDelayOnStopOnRouteOnTime rows now routeCode.text stopId.text scheduledTime startTime
        endTime =
      .ok (getDelay rows now (aggregatedConditions routeCode.text (some stopId.text)
        (some scheduledTime) startTime endTime)) := by
  rw [getDelayOnStopOnRouteOnTime, timestampParameter_of_isNaive hstart,
    timestampParameter_of_isNaive hend]
  exact congrArg Except.ok (sampleRows_eq stopId routeCode scheduledTime startTime endTime)

/-- The graph shows the samples of the list, and raises where the list does. -/
theorem getTruncatedDelay_eq (routeCode stopId : String) :
    getTruncatedDelayOnStopOnRouteOnTime rows now routeCode stopId scheduledTime startTime
        endTime =
      (getDelayOnStopOnRouteOnTime rows now routeCode stopId scheduledTime startTime endTime).map
        (fun sample => sample.map forGraph) := by
  unfold getTruncatedDelayOnStopOnRouteOnTime getDelayOnStopOnRouteOnTime
  cases timestampParameter startTime with
  | error e => rfl
  | ok lo =>
      cases timestampParameter endTime with
      | error e => rfl
      | ok hi => rfl

theorem queriesAgree_of_isNaive (hstart : IsNaive startTime) (hend : IsNaive endTime) :
    QueriesAgree S rows now stopId routeCode scheduledTime startTime endTime := by
  intro rows' rows'' hrows' hrows''
  rw [getTruncatedDelay_eq, getDelay_of_isNaive hstart hend, getDelay_of_isNaive hstart hend]
  refine ⟨rfl, rfl, fun a l g ha hl hg hlimit => ?_⟩
  obtain rfl := Except.ok.inj ha
  obtain rfl := Except.ok.inj hl
  obtain rfl := Except.ok.inj hg
  have hlist := getDelay_perm hrows' hlimit
  have hgraph := getDelay_perm hrows'' hlimit
  refine ⟨hlist, hgraph.map forGraph, ?_, ?_, fun s hs => ?_⟩
  · rw [getAggregatedDelay_eq_none_iff, ← List.length_eq_zero_iff, ← List.length_eq_zero_iff,
      hlist.length_eq]
  · rw [getAggregatedDelay_eq_none_iff, List.map_eq_nil_iff, ← List.length_eq_zero_iff,
      ← List.length_eq_zero_iff, hgraph.length_eq]
  · obtain ⟨hne, rfl⟩ := getAggregatedDelay_eq_some hs
    refine ⟨aggregatedRow_summarises S hne (hlist.map _), aggregatedRow_summarises S hne ?_⟩
    rw [List.map_map]
    exact hgraph.map _

/-- The list answers only where the range has no offsets. -/
theorem isNaive_of_getDelay {sample : List TSStopTimeRow} {routeCode stopId : String}
    (h : getDelayOnStopOnRouteOnTime rows now routeCode stopId scheduledTime startTime endTime =
      .ok sample) : IsNaive startTime ∧ IsNaive endTime := by
  obtain ⟨lo, hlo, h⟩ := bind_eq_ok.1 h
  obtain ⟨hi, hhi, -⟩ := bind_eq_ok.1 h
  exact ⟨isNaive_of_timestampParameter hlo, isNaive_of_timestampParameter hhi⟩

theorem isNaive_of_queriesAgree
    (h : QueriesAgree S rows now stopId routeCode scheduledTime startTime endTime) :
    IsNaive startTime ∧ IsNaive endTime := by
  have hok := (h rows rows (List.Perm.refl rows) (List.Perm.refl rows)).listed_isOk
  cases hlist : getDelayOnStopOnRouteOnTime rows now routeCode.text stopId.text scheduledTime
      startTime endTime with
  | ok sample => exact isNaive_of_getDelay hlist
  | error e =>
      rw [hlist] at hok
      cases hok

end Ranges

end DelayQueries

open DelayQueries

/-- The queries of the delays agree on every sample exactly where the bounds of the range have no
offset from UTC. -/
theorem delay_queries_agree_iff {F : Type} (S : SqlAggregates F) (rows : List TSStopTimeRow)
    (now : DateTime) (stopId routeCode : Segment) (scheduledTime : Time)
    (startTime endTime : Option OffsetDateTime) :
    QueriesAgree S rows now stopId routeCode scheduledTime startTime endTime ↔
      IsNaive startTime ∧ IsNaive endTime :=
  ⟨isNaive_of_queriesAgree, fun h => queriesAgree_of_isNaive h.1 h.2⟩

section Examples

def singleDelayAggregates : SqlAggregates ℚ where
  avg delays := delays.sum.tdiv delays.length
  stddev _ := 0
  percentileCont _ delays := delays.headD 0

def segment7010 : Segment := ⟨"7010", by decide, by decide⟩

def minuteDelay : TSStopTimeRow :=
  ⟨⟨"7010", "46A", Time.midnight, 60⟩, ⟨63832957200000000⟩⟩

def documentedStart : OffsetDateTime := ⟨⟨63832916063000000⟩, some 0⟩

/-- With the documented start time the statistics have one sample, and the list raises. -/
theorem documented_start_splits_queries :
    (∃ s, getAggregatedDelayOnStopOnRouteOnTime singleDelayAggregates [minuteDelay]
        minuteDelay.timestamp "46A" (some "7010") (some Time.midnight) (some documentedStart)
        none = .ok (some s) ∧ s.samples = 1 ∧ s.max = 60) ∧
      getDelayOnStopOnRouteOnTime [minuteDelay] minuteDelay.timestamp "46A" "7010" Time.midnight
        (some documentedStart) none = .error .offsetAware ∧
      ¬ QueriesAgree singleDelayAggregates [minuteDelay] minuteDelay.timestamp segment7010
        segment46A Time.midnight (some documentedStart) none := by
  refine ⟨⟨_, rfl, rfl, rfl⟩, rfl, fun h => ?_⟩
  have hoffset := (isNaive_of_queriesAgree h).1 documentedStart rfl
  cases hoffset

end Examples

end SimplyTransport
