import SimplyTransport.RealtimeOverlay
import SimplyTransport.Selection

/-!
# The overlay and the order of the rows

The two statements of the overlay have no `ORDER BY`. What a trip or a cell gets is the same for
every order of the rows exactly where no two rows tie: two trip rows of one snapshot for two
routes of a trip do, and so do two carried-forward stop rows at one sequence.
-/

namespace SimplyTransport
open Selection

def predecessors (rows : List RTStopTimeModel) (sequence : ℤ) : List RTStopTimeModel :=
  rows.filter (fun r => r.stopSequence ≤ sequence)

def successors (rows : List RTStopTimeModel) (sequence : ℤ) : List RTStopTimeModel :=
  rows.filter (fun r => sequence ≤ r.stopSequence)

def Earliest (rows : List RTStopTimeModel) (r : RTStopTimeModel) : Prop :=
  r ∈ rows ∧ ∀ b ∈ rows, r.stopSequence ≤ b.stopSequence ∧
    (b.stopSequence = r.stopSequence → b.createdAt ≤ r.createdAt)

/-- `C` among the rows that are not skipped, or among all rows where every row is skipped. -/
def PreferNotSkipped (C : List RTStopTimeModel → RTStopTimeModel → Prop)
    (rows : List RTStopTimeModel) (r : RTStopTimeModel) : Prop :=
  C (rows.filter isNotSkipped) r ∨ (∀ b, ¬ C (rows.filter isNotSkipped) b) ∧ C rows r

def CarryForward (rows : List RTStopTimeModel) (sequence : ℤ) (r : RTStopTimeModel) : Prop :=
  PreferNotSkipped (Greatest sequenceThenCreated) (predecessors rows sequence) r ∨
    (∀ b, ¬ PreferNotSkipped (Greatest sequenceThenCreated) (predecessors rows sequence) b) ∧
      PreferNotSkipped Earliest (successors rows sequence) r

theorem pickPredecessor_eq (rows : List RTStopTimeModel) (sequence : ℤ) :
    pickPredecessorCarryForward rows sequence =
      (((predecessors rows sequence).filter isNotSkipped).argmax sequenceThenCreated).or
        ((predecessors rows sequence).argmax sequenceThenCreated) := by
  change (let ps := predecessors rows sequence
    if ps.isEmpty then none
    else if (ps.filter isNotSkipped).isEmpty then ps.argmax sequenceThenCreated
    else (ps.filter isNotSkipped).argmax sequenceThenCreated) = _
  generalize predecessors rows sequence = ps
  by_cases hp : ps = []
  · simp [hp]
  · by_cases hn : ps.filter isNotSkipped = []
    · simp [hp, hn]
    · obtain ⟨r, hr⟩ := exists_argmax sequenceThenCreated hn
      simp [hp, hn, hr]

theorem mem_atMin_iff (rows : List RTStopTimeModel) (r : RTStopTimeModel) :
    r ∈ rows.filter (fun r => (r.stopSequence : WithTop ℤ) =
      (rows.map (fun r => r.stopSequence)).minimum) ↔
      r ∈ rows ∧ ∀ b ∈ rows, r.stopSequence ≤ b.stopSequence := by
  rw [List.mem_filter, decide_eq_true_eq, eq_comm, List.minimum_eq_coe_iff]
  constructor
  · exact fun h => ⟨h.1, fun b hb => h.2.2 _ (List.mem_map_of_mem hb)⟩
  · rintro ⟨hr, hmin⟩
    refine ⟨hr, List.mem_map_of_mem hr, fun q hq => ?_⟩
    obtain ⟨b, hb, rfl⟩ := List.mem_map.1 hq
    exact hmin b hb

theorem exists_pickEarliest {rows : List RTStopTimeModel} (h : rows ≠ []) :
    ∃ r, pickEarliest rows = some r := by
  obtain ⟨r, hr⟩ := exists_argmax (fun r : RTStopTimeModel => OrderDual.toDual r.stopSequence) h
  have hmem : r ∈ rows.filter (fun r => (r.stopSequence : WithTop ℤ) =
      (rows.map (fun r => r.stopSequence)).minimum) :=
    (mem_atMin_iff rows r).2 ((decides_argmax _).sound rows r hr)
  exact exists_argmax _ (List.ne_nil_of_mem hmem)

theorem pickSuccessor_eq (rows : List RTStopTimeModel) (sequence : ℤ) :
    pickSuccessorCarryForward rows sequence =
      (pickEarliest ((successors rows sequence).filter isNotSkipped)).or
        (pickEarliest (successors rows sequence)) := by
  change (let ss := successors rows sequence
    if ss.isEmpty then none
    else pickEarliest (if (ss.filter isNotSkipped).isEmpty then ss
      else ss.filter isNotSkipped)) = _
  have hnil : pickEarliest [] = none := rfl
  generalize successors rows sequence = ss
  by_cases hs : ss = []
  · simp [hs, hnil]
  · by_cases hn : ss.filter isNotSkipped = []
    · simp [hs, hn, hnil]
    · obtain ⟨r, hr⟩ := exists_pickEarliest hn
      simp [hs, hn, hr]

theorem decides_earliest : Decides pickEarliest Earliest := by
  have hfilter := (decides_argmax (fun r : RTStopTimeModel => r.createdAt)).filter
    (p := fun rows r => (r.stopSequence : WithTop ℤ) =
      (rows.map (fun r => r.stopSequence)).minimum)
    (fun l l' hp => by rw [(hp.map _).minimum_eq])
  apply hfilter.congr (fun _ => rfl)
  intro rows r
  simp only [Greatest, mem_atMin_iff, Earliest]
  constructor
  · rintro ⟨hr, h⟩
    refine ⟨⟨hr, fun b hb => (h b hb).1⟩, fun b hb => (h b hb.1).2 ?_⟩
    exact le_antisymm (hb.2 r hr) (h b hb.1).1
  · rintro ⟨⟨hr, hmin⟩, hnew⟩
    refine ⟨hr, fun b hb => ⟨hmin b hb, fun heq => hnew b ⟨hb, fun c hc => ?_⟩⟩⟩
    rw [heq]
    exact hmin c hc

theorem decides_preferNotSkipped {pick : List RTStopTimeModel → Option RTStopTimeModel}
    {C : List RTStopTimeModel → RTStopTimeModel → Prop} (h : Decides pick C) :
    Decides (fun rows => (pick (rows.filter isNotSkipped)).or (pick rows)) (PreferNotSkipped C) :=
  (h.filter (p := fun _ => isNotSkipped) (fun _ _ _ => rfl)).orElse h

theorem decides_carryForward (sequence : ℤ) :
    Decides (fun rows => carryForward rows sequence) (fun rows => CarryForward rows sequence) := by
  have hpred := (decides_preferNotSkipped (decides_argmax sequenceThenCreated)).filter
    (p := fun _ r => r.stopSequence ≤ sequence) (fun _ _ _ => rfl)
  have hsucc := (decides_preferNotSkipped decides_earliest).filter
    (p := fun _ r => sequence ≤ r.stopSequence) (fun _ _ _ => rfl)
  apply (hpred.orElse hsucc).congr
  · intro rows
    rw [carryForward, pickPredecessor_eq, pickSuccessor_eq]
    rfl
  · exact fun _ _ => Iff.rfl

theorem CarryForward.mem {rows : List RTStopTimeModel} {sequence : ℤ} {r : RTStopTimeModel}
    (h : CarryForward rows sequence r) : r ∈ rows := by
  rcases h with (h | ⟨_, h⟩) | ⟨_, h | ⟨_, h⟩⟩
  · exact List.mem_of_mem_filter (List.mem_of_mem_filter h.1)
  · exact List.mem_of_mem_filter h.1
  · exact List.mem_of_mem_filter (List.mem_of_mem_filter h.1)
  · exact List.mem_of_mem_filter h.1

theorem PreferNotSkipped.unique {C : List RTStopTimeModel → RTStopTimeModel → Prop}
    {rows : List RTStopTimeModel} {r r' : RTStopTimeModel}
    (hC : ∀ l, l.Sublist rows → ∀ r r', C l r → C l r' → r = r')
    (h : PreferNotSkipped C rows r) (h' : PreferNotSkipped C rows r') : r = r' := by
  rcases h with h | ⟨hnone, h⟩
  · rcases h' with h' | ⟨hnone', _⟩
    · exact hC _ List.filter_sublist _ _ h h'
    · exact absurd h (hnone' r)
  · rcases h' with h' | ⟨_, h'⟩
    · exact absurd h' (hnone r')
    · exact hC _ (List.Sublist.refl rows) _ _ h h'

theorem Earliest.unique {rows : List RTStopTimeModel} {r r' : RTStopTimeModel}
    (hrows : (rows.map (fun r => r.stopSequence)).Nodup) (h : Earliest rows r)
    (h' : Earliest rows r') : r = r' :=
  List.inj_on_of_nodup_map hrows h.1 h'.1 (le_antisymm (h.2 r' h'.1).1 (h'.2 r h.1).1)

/-- Of rows at different sequences one at most may be carried to a cell. -/
theorem CarryForward.unique {rows : List RTStopTimeModel} {sequence : ℤ} {r r' : RTStopTimeModel}
    (hrows : (rows.map (fun r => r.stopSequence)).Nodup) (h : CarryForward rows sequence r)
    (h' : CarryForward rows sequence r') : r = r' := by
  have hsub : ∀ {l : List RTStopTimeModel}, l.Sublist rows →
      (l.map (fun r => r.stopSequence)).Nodup := fun hl => hrows.sublist (hl.map _)
  have hpred : ∀ r r', PreferNotSkipped (Greatest sequenceThenCreated)
      (predecessors rows sequence) r → PreferNotSkipped (Greatest sequenceThenCreated)
      (predecessors rows sequence) r' → r = r' := by
    intro r r' hr hr'
    refine hr.unique (fun l hl a b ha hb => ha.unique ?_ hb) hr'
    have hnodup := hsub (hl.trans List.filter_sublist)
    refine List.Nodup.of_map (fun k : ℤ ×ₗ DateTime => (ofLex k).1) ?_
    rwa [List.map_map]
  have hsucc : ∀ r r', PreferNotSkipped Earliest (successors rows sequence) r →
      PreferNotSkipped Earliest (successors rows sequence) r' → r = r' := fun r r' hr hr' =>
    hr.unique (fun l hl a b ha hb => ha.unique (hsub (hl.trans List.filter_sublist)) hb) hr'
  rcases h with h | ⟨hnone, h⟩
  · rcases h' with h' | ⟨hnone', _⟩
    · exact hpred r r' h h'
    · exact absurd h (hnone' r)
  · rcases h' with h' | ⟨_, h'⟩
    · exact absurd h' (hnone r')
    · exact hsucc r r' h h'

/-- A trip with any row at all has a row to carry to each of its cells. -/
theorem carryForward_eq_none_iff (rows : List RTStopTimeModel) (sequence : ℤ) :
    carryForward rows sequence = none ↔ rows = [] := by
  constructor
  · intro h
    rw [carryForward, Option.or_eq_none_iff, pickPredecessor_eq, pickSuccessor_eq,
      Option.or_eq_none_iff, Option.or_eq_none_iff] at h
    obtain ⟨⟨_, hpred⟩, _, hsucc⟩ := h
    have hp : predecessors rows sequence = [] := List.argmax_eq_none.1 hpred
    have hs : successors rows sequence = [] := by
      by_contra hne
      obtain ⟨r, hr⟩ := exists_pickEarliest hne
      rw [hr] at hsucc
      cases hsucc
    rw [predecessors, List.filter_eq_nil_iff] at hp
    rw [successors, List.filter_eq_nil_iff] at hs
    rw [List.eq_nil_iff_forall_not_mem]
    intro r hr
    have hle := hp r hr
    have hge := hs r hr
    simp only [decide_eq_true_eq] at hle hge
    omega
  · rintro rfl
    rfl

theorem resolveCell_eq_none_iff (rows : List RTStopTimeModel) (stopId : String) (sequence : ℤ) :
    resolveCell rows stopId sequence = none ↔ rows = [] := by
  unfold resolveCell
  cases h : (exactRows rows stopId sequence).argmax (fun r => r.createdAt) with
  | some row =>
      have hmem := List.mem_of_mem_filter (List.argmax_mem h)
      simp [List.ne_nil_of_mem hmem]
  | none => rw [Option.map_eq_none_iff, carryForward_eq_none_iff]

theorem resolveCell_mem {rows : List RTStopTimeModel} {stopId : String} {sequence : ℤ}
    {o : RTStopTimeOverlay} (h : resolveCell rows stopId sequence = some o) : o.row ∈ rows := by
  unfold resolveCell at h
  cases hexact : (exactRows rows stopId sequence).argmax (fun r => r.createdAt) with
  | some row =>
      rw [hexact] at h
      rw [← Option.some.inj h]
      exact List.mem_of_mem_filter (List.argmax_mem hexact)
  | none =>
      rw [hexact] at h
      obtain ⟨row, hrow, rfl⟩ := Option.map_eq_some_iff.1 h
      exact ((decides_carryForward sequence).sound rows row hrow).mem

/-- A row of the overlay is a recent row of its trip, of the dataset of the first schedule. -/
theorem mem_of_tripsById {rtTrips : List RTTripModel} {rtStopTimes : List RTStopTimeModel}
    {now : DateTime} {schedules : List StaticScheduleModel} {t : String} {r : RTTripModel}
    (h : (loadRecentRtOverlayForSchedules rtTrips rtStopTimes now schedules).tripsById.get? t =
      some r) :
    ∃ first ∈ schedules.head?, r ∈ recentTripRows rtTrips now first.trip.dataset t := by
  cases schedules with
  | nil => cases h
  | cons first rest =>
      by_cases hmem : ∃ s ∈ first :: rest, s.trip.id = t
      · obtain ⟨s, hs, rfl⟩ := hmem
        rw [get?_tripsById hs] at h
        exact ⟨first, rfl, List.argmax_mem h⟩
      · push Not at hmem
        rw [get?_tripsById_none hmem] at h
        cases h

theorem mem_of_stopMap {rtTrips : List RTTripModel} {rtStopTimes : List RTStopTimeModel}
    {now : DateTime} {schedules : List StaticScheduleModel} {k : String × String × ℤ}
    {o : RTStopTimeOverlay}
    (h : (loadRecentRtOverlayForSchedules rtTrips rtStopTimes now schedules).stopMap.get? k =
      some o) :
    ∃ first ∈ schedules.head?, o.row ∈ recentStopRows rtStopTimes now first.trip.dataset k.1 := by
  cases schedules with
  | nil => cases h
  | cons first rest => exact ⟨first, rfl, resolveCell_mem ((get?_stopMap k o).1 h).2⟩

theorem recentStopRows_perm {l l' : List RTStopTimeModel} (h : l'.Perm l) (now : DateTime)
    (dataset tripId : String) :
    (recentStopRows l' now dataset tripId).Perm (recentStopRows l now dataset tripId) :=
  h.filter _

/-- Rows that meet the unique constraint match a cell at most once. -/
theorem exactRows_cases {rtStopTimes : List RTStopTimeModel} (h : UniqueStopTimes rtStopTimes)
    (now : DateTime) (dataset tripId stopId : String) (sequence : ℤ) :
    exactRows (recentStopRows rtStopTimes now dataset tripId) stopId sequence = [] ∨
      ∃ r, exactRows (recentStopRows rtStopTimes now dataset tripId) stopId sequence = [r] := by
  have hnodup : (exactRows (recentStopRows rtStopTimes now dataset tripId) stopId
      sequence).Nodup := (h.of_map.filter _).filter _
  have heq : ∀ r ∈ exactRows (recentStopRows rtStopTimes now dataset tripId) stopId sequence,
      ∀ r' ∈ exactRows (recentStopRows rtStopTimes now dataset tripId) stopId sequence,
        r = r' := by
    intro r hr r' hr'
    simp only [exactRows, recentStopRows, List.mem_filter, decide_eq_true_eq] at hr hr'
    obtain ⟨⟨hmem, ht, hd, _⟩, hs, hq⟩ := hr
    obtain ⟨⟨hmem', ht', hd', _⟩, hs', hq'⟩ := hr'
    apply List.inj_on_of_nodup_map h hmem hmem'
    simp only [RtStopTimeRecord.key, ht, hd, hs, hq, ht', hd', hs', hq']
  revert hnodup heq
  generalize exactRows (recentStopRows rtStopTimes now dataset tripId) stopId sequence = rows
  intro hnodup heq
  rcases rows with _ | ⟨r, _ | ⟨r', rest⟩⟩
  · exact Or.inl rfl
  · exact Or.inr ⟨r, rfl⟩
  · have hrr := heq r List.mem_cons_self r' (List.mem_cons_of_mem r List.mem_cons_self)
    rw [hrr] at hnodup
    exact absurd List.mem_cons_self (List.nodup_cons.1 hnodup).1

/-- What a cell gets does not depend on the order of the rows exactly where a row matches it, or
where one row at most may be carried to it. -/
theorem resolveCell_perm_iff {rtStopTimes : List RTStopTimeModel}
    (hu : UniqueStopTimes rtStopTimes) (now : DateTime) (dataset tripId stopId : String)
    (sequence : ℤ) :
    (∀ l : List RTStopTimeModel, l.Perm rtStopTimes →
      resolveCell (recentStopRows l now dataset tripId) stopId sequence =
        resolveCell (recentStopRows rtStopTimes now dataset tripId) stopId sequence) ↔
      (exactRows (recentStopRows rtStopTimes now dataset tripId) stopId sequence = [] →
        ∀ r r', CarryForward (recentStopRows rtStopTimes now dataset tripId) sequence r →
          CarryForward (recentStopRows rtStopTimes now dataset tripId) sequence r' → r = r') := by
  have hexact : ∀ l : List RTStopTimeModel, l.Perm rtStopTimes →
      (exactRows (recentStopRows l now dataset tripId) stopId sequence).Perm
        (exactRows (recentStopRows rtStopTimes now dataset tripId) stopId sequence) :=
    fun l hl => (recentStopRows_perm hl now dataset tripId).filter _
  have hdecides := (decides_carryForward sequence).filter
    (p := fun _ r => r.tripId = tripId ∧ r.dataset = dataset ∧ thirtyMinsAgo now ≤ r.createdAt)
    (fun _ _ _ => rfl)
  by_cases hnil : exactRows (recentStopRows rtStopTimes now dataset tripId) stopId sequence = []
  · have hres : ∀ l : List RTStopTimeModel, l.Perm rtStopTimes →
        resolveCell (recentStopRows l now dataset tripId) stopId sequence =
          (carryForward (recentStopRows l now dataset tripId) sequence).map
            (fun row => ⟨row, false⟩) := by
      intro l hl
      have hl' := hexact l hl
      rw [hnil, List.perm_nil] at hl'
      rw [resolveCell, hl']
      rfl
    have hinj : Function.Injective (Option.map (fun row => (⟨row, false⟩ : RTStopTimeOverlay))) :=
      Option.map_injective (fun a b h => (RTStopTimeOverlay.mk.inj h).1)
    rw [forall_prop_of_true hnil]
    refine Iff.trans ?_ (hdecides.forall_perm_iff rtStopTimes)
    refine forall_congr' fun l => forall_congr' fun hl => ?_
    rw [hres l hl, hres rtStopTimes (List.Perm.refl _), hinj.eq_iff]
    rfl
  · refine iff_of_true (fun l hl => ?_) (fun h => absurd h hnil)
    obtain hnone | ⟨r, hr⟩ := exactRows_cases hu now dataset tripId stopId sequence
    · exact absurd hnone hnil
    · have hl' := hexact l hl
      rw [hr, List.perm_singleton] at hl'
      rw [resolveCell, resolveCell, hr, hl']
      rfl

theorem newestTripRow_perm_iff (rtTrips : List RTTripModel) (now : DateTime)
    (dataset tripId : String) :
    (∀ l : List RTTripModel, l.Perm rtTrips →
      newestTripRow (recentTripRows l now dataset tripId) =
        newestTripRow (recentTripRows rtTrips now dataset tripId)) ↔
      ∀ r r', Greatest (fun r => r.createdAt) (recentTripRows rtTrips now dataset tripId) r →
        Greatest (fun r => r.createdAt) (recentTripRows rtTrips now dataset tripId) r' → r = r' :=
  ((decides_argmax (fun r : RTTripModel => r.createdAt)).filter
    (p := fun _ r => r.tripId = tripId ∧ r.dataset = dataset ∧ thirtyMinsAgo now ≤ r.createdAt)
    (fun _ _ _ => rfl)).forall_perm_iff rtTrips

/-- Dictionaries are equal when they give every key the same value. -/
def Overlay.Same (o o' : Overlay) : Prop :=
  (∀ t, o.tripsById.get? t = o'.tripsById.get? t) ∧ ∀ k, o.stopMap.get? k = o'.stopMap.get? k

/-- No two recent rows of the schedule's trip tie: not two newest trip rows, and not two rows
that may be carried to its cell, unless a row matches the cell. -/
def Untied (rtTrips : List RTTripModel) (rtStopTimes : List RTStopTimeModel) (now : DateTime)
    (dataset : String) (s : StaticScheduleModel) : Prop :=
  (∀ r r', Greatest (fun r => r.createdAt) (recentTripRows rtTrips now dataset s.trip.id) r →
    Greatest (fun r => r.createdAt) (recentTripRows rtTrips now dataset s.trip.id) r' → r = r') ∧
  (exactRows (recentStopRows rtStopTimes now dataset s.trip.id) s.stop.id
      s.stopTime.stopSequence = [] →
    ∀ r r', CarryForward (recentStopRows rtStopTimes now dataset s.trip.id)
        s.stopTime.stopSequence r →
      CarryForward (recentStopRows rtStopTimes now dataset s.trip.id)
        s.stopTime.stopSequence r' → r = r')

/-- Trip rows of different imports and stop rows at different sequences do not tie. -/
theorem untied_of_nodup {rtTrips : List RTTripModel} {rtStopTimes : List RTStopTimeModel}
    {now : DateTime} {dataset : String} {s : StaticScheduleModel}
    (ht : ((recentTripRows rtTrips now dataset s.trip.id).map (fun r => r.createdAt)).Nodup)
    (hs : ((recentStopRows rtStopTimes now dataset s.trip.id).map
      (fun r => r.stopSequence)).Nodup) :
    Untied rtTrips rtStopTimes now dataset s :=
  ⟨fun _ _ hr hr' => hr.unique ht hr', fun _ _ _ hr hr' => hr.unique hs hr'⟩

theorem same_of_untied {rtTrips rtTrips' : List RTTripModel}
    {rtStopTimes rtStopTimes' : List RTStopTimeModel} {now : DateTime}
    {first : StaticScheduleModel} {rest : List StaticScheduleModel}
    (hu : UniqueStopTimes rtStopTimes)
    (h : ∀ s ∈ first :: rest, Untied rtTrips rtStopTimes now first.trip.dataset s)
    (ht : rtTrips'.Perm rtTrips) (hs : rtStopTimes'.Perm rtStopTimes) :
    (loadRecentRtOverlayForSchedules rtTrips' rtStopTimes' now (first :: rest)).Same
      (loadRecentRtOverlayForSchedules rtTrips rtStopTimes now (first :: rest)) := by
  constructor
  · intro t
    by_cases hmem : ∃ s ∈ first :: rest, s.trip.id = t
    · obtain ⟨s, hs, rfl⟩ := hmem
      rw [get?_tripsById hs, get?_tripsById hs]
      exact (newestTripRow_perm_iff rtTrips now _ _).2 (h s hs).1 rtTrips' ht
    · push Not at hmem
      rw [get?_tripsById_none hmem, get?_tripsById_none hmem]
  · intro k
    apply Option.ext
    intro o
    rw [get?_stopMap, get?_stopMap]
    apply and_congr_right
    rintro ⟨s, hmem, rfl⟩
    have heq := (resolveCell_perm_iff hu now first.trip.dataset s.trip.id s.stop.id
      s.stopTime.stopSequence).2 (h s hmem).2 rtStopTimes' hs
    change resolveCell _ s.stop.id s.stopTime.stopSequence = _ ↔ resolveCell _ s.stop.id _ = _
    rw [show s.cell.1 = s.trip.id from rfl, heq]
    rfl

def timetableRow (trip dataset stop : String) (sequence : ℤ) (arrival : Time) :
    StaticScheduleModel where
  route := ⟨"R1", "A1", "15", "Clongriffin", "", 3, "", "", "", dataset⟩
  stopTime := ⟨1, trip, arrival, arrival, stop, sequence, "", none, none, none, dataset⟩
  calendar := ⟨"W", 1, 1, 1, 1, 1, 0, 0, ⟨739000⟩, ⟨739400⟩, dataset⟩
  stop := ⟨stop, "", "Main Street", "", "", "", none, none, dataset⟩
  trip := ⟨trip, "R1", "W", "", "", "", 0, "", dataset⟩
  isAddedException := false

def snapshotTrip (id : ℤ) (trip route relationship dataset : String) (createdAt : DateTime) :
    RTTripModel where
  tripId := trip
  routeId := route
  startTime := Time.midnight
  startDate := createdAt.date
  scheduleRelationship := relationship
  direction := 0
  entityId := ""
  dataset := dataset
  createdAt := createdAt
  id := id

def snapshotStop (id : ℤ) (trip stop : String) (sequence : ℤ) (relationship dataset : String)
    (createdAt : DateTime) : RTStopTimeModel where
  tripId := trip
  stopId := stop
  stopSequence := sequence
  scheduleRelationship := relationship
  arrivalDelay := some 60
  departureDelay := none
  entityId := ""
  dataset := dataset
  createdAt := createdAt
  id := id

/-- Two routes of one trip in one snapshot: the first row returned decides. -/
theorem overlay_order_observed :
    ¬ ∀ rtTrips rtTrips' rtStopTimes rtStopTimes' now schedules,
      UniqueTrips rtTrips → UniqueStopTimes rtStopTimes → rtTrips'.Perm rtTrips →
      rtStopTimes'.Perm rtStopTimes →
      (loadRecentRtOverlayForSchedules rtTrips' rtStopTimes' now schedules).Same
        (loadRecentRtOverlayForSchedules rtTrips rtStopTimes now schedules) := by
  intro h
  have hsame := h
    [snapshotTrip 1 "T" "R1" "CANCELED" "TFI" ⟨0⟩, snapshotTrip 2 "T" "R2" "SCHEDULED" "TFI" ⟨0⟩]
    [snapshotTrip 2 "T" "R2" "SCHEDULED" "TFI" ⟨0⟩, snapshotTrip 1 "T" "R1" "CANCELED" "TFI" ⟨0⟩]
    [] [] ⟨0⟩ [timetableRow "T" "TFI" "S" 1 Time.midnight] (by decide) (by decide)
    (List.Perm.swap _ _ _) (List.Perm.refl _)
  have hid := congrArg (Option.map (fun r : RTTripModel => r.id)) (hsame.1 "T")
  revert hid
  decide

/-- The overlay of a list is the same in every order of the rows of both tables exactly where
none of its schedules has tied rows. -/
theorem overlay_order_iff (rtTrips : List RTTripModel) (rtStopTimes : List RTStopTimeModel)
    (now : DateTime) (schedules : List StaticScheduleModel)
    (hu : UniqueStopTimes rtStopTimes) :
    (∀ rtTrips' rtStopTimes', rtTrips'.Perm rtTrips → rtStopTimes'.Perm rtStopTimes →
      (loadRecentRtOverlayForSchedules rtTrips' rtStopTimes' now schedules).Same
        (loadRecentRtOverlayForSchedules rtTrips rtStopTimes now schedules)) ↔
      ∀ first ∈ schedules.head?, ∀ s ∈ schedules,
        Untied rtTrips rtStopTimes now first.trip.dataset s := by
  cases schedules with
  | nil =>
      refine iff_of_true (fun _ _ _ _ => ⟨fun _ => rfl, fun _ => rfl⟩) (fun first hfirst => ?_)
      exact absurd hfirst (Option.not_mem_none first)
  | cons first rest =>
      simp only [List.head?_cons, Option.mem_def, Option.some.injEq, forall_eq']
      constructor
      · intro h s hs
        constructor
        · apply (newestTripRow_perm_iff rtTrips now first.trip.dataset s.trip.id).1
          intro l hl
          have := (h l rtStopTimes hl (List.Perm.refl _)).1 s.trip.id
          rwa [get?_tripsById hs, get?_tripsById hs] at this
        · apply (resolveCell_perm_iff hu now first.trip.dataset s.trip.id s.stop.id
            s.stopTime.stopSequence).1
          intro l hl
          have := (h rtTrips l (List.Perm.refl _) hl).2 s.cell
          rwa [get?_stopMap_cell hs, get?_stopMap_cell hs] at this
      · exact fun h _ _ ht hs => same_of_untied hu h ht hs

/-- Two imports of a trip and three of its stops have the same overlay in all twelve orders: the
first schedule has a row of its own, the second takes the delay of the stop before it. -/
theorem overlay_order_iff_two_imports :
    let rtTrips := [snapshotTrip 1 "T" "R1" "SCHEDULED" "TFI" ⟨0⟩,
      snapshotTrip 2 "T" "R2" "CANCELED" "TFI" ⟨60000000⟩]
    let rtStopTimes := [snapshotStop 1 "T" "S1" 1 "SCHEDULED" "TFI" ⟨60000000⟩,
      snapshotStop 2 "T" "S2" 2 "SKIPPED" "TFI" ⟨60000000⟩,
      snapshotStop 3 "T" "S3" 3 "SCHEDULED" "TFI" ⟨0⟩]
    ∀ rtTrips' rtStopTimes', rtTrips'.Perm rtTrips → rtStopTimes'.Perm rtStopTimes →
      (loadRecentRtOverlayForSchedules rtTrips' rtStopTimes' ⟨60000000⟩
          [timetableRow "T" "TFI" "S1" 1 Time.midnight,
            timetableRow "T" "TFI" "S4" 4 Time.midnight]).Same
        (loadRecentRtOverlayForSchedules rtTrips rtStopTimes ⟨60000000⟩
          [timetableRow "T" "TFI" "S1" 1 Time.midnight,
            timetableRow "T" "TFI" "S4" 4 Time.midnight]) := by
  intro rtTrips rtStopTimes
  refine (overlay_order_iff rtTrips rtStopTimes ⟨60000000⟩ _ (by decide)).2 ?_
  intro first hfirst s hs
  obtain rfl := Option.some.inj hfirst
  simp only [List.mem_cons, List.not_mem_nil, or_false] at hs
  rcases hs with rfl | rfl <;> exact untied_of_nodup (by decide) (by decide)

end SimplyTransport
