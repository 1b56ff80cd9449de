import SimplyTransport.CachedPages
import SimplyTransport.StopTable
import SimplyTransport.WindowOrder

/-!
# The order of the stops on the trip page

The importer keeps the clock time of a stop time, the query sorts by it and leaves ties open, and
both services sort again by the seconds from 03:00. The stops come in the order of travel where
the times increase strictly between one 03:00 and the next.
-/

namespace SimplyTransport
open StableSort

namespace GtfsTime

def seconds (t : GtfsTime) : ℕ := t.hour * 3600 + t.minute * 60 + t.second

/-- The times from one 03:00 to the next have one number. -/
def night (t : GtfsTime) : ℤ := ((t.seconds : ℤ) - 10800) / 86400

theorem sortSeconds_clock (t : GtfsTime) :
    sortSeconds t.clock = ((t.seconds : ℤ) - 10800) % 86400 := by
  simp only [sortSeconds, Time.since, threeOClock, clock, seconds]
  unfold dayMicros
  omega

/-- Of two times less than a day apart, the sort sees the later one after the earlier one exactly
where they differ and no 03:00 comes between them. -/
theorem sortSeconds_clock_lt_iff {t u : GtfsTime} (hle : t.seconds ≤ u.seconds)
    (hspan : u.seconds < t.seconds + 86400) :
    sortSeconds t.clock < sortSeconds u.clock ↔ t.seconds < u.seconds ∧ t.night = u.night := by
  rw [sortSeconds_clock, sortSeconds_clock]
  unfold night
  omega

theorem clock_le_of_sortSeconds_eq {t u : GtfsTime}
    (h : sortSeconds t.clock = sortSeconds u.clock) : t.clock ≤ u.clock := by
  have htm := t.minute_lt
  have hts := t.second_lt
  have hum := u.minute_lt
  have hus := u.second_lt
  simp only [sortSeconds_clock, seconds] at h
  simp only [Time.le_iff, clock]
  omega

end GtfsTime

/-- What the query of a trip may return: the rows of the trip by arrival time, in any order among
rows of one time. -/
structure StaticDatabase.TripResult (db : StaticDatabase) (tripId : String)
    (rows : List StaticScheduleModel) : Prop where
  perm : rows.Perm (db.joinedRows.filter (fun s => s.trip.id = tripId))
  sorted : rows.Pairwise (fun s s' => s.stopTime.arrivalTime ≤ s'.stopTime.arrivalTime)

theorem tripResult_getByTripId (db : StaticDatabase) (tripId : String) :
    db.TripResult tripId (getByTripId db tripId) :=
  ⟨List.mergeSort_perm _ _, sorted_mergeSort (fun s : StaticScheduleModel => s.stopTime.arrivalTime) _⟩

section Page

variable {φ : Type}

def tripPageOf (x : Instant φ) (rows : List StaticScheduleModel) : Option TripPage :=
  let schedules := applyCustom2300Sorting (fun s => s.stopTime.arrivalTime) rows
  let realtimeSchedules := applyCustom2300Sorting (fun r => r.realArrivalTime)
    (getRealtimeSchedulesForStaticSchedules x.rtTrips x.rtStopTimes x.nowUtc x.now schedules)
  realtimeSchedules.head?.map (fun r =>
    { rtSchedules := realtimeSchedules
      directionString :=
        if r.staticSchedule.trip.direction = (0 : ℤ) then "Southbound" else "Northbound"
      primeSchedule := r.staticSchedule })

theorem realtimeTrip_eq (x : Instant φ) (tripId : String) :
    realtimeTrip x tripId = tripPageOf x (getByTripId x.db tripId) := rfl

theorem tripPageOf_nil (x : Instant φ) : tripPageOf x [] = none := by
  simp [tripPageOf, applyCustom2300Sorting, getRealtimeSchedulesForStaticSchedules]

def NoOverlay (x : Instant φ) (tripId : String) : Prop :=
  ∀ r ∈ x.rtStopTimes, r.tripId = tripId → r.createdAt < thirtyMinsAgo x.nowUtc

theorem realArrivalTime_of_noOverlay {overlay : Overlay} {now : DateTime}
    {static : StaticScheduleModel} (h : static.stopOverlay overlay = none) :
    (realtimeScheduleFor overlay now static).realArrivalTime = static.stopTime.arrivalTime := by
  cases hremoved : (static.rtTrip overlay).any (fun r => r.isRemoved) with
  | true => rw [realtimeScheduleFor_removed hremoved]; rfl
  | false => rw [realtimeScheduleFor_none hremoved h]; rfl

theorem stopOverlay_of_noOverlay {x : Instant φ} {tripId : String} (h : NoOverlay x tripId)
    {rows : List StaticScheduleModel} {s : StaticScheduleModel} (hs : s ∈ rows)
    (hid : s.trip.id = tripId) :
    s.stopOverlay (loadRecentRtOverlayForSchedules x.rtTrips x.rtStopTimes x.nowUtc rows) =
      none := by
  cases rows with
  | nil => exact absurd hs List.not_mem_nil
  | cons first rest =>
      rw [stopOverlay_load hs, resolveCell_eq_none_iff, recentStopRows, List.filter_eq_nil_iff]
      intro r hr hrecent
      rw [decide_eq_true_eq] at hrecent
      exact absurd hrecent.2.2 (not_le.2 (h r hr (hrecent.1.trans hid)))

def fromThree (rows : List StaticScheduleModel) : List StaticScheduleModel :=
  rows.mergeSort (fun s s' => sortSeconds s.stopTime.arrivalTime ≤
    sortSeconds s'.stopTime.arrivalTime)

def tripModel (x : Instant φ) (rows : List StaticScheduleModel) :
    StaticScheduleModel → RealtimeScheduleModel :=
  realtimeScheduleFor (loadRecentRtOverlayForSchedules x.rtTrips x.rtStopTimes x.nowUtc
    (fromThree rows)) x.now

theorem tripModel_staticSchedule (x : Instant φ) (rows : List StaticScheduleModel)
    (s : StaticScheduleModel) : (tripModel x rows s).staticSchedule = s :=
  realtimeScheduleFor_staticSchedule _ _ s

section NoOverlay

variable {x : Instant φ} {tripId : String} (h : NoOverlay x tripId)
  {rows : List StaticScheduleModel} (hrows : ∀ s ∈ rows, s.trip.id = tripId)

include h hrows

/-- Without an overlay the second sort changes nothing. -/
theorem sort_tripModels : applyCustom2300Sorting (fun r => r.realArrivalTime)
    ((fromThree rows).map (tripModel x rows)) = (fromThree rows).map (tripModel x rows) := by
  have harrival : ∀ s ∈ fromThree rows,
      (tripModel x rows s).realArrivalTime = s.stopTime.arrivalTime := fun s hs =>
    realArrivalTime_of_noOverlay
      (stopOverlay_of_noOverlay h hs (hrows s (List.mem_mergeSort.1 hs)))
  rw [applyCustom2300Sorting_eq]
  apply List.mergeSort_of_pairwise
  rw [List.pairwise_map]
  refine (sorted_mergeSort _ rows).imp_of_mem fun {s s'} hs hs' hle => ?_
  rw [decide_eq_true_eq, harrival s hs, harrival s' hs']
  exact hle

theorem tripPageOf_eq : tripPageOf x rows = (fromThree rows).head?.map (fun s =>
    { rtSchedules := (fromThree rows).map (tripModel x rows)
      directionString := if s.trip.direction = (0 : ℤ) then "Southbound" else "Northbound"
      primeSchedule := s }) := by
  have hschedules : applyCustom2300Sorting (fun s => s.stopTime.arrivalTime) rows =
      fromThree rows := applyCustom2300Sorting_eq _ _
  have hmodels : getRealtimeSchedulesForStaticSchedules x.rtTrips x.rtStopTimes x.nowUtc x.now
      (fromThree rows) = (fromThree rows).map (tripModel x rows) := getRealtimeSchedules_eq _
  rw [tripPageOf, hschedules, hmodels]
  simp only [sort_tripModels h hrows]
  rw [List.head?_map, Option.map_map]
  simp only [Function.comp_def, tripModel_staticSchedule]

end NoOverlay

end Page

/-- The page lists the stops of the trip in the order of their sequence, and its prime schedule is
the first of them. -/
structure InTravelOrder (g : GtfsDataset) (tripId : String) (page : TripPage) : Prop where
  complete : ∀ st ∈ g.stopTimes, st.tripId = tripId → ∃ r ∈ page.rtSchedules,
    r.staticSchedule.stopTime.stopSequence = st.stopSequence
  increasing : (page.rtSchedules.map
    (fun r => r.staticSchedule.stopTime.stopSequence)).Pairwise (fun n m => n < m)
  prime_first : ∀ st ∈ g.stopTimes, st.tripId = tripId →
    page.primeSchedule.stopTime.stopSequence ≤ st.stopSequence

/-- The times of the trip increase strictly between one 03:00 and the next. -/
def WithinOneNight (g : GtfsDataset) (tripId : String) : Prop :=
  ∀ st ∈ g.stopTimes, ∀ st' ∈ g.stopTimes, st.tripId = tripId → st'.tripId = tripId →
    st.stopSequence < st'.stopSequence →
      st.arrival.seconds < st'.arrival.seconds ∧ st.arrival.night = st'.arrival.night

section Tables

variable {g : GtfsDataset} {db : StaticDatabase} {tripId : String}

/-- The rows of the trip are the stop times of a trip whose service has a calendar. -/
theorem TablesOf.mem_tripRows (h : TablesOf g db) {s : StaticScheduleModel}
    (hs : s ∈ db.joinedRows.filter (fun s => s.trip.id = tripId)) :
    ∃ st ∈ g.stopTimes, st.tripId = tripId ∧ s.stopTime.stopSequence = st.stopSequence ∧
      s.stopTime.arrivalTime = st.arrival.clock := by
  rw [List.mem_filter, mem_joinedRows, decide_eq_true_eq] at hs
  obtain ⟨st, hst, himported⟩ := exists_line_of_forall₂ h.stopTimes _ hs.1.stopTime
  refine ⟨st, hst, ?_, himported.stopSequence, himported.arrivalTime⟩
  rw [← himported.tripId, ← hs.1.trip.2, hs.2]

theorem TablesOf.exists_tripRow (h : TablesOf g db)
    (hcalendar : ∃ t ∈ g.trips, t.tripId = tripId ∧ g.HasCalendar t.serviceId)
    {st : StopTimeLine} (hst : st ∈ g.stopTimes) (hid : st.tripId = tripId) :
    ∃ s ∈ db.joinedRows.filter (fun s => s.trip.id = tripId),
      s.stopTime.stopSequence = st.stopSequence ∧ s.stopTime.arrivalTime = st.arrival.clock := by
  obtain ⟨t, ht, htrip, hservice⟩ := hcalendar
  obtain ⟨s, hjoin, hkey, _, harrival⟩ := (h.exists_joined_iff st.stopId
    (fun _ time => time = st.arrival.clock) (tripId, st.stopSequence)).2
      ⟨st, hst, t, ht, htrip.trans hid.symm, rfl, by rw [hid], hservice, rfl⟩
  obtain ⟨hsid, hseq⟩ := Prod.mk.inj hkey
  exact ⟨s, List.mem_filter.2 ⟨mem_joinedRows.2 hjoin, decide_eq_true hsid⟩, hseq, harrival⟩

theorem TablesOf.tripRows_eq_nil (h : TablesOf g db)
    (hcalendar : ¬ ∃ t ∈ g.trips, t.tripId = tripId ∧ g.HasCalendar t.serviceId) :
    db.joinedRows.filter (fun s => s.trip.id = tripId) = [] := by
  rw [List.filter_eq_nil_iff]
  intro s hs hid
  rw [decide_eq_true_eq] at hid
  have hjoin := mem_joinedRows.1 hs
  obtain ⟨t, ht, ht'⟩ := exists_line_of_forall₂ h.trips _ hjoin.trip.1
  obtain ⟨c, hc, hc'⟩ := exists_line_of_forall₂ h.calendars _ hjoin.calendar.1
  exact hcalendar ⟨t, ht, ht'.id.symm.trans hid, c, hc,
    hc'.id.symm.trans (hjoin.calendar.2.trans ht'.serviceId)⟩

theorem TablesOf.tripRows_sequence_nodup (h : TablesOf g db) :
    ((db.joinedRows.filter (fun s => s.trip.id = tripId)).map
      (fun s => s.stopTime.stopSequence)).Nodup := by
  have hkeys := (List.pairwise_map.1 (joinedRows_key_nodup h.uniqueCalls)).filter
    (fun s => s.trip.id = tripId)
  apply List.pairwise_map.2
  refine hkeys.imp_of_mem fun {s s'} hs hs' hne heq => hne ?_
  have hid := of_decide_eq_true (List.mem_filter.1 hs).2
  have hid' := of_decide_eq_true (List.mem_filter.1 hs').2
  rw [StaticScheduleModel.key, StaticScheduleModel.key, hid, hid', heq]

theorem fromThree_perm (rows : List StaticScheduleModel) : (fromThree rows).Perm rows :=
  List.mergeSort_perm rows _

theorem fromThree_sorted (rows : List StaticScheduleModel) :
    (fromThree rows).Pairwise (fun s s' =>
      sortSeconds s.stopTime.arrivalTime ≤ sortSeconds s'.stopTime.arrivalTime) :=
  sorted_mergeSort _ rows

section Order

variable (h : TablesOf g db)
  (hmono : ∀ st ∈ g.stopTimes, ∀ st' ∈ g.stopTimes, st.tripId = tripId → st'.tripId = tripId →
    st.stopSequence ≤ st'.stopSequence → st.arrival.seconds ≤ st'.arrival.seconds)
  (hspan : ∀ st ∈ g.stopTimes, ∀ st' ∈ g.stopTimes, st.tripId = tripId → st'.tripId = tripId →
    st'.arrival.seconds < st.arrival.seconds + 86400)

include h hspan

theorem fromThree_increasing (hnight : WithinOneNight g tripId)
    {rows : List StaticScheduleModel} (hrows : db.TripResult tripId rows) :
    (fromThree rows).Pairwise (fun s s' => s.stopTime.stopSequence < s'.stopTime.stopSequence) := by
  have hperm := (fromThree_perm rows).trans hrows.perm
  have hdistinct : (fromThree rows).Pairwise (fun s s' =>
      s.stopTime.stopSequence ≠ s'.stopTime.stopSequence) :=
    List.pairwise_map.1 (((hperm.map _).nodup_iff).2 h.tripRows_sequence_nodup)
  refine ((fromThree_sorted rows).and hdistinct).imp_of_mem fun {s s'} hs hs' hboth => ?_
  obtain ⟨st, hst, hid, hseq, harrival⟩ := h.mem_tripRows (hperm.mem_iff.1 hs)
  obtain ⟨st', hst', hid', hseq', harrival'⟩ := h.mem_tripRows (hperm.mem_iff.1 hs')
  rw [harrival, harrival', hseq, hseq'] at hboth
  rw [hseq, hseq']
  by_contra hnot
  have hlt : st'.stopSequence < st.stopSequence := by omega
  obtain ⟨hseconds, hsame⟩ := hnight st' hst' st hst hid' hid hlt
  have hsort := (GtfsTime.sortSeconds_clock_lt_iff hseconds.le
    (hspan st' hst' st hst hid' hid)).2 ⟨hseconds, hsame⟩
  exact absurd hsort (not_lt.2 hboth.1)

include hmono

/-- If every result of the query leads to increasing sequences, the times lie in one night. -/
theorem withinOneNight_of_increasing
    (hcalendar : ∃ t ∈ g.trips, t.tripId = tripId ∧ g.HasCalendar t.serviceId)
    (hall : ∀ rows, db.TripResult tripId rows → (fromThree rows).Pairwise
      (fun s s' => s.stopTime.stopSequence < s'.stopTime.stopSequence)) :
    WithinOneNight g tripId := by
  intro st hst st' hst' hid hid' hlt
  obtain ⟨s, hs, hseq, harrival⟩ := h.exists_tripRow hcalendar hst hid
  obtain ⟨s', hs', hseq', harrival'⟩ := h.exists_tripRow hcalendar hst' hid'
  rw [← GtfsTime.sortSeconds_clock_lt_iff (hmono st hst st' hst' hid hid' hlt.le)
    (hspan st hst st' hst' hid hid'), ← harrival, ← harrival']
  by_contra hnot
  have hne : s ≠ s' := by
    rintro rfl
    omega
  -- Among rows of one time the query may return the later stop first.
  obtain ⟨l₁, l₂, hsplit⟩ := List.append_of_mem hs'
  have hmem : s ∈ l₁ ++ l₂ := by
    rw [hsplit] at hs
    simp only [List.mem_append, List.mem_cons] at hs ⊢
    tauto
  have hresult : db.TripResult tripId ((s' :: (l₁ ++ l₂)).mergeSort (fun s s' =>
      s.stopTime.arrivalTime ≤ s'.stopTime.arrivalTime)) := by
    refine ⟨(List.mergeSort_perm _ _).trans ?_, sorted_mergeSort
      (fun s : StaticScheduleModel => s.stopTime.arrivalTime) _⟩
    rw [hsplit]
    exact List.perm_middle.symm
  have hincreasing := hall _ hresult
  have hperm := (fromThree_perm _).trans hresult.perm
  rcases (not_lt.1 hnot).lt_or_eq with hearlier | hsame
  · rcases mem_sorted_or (fromThree_sorted _) (hincreasing.imp (fun hlt => hlt.le))
      (hperm.mem_iff.2 hs) (hperm.mem_iff.2 hs') hne with ⟨hle, _⟩ | ⟨_, hle⟩
    · exact absurd hle (not_le.2 hearlier)
    · omega
  · have hpair : [s', s].Sublist (s' :: (l₁ ++ l₂)) :=
      (List.singleton_sublist.2 hmem).cons_cons s'
    have harrivals : s'.stopTime.arrivalTime ≤ s.stopTime.arrivalTime := by
      rw [harrival, harrival'] at hsame ⊢
      exact GtfsTime.clock_le_of_sortSeconds_eq hsame
    have hquery := List.pair_sublist_mergeSort
      (key_trans fun s : StaticScheduleModel => s.stopTime.arrivalTime) (key_total _)
      (decide_eq_true harrivals) hpair
    have hsort := List.pair_sublist_mergeSort
      (key_trans fun s : StaticScheduleModel => sortSeconds s.stopTime.arrivalTime) (key_total _)
      (decide_eq_true hsame.le) hquery
    have hswapped := List.pairwise_iff_forall_sublist.1 hincreasing hsort
    omega

end Order

theorem tripResult_trip_id {rows : List StaticScheduleModel}
    (hrows : db.TripResult tripId rows) : ∀ s ∈ rows, s.trip.id = tripId := fun _ hs =>
  of_decide_eq_true (List.mem_filter.1 (hrows.perm.mem_iff.1 hs)).2

theorem inTravelOrder_of_increasing {φ : Type} {x : Instant φ} (h : TablesOf g db)
    (hcalendar : ∃ t ∈ g.trips, t.tripId = tripId ∧ g.HasCalendar t.serviceId)
    (hoverlay : NoOverlay x tripId) {rows : List StaticScheduleModel}
    (hrows : db.TripResult tripId rows)
    (hincreasing : (fromThree rows).Pairwise
      (fun s s' => s.stopTime.stopSequence < s'.stopTime.stopSequence))
    {page : TripPage} (hpage : tripPageOf x rows = some page) : InTravelOrder g tripId page := by
  have hperm := (fromThree_perm rows).trans hrows.perm
  rw [tripPageOf_eq hoverlay (tripResult_trip_id hrows)] at hpage
  obtain ⟨prime, hprime, rfl⟩ := Option.map_eq_some_iff.1 hpage
  refine ⟨fun st hst hid => ?_, ?_, fun st hst hid => ?_⟩
  · obtain ⟨s, hs, hseq, _⟩ := h.exists_tripRow hcalendar hst hid
    refine ⟨tripModel x rows s, List.mem_map_of_mem (hperm.mem_iff.2 hs), ?_⟩
    rw [tripModel_staticSchedule, hseq]
  · rw [List.map_map, List.pairwise_map]
    simpa only [Function.comp_apply, tripModel_staticSchedule] using hincreasing
  · obtain ⟨s, hs, hseq, _⟩ := h.exists_tripRow hcalendar hst hid
    have hmem := hperm.mem_iff.2 hs
    change prime.stopTime.stopSequence ≤ _
    rw [← hseq]
    cases hfrom : fromThree rows with
    | nil =>
        rw [hfrom] at hmem
        exact absurd hmem List.not_mem_nil
    | cons first rest =>
        rw [hfrom] at hprime hmem hincreasing
        obtain rfl := Option.some.inj hprime
        rcases List.mem_cons.1 hmem with rfl | hrest
        · exact le_rfl
        · exact ((List.pairwise_cons.1 hincreasing).1 s hrest).le

theorem increasing_of_inTravelOrder {φ : Type} {x : Instant φ} (hoverlay : NoOverlay x tripId)
    {rows : List StaticScheduleModel} (hrows : db.TripResult tripId rows)
    (hall : ∀ page, tripPageOf x rows = some page → InTravelOrder g tripId page) :
    (fromThree rows).Pairwise
      (fun s s' => s.stopTime.stopSequence < s'.stopTime.stopSequence) := by
  have hpage := tripPageOf_eq hoverlay (tripResult_trip_id hrows)
  cases hfrom : fromThree rows with
  | nil => exact List.Pairwise.nil
  | cons s rest =>
      rw [hfrom] at hpage
      have horder := (hall _ hpage).increasing
      rw [List.map_map, List.pairwise_map] at horder
      simpa only [Function.comp_apply, tripModel_staticSchedule] using horder

end Tables

section TwoCalls

theorem one_lt_sequence_bound : 1 < 2 ^ 31 := by decide

theorem two_lt_sequence_bound : 2 < 2 ^ 31 := by decide

theorem twoStopTimes_nodup (first second : GtfsTime) :
    (([⟨"T", first, "S1", 1, one_lt_sequence_bound⟩,
      ⟨"T", second, "S2", 2, two_lt_sequence_bound⟩] : List StopTimeLine).map
        (fun st => (st.tripId, st.stopSequence))).Nodup :=
  of_decide_eq_true rfl

def twoCalls (first second : GtfsTime) : GtfsDataset where
  calendars := nightBus.calendars
  calendarDates := []
  routes := ["R1"]
  stops := ["S1", "S2"]
  trips := [⟨"T", "R1", "W"⟩]
  stopTimes := [⟨"T", first, "S1", 1, one_lt_sequence_bound⟩,
    ⟨"T", second, "S2", 2, two_lt_sequence_bound⟩]
  stopTimes_nodup := twoStopTimes_nodup first second
  stop_ne_empty := by decide
  route_mem := nightBus.route_mem
  stop_mem := List.forall_mem_cons.2 ⟨List.mem_cons_self, List.forall_mem_singleton.2
    (List.mem_cons_of_mem _ List.mem_cons_self)⟩

def twoCallFiles (first second : GtfsTime) : GtfsFiles :=
  { nightBusFiles with
    stops := ⟨nightBusFiles.stops.header,
      [["S1", "1", "Main Street", "", "53.3", "-6.2", "", "", "", ""],
        ["S2", "2", "Mill Lane", "", "53.3", "-6.2", "", "", "", ""]], by decide⟩
    stopTimes := ⟨nightBusFiles.stopTimes.header,
      [["T", first.text, "S1", "1", first.text, "", "", "", ""],
        ["T", second.text, "S2", "2", second.text, "", "", "", ""]], of_decide_eq_true rfl⟩ }

theorem twoCalls_filesHold (first second : GtfsTime) :
    FilesHold (twoCallFiles first second) (twoCalls first second) where
  calendars := nightBus_filesHold.calendars
  calendarDates := nightBus_filesHold.calendarDates
  routes := nightBus_filesHold.routes
  stops := ⟨nightBus_filesHold.stops.header_nodup,
    .cons (says_of_append rfl rfl) (.cons (says_of_append rfl rfl) .nil)⟩
  trips := nightBus_filesHold.trips
  stopTimes := by
    have hrow : ∀ (time : GtfsTime) (stop sequence : String) (n : ℕ) (hn : n < 2 ^ 31),
        toString n = sequence → ["T", time.text, stop, sequence, time.text, "", "", "", ""] =
          StopTimeLine.values ⟨"T", time, stop, n, hn⟩ ++ [time.text, "", "", "", ""] := by
      rintro time stop _ n hn rfl
      rfl
    exact ⟨nightBus_filesHold.stopTimes.header_nodup,
      .cons (says_of_append rfl (hrow first "S1" "1" 1 _ rfl))
        (.cons (says_of_append rfl (hrow second "S2" "2" 2 _ rfl)) .nil)⟩

theorem exists_of_isOk {ε α : Type} {e : Except ε α} (h : e.isOk = true) : ∃ a, e = .ok a := by
  cases e with
  | error e => cases h
  | ok a => exact ⟨a, rfl⟩

theorem twoCalls_mono {first second : GtfsTime} (hle : first.seconds ≤ second.seconds) :
    ∀ st ∈ (twoCalls first second).stopTimes, ∀ st' ∈ (twoCalls first second).stopTimes,
      st.tripId = "T" → st'.tripId = "T" → st.stopSequence ≤ st'.stopSequence →
        st.arrival.seconds ≤ st'.arrival.seconds := by
  simp only [twoCalls, List.forall_mem_cons, List.not_mem_nil, false_implies, implies_true]
  simp [hle]

theorem twoCalls_span {first second : GtfsTime} (hle : first.seconds ≤ second.seconds)
    (hspan : second.seconds < first.seconds + 86400) :
    ∀ st ∈ (twoCalls first second).stopTimes, ∀ st' ∈ (twoCalls first second).stopTimes,
      st.tripId = "T" → st'.tripId = "T" → st'.arrival.seconds < st.arrival.seconds + 86400 := by
  simp only [twoCalls, List.forall_mem_cons, List.not_mem_nil, false_implies, implies_true]
  simp only [and_true, true_implies]
  omega

theorem twoCalls_withinOneNight {first second : GtfsTime} (hlt : first.seconds < second.seconds)
    (hnight : first.night = second.night) : WithinOneNight (twoCalls first second) "T" := by
  unfold WithinOneNight
  simp only [twoCalls, List.forall_mem_cons, List.not_mem_nil, false_implies, implies_true]
  simp [hlt, hnight]

end TwoCalls

/-- For a trip whose times do not decrease and span less than a day, imported and without an
overlay: every result of the query gives a page in the order of travel exactly where the times
increase strictly within one night, or the page finds nothing because the service has no
calendar. -/
theorem trip_page_in_travel_order_iff {φ : Type} {files : GtfsFiles} {g : GtfsDataset}
    {dataset : String} {dateSerial serial : ℕ → ℤ} (x : Instant φ) (tripId : String)
    (hfiles : FilesHold files g) (himport : importFiles files dataset dateSerial serial = .ok x.db)
    (hmono : ∀ st ∈ g.stopTimes, ∀ st' ∈ g.stopTimes, st.tripId = tripId → st'.tripId = tripId →
      st.stopSequence ≤ st'.stopSequence → st.arrival.seconds ≤ st'.arrival.seconds)
    (hspan : ∀ st ∈ g.stopTimes, ∀ st' ∈ g.stopTimes, st.tripId = tripId → st'.tripId = tripId →
      st'.arrival.seconds < st.arrival.seconds + 86400)
    (hoverlay : NoOverlay x tripId) :
    (∀ rows, x.db.TripResult tripId rows → ∀ page, tripPageOf x rows = some page →
        InTravelOrder g tripId page) ↔
      (¬ ∃ t ∈ g.trips, t.tripId = tripId ∧ g.HasCalendar t.serviceId) ∨
        WithinOneNight g tripId := by
  have h := tablesOf_import hfiles himport
  constructor
  · intro hall
    by_cases hcalendar : ∃ t ∈ g.trips, t.tripId = tripId ∧ g.HasCalendar t.serviceId
    · exact Or.inr (withinOneNight_of_increasing h hmono hspan hcalendar fun rows hrows =>
        increasing_of_inTravelOrder hoverlay hrows (hall rows hrows))
    · exact Or.inl hcalendar
  · intro hcond rows hrows page hpage
    have hcalendar : ∃ t ∈ g.trips, t.tripId = tripId ∧ g.HasCalendar t.serviceId := by
      by_contra hnone
      have hnil := hrows.perm
      rw [h.tripRows_eq_nil hnone, List.perm_nil] at hnil
      rw [hnil, tripPageOf_nil] at hpage
      cases hpage
    have hnight := hcond.resolve_left (not_not.2 hcalendar)
    exact inTravelOrder_of_increasing h hcalendar hoverlay hrows
      (fromThree_increasing h hspan hnight hrows) hpage

/-- From 23:50 to 24:25 the page is in the order of travel. -/
theorem trip_page_over_midnight :
    ∃ x : Instant Unit, importFiles
        (twoCallFiles ⟨23, 50, 0, by decide, by decide, by decide⟩
          ⟨24, 25, 0, by decide, by decide, by decide⟩) "TFI" (fun i => i) (fun i => i) = .ok x.db ∧
      ∀ page, realtimeTrip x "T" = some page →
        InTravelOrder (twoCalls ⟨23, 50, 0, by decide, by decide, by decide⟩
          ⟨24, 25, 0, by decide, by decide, by decide⟩) "T" page := by
  obtain ⟨db, himport⟩ := exists_of_isOk (e := importFiles
    (twoCallFiles ⟨23, 50, 0, by decide, by decide, by decide⟩
      ⟨24, 25, 0, by decide, by decide, by decide⟩) "TFI" (fun i => i) (fun i => i)) (by decide +kernel)
  refine ⟨⟨db, [], [], [], [], [], ⟨0⟩, ⟨0⟩⟩, himport, ?_⟩
  rw [realtimeTrip_eq]
  exact (trip_page_in_travel_order_iff ⟨db, [], [], [], [], [], ⟨0⟩, ⟨0⟩⟩ "T"
    (twoCalls_filesHold _ _) himport (twoCalls_mono (by decide))
    (twoCalls_span (by decide) (by decide)) (fun r hr => absurd hr List.not_mem_nil)).2
      (Or.inr (twoCalls_withinOneNight (by decide) (by decide))) _ (tripResult_getByTripId _ _)

/-- A trip that calls at 02:55 and at 03:05 is listed from its second stop. -/
theorem trip_page_wrong_at_three :
    ¬ ∀ (files : GtfsFiles) (g : GtfsDataset) (dataset : String) (dateSerial serial : ℕ → ℤ)
      (x : Instant Unit) (tripId : String), FilesHold files g →
      importFiles files dataset dateSerial serial = .ok x.db →
      (∀ st ∈ g.stopTimes, ∀ st' ∈ g.stopTimes, st.tripId = tripId → st'.tripId = tripId →
        st.stopSequence ≤ st'.stopSequence → st.arrival.seconds ≤ st'.arrival.seconds) →
      (∀ st ∈ g.stopTimes, ∀ st' ∈ g.stopTimes, st.tripId = tripId → st'.tripId = tripId →
        st'.arrival.seconds < st.arrival.seconds + 86400) →
      NoOverlay x tripId → ∀ rows, x.db.TripResult tripId rows →
      ∀ page, tripPageOf x rows = some page → InTravelOrder g tripId page := by
  intro h
  obtain ⟨db, himport⟩ := exists_of_isOk (e := importFiles
    (twoCallFiles ⟨2, 55, 0, by decide, by decide, by decide⟩
      ⟨3, 5, 0, by decide, by decide, by decide⟩) "TFI" (fun i => i) (fun i => i)) (by decide +kernel)
  have hmono := @twoCalls_mono ⟨2, 55, 0, by decide, by decide, by decide⟩
    ⟨3, 5, 0, by decide, by decide, by decide⟩ (by decide)
  have hspan := @twoCalls_span ⟨2, 55, 0, by decide, by decide, by decide⟩
    ⟨3, 5, 0, by decide, by decide, by decide⟩ (by decide) (by decide)
  have hoverlay : @NoOverlay Unit ⟨db, [], [], [], [], [], ⟨0⟩, ⟨0⟩⟩ "T" :=
    fun r hr => absurd hr List.not_mem_nil
  have hall := h _ _ _ _ _ _ _ (twoCalls_filesHold _ _) himport hmono hspan hoverlay
  have hnight := withinOneNight_of_increasing (tablesOf_import (twoCalls_filesHold _ _) himport)
    hmono hspan ⟨_, List.mem_cons_self, rfl, _, List.mem_cons_self, rfl⟩
    fun rows hrows => increasing_of_inTravelOrder hoverlay hrows (hall rows hrows)
  have hsame := hnight _ List.mem_cons_self _ (List.mem_cons_of_mem _ List.mem_cons_self) rfl rfl
    (by decide)
  exact absurd hsame.2 (by decide)

end SimplyTransport
