import SimplyTransport.ScheduleRepo

/-!
# Schedules of a date

Regular service of a weekday, without the calendars that are inactive or removed on the date,
and with the services that `calendar_dates` adds. When a trip has one stop time at most for each
sequence number, the result holds exactly the joined rows whose calendar runs on the date, each
of them once.
-/

namespace SimplyTransport

def getRemovedExceptionsOnDate (db : StaticDatabase) (date : Date) : List CalendarDateModel :=
  db.calendarDates.filter (fun e => e.date = date ∧ e.exceptionType = .removed)

def getAddedExceptionsOnDate (db : StaticDatabase) (date : Date) : List CalendarDateModel :=
  db.calendarDates.filter (fun e => e.date = date ∧ e.exceptionType = .added)

def getScheduleOnStopForDayBetweenTimes (db : StaticDatabase) (stopId : String) (day : DayOfWeek)
    (startTime endTime : Time) : List StaticScheduleModel :=
  getStaticSchedules db day ⟨some stopId, some startTime, some endTime, none⟩

def removeExceptionsAndInactiveCalendars (db : StaticDatabase)
    (schedules : List StaticScheduleModel) (onDate : Date) : List StaticScheduleModel :=
  let removed := (getRemovedExceptionsOnDate db onDate).map (fun e => e.serviceId)
  schedules.filter (fun s => s.isActiveOnDate onDate ∧ s.calendar.id ∉ removed)

def StaticScheduleModel.key (s : StaticScheduleModel) : String × ℤ :=
  (s.trip.id, s.stopTime.stopSequence)

def addInAddedExceptions (db : StaticDatabase) (schedules : List StaticScheduleModel)
    (onDate : Date) (q : ScheduleConditions) : List StaticScheduleModel :=
  let added := (getAddedExceptionsOnDate db onDate).map (fun e => e.serviceId)
  if added.isEmpty then schedules else
  let existingKeys := schedules.map StaticScheduleModel.key
  let extras := (getStaticSchedulesForServiceIds db added q).filter
    (fun s => s.key ∉ existingKeys)
  schedules ++ extras.map (fun s => { s with isAddedException := true })

/-- The schedules of a date, as the pages ask for them. -/
def schedulesOnDate (db : StaticDatabase) (day : DayOfWeek) (onDate : Date)
    (q : ScheduleConditions) : List StaticScheduleModel :=
  addInAddedExceptions db
    (removeExceptionsAndInactiveCalendars db (getStaticSchedules db day q) onDate) onDate q

/-- A trip has one stop time at most for each sequence number. -/
def UniqueCalls (db : StaticDatabase) : Prop :=
  (db.stopTimes.map (fun st => (st.tripId, st.stopSequence))).Nodup

instance (db : StaticDatabase) : Decidable (UniqueCalls db) :=
  inferInstanceAs (Decidable (List.Nodup _))

def CalendarModel.RegularOn (c : CalendarModel) (db : StaticDatabase) (date : Date) : Prop :=
  c.isActiveOnDate date = true ∧
    ∀ e ∈ db.calendarDates, e.serviceId = c.id → e.date = date → e.exceptionType ≠ .removed

def CalendarModel.AddedOn (c : CalendarModel) (db : StaticDatabase) (date : Date) : Prop :=
  ∃ e ∈ db.calendarDates, e.serviceId = c.id ∧ e.date = date ∧ e.exceptionType = .added

variable {db : StaticDatabase} {s s' : StaticScheduleModel} {q : ScheduleConditions}
  {day : DayOfWeek} {onDate : Date}

theorem mem_removedExceptions {c : CalendarModel} :
    c.id ∉ (getRemovedExceptionsOnDate db onDate).map (fun e => e.serviceId) ↔
      ∀ e ∈ db.calendarDates, e.serviceId = c.id → e.date = onDate →
        e.exceptionType ≠ .removed := by
  simp only [getRemovedExceptionsOnDate, List.mem_map, List.mem_filter, decide_eq_true_eq]
  constructor
  · intro h e he hid hdate htype
    exact h ⟨e, ⟨he, hdate, htype⟩, hid⟩
  · rintro h ⟨e, ⟨he, hdate, htype⟩, hid⟩
    exact h e he hid hdate htype

theorem mem_addedExceptions {c : CalendarModel} :
    c.id ∈ (getAddedExceptionsOnDate db onDate).map (fun e => e.serviceId) ↔
      c.AddedOn db onDate := by
  simp only [getAddedExceptionsOnDate, List.mem_map, List.mem_filter, decide_eq_true_eq,
    CalendarModel.AddedOn]
  constructor
  · rintro ⟨e, ⟨he, hdate, htype⟩, hid⟩
    exact ⟨e, he, hid, hdate, htype⟩
  · rintro ⟨e, he, hid, hdate, htype⟩
    exact ⟨e, ⟨he, hdate, htype⟩, hid⟩

theorem mem_regular (hday : day = DayOfWeek.ofDate onDate) :
    s ∈ removeExceptionsAndInactiveCalendars db (getStaticSchedules db day q) onDate ↔
      db.Joined s ∧ q.hold s = true ∧ s.calendar.RegularOn db onDate := by
  subst hday
  simp only [removeExceptionsAndInactiveCalendars, List.mem_filter, decide_eq_true_eq,
    mem_getStaticSchedules, mem_removedExceptions, CalendarModel.RegularOn,
    StaticScheduleModel.isActiveOnDate]
  constructor
  · rintro ⟨⟨hjoin, _, hq⟩, hactive, hremoved⟩
    exact ⟨hjoin, hq, hactive, hremoved⟩
  · rintro ⟨hjoin, hq, hactive, hremoved⟩
    refine ⟨⟨hjoin, ?_, hq⟩, hactive, hremoved⟩
    rw [CalendarModel.flagOn_ofDate]
    exact ((CalendarModel.isActiveOnDate_iff _ _).1 hactive).2

theorem mem_addInAddedExceptions {schedules : List StaticScheduleModel} :
    s ∈ addInAddedExceptions db schedules onDate q ↔ s ∈ schedules ∨
      ∃ s', db.Joined s' ∧ q.hold s' = true ∧ s'.calendar.AddedOn db onDate ∧
        s'.key ∉ schedules.map StaticScheduleModel.key ∧
        s = { s' with isAddedException := true } := by
  unfold addInAddedExceptions
  by_cases hadded : (getAddedExceptionsOnDate db onDate).map (fun e => e.serviceId) = []
  · rw [hadded]
    refine ⟨Or.inl, ?_⟩
    rintro (h | ⟨s', _, _, hc, _⟩)
    · exact h
    · rw [← mem_addedExceptions, hadded] at hc
      exact absurd hc List.not_mem_nil
  · simp only [List.isEmpty_iff, hadded, if_false, List.mem_append, List.mem_map,
      List.mem_filter, decide_eq_true_eq, mem_getStaticSchedulesForServiceIds]
    refine or_congr_right ⟨?_, ?_⟩
    · rintro ⟨s', ⟨⟨hjoin, hc, hq⟩, hkey⟩, rfl⟩
      exact ⟨s', hjoin, hq, mem_addedExceptions.1 (List.mem_map.2 hc), hkey, rfl⟩
    · rintro ⟨s', hjoin, hq, hc, hkey, rfl⟩
      exact ⟨s', ⟨⟨hjoin, List.mem_map.1 (mem_addedExceptions.2 hc), hq⟩, hkey⟩, rfl⟩

theorem trip_mem_of_schedulesOnDate (hs : s ∈ schedulesOnDate db day onDate q) :
    s.trip ∈ db.trips := by
  rw [schedulesOnDate, mem_addInAddedExceptions] at hs
  rcases hs with hs | ⟨s', hjoin, _, _, _, rfl⟩
  · exact (mem_getStaticSchedules.1 (List.mem_of_mem_filter hs)).1.trip.1
  · exact hjoin.trip.1

theorem StaticDatabase.Joined.key_eq (h : db.Joined s) :
    s.key = (s.stopTime.tripId, s.stopTime.stopSequence) := by
  rw [StaticScheduleModel.key, h.trip.2]

theorem joinedRows_key_nodup (hu : UniqueCalls db) :
    (db.joinedRows.map StaticScheduleModel.key).Nodup := by
  have hkeys : db.joinedRows.map StaticScheduleModel.key =
      (db.joinedRows.map (fun s => s.stopTime)).map (fun st => (st.tripId, st.stopSequence)) := by
    rw [List.map_map]
    apply List.map_congr_left
    exact fun s hs => (mem_joinedRows.1 hs).key_eq
  rw [hkeys]
  exact List.Nodup.sublist ((joinedRows_stopTime_sublist db).map _) hu

theorem StaticDatabase.Joined.eq_of_key (hu : UniqueCalls db) (hs : db.Joined s)
    (hs' : db.Joined s') (h : s.key = s'.key) : s = s' :=
  List.inj_on_of_nodup_map (joinedRows_key_nodup hu) (mem_joinedRows.2 hs)
    (mem_joinedRows.2 hs') h

/-- A row is regular service of the date, or service added to it that is not regular. -/
theorem mem_schedulesOnDate (hu : UniqueCalls db) (hday : day = DayOfWeek.ofDate onDate) :
    s ∈ schedulesOnDate db day onDate q ↔
      db.Joined { s with isAddedException := false } ∧ q.hold s = true ∧
        if s.isAddedException then
          s.calendar.AddedOn db onDate ∧ ¬ s.calendar.RegularOn db onDate
        else s.calendar.RegularOn db onDate := by
  rw [schedulesOnDate, mem_addInAddedExceptions, mem_regular hday]
  constructor
  · rintro (⟨hjoin, hq, hregular⟩ | ⟨s', hjoin, hq, hadded, hkey, rfl⟩)
    · rw [hjoin.isAddedException]
      refine ⟨?_, hq, hregular⟩
      have hs : { s with isAddedException := false } = s := by rw [← hjoin.isAddedException]
      rw [hs]
      exact hjoin
    · refine ⟨?_, hq, hadded, fun hregular => hkey ?_⟩
      · have hs' : { s' with isAddedException := false } = s' := by
          rw [← hjoin.isAddedException]
        exact hs' ▸ hjoin
      · exact List.mem_map_of_mem ((mem_regular hday).2 ⟨hjoin, hq, hregular⟩)
  · rintro ⟨hjoin, hq, hruns⟩
    cases hflag : s.isAddedException with
    | false =>
        rw [hflag] at hruns
        have hs : { s with isAddedException := false } = s := by rw [← hflag]
        rw [hs] at hjoin
        exact Or.inl ⟨hjoin, hq, hruns⟩
    | true =>
        rw [hflag] at hruns
        refine Or.inr ⟨{ s with isAddedException := false }, hjoin, hq, hruns.1, ?_, ?_⟩
        · intro hkey
          obtain ⟨s', hs', hkey⟩ := List.mem_map.1 hkey
          obtain ⟨hjoin', _, hregular⟩ := (mem_regular hday).1 hs'
          rw [hjoin'.eq_of_key hu hjoin hkey] at hregular
          exact hruns.2 hregular
        · rw [← hflag]

/-- The calls of a date: each joined row whose calendar runs on it, as one or the other. -/
theorem exists_schedulesOnDate (hu : UniqueCalls db) (hday : day = DayOfWeek.ofDate onDate)
    (k : String × ℤ) :
    (∃ s ∈ schedulesOnDate db day onDate q, s.key = k) ↔
      ∃ s, db.Joined s ∧ s.key = k ∧ q.hold s = true ∧
        (s.calendar.RegularOn db onDate ∨ s.calendar.AddedOn db onDate) := by
  constructor
  · rintro ⟨s, hs, hk⟩
    obtain ⟨hjoin, hq, hruns⟩ := (mem_schedulesOnDate hu hday).1 hs
    refine ⟨{ s with isAddedException := false }, hjoin, hk, hq, ?_⟩
    split_ifs at hruns with hflag
    · exact Or.inr hruns.1
    · exact Or.inl hruns
  · rintro ⟨s, hjoin, hk, hq, hruns⟩
    by_cases hregular : s.calendar.RegularOn db onDate
    · refine ⟨s, (mem_schedulesOnDate hu hday).2 ⟨?_, hq, ?_⟩, hk⟩
      · rw [← hjoin.isAddedException]
        exact hjoin
      · rw [hjoin.isAddedException]
        exact hregular
    · refine ⟨{ s with isAddedException := true }, (mem_schedulesOnDate hu hday).2 ⟨?_, hq, ?_⟩, hk⟩
      · change db.Joined { s with isAddedException := false }
        rw [← hjoin.isAddedException]
        exact hjoin
      · exact ⟨hruns.resolve_left hregular, hregular⟩

theorem executeStaticSchedules_key_nodup (hu : UniqueCalls db)
    (conditions : StaticScheduleModel → Bool) :
    ((executeStaticSchedules db conditions).map StaticScheduleModel.key).Nodup := by
  refine ((List.mergeSort_perm _ _).map _).nodup_iff.2 ?_
  exact List.Nodup.sublist (List.filter_sublist.map _) (joinedRows_key_nodup hu)

/-- No call is listed twice. -/
theorem schedulesOnDate_key_nodup (hu : UniqueCalls db) :
    ((schedulesOnDate db day onDate q).map StaticScheduleModel.key).Nodup := by
  have hregular : ((removeExceptionsAndInactiveCalendars db (getStaticSchedules db day q)
      onDate).map StaticScheduleModel.key).Nodup :=
    List.Nodup.sublist (List.filter_sublist.map _) (executeStaticSchedules_key_nodup hu _)
  simp only [schedulesOnDate, addInAddedExceptions]
  split_ifs with hadded
  · exact hregular
  · rw [List.map_append, List.map_map, List.nodup_append]
    refine ⟨hregular, ?_, ?_⟩
    · change (List.map StaticScheduleModel.key _).Nodup
      refine List.Nodup.sublist (List.filter_sublist.map _) ?_
      rw [getStaticSchedulesForServiceIds, if_neg hadded]
      exact executeStaticSchedules_key_nodup hu _
    · rintro k hk _ hk' rfl
      obtain ⟨s', hs', rfl⟩ := List.mem_map.1 hk'
      exact of_decide_eq_true (List.mem_filter.1 hs').2 hk

end SimplyTransport
