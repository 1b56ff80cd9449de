import SimplyTransport.CachedHandlers

/-!
# Tables that tell queries apart

Two queries for delays differ in some row, that is, in the response to tables of one row; two stops
differ in the schedules of tables with one call, and two days in the name on the page.
-/

namespace SimplyTransport

section Separation

variable {E : Externals} {website : Bool} {q q' : DelayConditions}
  {path detail path' detail' : String}

def noStatic : StaticDatabase where
  routes := []
  calendars := []
  calendarDates := []
  stops := []
  trips := []
  stopTimes := []
  routes_nodup := List.nodup_nil
  calendars_nodup := List.nodup_nil
  stops_nodup := List.nodup_nil
  trips_nodup := List.nodup_nil

def oneDelay (E : Externals) (row : TSStopTimeRow) (now : DateTime) : Instant E.Feature where
  db := noStatic
  agencies := []
  stopFeatures := []
  rtTrips := []
  rtStopTimes := []
  delays := [row]
  nowUtc := now
  now := now

theorem length_getDelay_singleton (row : TSStopTimeRow) (now : DateTime) (q : DelayConditions) :
    (getDelay [row] now q).length = (q.hold now row).toNat := by
  rw [getDelay, newestRows, List.filter_singleton]
  cases q.hold now row with
  | false => rw [cond_false, List.mergeSort_nil]; rfl
  | true => rw [cond_true, List.mergeSort_singleton]; rfl

theorem getAggregatedDelay_singleton {α : Type} (row : TSStopTimeRow) (now : DateTime)
    (q : DelayConditions) (aggregate : List ℤ → α) :
    getAggregatedDelay [row] now q aggregate =
      if q.hold now row = true then some (aggregate [row.delayInSeconds]) else none := by
  rw [getAggregatedDelay, List.filter_singleton]
  cases q.hold now row <;> rfl

theorem hold_eq_of_map {β : Type} {f : TSStopTimeRow → β} {row : TSStopTimeRow} {now : DateTime}
    (h : (getDelay [row] now q).map f = (getDelay [row] now q').map f) :
    q.hold now row = q'.hold now row := by
  have hlength := congrArg List.length h
  rw [List.length_map, List.length_map, length_getDelay_singleton,
    length_getDelay_singleton] at hlength
  revert hlength
  cases q.hold now row <;> cases q'.hold now row <;> decide

theorem hold_eq_of_samples
    (h : ∀ x, (Query.samples q).run E website x = (Query.samples q').run E website x)
    (now : DateTime) (row : TSStopTimeRow) : q.hold now row = q'.hold now row :=
  hold_eq_of_map (Response.samples.inj (h (oneDelay E row now)))

theorem hold_eq_of_truncated
    (h : ∀ x, (Query.truncated q).run E website x = (Query.truncated q').run E website x)
    (now : DateTime) (row : TSStopTimeRow) : q.hold now row = q'.hold now row :=
  hold_eq_of_map (Response.truncated.inj (h (oneDelay E row now)))

theorem hold_eq_of_aggregated
    (h : ∀ x, (Query.aggregated path detail q).run E website x =
      (Query.aggregated path' detail' q').run E website x) (now : DateTime) (row : TSStopTimeRow) :
    q.hold now row = q'.hold now row := by
  have hrow := h (oneDelay E row now)
  simp only [Query.run, oneDelay, getAggregatedDelay_singleton] at hrow
  cases hq : q.hold now row with
  | false =>
      cases hq' : q'.hold now row with
      | false => rfl
      | true =>
          rw [hq, hq'] at hrow
          cases hrow
  | true =>
      cases hq' : q'.hold now row with
      | false =>
          rw [hq, hq'] at hrow
          cases hrow
      | true => rfl

theorem run_ne_failure {query : Query} (h : ∀ path detail q, query ≠ .aggregated path detail q)
    (x : Instant E.Feature) (f : Failure E) : query.run E website x ≠ .failure f := by
  cases query with
  | aggregated path detail q => exact absurd rfl (h path detail q)
  | stop stopId =>
      simp only [Query.run]
      split <;> exact nofun
  | stopTable stopId =>
      simp only [Query.run]
      split <;> exact nofun
  | route routeId direction =>
      simp only [Query.run]
      split <;> exact nofun
  | trip tripId =>
      simp only [Query.run]
      split <;> exact nofun
  | _ => exact nofun

/-- In some tables there are rows for the query. -/
theorem exists_answered {query : Query}
    (hquery : ∀ path detail q, query = .aggregated path detail q → q.rangeEmpty = false) :
    ∃ x, ∀ f, query.run E website x ≠ .failure f := by
  by_cases h : ∃ path detail q, query = .aggregated path detail q
  · obtain ⟨path, detail, q, rfl⟩ := h
    obtain ⟨t, ht⟩ := DelayConditions.exists_inRange (hquery path detail q rfl)
    refine ⟨oneDelay E (q.rowAt t) t, fun f => ?_⟩
    simp only [Query.run, oneDelay, getAggregatedDelay_singleton,
      if_pos (DelayConditions.hold_rowAt.2 ht)]
    exact nofun
  · simp only [not_exists] at h
    exact ⟨oneDelay E ⟨⟨"", "", Time.midnight, 0⟩, ⟨0⟩⟩ ⟨0⟩, run_ne_failure h _⟩

end Separation

section Schedules

variable {E : Externals} {website : Bool} {stopId stopId' : String} {day day' : Option DayOfWeek}

def oneCall (s : StaticScheduleModel) : StaticDatabase where
  routes := [s.route]
  calendars := [s.calendar]
  calendarDates := []
  stops := [s.stop]
  trips := [s.trip]
  stopTimes := [s.stopTime]
  routes_nodup := List.nodup_singleton _
  calendars_nodup := List.nodup_singleton _
  stops_nodup := List.nodup_singleton _
  trips_nodup := List.nodup_singleton _

def callOn (stopId : String) (date : Date) : StaticScheduleModel where
  route := ⟨"R", "", "", "", "", 3, "", "", "", ""⟩
  stopTime := ⟨0, "T", Time.midnight, Time.midnight, stopId, 1, "", none, none, none, ""⟩
  calendar := ⟨"C", 1, 1, 1, 1, 1, 1, 1, date, date, ""⟩
  stop := ⟨stopId, "", "", "", "", "", none, none, ""⟩
  trip := ⟨"T", "R", "C", "", "", "", 0, "", ""⟩
  isAddedException := false

theorem joined_callOn (stopId : String) (date : Date) :
    (oneCall (callOn stopId date)).Joined (callOn stopId date) where
  stopTime := List.mem_singleton_self _
  trip := ⟨List.mem_singleton_self _, rfl⟩
  stop := ⟨List.mem_singleton_self _, rfl⟩
  route := ⟨List.mem_singleton_self _, rfl⟩
  calendar := ⟨List.mem_singleton_self _, rfl⟩
  isAddedException := rfl

theorem regularOn_callOn (stopId : String) (date : Date) :
    (callOn stopId date).calendar.RegularOn (oneCall (callOn stopId date)) date := by
  refine ⟨?_, nofun⟩
  rw [CalendarModel.isActiveOnDate_iff, ← CalendarModel.flagOn_ofDate]
  refine ⟨⟨le_refl date, le_refl date⟩, ?_⟩
  cases DayOfWeek.ofDate date <;> rfl

theorem callOn_mem_iff (date : Date) (hne : stopId' ≠ "") :
    callOn stopId date ∈ schedulesOnDate (oneCall (callOn stopId date)) (DayOfWeek.ofDate date)
      date ⟨some stopId', none, none, none⟩ ↔ stopId = stopId' := by
  have hhold : ScheduleConditions.hold ⟨some stopId', none, none, none⟩ (callOn stopId date) =
      true ↔ stopId = stopId' := by
    have hfilter : (some stopId').filter (fun id => id ≠ "") = some stopId' := by
      rw [Option.filter_some, if_pos (decide_eq_true hne)]
    simp only [ScheduleConditions.hold, hfilter, Option.filter_none, Option.all_some,
      Option.all_none, arrivalTimeConditions, decide_eq_true_eq, and_true]
    exact Iff.rfl
  have hunique : UniqueCalls (oneCall (callOn stopId date)) := List.nodup_singleton _
  rw [mem_schedulesOnDate hunique rfl, hhold]
  exact ⟨fun h => h.2.1, fun h => ⟨joined_callOn stopId date, h, regularOn_callOn stopId date⟩⟩

theorem exists_weekday_ne (d : DayOfWeek) : ∃ now : DateTime, DayOfWeek.ofDate now.date ≠ d := by
  by_cases h : DayOfWeek.ofDate (DateTime.date ⟨0⟩) = d
  · exact ⟨⟨86400000000⟩, fun h' => absurd (h.trans h'.symm) (by decide)⟩
  · exact ⟨⟨0⟩, h⟩

theorem day_eq_of_getD (h : ∀ now : DateTime,
    day.getD (DayOfWeek.ofDate now.date) = day'.getD (DayOfWeek.ofDate now.date)) : day = day' := by
  cases day with
  | none =>
      cases day' with
      | none => rfl
      | some d =>
          obtain ⟨now, hnow⟩ := exists_weekday_ne d
          exact absurd (h now) hnow
  | some d =>
      cases day' with
      | none =>
          obtain ⟨now, hnow⟩ := exists_weekday_ne d
          exact absurd (h now).symm hnow
      | some d' => exact congrArg some (h ⟨0⟩)

/-- The pages of two stops differ where one has a call, and those of two days in the day. -/
theorem schedule_eq (hne : stopId ≠ "") (hne' : stopId' ≠ "")
    (h : ∀ x, (Query.schedule stopId day).run E website x =
      (Query.schedule stopId' day').run E website x) : stopId = stopId' ∧ day = day' := by
  have hpage : ∀ x : Instant E.Feature, realtimeStopSchedule x.db x.now stopId day =
      realtimeStopSchedule x.db x.now stopId' day' := fun x => Response.schedulePage.inj (h x)
  have hday : day = day' := day_eq_of_getD (fun now =>
    DayOfWeek.capitalizedName_injective (congrArg StopSchedulePage.dayString
      (hpage (oneDelay E ⟨⟨"", "", Time.midnight, 0⟩, now⟩ now))))
  subst hday
  let date := nextDateForDay (day.getD (DayOfWeek.ofDate (DateTime.date ⟨0⟩))).value
    (DateTime.date ⟨0⟩)
  have hsame := congrArg StopSchedulePage.schedules (hpage
    { oneDelay E ⟨⟨"", "", Time.midnight, 0⟩, ⟨0⟩⟩ ⟨0⟩ with db := oneCall (callOn stopId date) })
  rw [realtimeStopSchedule_schedules, realtimeStopSchedule_schedules] at hsame
  have hmem : callOn stopId date ∈ schedulesOnDate (oneCall (callOn stopId date))
      (DayOfWeek.ofDate date) date ⟨some stopId', none, none, none⟩ :=
    hsame ▸ (callOn_mem_iff date hne).2 rfl
  exact ⟨(callOn_mem_iff date hne').1 hmem, rfl⟩

end Schedules

end SimplyTransport
