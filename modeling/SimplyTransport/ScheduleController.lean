import SimplyTransport.QuerySeparation
import SimplyTransport.RealtimeController
import SimplyTransport.TimeWindows

/-!
# The windows that the timetable endpoints accept

Both endpoints of a stop compare the hours between the two ends of the window, the shorter way
round, with their limit. The query takes the window going forward from its start.
-/

namespace SimplyTransport

def getScheduleByStopId (db : StaticDatabase) (now : DateTime) (stopId : String)
    (startTime endTime : Option Time) (day : Option DayOfWeek) :
    Except ValidationException (List StaticScheduleModel) :=
  let startTime := startTime.getD (now.addMinutes (-10)).time
  let endTime := endTime.getD (now.addMinutes 60).time
  let domainDay := day.getD (DayOfWeek.ofDate now.date)
  if startTime = endTime then
    .error ⟨"Start time cannot be equal to end time", none⟩
  else
    let maxHoursApart : ℤ := 6
    let difference := returnTimeDifference startTime endTime
    if difference > maxHoursApart then
      .error ⟨"The difference of hours between start and end time must be at most " ++
        toString maxHoursApart ++ " hours", some (startTime, endTime, difference)⟩
    else
      let onDate := nextDateForDay domainDay.value now.date
      let schedules := getScheduleOnStopForDayBetweenTimes db stopId domainDay startTime endTime
      let schedules := removeExceptionsAndInactiveCalendars db schedules onDate
      let schedules := addInAddedExceptions db schedules onDate
        ⟨some stopId, some startTime, some endTime, none⟩
      .ok (applyCustom2300Sorting (fun s => s.stopTime.arrivalTime) schedules)

def Answered {ε α : Type} (response : Except ε α) : Prop := ∃ rows, response = .ok rows

def MatchedTime (startTime endTime t : Time) : Prop :=
  ∃ st : StopTimeModel, st.arrivalTime = t ∧
    arrivalTimeConditions (some startTime) (some endTime) st = true

/-- The matched times of an answered window span no more than `hours`, and a window of at most
`hours` is answered. -/
def WindowBounded (hours : ℤ) (answered : Prop) (startTime endTime : Time) : Prop :=
  (answered → SpansAtMost (MatchedTime startTime endTime) (hours * 3600000000)) ∧
    (endTime.since startTime ≤ hours * 3600000000 → answered)

/-- The hours of the clock from one time to another, going forward. -/
def hoursForward (startTime endTime : Time) : ℤ := ((endTime.hour : ℤ) - startTime.hour) % 24

/-- The hours of the clock decide as the length of the window does: far apart both ways, fewer
than `limit` going forward (and the end after the start within one hour), or exactly `limit` with
an end no further into its hour than the start. -/
def HoursDecide (limit : ℤ) (startTime endTime : Time) : Prop :=
  (limit < hoursForward startTime endTime ∧ hoursForward startTime endTime < 24 - limit) ∨
    (hoursForward startTime endTime < limit ∧
      (hoursForward startTime endTime ≠ 0 ∨ startTime < endTime)) ∨
    (hoursForward startTime endTime = limit ∧
      endTime.micros % 3600000000 ≤ startTime.micros % 3600000000)

section Windows

variable {startTime endTime : Time}

theorem returnTimeDifference_le_iff (hne : startTime ≠ endTime) {limit : ℤ} (h : limit < 12) :
    returnTimeDifference startTime endTime ≤ limit ↔
      hoursForward startTime endTime ≤ limit ∨ 24 - limit ≤ hoursForward startTime endTime := by
  simp only [returnTimeDifference, if_neg hne, hoursForward]
  split_ifs <;> omega

/-- The length of a window by the hours and by the times past the hour. -/
theorem since_eq_hours (startTime endTime : Time) :
    endTime.since startTime = (hoursForward startTime endTime * 3600000000 +
      ((endTime.micros % 3600000000 : ℕ) - (startTime.micros % 3600000000 : ℕ) : ℤ)) %
        dayMicros := by
  have hs := startTime.lt_day
  have he := endTime.lt_day
  simp only [Time.since, hoursForward, Time.hour]
  unfold dayMicros at hs he ⊢
  omega

theorem matchedTime_iff {t : Time} :
    MatchedTime startTime endTime t ↔ t.since startTime ≤ endTime.since startTime := by
  constructor
  · rintro ⟨st, rfl, hst⟩
    exact (arrivalTimeConditions_iff_since startTime endTime st).1 hst
  · intro ht
    exact ⟨⟨0, "", t, t, "", 0, "", none, none, none, ""⟩, rfl,
      (arrivalTimeConditions_iff_since startTime endTime _).2 ht⟩

theorem spansAtMost_matchedTime_iff {hours : ℤ} (h : hours < 12) :
    SpansAtMost (MatchedTime startTime endTime) (hours * 3600000000) ↔
      endTime.since startTime ≤ hours * 3600000000 := by
  have hmatched : MatchedTime startTime endTime =
      fun t => t.since startTime ≤ endTime.since startTime :=
    funext fun _ => propext matchedTime_iff
  rw [hmatched]
  apply spansAtMost_window_iff
  unfold dayMicros
  omega

theorem hoursForward_bounds (startTime endTime : Time) :
    0 ≤ hoursForward startTime endTime ∧ hoursForward startTime endTime < 24 := by
  unfold hoursForward
  omega

theorem since_le_hours_iff (hne : startTime ≠ endTime) {limit : ℤ} (h0 : 0 < limit)
    (h12 : limit < 12) :
    endTime.since startTime ≤ limit * 3600000000 ↔
      (hoursForward startTime endTime < limit ∧
        (hoursForward startTime endTime ≠ 0 ∨ startTime < endTime)) ∨
      (hoursForward startTime endTime = limit ∧
        endTime.micros % 3600000000 ≤ startTime.micros % 3600000000) := by
  have hs := startTime.lt_day
  have he := endTime.lt_day
  have hmicros : startTime.micros ≠ endTime.micros := fun h => hne (Time.ext h)
  have hforward := hoursForward_bounds startTime endTime
  have hlt : hoursForward startTime endTime = 0 → (startTime < endTime ↔
      startTime.micros % 3600000000 < endTime.micros % 3600000000) := by
    simp only [hoursForward, Time.hour, Time.lt_iff]
    unfold dayMicros at hs he
    omega
  have hpast : hoursForward startTime endTime = 0 →
      startTime.micros % 3600000000 ≠ endTime.micros % 3600000000 := by
    simp only [hoursForward, Time.hour]
    unfold dayMicros at hs he
    omega
  rw [since_eq_hours]
  have hp : endTime.micros % 3600000000 < 3600000000 := Nat.mod_lt _ (by decide)
  have hq : startTime.micros % 3600000000 < 3600000000 := Nat.mod_lt _ (by decide)
  generalize endTime.micros % 3600000000 = p at *
  generalize startTime.micros % 3600000000 = q at *
  generalize hoursForward startTime endTime = hours at *
  unfold dayMicros
  by_cases hzero : hours = 0
  · rw [hlt hzero]
    have hpq := hpast hzero
    omega
  · simp only [hzero, ne_eq, not_false_eq_true, true_or, and_true]
    omega

theorem windowBounded_iff {answered : Prop} {limit : ℤ} (h0 : 0 < limit) (h12 : limit < 12)
    (hne : startTime ≠ endTime)
    (hanswered : answered ↔ returnTimeDifference startTime endTime ≤ limit) :
    WindowBounded limit answered startTime endTime ↔ HoursDecide limit startTime endTime := by
  rw [WindowBounded, spansAtMost_matchedTime_iff h12, hanswered,
    returnTimeDifference_le_iff hne h12, since_le_hours_iff hne h0 h12, HoursDecide]
  generalize (endTime.micros % 3600000000 ≤ startTime.micros % 3600000000) = past
  generalize (startTime < endTime) = before
  have hforward := hoursForward_bounds startTime endTime
  generalize hoursForward startTime endTime = hours at hforward ⊢
  clear hanswered
  by_cases hpast : past <;> by_cases hbefore : before <;>
    simp only [hpast, hbefore, and_true, and_false, or_true, or_false] <;> omega

end Windows

theorem not_answered_error {ε α : Type} {e : ε} : ¬ Answered (.error e : Except ε α) := by
  rintro ⟨_, ⟨⟩⟩

theorem getScheduleByStopId_answered (db : StaticDatabase) (now : DateTime) (stopId : String)
    (startTime endTime : Option Time) (day : Option DayOfWeek)
    (hne : startTime.getD (now.addMinutes (-10)).time ≠ endTime.getD (now.addMinutes 60).time) :
    Answered (getScheduleByStopId db now stopId startTime endTime day) ↔
      returnTimeDifference (startTime.getD (now.addMinutes (-10)).time)
        (endTime.getD (now.addMinutes 60).time) ≤ 6 := by
  simp only [getScheduleByStopId, if_neg hne, gt_iff_lt]
  split_ifs with h
  · exact iff_of_false not_answered_error (not_le.2 h)
  · exact iff_of_true ⟨_, rfl⟩ (not_lt.1 h)

theorem getRealtimeScheduleByStopId_answered (db : StaticDatabase) (rtTrips : List RTTripModel)
    (rtStopTimes : List RTStopTimeModel) (nowUtc now : DateTime) (stopId : String)
    (startTime endTime : Option Time) (day : Option DayOfWeek)
    (hne : startTime.getD (now.addMinutes (-10)).time ≠ endTime.getD (now.addMinutes 60).time) :
    Answered (getRealtimeScheduleByStopId db rtTrips rtStopTimes nowUtc now stopId startTime
        endTime day) ↔
      returnTimeDifference (startTime.getD (now.addMinutes (-10)).time)
        (endTime.getD (now.addMinutes 60).time) ≤ 4 := by
  simp only [getRealtimeScheduleByStopId, if_neg hne, gt_iff_lt]
  split_ifs with h
  · exact iff_of_false not_answered_error (not_le.2 h)
  · exact iff_of_true ⟨_, rfl⟩ (not_lt.1 h)

/-- The two endpoints bound their windows by 4 and by 6 hours exactly where the hours of the clock
decide as the length of the window does. -/
theorem accepted_windows_bounded_iff (db : StaticDatabase) (rtTrips : List RTTripModel)
    (rtStopTimes : List RTStopTimeModel) (nowUtc now : DateTime) (stopId : String)
    (startTime endTime : Option Time) (day : Option DayOfWeek)
    (hne : startTime.getD (now.addMinutes (-10)).time ≠ endTime.getD (now.addMinutes 60).time) :
    (WindowBounded 4 (Answered (getRealtimeScheduleByStopId db rtTrips rtStopTimes nowUtc now
          stopId startTime endTime day))
        (startTime.getD (now.addMinutes (-10)).time) (endTime.getD (now.addMinutes 60).time) ↔
      HoursDecide 4 (startTime.getD (now.addMinutes (-10)).time)
        (endTime.getD (now.addMinutes 60).time)) ∧
    (WindowBounded 6 (Answered (getScheduleByStopId db now stopId startTime endTime day))
        (startTime.getD (now.addMinutes (-10)).time) (endTime.getD (now.addMinutes 60).time) ↔
      HoursDecide 6 (startTime.getD (now.addMinutes (-10)).time)
        (endTime.getD (now.addMinutes 60).time)) :=
  ⟨windowBounded_iff (by decide) (by decide) hne
      (getRealtimeScheduleByStopId_answered db rtTrips rtStopTimes nowUtc now stopId startTime
        endTime day hne),
    windowBounded_iff (by decide) (by decide) hne
      (getScheduleByStopId_answered db now stopId startTime endTime day hne)⟩

/-- From nine to noon, a window of three hours, against the limits of both endpoints. -/
theorem accepted_windows_bounded_morning :
    WindowBounded 4 (Answered (getRealtimeScheduleByStopId noStatic [] [] ⟨0⟩ ⟨0⟩ "S"
      (some ⟨32400000000, by decide⟩) (some ⟨43200000000, by decide⟩) none))
      ⟨32400000000, by decide⟩ ⟨43200000000, by decide⟩ :=
  (accepted_windows_bounded_iff noStatic [] [] ⟨0⟩ ⟨0⟩ "S" (some ⟨32400000000, by decide⟩)
    (some ⟨43200000000, by decide⟩) none (by decide)).1.2
      (Or.inr (Or.inl ⟨by decide, Or.inl (by decide)⟩))

/-- From five in the morning to three the next morning are 22 hours, and both endpoints answer. -/
theorem reversed_window_accepted :
    ¬ ∀ (db : StaticDatabase) (rtTrips : List RTTripModel) (rtStopTimes : List RTStopTimeModel)
      (nowUtc now : DateTime) (stopId : String) (startTime endTime : Time)
      (day : Option DayOfWeek), startTime ≠ endTime →
      WindowBounded 4 (Answered (getRealtimeScheduleByStopId db rtTrips rtStopTimes nowUtc now
          stopId (some startTime) (some endTime) day)) startTime endTime ∧
        WindowBounded 6 (Answered (getScheduleByStopId db now stopId (some startTime)
          (some endTime) day)) startTime endTime := by
  intro h
  have hbounded := h noStatic [] [] ⟨0⟩ ⟨0⟩ "S" ⟨18000000000, by decide⟩ ⟨10800000000, by decide⟩
    none (by decide)
  have hanswered := (getRealtimeScheduleByStopId_answered noStatic [] [] ⟨0⟩ ⟨0⟩ "S"
    (some ⟨18000000000, by decide⟩) (some ⟨10800000000, by decide⟩) none (by decide)).2 (by decide)
  have hspan := (spansAtMost_matchedTime_iff (by decide)).1 (hbounded.1.1 hanswered)
  exact absurd hspan (by decide)

end SimplyTransport
