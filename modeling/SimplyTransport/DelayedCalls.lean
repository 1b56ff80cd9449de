import SimplyTransport.DelaysService
import SimplyTransport.OverlayOrder
import SimplyTransport.WrappedMinutes

/-!
# The delay of a call, as it is shown and recorded

An update gives a call one delay. The status, the minutes to wait and the record of the call are
taken from it; around midnight they are right where the wrapping of the times of day is.
-/

namespace SimplyTransport

def presentDelays (row : RTStopTimeModel) : List ℤ :=
  row.arrivalDelay.toList ++ row.departureDelay.toList

/-- The maximum of the delays that the feed gave, against the one with 0 for an absent delay. -/
theorem maximum_presentDelays_iff {row : RTStopTimeModel} (h : presentDelays row ≠ []) :
    (presentDelays row).maximum = (delaySeconds row : WithBot ℤ) ↔
      (row.arrivalDelay.isSome ∧ row.departureDelay.isSome) ∨
        ∃ d ∈ presentDelays row, 0 ≤ d := by
  revert h
  unfold presentDelays delaySeconds
  cases row.arrivalDelay with
  | none =>
      cases row.departureDelay with
      | none => exact fun h => absurd rfl h
      | some y =>
          intro _
          rw [Option.getD_none, Option.getD_some, max_comm]
          simp
  | some x =>
      intro _
      cases row.departureDelay with
      | none =>
          rw [Option.getD_none, Option.getD_some]
          simp
      | some y =>
          refine iff_of_true ?_ (Or.inl ⟨rfl, rfl⟩)
          simp [List.maximum_cons]

def callAt (arrival : Time) : StaticScheduleModel := timetableRow "T" "TFI" "S" 2 arrival

def updateWith (arrivalDelay departureDelay : Option ℤ) : RTStopTimeModel :=
  ⟨⟨"S0", "T", 1, "SCHEDULED", arrivalDelay, departureDelay, "e", "TFI", ⟨0⟩⟩, 1⟩

def overlayWith (arrival : Time) (row : RTStopTimeModel) : Overlay :=
  ⟨OrderedDict.empty, OrderedDict.empty.set (callAt arrival).cell ⟨row, false⟩⟩

/-- A kept update shows the greater of its delays, where an absent one counts as 0, and the record
of the call has the delay that is shown. It is the maximum of the delays that the feed gave
exactly where both are there or one is not early. -/
theorem effective_delay (overlay : Overlay) (now : DateTime) (static : StaticScheduleModel)
    (o : RTStopTimeOverlay) (hrow : static.stopOverlay overlay = some o)
    (htrip : (static.rtTrip overlay).any (fun r => r.isRemoved) = false)
    (hskip : ¬ (o.exactMatch ∧
      o.row.scheduleRelationship = ScheduleRelationship.skipped.value)) :
    (realtimeScheduleFor overlay now static).delayInSeconds =
        max (o.row.arrivalDelay.getD 0) (o.row.departureDelay.getD 0) ∧
      (∀ record, dueDelayRecord overlay now static = some record →
        record.delayInSeconds = (realtimeScheduleFor overlay now static).delayInSeconds) ∧
      (presentDelays o.row ≠ [] →
        ((presentDelays o.row).maximum =
            ((realtimeScheduleFor overlay now static).delayInSeconds : WithBot ℤ) ↔
          (o.row.arrivalDelay.isSome ∧ o.row.departureDelay.isSome) ∨
            ∃ d ∈ presentDelays o.row, 0 ≤ d)) := by
  have hshown : (realtimeScheduleFor overlay now static).delayInSeconds = delaySeconds o.row := by
    rw [realtimeScheduleFor_some htrip hrow]
    simp only [if_neg hskip, RealtimeScheduleModel.withDelay]
  refine ⟨hshown, fun record hrecord => ?_, fun hpresent => ?_⟩
  · rw [dueDelayRecord_eq] at hrecord
    split_ifs at hrecord
    cases hrecord
    rfl
  · rw [hshown]
    exact maximum_presentDelays_iff hpresent

/-- Two minutes early on arrival, with no departure in the feed, is shown as on time. -/
theorem early_arrival_shown_on_time :
    ¬ ∀ overlay now static o, StaticScheduleModel.stopOverlay static overlay = some o →
      (static.rtTrip overlay).any (fun r => r.isRemoved) = false →
      ¬ (o.exactMatch ∧ o.row.scheduleRelationship = ScheduleRelationship.skipped.value) →
      presentDelays o.row ≠ [] →
      (presentDelays o.row).maximum =
        ((realtimeScheduleFor overlay now static).delayInSeconds : WithBot ℤ) := by
  intro h
  have hmax := h (overlayWith Time.midnight (updateWith (some (-120)) none)) ⟨0⟩
    (callAt Time.midnight) ⟨updateWith (some (-120)) none, false⟩ (by decide) (by decide)
    (by decide) (by decide)
  revert hmax
  decide

theorem effective_delay_two_minutes :
    (realtimeScheduleFor (overlayWith Time.midnight (updateWith none (some 120))) ⟨0⟩
      (callAt Time.midnight)).delayInSeconds = 120 :=
  (effective_delay (overlayWith Time.midnight (updateWith none (some 120))) ⟨0⟩
    (callAt Time.midnight) ⟨updateWith none (some 120), false⟩ (by decide) (by decide)
    (by decide)).1

/-- The status that a delay of `d` seconds stands for. -/
def StatusOfDelay (status : OnTimeStatus) (d : ℤ) : Prop :=
  (status = .early ↔ d < -60) ∧ (status = .late ↔ 300 < d) ∧
    (status = .onTime ↔ -60 ≤ d ∧ d ≤ 300)

/-- The delayed arrival stays in the day of the scheduled one, or goes from the last hour of it
into the first of the next day, or from the first hour into the last of the day before. -/
def StaysNearDay (scheduled : Time) (d : ℤ) : Prop :=
  let arrival := scheduled.micros + d * 1000000
  (0 ≤ arrival ∧ arrival < dayMicros) ∨
    (scheduled.hour = 23 ∧ dayMicros ≤ arrival ∧ arrival < dayMicros + 3600000000) ∨
    (scheduled.hour = 0 ∧ -3600000000 ≤ arrival ∧ arrival < 0)

theorem wrapsFrom_addSeconds_iff (date : Date) (scheduled : Time) (d : ℤ) :
    WrapsFrom (DateTime.combine date scheduled)
      ((DateTime.combine date scheduled).addSeconds d) ↔ StaysNearDay scheduled d := by
  have ht := scheduled.lt_day
  have he := ((DateTime.combine date scheduled).addSeconds d).date_micros_add_time_micros
  have het := ((DateTime.combine date scheduled).addSeconds d).time.lt_day
  simp only [WrapsFrom, StaysNearDay, DateTime.date_combine, DateTime.time_combine, Date.ext_iff,
    Date.addDays, hour_zero_iff, hour_twentyThree_iff]
  generalize ((DateTime.combine date scheduled).addSeconds d).date = day at he
  generalize ((DateTime.combine date scheduled).addSeconds d).time = time at he het
  simp only [DateTime.addSeconds, DateTime.addMicros, DateTime.combine] at he
  unfold dayMicros at ht he het ⊢
  omega

theorem statusOfDelay_ite (d : ℤ) :
    StatusOfDelay (if d < -60 then .early else if 300 < d then .late else .onTime) d := by
  unfold StatusOfDelay
  by_cases hearly : d < -60
  · rw [if_pos hearly]
    exact ⟨iff_of_true rfl hearly, iff_of_false nofun (by omega), iff_of_false nofun (by omega)⟩
  · rw [if_neg hearly]
    by_cases hlate : 300 < d
    · rw [if_pos hlate]
      exact ⟨iff_of_false nofun hearly, iff_of_true rfl hlate, iff_of_false nofun (by omega)⟩
    · rw [if_neg hlate]
      exact ⟨iff_of_false nofun hearly, iff_of_false nofun hlate, iff_of_true rfl (by omega)⟩

/-- The on-time status is the one of the delay exactly where the delayed arrival stays in its day
or goes over midnight between the hours 23 and 0. -/
theorem on_time_status_iff (static : StaticScheduleModel) (row : RTStopTimeModel)
    (now now' : DateTime) (hd : |delaySeconds row| < 43200) :
    StatusOfDelay (onTimeStatusOf
        (realArrivalTime static.stopTime.arrivalTime (delaySeconds row) now)
        static.stopTime.arrivalTime now') (delaySeconds row) ↔
      StaysNearDay static.stopTime.arrivalTime (delaySeconds row) := by
  generalize static.stopTime.arrivalTime = scheduled
  generalize delaySeconds row = d at hd ⊢
  rw [← wrapsFrom_addSeconds_iff now'.date, realArrivalTime_eq_time scheduled d now now'.date,
    onTimeStatusOf]
  have hsub := sub_addSeconds (DateTime.combine now'.date scheduled) d
  have hdate := DateTime.date_combine now'.date scheduled
  generalize DateTime.combine now'.date scheduled = b at hsub hdate ⊢
  rw [← hdate]
  generalize b.addSeconds d = e at hsub ⊢
  rw [abs_lt] at hd
  have hlo : -79200000000 < e.sub b := by omega
  have hhi : e.sub b < 79200000000 := by omega
  have hearly : e.minutesSince b < -1 ↔ d < -60 := by
    have h := DateTime.minutesSince_lt_iff (a := e) (b := b) (c := -1)
    push_cast at h
    rw [h, hsub]
    omega
  have hlate : 5 < e.minutesSince b ↔ 300 < d := by
    have h := DateTime.lt_minutesSince_iff (a := e) (b := b) (c := 5)
    push_cast at h
    rw [h, hsub]
    omega
  by_cases hwraps : WrapsFrom b e
  · rw [wrappedMinutes_combine hlo hhi, if_pos hwraps]
    simp only [hearly, hlate, iff_true_right hwraps]
    exact statusOfDelay_ite d
  · refine iff_of_false (fun hstatus => ?_) hwraps
    obtain ⟨hse, hsl, _⟩ := hstatus
    rcases le_or_gt b e with hbe | hbe
    · have hneg := wrappedMinutes_lt_of_later hlo hhi hwraps hbe
      have hd0 := hse.1 (if_pos (by linarith))
      rw [DateTime.le_iff] at hbe
      simp only [DateTime.sub] at hsub
      omega
    · have hpos := lt_wrappedMinutes_of_earlier hlo hhi hwraps hbe
      have hd0 := hsl.1 (by rw [if_neg (by linarith), if_pos (by linarith)])
      rw [DateTime.lt_iff] at hbe
      simp only [DateTime.sub] at hsub
      omega

theorem on_time_status_noon :
    StatusOfDelay (onTimeStatusOf
        (realArrivalTime (callAt ⟨43200000000, by decide⟩).stopTime.arrivalTime
          (delaySeconds (updateWith (some 60) (some 301))) ⟨0⟩)
        (callAt ⟨43200000000, by decide⟩).stopTime.arrivalTime ⟨0⟩)
      (delaySeconds (updateWith (some 60) (some 301))) :=
  (on_time_status_iff (callAt ⟨43200000000, by decide⟩) (updateWith (some 60) (some 301)) ⟨0⟩ ⟨0⟩
    (by decide)).2 (Or.inl ⟨by decide, by decide⟩)

/-- A call of 22:50 that is 75 minutes late is shown as early. -/
theorem late_evening_shown_early :
    ¬ ∀ (static : StaticScheduleModel) (row : RTStopTimeModel) (now now' : DateTime),
      |delaySeconds row| < 43200 →
      StatusOfDelay (onTimeStatusOf
        (realArrivalTime static.stopTime.arrivalTime (delaySeconds row) now)
        static.stopTime.arrivalTime now') (delaySeconds row) := by
  intro h
  have hstatus := h (callAt ⟨82200000000, by decide⟩) (updateWith (some 4500) none) ⟨0⟩ ⟨0⟩
    (by decide)
  exact absurd (hstatus.1.1 (by decide +kernel)) (by decide)

def EtaClassifies (text : String) (isDue : Bool) (minutes : ℚ) : Prop :=
  (minutes ≤ -1 → text = "Left") ∧ (-1 < minutes ∧ minutes < 0 → text = "Due") ∧
    (0 ≤ minutes ∧ minutes < 1 → text = "<1 min") ∧
    (1 ≤ minutes → text = toString (truncate minutes) ++ " min") ∧
    (isDue = true ↔ -1 < minutes ∧ minutes < 0)

theorem etaText_classifies (minutes : ℚ) :
    EtaClassifies (etaText minutes) (decide (-1 < minutes ∧ minutes < 0)) minutes := by
  unfold etaText
  refine ⟨fun h => if_pos h, fun h => ?_, fun h => ?_, fun h => ?_, decide_eq_true_iff⟩
  · rw [if_neg (not_le.2 h.1), if_pos h.2]
  · rw [if_neg (by linarith), if_neg (by linarith), if_pos h.2]
  · rw [if_neg (by linarith), if_neg (by linarith), if_neg (by linarith)]

/-- The minutes to wait, the text and the mark are those of the delayed instant exactly where the
wrapping sees it from now. -/
theorem eta_correct_iff (static : StaticScheduleModel) (row : RTStopTimeModel)
    (rtTrip : Option RTTripModel) (exact : Bool) (now scheduled : DateTime)
    (htime : static.stopTime.arrivalTime = scheduled.time)
    (hlo : now.addMinutes (-10) ≤ scheduled) (hhi : scheduled ≤ now.addMinutes 60)
    (hd : |delaySeconds row| ≤ 21600) :
    (minutesUntilArrival (realArrivalTime scheduled.time (delaySeconds row) now) now =
        (scheduled.addSeconds (delaySeconds row)).minutesSince now ∧
      EtaClassifies (RealtimeScheduleModel.withDelay static row rtTrip exact now).realEtaText
        (RealtimeScheduleModel.withDelay static row rtTrip exact now).isDue
        ((scheduled.addSeconds (delaySeconds row)).minutesSince now)) ↔
      WrapsFrom now (scheduled.addSeconds (delaySeconds row)) := by
  have hfields : (RealtimeScheduleModel.withDelay static row rtTrip exact now).realEtaText =
      etaText (minutesUntilArrival (realArrivalTime scheduled.time (delaySeconds row) now) now) ∧
      (RealtimeScheduleModel.withDelay static row rtTrip exact now).isDue =
        isDueArrival (realArrivalTime scheduled.time (delaySeconds row) now) now := by
    rw [← htime]
    exact ⟨rfl, rfl⟩
  rw [hfields.1, hfields.2, realArrivalTime_eq_time scheduled.time _ now scheduled.date,
    DateTime.combine_date_time, isDueArrival]
  have hsub := sub_addSeconds scheduled (delaySeconds row)
  generalize delaySeconds row = d at hd hsub ⊢
  generalize scheduled.addSeconds d = e at hsub ⊢
  rw [abs_le] at hd
  simp only [DateTime.le_iff, DateTime.addMinutes, DateTime.addSeconds, DateTime.addMicros]
    at hlo hhi
  simp only [DateTime.sub] at hsub
  have hlow : -79200000000 < e.sub now := by
    simp only [DateTime.sub]
    omega
  have hhigh : e.sub now < 79200000000 := by
    simp only [DateTime.sub]
    omega
  rw [minutesUntilArrival]
  constructor
  · rintro ⟨hminutes, -⟩
    by_contra hwraps
    rcases le_or_gt now e with hle | hlt
    · have hneg := wrappedMinutes_lt_of_later hlow hhigh hwraps hle
      have hpos : ¬ e.minutesSince now < (0 : ℤ) := by
        rw [DateTime.minutesSince_lt_iff, DateTime.sub]
        rw [DateTime.le_iff] at hle
        omega
      push_cast at hpos
      linarith
    · have hpos := lt_wrappedMinutes_of_earlier hlow hhigh hwraps hlt
      have hneg : ¬ ((0 : ℤ) : ℚ) < e.minutesSince now := by
        rw [DateTime.lt_minutesSince_iff, DateTime.sub]
        rw [DateTime.lt_iff] at hlt
        omega
      push_cast at hneg
      linarith
  · intro hwraps
    rw [wrappedMinutes_combine hlow hhigh, if_pos hwraps]
    exact ⟨rfl, etaText_classifies _⟩

/-- At half past ten in the evening a bus of half past eleven that is an hour late has left. -/
theorem late_evening_bus_left :
    ¬ ∀ (static : StaticScheduleModel) (row : RTStopTimeModel) (rtTrip : Option RTTripModel)
      (exact : Bool) (now scheduled : DateTime),
      static.stopTime.arrivalTime = scheduled.time → now.addMinutes (-10) ≤ scheduled →
      scheduled ≤ now.addMinutes 60 → |delaySeconds row| ≤ 21600 →
      minutesUntilArrival (realArrivalTime scheduled.time (delaySeconds row) now) now =
          (scheduled.addSeconds (delaySeconds row)).minutesSince now ∧
        EtaClassifies (RealtimeScheduleModel.withDelay static row rtTrip exact now).realEtaText
          (RealtimeScheduleModel.withDelay static row rtTrip exact now).isDue
          ((scheduled.addSeconds (delaySeconds row)).minutesSince now) := by
  intro h
  have heta := h (callAt (DateTime.time ⟨84600000000⟩)) (updateWith (some 3600) none) none false
    ⟨81000000000⟩ ⟨84600000000⟩ rfl (by decide) (by decide) (by decide)
  exact absurd heta.1 (by decide +kernel)

/-- Ten minutes before midnight a bus of midnight that is five minutes late comes in a quarter of
an hour. -/
theorem eta_correct_over_midnight :
    minutesUntilArrival (realArrivalTime (DateTime.time ⟨86400000000⟩)
      (delaySeconds (updateWith (some 300) none)) ⟨85800000000⟩) ⟨85800000000⟩ =
      (DateTime.addSeconds ⟨86400000000⟩ (delaySeconds (updateWith (some 300) none))).minutesSince
        ⟨85800000000⟩ :=
  ((eta_correct_iff (callAt (DateTime.time ⟨86400000000⟩)) (updateWith (some 300) none) none false
    ⟨85800000000⟩ ⟨86400000000⟩ rfl (by decide) (by decide) (by decide)).2 (by decide)).1

end SimplyTransport
