import SimplyTransport.RealtimeTables
import SimplyTransport.TimeDateConversions
import Mathlib.Algebra.Order.Field.Rat

/-!
# A static schedule with its realtime update

Differences of datetimes are exact rationals here, where the code divides floats; every
comparison is with a whole number of minutes.
-/

namespace SimplyTransport

inductive OnTimeStatus
  | early
  | onTime
  | late
  | unknown
  | skipped
  deriving DecidableEq

def DateTime.minutesSince (a b : DateTime) : ℚ := (a.sub b : ℚ) / 60000000

/-- Minutes from `b` to `a` on one date, wrapping across midnight at 23:00/00:00. -/
def wrappedMinutes (a b : DateTime) : ℚ :=
  if a.time.hour = 23 ∧ b.time.hour = 0 then a.minutesSince b - 1440
  else if a.time.hour = 0 ∧ b.time.hour = 23 then a.minutesSince b + 1440
  else a.minutesSince b

def minutesUntilArrival (arrival : Time) (now : DateTime) : ℚ :=
  wrappedMinutes (DateTime.combine now.date arrival) now

/-- True when `arrival` was strictly between 0 and 60 seconds ago. -/
def isDueArrival (arrival : Time) (now : DateTime) : Bool :=
  let diff := minutesUntilArrival arrival now
  decide (-1 < diff ∧ diff < 0)

def realArrivalTime (scheduled : Time) (delayInSeconds : ℤ) (now : DateTime) : Time :=
  ((DateTime.combine now.date scheduled).addSeconds delayInSeconds).time

def etaText (timeDifference : ℚ) : String :=
  if timeDifference ≤ -1 then "Left"
  else if timeDifference < 0 then "Due"
  else if timeDifference < 1 then "<1 min"
  else toString (truncate timeDifference) ++ " min"

structure RealtimeScheduleModel where
  staticSchedule : StaticScheduleModel
  rtStopTime : Option RTStopTimeModel
  rtTrip : Option RTTripModel
  rtStopOverlayExact : Bool
  delay : String
  delayInSeconds : ℤ
  realArrivalTime : Time
  realEtaText : String
  isDue : Bool
  onTimeStatus : OnTimeStatus
  isTripRemoved : Bool

/-- The greater of the two delays, where an absent one counts as 0. -/
def delaySeconds (rtStopTime : RTStopTimeModel) : ℤ :=
  max (rtStopTime.arrivalDelay.getD 0) (rtStopTime.departureDelay.getD 0)

def onTimeStatusOf (realArrival scheduled : Time) (now : DateTime) : OnTimeStatus :=
  let timeDifference :=
    wrappedMinutes (DateTime.combine now.date realArrival) (DateTime.combine now.date scheduled)
  if timeDifference < -1 then .early
  else if 5 < timeDifference then .late
  else .onTime

namespace RealtimeScheduleModel

/-- The model of a call that keeps its scheduled time, under the text `delay`. -/
def asScheduled (static : StaticScheduleModel) (rtStopTime : Option RTStopTimeModel)
    (rtTrip : Option RTTripModel) (exact : Bool) (delay : String) (status : OnTimeStatus)
    (removed : Bool) (now : DateTime) : RealtimeScheduleModel where
  staticSchedule := static
  rtStopTime := rtStopTime
  rtTrip := rtTrip
  rtStopOverlayExact := exact
  delay := delay
  delayInSeconds := 0
  realArrivalTime := static.stopTime.arrivalTime
  realEtaText := etaText (minutesUntilArrival static.stopTime.arrivalTime now)
  isDue := isDueArrival static.stopTime.arrivalTime now
  onTimeStatus := status
  isTripRemoved := removed

def withDelay (static : StaticScheduleModel) (rtStopTime : RTStopTimeModel)
    (rtTrip : Option RTTripModel) (exact : Bool) (now : DateTime) : RealtimeScheduleModel :=
  let delay := delaySeconds rtStopTime
  let arrival := SimplyTransport.realArrivalTime static.stopTime.arrivalTime delay now
  { staticSchedule := static
    rtStopTime := some rtStopTime
    rtTrip := rtTrip
    rtStopOverlayExact := exact
    delay := toString (delay / 60) ++ " min"
    delayInSeconds := delay
    realArrivalTime := arrival
    realEtaText := etaText (minutesUntilArrival arrival now)
    isDue := isDueArrival arrival now
    onTimeStatus := onTimeStatusOf arrival static.stopTime.arrivalTime now
    isTripRemoved := false }

/-- The constructor, with every reading of the clock giving `now`. -/
def new (static : StaticScheduleModel) (rtStopTime : Option RTStopTimeModel)
    (rtTrip : Option RTTripModel) (rtStopOverlayExact : Bool) (now : DateTime) :
    RealtimeScheduleModel :=
  if rtTrip.any (fun r => r.isRemoved) then
    asScheduled static rtStopTime rtTrip rtStopOverlayExact "Cancelled" .unknown true now
  else
    match rtStopTime with
    | none => asScheduled static none rtTrip rtStopOverlayExact "-" .unknown false now
    | some row =>
      if rtStopOverlayExact ∧ row.scheduleRelationship = ScheduleRelationship.skipped.value then
        asScheduled static (some row) rtTrip rtStopOverlayExact "Skipped" .skipped false now
      else withDelay static row rtTrip rtStopOverlayExact now

end RealtimeScheduleModel

theorem onTimeStatusOf_cases (realArrival scheduled : Time) (now : DateTime) :
    onTimeStatusOf realArrival scheduled now = .early ∨
      onTimeStatusOf realArrival scheduled now = .late ∨
      onTimeStatusOf realArrival scheduled now = .onTime := by
  simp only [onTimeStatusOf]
  split_ifs <;> simp

end SimplyTransport
