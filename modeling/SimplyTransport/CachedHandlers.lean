import SimplyTransport.CachedPages
import SimplyTransport.DelayRecording
import SimplyTransport.ResponseCache

/-!
# Requests to the cached handlers

The handlers of the delays, realtime and schedule controllers that build their own cache key: what
each reads of a request, the checks that it makes of it, and its response. The values of parameters
are decoded by the framework, statistics are computed by the database, and the driver refuses a
datetime with an offset for the column of timestamps.
-/

namespace SimplyTransport

structure Segment where
  text : String
  ne_empty : text ≠ ""
  slash_not_mem : '/' ∉ text.toList

theorem Segment.eq_of_text_eq {s t : Segment} (h : s.text = t.text) : s = t := by
  cases s
  cases t
  cases h
  rfl

inductive Target
  | realtimeStop (stopId : Segment)
  | realtimeStopTable (stopId : Segment)
  | realtimeStopSchedule (stopId : Segment)
  | realtimeRoute (routeId direction : Segment)
  | realtimeTrip (tripId : Segment)
  | getAggregatedDelayOnStopOnRouteOnTime (stopId routeCode scheduledTime : Segment)
  | getDelayOnStopOnRouteOnTime (stopId routeCode scheduledTime : Segment)
  | getTruncatedDelayOnStopOnRouteOnTime (stopId routeCode scheduledTime : Segment)
  | getAggregatedDelayOnRoute (routeCode : Segment)
  | delaysRoute (routeCode : Segment)

namespace Target

def handler : Target → Handler
  | realtimeStop _ => .realtimeStop
  | realtimeStopTable _ => .realtimeStopTable
  | realtimeStopSchedule _ => .realtimeStopSchedule
  | realtimeRoute _ _ => .realtimeRoute
  | realtimeTrip _ => .realtimeTrip
  | getAggregatedDelayOnStopOnRouteOnTime _ _ _ => .getAggregatedDelayOnStopOnRouteOnTime
  | getDelayOnStopOnRouteOnTime _ _ _ => .getDelayOnStopOnRouteOnTime
  | getTruncatedDelayOnStopOnRouteOnTime _ _ _ => .getTruncatedDelayOnStopOnRouteOnTime
  | getAggregatedDelayOnRoute _ => .getAggregatedDelayOnRoute
  | delaysRoute _ => .delaysRoute

def callParams (stopId routeCode scheduledTime : Segment) : List (String × String) :=
  [("stop_id", stopId.text), ("route_code", routeCode.text),
    ("scheduled_time", scheduledTime.text)]

def pathParams : Target → List (String × String)
  | realtimeStop stopId => [("stop_id", stopId.text)]
  | realtimeStopTable stopId => [("stop_id", stopId.text)]
  | realtimeStopSchedule stopId => [("stop_id", stopId.text)]
  | realtimeRoute routeId direction =>
    [("route_id", routeId.text), ("direction", direction.text)]
  | realtimeTrip tripId => [("trip_id", tripId.text)]
  | getAggregatedDelayOnStopOnRouteOnTime stopId routeCode scheduledTime =>
    callParams stopId routeCode scheduledTime
  | getDelayOnStopOnRouteOnTime stopId routeCode scheduledTime =>
    callParams stopId routeCode scheduledTime
  | getTruncatedDelayOnStopOnRouteOnTime stopId routeCode scheduledTime =>
    callParams stopId routeCode scheduledTime
  | getAggregatedDelayOnRoute routeCode => [("route_code", routeCode.text)]
  | delaysRoute routeCode => [("route_code", routeCode.text)]

def callPath (stopId routeCode scheduledTime : Segment) : String :=
  "/api/v1/delays/" ++ stopId.text ++ "/" ++ routeCode.text ++ "/" ++ scheduledTime.text

def path : Target → String
  | realtimeStop stopId => "/realtime/stop/" ++ stopId.text
  | realtimeStopTable stopId => "/realtime/stop/" ++ stopId.text ++ "/realtime-table"
  | realtimeStopSchedule stopId => "/realtime/stop/" ++ stopId.text ++ "/schedule"
  | realtimeRoute routeId direction => "/realtime/route/" ++ routeId.text ++ "/" ++ direction.text
  | realtimeTrip tripId => "/realtime/trip/" ++ tripId.text
  | getAggregatedDelayOnStopOnRouteOnTime stopId routeCode scheduledTime =>
    callPath stopId routeCode scheduledTime ++ "/aggregated"
  | getDelayOnStopOnRouteOnTime stopId routeCode scheduledTime =>
    callPath stopId routeCode scheduledTime
  | getTruncatedDelayOnStopOnRouteOnTime stopId routeCode scheduledTime =>
    callPath stopId routeCode scheduledTime ++ "/truncated"
  | getAggregatedDelayOnRoute routeCode => "/api/v1/delays/" ++ routeCode.text ++ "/aggregated"
  | delaysRoute routeCode => "/delays/route/" ++ routeCode.text

end Target

structure CachedRequest where
  target : Target
  queryParams : List (String × String)

namespace CachedRequest

def request (c : CachedRequest) : Request := ⟨c.target.pathParams, c.queryParams⟩

def key (c : CachedRequest) : Except PyError String := c.target.handler.cacheKeyBuilder c.request

end CachedRequest

/-- What the framework, the database and the driver do: the value that a handler gets for a query
parameter, how it is decoded, the response to a value that is not, the text of the driver's error,
the statistics, and the number of minutes that a contract shows. -/
structure Externals where
  BadRequest : Type
  Aggregated : Type
  Minutes : Type
  Feature : Type
  queryValue : List (String × String) → String → Option String
  time : String → Option Time
  dateTime : String → Option (Option OffsetDateTime)
  dayOfWeek : String → Option (Option DayOfWeek)
  badRequest : Handler → Request → BadRequest
  dataError : Handler → Request → String
  aggregate : List ℤ → Aggregated
  delayInMinutes : ℤ → Minutes

/-- A response that is not the handler's own. A website gets a template, and others the path and
the detail. -/
inductive Failure (E : Externals)
  | badRequest (body : E.BadRequest)
  | timeRange (startTime endTime : OffsetDateTime)
  | exception (statusCode : ℕ) (content : Option (String × String))

structure TSStopTime (E : Externals) where
  timestamp : DateTime
  stopId : String
  routeCode : String
  scheduledTime : Time
  delayInMinutes : E.Minutes

structure TSStopTimeForGraph (E : Externals) where
  timestamp : DateTime
  delayInMinutes : E.Minutes

inductive Response (E : Externals)
  | failure (f : Failure E)
  | aggregated (delay : E.Aggregated)
  | samples (delays : List (TSStopTime E))
  | truncated (delays : List (TSStopTimeForGraph E))
  | delaysPage (delay : Option E.Aggregated)
  | notFoundPage (message : String)
  | stopPage (page : StopPage E.Feature)
  | stopTable (page : StopRealtimeTable)
  | stopTableNotFound
  | schedulePage (page : StopSchedulePage)
  | routePage (page : RoutePage)
  | tripPage (page : TripPage)

inductive Query
  | aggregated (path detail : String) (q : DelayConditions)
  | samples (q : DelayConditions)
  | truncated (q : DelayConditions)
  | delaysPage (q : DelayConditions)
  | stop (stopId : String)
  | stopTable (stopId : String)
  | schedule (stopId : String) (day : Option DayOfWeek)
  | route (routeId : String) (direction : Direction)
  | trip (tripId : String)

section Handlers

variable (E : Externals) (website : Bool)

def exceptionResponse (statusCode : ℕ) (path detail : String) : Failure E :=
  .exception statusCode (if website then none else some (path, detail))

/-- A range that ends before it starts is rejected, and the comparison may raise. -/
def validateTimeRange (path : String) (startTime endTime : Option OffsetDateTime) :
    Except (Failure E) Unit :=
  match startTime, endTime with
  | some a, some b =>
    match a.gt b with
    | .error _ => .error (exceptionResponse E website 500 path
        "can't compare offset-naive and offset-aware datetimes")
    | .ok true => .error (.timeRange a b)
    | .ok false => .ok ()
  | _, _ => .ok ()

def queryParam {τ : Type} (c : CachedRequest) (name : String)
    (decode : String → Option (Option τ)) : Except (Failure E) (Option τ) :=
  match E.queryValue c.queryParams name with
  | none => .ok none
  | some text => ((decode text).map .ok).getD
      (.error (.badRequest (E.badRequest c.target.handler c.request)))

def pathParam {τ : Type} (c : CachedRequest) (decode : String → Option τ) (value : Segment) :
    Except (Failure E) τ :=
  ((decode value.text).map .ok).getD
    (.error (.badRequest (E.badRequest c.target.handler c.request)))

def timeRange (c : CachedRequest) :
    Except (Failure E) (Option OffsetDateTime × Option OffsetDateTime) := do
  let startTime ← queryParam E c "start_time" E.dateTime
  let endTime ← queryParam E c "end_time" E.dateTime
  validateTimeRange E website c.target.path startTime endTime
  return (startTime, endTime)

/-- The driver takes a datetime for the column only where it has no offset. -/
def bindTimestamp (c : CachedRequest) (t : Option OffsetDateTime) :
    Except (Failure E) (Option DateTime) :=
  (timestampParameter t).mapError (fun _ =>
    exceptionResponse E website 500 c.target.path (E.dataError c.target.handler c.request))

def directionName (text : String) : Option Direction :=
  if text = "OUTBOUND" then some .outbound
  else if text = "INBOUND" then some .inbound
  else none

/-- The statistics drop the offsets, `replace(tzinfo=None)`. -/
def aggregatedQuery (c : CachedRequest) (detail : String) (routeCode : String)
    (stopId : Option String) (scheduledTime : Option Time) : Except (Failure E) Query := do
  let (startTime, endTime) ← timeRange E website c
  return .aggregated c.target.path detail ⟨routeCode, stopId, scheduledTime,
    startTime.map OffsetDateTime.wall, endTime.map OffsetDateTime.wall⟩

def samplesQuery (c : CachedRequest) (stopId routeCode scheduledTime : Segment) :
    Except (Failure E) DelayConditions := do
  let scheduledTime ← pathParam E c E.time scheduledTime
  let (startTime, endTime) ← timeRange E website c
  let startTime ← bindTimestamp E website c startTime
  let endTime ← bindTimestamp E website c endTime
  return ⟨routeCode.text, some stopId.text, some scheduledTime, startTime, endTime⟩

def prepare (c : CachedRequest) : Except (Failure E) Query :=
  match c.target with
  | .realtimeStop stopId => .ok (.stop stopId.text)
  | .realtimeStopTable stopId => .ok (.stopTable stopId.text)
  | .realtimeStopSchedule stopId => do
    let day ← queryParam E c "day" E.dayOfWeek
    return .schedule stopId.text day
  | .realtimeRoute routeId direction => do
    let direction ← pathParam E c directionName direction
    return .route routeId.text direction
  | .realtimeTrip tripId => .ok (.trip tripId.text)
  | .getAggregatedDelayOnStopOnRouteOnTime stopId routeCode scheduledTime => do
    let scheduledTime ← pathParam E c E.time scheduledTime
    aggregatedQuery E website c ("Delays not found for " ++ stopId.text ++ ", " ++ routeCode.text ++
      ", " ++ DelayRecording.formatTime scheduledTime) routeCode.text (some stopId.text)
      (some scheduledTime)
  | .getDelayOnStopOnRouteOnTime stopId routeCode scheduledTime => do
    let q ← samplesQuery E website c stopId routeCode scheduledTime
    return .samples q
  | .getTruncatedDelayOnStopOnRouteOnTime stopId routeCode scheduledTime => do
    let q ← samplesQuery E website c stopId routeCode scheduledTime
    return .truncated q
  | .getAggregatedDelayOnRoute routeCode =>
    aggregatedQuery E website c ("Delays not found for " ++ routeCode.text) routeCode.text none none
  | .delaysRoute routeCode => .ok (.delaysPage ⟨routeCode.text, none, none, none, none⟩)

def Query.run (x : Instant E.Feature) : Query → Response E
  | .aggregated path detail q =>
    match getAggregatedDelay x.delays x.now q E.aggregate with
    | none => .failure (exceptionResponse E website 404 path detail)
    | some delay => .aggregated delay
  | .samples q => .samples ((getDelay x.delays x.now q).map (fun row =>
      ⟨row.timestamp, row.stopId, row.routeCode, row.scheduledTime,
        E.delayInMinutes row.delayInSeconds⟩))
  | .truncated q => .truncated ((getDelay x.delays x.now q).map (fun row =>
      ⟨row.timestamp, E.delayInMinutes row.delayInSeconds⟩))
  | .delaysPage q => .delaysPage (getAggregatedDelay x.delays x.now q E.aggregate)
  | .stop stopId =>
    match realtimeStop x stopId with
    | none => .notFoundPage "Sorry this stop could not be found, try the search bar above."
    | some page => .stopPage page
  | .stopTable stopId =>
    match realtimeStopTable x.db x.rtTrips x.rtStopTimes x.nowUtc x.now stopId with
    | none => .stopTableNotFound
    | some page => .stopTable page
  | .schedule stopId day => .schedulePage (realtimeStopSchedule x.db x.now stopId day)
  | .route routeId direction =>
    match realtimeRoute x routeId direction with
    | none => .notFoundPage "Sorry this route could not be found, try the search bar above."
    | some page => .routePage page
  | .trip tripId =>
    match realtimeTrip x tripId with
    | none => .notFoundPage "Schedule for trip not found"
    | some page => .tripPage page

def respond (x : Instant E.Feature) (c : CachedRequest) : Response E :=
  match prepare E website c with
  | .error f => .failure f
  | .ok query => query.run E website x

end Handlers

section Sample

theorem text_46A_ne_empty : "46A" ≠ "" := by decide

theorem slash_not_mem_46A : '/' ∉ "46A".toList := by decide

def segment46A : Segment := ⟨"46A", text_46A_ne_empty, slash_not_mem_46A⟩

end Sample

end SimplyTransport
