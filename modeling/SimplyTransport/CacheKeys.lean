import SimplyTransport.DateTime

/-!
# Keys of the response cache

A key template is split at its fields. A builder looks up the parameters that the route names in
the request, and a parameter that is missing is formatted as `None`.
-/

namespace SimplyTransport

inductive TemplatePart
  | text (s : String)
  | field (name : String)
  deriving DecidableEq

structure Request where
  pathParams : List (String × String)
  queryParams : List (String × String)

namespace CacheKeys

def formatValue (value : Option String) : String := value.getD "None"

def format (params : List (String × Option String)) : List TemplatePart → Except PyError String
  | [] => .ok ""
  | .text s :: parts => do
    let rest ← format params parts
    return s ++ rest
  | .field name :: parts =>
    match params.lookup name with
    | none => .error .keyError
    | some value => do
      let rest ← format params parts
      return formatValue value ++ rest

def keyBuilderFromPath (template : List TemplatePart) (args : List String) (request : Request) :
    Except PyError String :=
  format (args.map (fun arg => (arg, request.pathParams.lookup arg))) template

/-- A query parameter replaces a path parameter of its name. -/
def keyBuilderFromPathAndQuery (template : List TemplatePart) (pathArgs queryArgs : List String)
    (request : Request) : Except PyError String :=
  format (queryArgs.map (fun arg => (arg, request.queryParams.lookup arg)) ++
    pathArgs.map (fun arg => (arg, request.pathParams.lookup arg))) template

def scheduleKeyTemplate : List TemplatePart :=
  [.text "schedule:", .field "stop_id", .text ":", .field "day"]

def realtimeStopKeyTemplate : List TemplatePart := [.text "realtime:stop:", .field "stop_id"]

def realtimeStopTableKeyTemplate : List TemplatePart :=
  [.text "realtime:stop:table:", .field "stop_id"]

def realtimeTripKeyTemplate : List TemplatePart := [.text "realtime:trip:", .field "trip_id"]

def realtimeRouteKeyTemplate : List TemplatePart :=
  [.text "realtime:route:", .field "route_id", .text ":", .field "direction"]

def delaysAggregatedSpecificKeyTemplate : List TemplatePart :=
  [.text "delays_aggregated_specific:", .field "stop_id", .text ":", .field "route_code",
    .text ":", .field "scheduled_time"]

def delaysSpecificKeyTemplate : List TemplatePart :=
  [.text "delays_specific:", .field "stop_id", .text ":", .field "route_code", .text ":",
    .field "scheduled_time"]

def delaysSpecificSlimKeyTemplate : List TemplatePart :=
  [.text "delays_specific_slim:", .field "stop_id", .text ":", .field "route_code", .text ":",
    .field "scheduled_time"]

def delaysAggregatedRouteKeyTemplate : List TemplatePart :=
  [.text "delays_aggregated_route:", .field "route_code"]

def delaysHtmlRouteKeyTemplate : List TemplatePart :=
  [.text "delays_html_route:", .field "route_code"]

end CacheKeys

structure StoredResponse (ρ : Type) where
  response : ρ
  expires : DateTime

abbrev ResponseStore (ρ : Type) := String → Option (StoredResponse ρ)

namespace ResponseStore

variable {ρ : Type}

def get (store : ResponseStore ρ) (key : String) (now : DateTime) : Option ρ :=
  ((store key).filter (fun r => now < r.expires)).map StoredResponse.response

def set (store : ResponseStore ρ) (key : String) (response : ρ) (now : DateTime) (seconds : ℤ) :
    ResponseStore ρ :=
  Function.update store key (some ⟨response, now.addSeconds seconds⟩)

theorem get_eq_some {store : ResponseStore ρ} {key : String} {now : DateTime} {response : ρ} :
    store.get key now = some response ↔
      ∃ r, store key = some r ∧ now < r.expires ∧ r.response = response := by
  simp only [get, Option.map_eq_some_iff, Option.filter_eq_some_iff, decide_eq_true_eq, and_assoc]

/-- A cached route: the stored response, or a new one that is stored for `seconds`. -/
def serve (store : ResponseStore ρ) (key : String) (seconds : ℤ) (now : DateTime) (handler : ρ) :
    ρ × ResponseStore ρ :=
  match store.get key now with
  | some response => (response, store)
  | none => (handler, store.set key handler now seconds)

theorem get_set_self (store : ResponseStore ρ) (key : String) (response : ρ)
    (now later : DateTime) (seconds : ℤ) :
    (store.set key response now seconds).get key later =
      if later < now.addSeconds seconds then some response else none := by
  rw [get, set, Function.update_self]
  split_ifs with h
  · rw [Option.filter_some, if_pos (decide_eq_true h), Option.map_some]
  · rw [Option.filter_some, if_neg (by simpa using h), Option.map_none]

/-- Within the lifetime of the entry that a request leaves, its response is served again. -/
theorem serve_again {store : ResponseStore ρ} {key : String} {seconds : ℤ}
    {now later : DateTime} {handler handler' : ρ} (hfresh : store.get key now = none)
    (h : later < now.addSeconds seconds) :
    ((store.serve key seconds now handler).2.serve key seconds later handler').1 = handler := by
  have hstored : (store.serve key seconds now handler).2 = store.set key handler now seconds := by
    rw [serve, hfresh]
  rw [hstored, serve, get_set_self, if_pos h]

end ResponseStore

end SimplyTransport
