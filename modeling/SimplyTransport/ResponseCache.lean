import SimplyTransport.CacheKeys
import SimplyTransport.Glob

/-!
# The response cache and its keys

The handlers that build their own cache key, the key and the lifetime of each, and the patterns
by which an import of static data deletes keys. The store puts its namespace before a key, and
so a pattern begins with `*`.
-/

namespace SimplyTransport
open Glob

namespace CacheKeys

def stopDetailedKeyTemplate : List TemplatePart := [.text "stop_detailed:", .field "id"]

def stopMapKeyTemplate : List TemplatePart := [.text "stop_map:", .field "stop_id"]

def stopMapNearbyKeyTemplate : List TemplatePart :=
  [.text "stop_map_nearby:", .field "latitude", .text ":", .field "longitude", .text ":",
    .field "radius_meters"]

def routeMapKeyTemplate : List TemplatePart :=
  [.text "route_map:", .field "route_id", .text ":", .field "direction"]

def staticMapAgencyRouteKeyTemplate : List TemplatePart :=
  [.text "static_map:agency:route:", .field "agency_id"]

def staticMapStopKeyTemplate : List TemplatePart := [.text "static_map:stop:", .field "map_type"]

def stopMapDeleteAllKeyTemplate : String := "*stop_map:*"

def stopMapNearbyDeleteAllKeyTemplate : String := "*stop_map_nearby:*"

def routeMapDeleteAllKeyTemplate : String := "*route_map:*"

def scheduleDeleteAllKeyTemplate : String := "*schedule:*"

def staticMapAgencyRouteDeleteAllKeyTemplate : String := "*static_map:agency:route:*"

def staticMapStopDeleteAllKeyTemplate : String := "*static_map:stop:*"

def detailedDeleteAllKeyTemplate : String := "*stop_detailed:*"

def realtimeRouteDeleteAllKeyTemplate : String := "*realtime:route:*"

/-- The radius has the handler's default where the query omits it. -/
def nearbyMapCacheKeyBuilder (request : Request) : Except PyError String :=
  format [("latitude", request.queryParams.lookup "latitude"),
    ("longitude", request.queryParams.lookup "longitude"),
    ("radius_meters", some ((request.queryParams.lookup "radius_meters").getD "1200"))]
    stopMapNearbyKeyTemplate

variable {s key : String} {parts : List TemplatePart} {params : List (String × Option String)}
  {args pathArgs queryArgs : List String} {request : Request}

theorem format_text (h : format params (.text s :: parts) = .ok key) :
    ∃ rest, format params parts = .ok rest ∧ key = s ++ rest := by
  obtain ⟨rest, hrest, hkey⟩ := bind_eq_ok.1 h
  exact ⟨rest, hrest, (Except.ok.inj hkey).symm⟩

theorem keyBuilderFromPath_text
    (h : keyBuilderFromPath (.text s :: parts) args request = .ok key) :
    ∃ rest, key = s ++ rest := by
  obtain ⟨rest, _, hkey⟩ := format_text h
  exact ⟨rest, hkey⟩

theorem keyBuilderFromPathAndQuery_text
    (h : keyBuilderFromPathAndQuery (.text s :: parts) pathArgs queryArgs request = .ok key) :
    ∃ rest, key = s ++ rest := by
  obtain ⟨rest, _, hkey⟩ := format_text h
  exact ⟨rest, hkey⟩

end CacheKeys

open CacheKeys

inductive Handler
  | realtimeStop
  | realtimeStopTable
  | realtimeStopSchedule
  | realtimeRoute
  | realtimeTrip
  | nearbyMapData
  | staticStopsMapData
  | stopMapData
  | routeMapData
  | agencyRoutesMapData
  | getStopDetailedById
  | getAggregatedDelayOnStopOnRouteOnTime
  | getDelayOnStopOnRouteOnTime
  | getTruncatedDelayOnStopOnRouteOnTime
  | getAggregatedDelayOnRoute
  | delaysRoute
  deriving DecidableEq

namespace Handler

def cache : Handler → ℤ
  | realtimeStop => 120
  | realtimeStopTable => 120
  | realtimeStopSchedule => 86400
  | realtimeRoute => 86400
  | realtimeTrip => 20
  | nearbyMapData => 86400
  | staticStopsMapData => 86400
  | stopMapData => 120
  | routeMapData => 120
  | agencyRoutesMapData => 86400
  | getStopDetailedById => 86400
  | getAggregatedDelayOnStopOnRouteOnTime => 86400
  | getDelayOnStopOnRouteOnTime => 86400
  | getTruncatedDelayOnStopOnRouteOnTime => 86400
  | getAggregatedDelayOnRoute => 86400
  | delaysRoute => 86400

def cacheKeyBuilder : Handler → Request → Except PyError String
  | realtimeStop => keyBuilderFromPathAndQuery realtimeStopKeyTemplate ["stop_id"] []
  | realtimeStopTable => keyBuilderFromPath realtimeStopTableKeyTemplate ["stop_id"]
  | realtimeStopSchedule => keyBuilderFromPathAndQuery scheduleKeyTemplate ["stop_id"] ["day"]
  | realtimeRoute => keyBuilderFromPath realtimeRouteKeyTemplate ["route_id", "direction"]
  | realtimeTrip => keyBuilderFromPathAndQuery realtimeTripKeyTemplate ["trip_id"] []
  | nearbyMapData => nearbyMapCacheKeyBuilder
  | staticStopsMapData => keyBuilderFromPath staticMapStopKeyTemplate ["map_type"]
  | stopMapData => keyBuilderFromPath stopMapKeyTemplate ["stop_id"]
  | routeMapData => keyBuilderFromPath routeMapKeyTemplate ["route_id", "direction"]
  | agencyRoutesMapData => keyBuilderFromPath staticMapAgencyRouteKeyTemplate ["agency_id"]
  | getStopDetailedById => keyBuilderFromPath stopDetailedKeyTemplate ["id"]
  | getAggregatedDelayOnStopOnRouteOnTime =>
    keyBuilderFromPath delaysAggregatedSpecificKeyTemplate
      ["stop_id", "route_code", "scheduled_time"]
  | getDelayOnStopOnRouteOnTime =>
    keyBuilderFromPath delaysSpecificKeyTemplate ["stop_id", "route_code", "scheduled_time"]
  | getTruncatedDelayOnStopOnRouteOnTime =>
    keyBuilderFromPath delaysSpecificSlimKeyTemplate ["stop_id", "route_code", "scheduled_time"]
  | getAggregatedDelayOnRoute => keyBuilderFromPath delaysAggregatedRouteKeyTemplate ["route_code"]
  | delaysRoute => keyBuilderFromPath delaysHtmlRouteKeyTemplate ["route_code"]

/-- The handler reads the static tables; the others read the recorded delays. -/
def readsStatic : Handler → Bool
  | getAggregatedDelayOnStopOnRouteOnTime => false
  | getDelayOnStopOnRouteOnTime => false
  | getTruncatedDelayOnStopOnRouteOnTime => false
  | getAggregatedDelayOnRoute => false
  | delaysRoute => false
  | _ => true

def keyPrefix : Handler → String
  | realtimeStop => "realtime:stop:"
  | realtimeStopTable => "realtime:stop:table:"
  | realtimeStopSchedule => "schedule:"
  | realtimeRoute => "realtime:route:"
  | realtimeTrip => "realtime:trip:"
  | nearbyMapData => "stop_map_nearby:"
  | staticStopsMapData => "static_map:stop:"
  | stopMapData => "stop_map:"
  | routeMapData => "route_map:"
  | agencyRoutesMapData => "static_map:agency:route:"
  | getStopDetailedById => "stop_detailed:"
  | getAggregatedDelayOnStopOnRouteOnTime => "delays_aggregated_specific:"
  | getDelayOnStopOnRouteOnTime => "delays_specific:"
  | getTruncatedDelayOnStopOnRouteOnTime => "delays_specific_slim:"
  | getAggregatedDelayOnRoute => "delays_aggregated_route:"
  | delaysRoute => "delays_html_route:"

theorem cacheKeyBuilder_keyPrefix {handler : Handler} {request : Request} {key : String}
    (h : handler.cacheKeyBuilder request = .ok key) :
    ∃ rest, key = handler.keyPrefix ++ rest := by
  cases handler with
  | realtimeStop => exact keyBuilderFromPathAndQuery_text h
  | realtimeStopSchedule => exact keyBuilderFromPathAndQuery_text h
  | realtimeTrip => exact keyBuilderFromPathAndQuery_text h
  | nearbyMapData =>
      obtain ⟨rest, _, hkey⟩ := format_text h
      exact ⟨rest, hkey⟩
  | _ => exact keyBuilderFromPath_text h

theorem cache_pos (handler : Handler) : 0 < handler.cache := by
  cases handler <;> decide

end Handler

def makeKey (redisNamespace key : String) : String := redisNamespace ++ ":" ++ key

def deletedPatterns : List String :=
  [stopMapDeleteAllKeyTemplate, stopMapNearbyDeleteAllKeyTemplate, routeMapDeleteAllKeyTemplate,
    scheduleDeleteAllKeyTemplate, staticMapAgencyRouteDeleteAllKeyTemplate,
    staticMapStopDeleteAllKeyTemplate, detailedDeleteAllKeyTemplate,
    realtimeRouteDeleteAllKeyTemplate]

theorem globMatches_makeKey {pattern literal rest redisNamespace : String}
    (hpattern : pattern = "*" ++ literal ++ "*") (hstar : wildcard ∉ literal.toList) :
    globMatches pattern (makeKey redisNamespace (literal ++ rest)) = true := by
  rw [globMatches_contains hstar hpattern]
  refine ⟨redisNamespace.toList ++ ":".toList, rest.toList, ?_⟩
  simp only [makeKey, String.toList_append, List.append_assoc]

/-- The pages of a stop and of a trip apart, every key of a handler that reads the static tables
matches a pattern that the import deletes. -/
theorem cacheKeyBuilder_deleted {handler : Handler} {request : Request}
    {redisNamespace key : String} (hstatic : handler.readsStatic = true)
    (hpage : handler ∉ [Handler.realtimeStop, .realtimeStopTable, .realtimeTrip])
    (hkey : handler.cacheKeyBuilder request = .ok key) :
    ∃ pattern ∈ deletedPatterns, globMatches pattern (makeKey redisNamespace key) = true := by
  obtain ⟨rest, rfl⟩ := Handler.cacheKeyBuilder_keyPrefix hkey
  have hfamily : "*" ++ handler.keyPrefix ++ "*" ∈ deletedPatterns ∧
      wildcard ∉ handler.keyPrefix.toList := by
    revert hstatic hpage
    cases handler <;> decide
  exact ⟨_, hfamily.1, globMatches_makeKey rfl hfamily.2⟩

end SimplyTransport
