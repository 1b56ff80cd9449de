import SimplyTransport.CacheKeyText
import SimplyTransport.QuerySeparation

/-!
# When the cache key determines the response

A parameter that the template of a key has not, or the place of a colon in it, can tell two
requests with one key apart. They have the same response in every state of the tables exactly when
the handlers make the same of them before they read the tables.
-/

namespace SimplyTransport

section Outcome

variable (E : Externals) (website : Bool)

/-- What is left of a request when the tables come in: a failure, or a query that some rows can
answer. -/
def outcome (c : CachedRequest) : Except (Failure E) Query :=
  match prepare E website c with
  | .ok (.aggregated path detail q) =>
    if q.rangeEmpty then .error (exceptionResponse E website 404 path detail)
    else .ok (.aggregated path detail q)
  | result => result

def answer (x : Instant E.Feature) : Except (Failure E) Query → Response E
  | .error f => .failure f
  | .ok query => query.run E website x

variable {E website} {c d : CachedRequest}

theorem getAggregatedDelay_of_rangeEmpty {α : Type} {rows : List TSStopTimeRow} {now : DateTime}
    {q : DelayConditions} {aggregate : List ℤ → α} (h : q.rangeEmpty = true) :
    getAggregatedDelay rows now q aggregate = none := by
  have hrows : rows.filter (q.hold now) = [] := by
    rw [List.filter_eq_nil_iff]
    intro row _
    rw [DelayConditions.not_hold_of_rangeEmpty h]
    exact Bool.false_ne_true
  rw [getAggregatedDelay, hrows]
  rfl

/-- The tables add nothing to the outcome but their rows. -/
theorem respond_eq_answer (x : Instant E.Feature) (c : CachedRequest) :
    respond E website x c = answer E website x (outcome E website c) := by
  rw [respond, outcome]
  split
  · next f hf => rw [hf]; rfl
  · next query hq =>
    rw [hq]
    cases query with
    | aggregated path detail q =>
        dsimp only
        split_ifs with hempty
        · rw [answer, Query.run, getAggregatedDelay_of_rangeEmpty hempty]
        · rfl
    | _ => rfl

end Outcome

section Plans

variable {E : Externals} {website : Bool} {c : CachedRequest}

theorem pathParam_eq_ok {τ : Type} {decode : String → Option τ} {value : Segment} {a : τ} :
    pathParam E c decode value = .ok a ↔ decode value.text = some a := by
  unfold pathParam
  cases decode value.text with
  | none => exact ⟨nofun, nofun⟩
  | some b =>
      exact ⟨fun h => congrArg some (Except.ok.inj h), fun h => congrArg _ (Option.some.inj h)⟩

theorem bindTimestamp_eq_ok {t : Option OffsetDateTime} {lo : Option DateTime}
    (h : bindTimestamp E website c t = .ok lo) : t = lo.map (fun wall => ⟨wall, none⟩) := by
  unfold bindTimestamp timestampParameter at h
  split at h
  · obtain rfl := Except.ok.inj h
    rfl
  · obtain rfl := Except.ok.inj h
    rfl
  · cases h

/-- The range of two datetimes without offset that the check lets pass is not empty. -/
theorem rangeEmpty_of_validate {path : String} {q : DelayConditions}
    (h : validateTimeRange E website path (q.startTime.map (fun wall => ⟨wall, none⟩))
      (q.endTime.map (fun wall => ⟨wall, none⟩)) = .ok ()) : q.rangeEmpty = false := by
  rw [Bool.eq_false_iff, Ne, DelayConditions.rangeEmpty_iff]
  rintro ⟨a, b, ha, hb, hlt⟩
  have hgt : OffsetDateTime.gt ⟨a, none⟩ ⟨b, none⟩ = .ok true :=
    congrArg Except.ok (decide_eq_true hlt)
  rw [ha, hb, Option.map_some, Option.map_some, validateTimeRange, hgt] at h
  cases h

theorem samplesQuery_eq_ok {stopId routeCode scheduledTime : Segment} {q : DelayConditions}
    (h : samplesQuery E website c stopId routeCode scheduledTime = .ok q) :
    ∃ time, E.time scheduledTime.text = some time ∧ q.rangeEmpty = false ∧
      q.routeCode = routeCode.text ∧ q.stopId = some stopId.text ∧
      q.scheduledTime = some time := by
  obtain ⟨time, htime, h⟩ := bind_eq_ok.1 h
  obtain ⟨⟨startTime, endTime⟩, hrange, h⟩ := bind_eq_ok.1 h
  obtain ⟨lo, hlo, h⟩ := bind_eq_ok.1 h
  obtain ⟨hi, hhi, h⟩ := bind_eq_ok.1 h
  obtain rfl := Except.ok.inj h
  obtain ⟨start', _, h⟩ := bind_eq_ok.1 hrange
  obtain ⟨end', _, h⟩ := bind_eq_ok.1 h
  obtain ⟨_, hvalid, h⟩ := bind_eq_ok.1 h
  obtain ⟨rfl, rfl⟩ := Prod.mk.inj (Except.ok.inj h)
  rw [bindTimestamp_eq_ok hlo, bindTimestamp_eq_ok hhi] at hvalid
  exact ⟨time, pathParam_eq_ok.1 htime, rangeEmpty_of_validate hvalid, rfl, rfl, rfl⟩

theorem aggregatedQuery_eq_ok {detail routeCode : String} {stopId : Option String}
    {scheduledTime : Option Time} {query : Query}
    (h : aggregatedQuery E website c detail routeCode stopId scheduledTime = .ok query) :
    ∃ startTime endTime, query = .aggregated c.target.path detail
      ⟨routeCode, stopId, scheduledTime, startTime, endTime⟩ := by
  obtain ⟨⟨startTime, endTime⟩, _, h⟩ := bind_eq_ok.1 h
  exact ⟨_, _, (Except.ok.inj h).symm⟩

theorem outcome_eq_ok {query : Query} (h : outcome E website c = .ok query) :
    prepare E website c = .ok query ∧
      ∀ path detail q, query = .aggregated path detail q → q.rangeEmpty = false := by
  unfold outcome at h
  split at h
  · next path detail q hprepare =>
    split_ifs at h with hempty
    obtain rfl := Except.ok.inj h
    refine ⟨hprepare, fun path' detail' q' heq => ?_⟩
    obtain ⟨_, _, rfl⟩ := Query.aggregated.inj heq
    exact Bool.eq_false_iff.2 hempty
  · next hnone => exact ⟨h, fun path detail q heq => absurd (heq ▸ h) (hnone path detail q)⟩

end Plans

section Determined

variable {E : Externals} {website : Bool} {c d : CachedRequest} {p q : Query}

theorem directionName_eq_some {text : String} {direction : Direction}
    (h : directionName text = some direction) :
    ':' ∉ text.toList := by
  unfold directionName at h
  split_ifs at h with hout hin
  · rw [hout]
    decide
  · rw [hin]
    decide

theorem stop_run_ne_stopTable (x : Instant E.Feature) (stopId stopId' : String) :
    (Query.stop stopId).run E website x ≠ (Query.stopTable stopId').run E website x := by
  intro h
  simp only [Query.run] at h
  cases hstop : realtimeStop x stopId with
  | none =>
      rw [hstop] at h
      cases htable : realtimeStopTable x.db x.rtTrips x.rtStopTimes x.nowUtc x.now stopId' with
      | none =>
          rw [htable] at h
          cases h
      | some table =>
          rw [htable] at h
          cases h
  | some page =>
      rw [hstop] at h
      cases htable : realtimeStopTable x.db x.rtTrips x.rtStopTimes x.nowUtc x.now stopId' with
      | none =>
          rw [htable] at h
          cases h
      | some table =>
          rw [htable] at h
          cases h

/-- A stop's page and its table are different responses, so that the two handlers cannot answer
alike. -/
theorem not_stop_and_stopTable (hc : c.target.handler = .realtimeStop)
    (hd : d.target.handler = .realtimeStopTable) (hp : prepare E website c = .ok p)
    (hq : prepare E website d = .ok q) (x : Instant E.Feature) :
    p.run E website x ≠ q.run E website x := by
  obtain ⟨target, _⟩ := c
  obtain ⟨target', _⟩ := d
  cases target with
  | realtimeStop stopId =>
      cases target' with
      | realtimeStopTable stopId' =>
          obtain rfl := Except.ok.inj hp
          obtain rfl := Except.ok.inj hq
          exact stop_run_ne_stopTable x _ _
      | _ => cases hd
  | _ => cases hc

theorem some_text_ne_empty (s : Segment) : some s.text ≠ some "" :=
  fun h => s.ne_empty (Option.some.inj h)

theorem segment_eq_of_param_eq {p : String} {s s' : Segment}
    (h : (.ok (p ++ (s.text ++ "")) : Except PyError String) = .ok (p ++ (s'.text ++ ""))) :
    s = s' :=
  Segment.eq_of_text_eq (param_eq h)

theorem samplesQuery_eq {s r t s' r' t' : Segment} {conditions conditions' : DelayConditions}
    (hq : samplesQuery E website c s r t = .ok conditions)
    (hq' : samplesQuery E website d s' r' t' = .ok conditions')
    (h : ∀ now row, conditions.hold now row = conditions'.hold now row) :
    conditions = conditions' := by
  obtain ⟨time, _, hempty, _, hstop, htime⟩ := samplesQuery_eq_ok hq
  obtain ⟨time', _, hempty', _, hstop', htime'⟩ := samplesQuery_eq_ok hq'
  have halike : DelayConditions.Alike conditions conditions' := by
    refine ⟨?_, ⟨?_, ?_⟩, ?_⟩
    · rw [hstop, hstop', Option.isSome_some, Option.isSome_some]
    · exact hstop ▸ some_text_ne_empty s
    · exact hstop' ▸ some_text_ne_empty s'
    · rw [htime, htime', Option.isSome_some, Option.isSome_some]
  exact halike.eq hempty hempty' h

theorem aggregated_call_eq {s r t s' r' t' : Segment} {params params' : List (String × String)}
    (hkey : CachedRequest.key ⟨.getAggregatedDelayOnStopOnRouteOnTime s r t, params⟩ =
      CachedRequest.key ⟨.getAggregatedDelayOnStopOnRouteOnTime s' r' t', params'⟩)
    (hc : outcome E website ⟨.getAggregatedDelayOnStopOnRouteOnTime s r t, params⟩ = .ok p)
    (hd : outcome E website ⟨.getAggregatedDelayOnStopOnRouteOnTime s' r' t', params'⟩ = .ok q)
    (h : ∀ x, p.run E website x = q.run E website x) : p = q := by
  obtain ⟨hp, hpempty⟩ := outcome_eq_ok hc
  obtain ⟨hq, hqempty⟩ := outcome_eq_ok hd
  obtain ⟨time, htime, hp⟩ := bind_eq_ok.1 hp
  obtain ⟨time', htime', hq⟩ := bind_eq_ok.1 hq
  obtain ⟨lo, hi, rfl⟩ := aggregatedQuery_eq_ok hp
  obtain ⟨lo', hi', rfl⟩ := aggregatedQuery_eq_ok hq
  have hhold := hold_eq_of_aggregated h
  have halike : DelayConditions.Alike ⟨r.text, some s.text, some time, lo, hi⟩
      ⟨r'.text, some s'.text, some time', lo', hi'⟩ :=
    ⟨rfl, ⟨some_text_ne_empty s, some_text_ne_empty s'⟩, rfl⟩
  have hconditions := halike.eq (hpempty _ _ _ rfl) (hqempty _ _ _ rfl) hhold
  obtain ⟨hroute, hstop, htimes, rfl, rfl⟩ := DelayConditions.mk.inj hconditions
  obtain rfl := Segment.eq_of_text_eq hroute
  obtain rfl := Segment.eq_of_text_eq (Option.some.inj hstop)
  obtain rfl := Option.some.inj htimes
  have htext : t.text = t'.text := last_param_eq (p := "delays_aggregated_specific:") hkey
  obtain rfl := Segment.eq_of_text_eq htext
  rfl

theorem aggregated_route_eq {r r' : Segment} {params params' : List (String × String)}
    (hkey : CachedRequest.key ⟨.getAggregatedDelayOnRoute r, params⟩ =
      CachedRequest.key ⟨.getAggregatedDelayOnRoute r', params'⟩)
    (hc : outcome E website ⟨.getAggregatedDelayOnRoute r, params⟩ = .ok p)
    (hd : outcome E website ⟨.getAggregatedDelayOnRoute r', params'⟩ = .ok q)
    (h : ∀ x, p.run E website x = q.run E website x) : p = q := by
  obtain ⟨hp, hpempty⟩ := outcome_eq_ok hc
  obtain ⟨hq, hqempty⟩ := outcome_eq_ok hd
  obtain ⟨lo, hi, rfl⟩ := aggregatedQuery_eq_ok hp
  obtain ⟨lo', hi', rfl⟩ := aggregatedQuery_eq_ok hq
  obtain rfl := segment_eq_of_param_eq (p := "delays_aggregated_route:") hkey
  have hhold := hold_eq_of_aggregated h
  have halike : DelayConditions.Alike ⟨r.text, none, none, lo, hi⟩ ⟨r.text, none, none, lo', hi'⟩ :=
    ⟨rfl, ⟨nofun, nofun⟩, rfl⟩
  have hconditions := halike.eq (hpempty _ _ _ rfl) (hqempty _ _ _ rfl) hhold
  obtain ⟨_, _, _, rfl, rfl⟩ := DelayConditions.mk.inj hconditions
  rfl

/-- The names of directions have no colon, so that the key is split at its last one. -/
theorem route_eq {routeId direction routeId' direction' : Segment}
    {params params' : List (String × String)}
    (hkey : CachedRequest.key ⟨.realtimeRoute routeId direction, params⟩ =
      CachedRequest.key ⟨.realtimeRoute routeId' direction', params'⟩)
    (hp : prepare E website ⟨.realtimeRoute routeId direction, params⟩ = .ok p)
    (hq : prepare E website ⟨.realtimeRoute routeId' direction', params'⟩ = .ok q) : p = q := by
  obtain ⟨name, hname, hp⟩ := bind_eq_ok.1 hp
  obtain ⟨name', hname', hq⟩ := bind_eq_ok.1 hq
  have hdirection := pathParam_eq_ok.1 hname
  have hdirection' := pathParam_eq_ok.1 hname'
  obtain ⟨hroute, htext⟩ : routeId.text = routeId'.text ∧ direction.text = direction'.text :=
    params_eq_of_no_colon (p := "realtime:route:") (directionName_eq_some hdirection)
      (directionName_eq_some hdirection') hkey
  rw [htext, hdirection'] at hdirection
  obtain rfl := Option.some.inj hdirection
  obtain rfl := Except.ok.inj hp
  obtain rfl := Except.ok.inj hq
  rw [hroute]

/-- Queries of requests that share a key are told apart by the rows of some tables. -/
theorem query_eq (hkey : c.key = d.key) (hc : outcome E website c = .ok p)
    (hd : outcome E website d = .ok q) (h : ∀ x, p.run E website x = q.run E website x) :
    p = q := by
  have hp := (outcome_eq_ok hc).1
  have hq := (outcome_eq_ok hd).1
  have hany := h (oneDelay E ⟨⟨"", "", Time.midnight, 0⟩, ⟨0⟩⟩ ⟨0⟩)
  rcases handler_of_key_eq hkey with hsame | ⟨hstop, htable⟩ | ⟨hstop, htable⟩
  · obtain ⟨target, params⟩ := c
    obtain ⟨target', params'⟩ := d
    cases target with
    | realtimeStop stopId =>
        cases target' with
        | realtimeStop stopId' =>
            obtain rfl := segment_eq_of_param_eq (p := "realtime:stop:") hkey
            exact Except.ok.inj (hp.symm.trans hq)
        | _ => cases hsame
    | realtimeStopTable stopId =>
        cases target' with
        | realtimeStopTable stopId' =>
            obtain rfl := segment_eq_of_param_eq (p := "realtime:stop:table:") hkey
            exact Except.ok.inj (hp.symm.trans hq)
        | _ => cases hsame
    | realtimeStopSchedule stopId =>
        cases target' with
        | realtimeStopSchedule stopId' =>
            obtain ⟨day, _, hp⟩ := bind_eq_ok.1 hp
            obtain ⟨day', _, hq⟩ := bind_eq_ok.1 hq
            obtain rfl := Except.ok.inj hp
            obtain rfl := Except.ok.inj hq
            obtain ⟨hstop, rfl⟩ := schedule_eq stopId.ne_empty stopId'.ne_empty h
            rw [hstop]
        | _ => cases hsame
    | realtimeRoute routeId direction =>
        cases target' with
        | realtimeRoute routeId' direction' => exact route_eq hkey hp hq
        | _ => cases hsame
    | realtimeTrip tripId =>
        cases target' with
        | realtimeTrip tripId' =>
            obtain rfl := segment_eq_of_param_eq (p := "realtime:trip:") hkey
            exact Except.ok.inj (hp.symm.trans hq)
        | _ => cases hsame
    | getAggregatedDelayOnStopOnRouteOnTime s r t =>
        cases target' with
        | getAggregatedDelayOnStopOnRouteOnTime s' r' t' => exact aggregated_call_eq hkey hc hd h
        | _ => cases hsame
    | getDelayOnStopOnRouteOnTime s r t =>
        cases target' with
        | getDelayOnStopOnRouteOnTime s' r' t' =>
            obtain ⟨conditions, hconditions, hp⟩ := bind_eq_ok.1 hp
            obtain ⟨conditions', hconditions', hq⟩ := bind_eq_ok.1 hq
            obtain rfl := Except.ok.inj hp
            obtain rfl := Except.ok.inj hq
            rw [samplesQuery_eq hconditions hconditions' (hold_eq_of_samples h)]
        | _ => cases hsame
    | getTruncatedDelayOnStopOnRouteOnTime s r t =>
        cases target' with
        | getTruncatedDelayOnStopOnRouteOnTime s' r' t' =>
            obtain ⟨conditions, hconditions, hp⟩ := bind_eq_ok.1 hp
            obtain ⟨conditions', hconditions', hq⟩ := bind_eq_ok.1 hq
            obtain rfl := Except.ok.inj hp
            obtain rfl := Except.ok.inj hq
            rw [samplesQuery_eq hconditions hconditions' (hold_eq_of_truncated h)]
        | _ => cases hsame
    | getAggregatedDelayOnRoute r =>
        cases target' with
        | getAggregatedDelayOnRoute r' => exact aggregated_route_eq hkey hc hd h
        | _ => cases hsame
    | delaysRoute r =>
        cases target' with
        | delaysRoute r' =>
            obtain rfl := segment_eq_of_param_eq (p := "delays_html_route:") hkey
            exact Except.ok.inj (hp.symm.trans hq)
        | _ => cases hsame
  · exact absurd hany (not_stop_and_stopTable hstop htable hp hq _)
  · exact absurd hany.symm (not_stop_and_stopTable hstop htable hq hp _)

/-- Two requests that share a key have the same response in every state of the tables and at every
instant exactly when their handlers make the same of them before they read the tables: the same
query, or the same refusal. -/
theorem same_key_same_response_iff (E : Externals) (website : Bool) (c d : CachedRequest) :
    (∀ x, c.key = d.key → respond E website x c = respond E website x d) ↔
      (c.key = d.key → outcome E website c = outcome E website d) := by
  simp only [respond_eq_answer]
  constructor
  · intro h hkey
    cases hc : outcome E website c with
    | error f =>
        cases hd : outcome E website d with
        | error f' =>
            have hany := h (oneDelay E ⟨⟨"", "", Time.midnight, 0⟩, ⟨0⟩⟩ ⟨0⟩) hkey
            rw [hc, hd] at hany
            rw [Response.failure.inj hany]
        | ok q =>
            obtain ⟨x, hx⟩ := @exists_answered E website _ (outcome_eq_ok hd).2
            have hany := h x hkey
            rw [hc, hd] at hany
            exact absurd hany.symm (hx f)
    | ok p =>
        cases hd : outcome E website d with
        | error f =>
            obtain ⟨x, hx⟩ := @exists_answered E website _ (outcome_eq_ok hc).2
            have hany := h x hkey
            rw [hc, hd] at hany
            exact absurd hany (hx f)
        | ok q =>
            have hrun : ∀ x, p.run E website x = q.run E website x := fun x => by
              have hx := h x hkey
              rwa [hc, hd] at hx
            rw [query_eq hkey hc hd hrun]
  · intro h x hkey
    rw [h hkey]

end Determined

/-- Only the schedule's key has a query parameter in it. -/
theorem key_eq_of_target {target : Target} (h : target.handler ≠ .realtimeStopSchedule)
    (params params' : List (String × String)) :
    CachedRequest.key ⟨target, params⟩ = CachedRequest.key ⟨target, params'⟩ := by
  cases target with
  | realtimeStopSchedule stopId => exact absurd rfl h
  | _ => rfl

section Examples

structure TSStopTimeDelayAggregated where
  avg : ℤ
  max : ℤ
  min : ℤ
  standardDeviation : ℤ
  p50 : ℤ
  p75 : ℤ
  p90 : ℤ
  samples : ℕ

def sampleExternals : Externals where
  BadRequest := String
  Aggregated := TSStopTimeDelayAggregated
  Minutes := ℤ
  Feature := Unit
  queryValue params name := params.lookup name
  time _ := none
  dateTime text :=
    if text = "2024-05-02T00:00:00Z" then
      some (some ⟨DateTime.combine ⟨739008⟩ Time.midnight, some 0⟩)
    else none
  dayOfWeek _ := none
  badRequest _ _ := "Validation failed"
  dataError _ _ := "invalid input for query argument"
  aggregate delays :=
    let delay := delays.headD 0
    ⟨delay, delay, delay, 0, delay, delay, delay, delays.length⟩
  delayInMinutes delay := delay / 60

/-- A delay that was recorded on the first of May, read two days later. -/
def mayDay : Instant Unit where
  db := noStatic
  agencies := []
  stopFeatures := []
  rtTrips := []
  rtStopTimes := []
  delays := [⟨⟨"8220DB000007", "46A", Time.midnight, 60⟩, DateTime.combine ⟨739007⟩ Time.midnight⟩]
  nowUtc := DateTime.combine ⟨739009⟩ Time.midnight
  now := DateTime.combine ⟨739009⟩ Time.midnight

/-- The delays of a route with and without a start have one key; from the second of May on there
are none. -/
theorem same_key_other_response :
    ¬ ∀ (E : Externals) (website : Bool) (c d : CachedRequest) (x : Instant E.Feature),
      c.key = d.key → respond E website x c = respond E website x d := by
  intro h
  have hsame := h sampleExternals false ⟨.getAggregatedDelayOnRoute segment46A, []⟩
    ⟨.getAggregatedDelayOnRoute segment46A, [("start_time", "2024-05-02T00:00:00Z")]⟩ mayDay
    (key_eq_of_target (by decide) _ _)
  have hall : respond sampleExternals false mayDay ⟨.getAggregatedDelayOnRoute segment46A, []⟩ =
      .aggregated ⟨60, 60, 60, 0, 60, 60, 60, 1⟩ := rfl
  have hnone : respond sampleExternals false mayDay ⟨.getAggregatedDelayOnRoute segment46A,
      [("start_time", "2024-05-02T00:00:00Z")]⟩ =
      .failure (.exception 404 (some ("/api/v1/delays/46A/aggregated",
        "Delays not found for 46A"))) := rfl
  rw [hall, hnone] at hsame
  cases hsame

end Examples

end SimplyTransport
