import SimplyTransport.CachedHandlers

/-!
# Requests that share a cache key

A key is the text of a template with the parameters in it. The template of one handler begins with
another's in one case only, so that other handlers share no key, and a parameter can be read off
a key where it is alone in it or where what follows the last colon has none.
-/

namespace SimplyTransport

section Keys

variable {c d : CachedRequest}

def cachedHandlers : List Handler :=
  [.realtimeStop, .realtimeStopTable, .realtimeStopSchedule, .realtimeRoute, .realtimeTrip,
    .getAggregatedDelayOnStopOnRouteOnTime, .getDelayOnStopOnRouteOnTime,
    .getTruncatedDelayOnStopOnRouteOnTime, .getAggregatedDelayOnRoute, .delaysRoute]

theorem handler_mem (t : Target) : t.handler ∈ cachedHandlers := by
  cases t <;> simp [Target.handler, cachedHandlers]

theorem exists_key (c : CachedRequest) : ∃ key, c.key = .ok key := by
  obtain ⟨target, queryParams⟩ := c
  cases target <;> exact ⟨_, rfl⟩

/-- The template of the table of a stop begins with that of the page of a stop. -/
theorem handler_eq_of_keyPrefix : ∀ h ∈ cachedHandlers, ∀ h' ∈ cachedHandlers,
    h.keyPrefix.toList <+: h'.keyPrefix.toList →
      h = h' ∨ h = .realtimeStop ∧ h' = .realtimeStopTable := by
  decide

theorem handler_of_key_eq (h : c.key = d.key) :
    c.target.handler = d.target.handler ∨
      c.target.handler = .realtimeStop ∧ d.target.handler = .realtimeStopTable ∨
      d.target.handler = .realtimeStop ∧ c.target.handler = .realtimeStopTable := by
  obtain ⟨key, hkey⟩ := exists_key c
  obtain ⟨rest, hrest⟩ := Handler.cacheKeyBuilder_keyPrefix hkey
  obtain ⟨rest', hrest'⟩ := Handler.cacheKeyBuilder_keyPrefix (h.symm.trans hkey)
  have hprefix : c.target.handler.keyPrefix.toList <+: key.toList :=
    ⟨rest.toList, by rw [hrest, String.toList_append]⟩
  have hprefix' : d.target.handler.keyPrefix.toList <+: key.toList :=
    ⟨rest'.toList, by rw [hrest', String.toList_append]⟩
  rcases List.prefix_or_prefix_of_prefix hprefix hprefix' with hle | hle
  · exact (handler_eq_of_keyPrefix _ (handler_mem _) _ (handler_mem _) hle).imp_right Or.inl
  · exact (handler_eq_of_keyPrefix _ (handler_mem _) _ (handler_mem _) hle).imp Eq.symm Or.inr

theorem eq_nil_of_cons_eq_append {α : Type} {u v w : List α} {x : α} (hu : x ∉ u)
    (h : x :: u = w ++ x :: v) : w = [] ∧ u = v := by
  cases w with
  | nil => exact ⟨rfl, (List.cons.inj h).2⟩
  | cons y w =>
      have hmem := List.mem_append_right w (List.mem_cons_self (a := x) (l := v))
      exact absurd ((List.cons.inj h).2 ▸ hmem) hu

theorem eq_of_append_cons_eq {α : Type} {a b u v : List α} {x : α} (hu : x ∉ u) (hv : x ∉ v)
    (h : a ++ x :: u = b ++ x :: v) : a = b ∧ u = v := by
  rcases List.append_eq_append_iff.1 h with ⟨w, rfl, hw⟩ | ⟨w, rfl, hw⟩
  · obtain ⟨rfl, rfl⟩ := eq_nil_of_cons_eq_append hu hw
    exact ⟨(List.append_nil a).symm, rfl⟩
  · obtain ⟨rfl, rfl⟩ := eq_nil_of_cons_eq_append hv hw
    exact ⟨List.append_nil b, rfl⟩

/-- Texts that end in a colon and a part without one. -/
theorem eq_of_append_colon_eq {a b u v : String} (hu : ':' ∉ u.toList) (hv : ':' ∉ v.toList)
    (h : a ++ (":" ++ u) = b ++ (":" ++ v)) : a = b ∧ u = v := by
  have hlist := congrArg String.toList h
  simp only [String.toList_append] at hlist
  obtain ⟨ha, hu⟩ := eq_of_append_cons_eq hu hv hlist
  exact ⟨String.toList_injective ha, String.toList_injective hu⟩

theorem param_eq {p a b : String}
    (h : (.ok (p ++ (a ++ "")) : Except PyError String) = .ok (p ++ (b ++ ""))) : a = b :=
  (String.append_left_inj "").1 ((String.append_right_inj p).1 (Except.ok.inj h))

theorem last_param_eq {p s r a b : String}
    (h : (.ok (p ++ (s ++ (":" ++ (r ++ (":" ++ (a ++ "")))))) : Except PyError String) =
      .ok (p ++ (s ++ (":" ++ (r ++ (":" ++ (b ++ ""))))))) : a = b := by
  have htail := (String.append_right_inj s).1 ((String.append_right_inj p).1 (Except.ok.inj h))
  have htail' := (String.append_right_inj r).1 ((String.append_right_inj ":").1 htail)
  exact (String.append_left_inj "").1 ((String.append_right_inj ":").1 htail')

theorem params_eq_of_no_colon {p a b u v : String} (hu : ':' ∉ u.toList) (hv : ':' ∉ v.toList)
    (h : (.ok (p ++ (a ++ (":" ++ (u ++ "")))) : Except PyError String) =
      .ok (p ++ (b ++ (":" ++ (v ++ ""))))) : a = b ∧ u = v := by
  rw [String.append_empty, String.append_empty] at h
  exact eq_of_append_colon_eq hu hv ((String.append_right_inj p).1 (Except.ok.inj h))

end Keys

end SimplyTransport
