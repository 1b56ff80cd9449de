import SimplyTransport.Transition

/-!
# The map of a page

The script of a page asks for its map once MapLibre and the popup script are there. It tries when it
runs, when the page is parsed, when it has loaded and after each swap of a part of it, and waits in
the meantime frame by frame, for a limited number of frames. The answer draws a map, and the button
of the page asks again, which removes the map before. Events come in any order. At most one request
or map is there at a time, and the button works exactly while nothing is on its way, once a map has
loaded.
-/

namespace SimplyTransport.MapEmbed

open Transition

structure Embed where
  needsPopup : Bool
  refreshes : Bool

def stopMap : Embed := ⟨true, true⟩

def routeMap : Embed := ⟨true, true⟩

def agencyMap : Embed := ⟨false, false⟩

def staticStopMap : Embed := ⟨true, false⟩

def nearbyMap : Embed := ⟨true, false⟩

inductive ReadyState
  | loading
  | interactive
  | complete
  deriving DecidableEq

/-- A call of `whenMapLibreReady` that did not find the library: each of its loops counts the frames
it has seen, and has stopped above the limit. -/
structure LibraryWait where
  done : Bool
  loops : List ℕ
  deriving DecidableEq

structure Button where
  disabled : Bool
  onclick : Bool
  deriving DecidableEq

/-- The page from the run of its script on. `drawing` are the maps that have not loaded, `drawn` the
others that have not been removed. `maps` and `loads` count the maps made and loaded so far. -/
structure State where
  readyState : ReadyState
  maplibregl : Bool
  stopMapPopup : Bool
  libraryWaits : List LibraryWait
  popupWaits : List ℕ
  embedInit : Bool
  button : Button
  loader : Bool
  requests : ℕ
  inFlight : ℕ
  maps : ℕ
  loads : ℕ
  drawing : List ℕ
  drawn : List ℕ
  cleanup : Option ℕ
  deriving DecidableEq

section Model

variable (e : Embed)

def State.hasScripts (s : State) : Bool := s.maplibregl && (s.stopMapPopup || !e.needsPopup)

/-- `initStopMap`, `initRouteMap` and so on, up to `fetch`. -/
def initMap (s : State) : State :=
  if s.hasScripts e then
    { s with
      drawn := match s.cleanup with
        | some map => s.drawn.erase map
        | none => s.drawn
      cleanup := none
      loader := s.loader || e.refreshes
      requests := s.requests + 1
      inFlight := s.inFlight + 1 }
  else s

def doInit (s : State) : State :=
  if s.embedInit then s
  else if s.hasScripts e then initMap e { s with embedInit := true }
  else s

def whenStopMapPopupReady (s : State) : State :=
  if s.stopMapPopup then doInit e s else { s with popupWaits := s.popupWaits ++ [0] }

def onLibrary (s : State) : State :=
  if e.needsPopup then whenStopMapPopupReady e s else doInit e s

/-- `whenMapLibreReady`, and `whenMapWithPopupReady` of the scripts with popups. While the page is
parsed there is no loop yet. -/
def whenMapLibreReady (s : State) : State :=
  if s.maplibregl then onLibrary e s
  else { s with
    libraryWaits := s.libraryWaits ++ [⟨false, if s.readyState = .loading then [] else [0]⟩] }

/-- `bindStopMapRealtimeEmbed`, `bindRouteMapEmbed` and so on, on the page of their map. -/
def bindEmbed (s : State) : State := if s.embedInit then s else whenMapLibreReady e s

def invoke (k : ℕ) (s : State) : State :=
  match s.libraryWaits[k]? with
  | some wait =>
      if wait.done || !s.maplibregl then s
      else onLibrary e { s with libraryWaits := s.libraryWaits.set k { wait with done := true } }
  | none => s

def poll (s : State) (k : ℕ) : State :=
  if s.maplibregl then invoke e k s
  else { s with
    libraryWaits := s.libraryWaits.modify k (fun wait => { wait with loops := wait.loops ++ [0] }) }

/-- The listeners of the script, then those of the waits there were before. -/
def pollAll (s : State) : State :=
  (List.range s.libraryWaits.length).foldl (poll e) (bindEmbed e s)

inductive Event
  | libraryRuns
  | popupScriptRuns
  | contentLoaded
  | load
  | partSwapped
  | frame (wait loop : ℕ)
  | popupFrame (wait : ℕ)
  | answer (ok : Bool)
  | mapLoad (map : ℕ)
  | click

def next (s : State) : Event → Option State
  | .libraryRuns => some { s with maplibregl := true }
  | .popupScriptRuns => some { s with stopMapPopup := true }
  | .contentLoaded =>
      if s.readyState = .loading then some (pollAll e { s with readyState := .interactive })
      else none
  | .load =>
      if s.readyState = .interactive then some (pollAll e { s with readyState := .complete })
      else none
  | .partSwapped => some (bindEmbed e s)
  | .frame k j =>
      match s.libraryWaits[k]? with
      | none => none
      | some wait =>
          match wait.loops[j]? with
          | none => none
          | some n =>
              if 300 < n then none
              else if s.maplibregl then
                some (invoke e k { s with
                  libraryWaits := s.libraryWaits.set k { wait with loops := wait.loops.eraseIdx j } })
              else some { s with
                libraryWaits := s.libraryWaits.set k
                  { wait with loops := wait.loops.set j (n + 1) } }
  | .popupFrame k =>
      match s.popupWaits[k]? with
      | none => none
      | some n =>
          if 120 < n then none
          else if s.stopMapPopup then
            some (doInit e { s with popupWaits := s.popupWaits.eraseIdx k })
          else some { s with popupWaits := s.popupWaits.set k (n + 1) }
  | .answer ok =>
      if s.inFlight = 0 then none
      else if ok then some { s with
        inFlight := s.inFlight - 1, loader := false, maps := s.maps + 1,
        drawing := s.maps :: s.drawing }
      else some { s with
        inFlight := s.inFlight - 1, loader := false,
        button := if e.refreshes then { s.button with disabled := false } else s.button }
  | .mapLoad map =>
      if map ∉ s.drawing then none
      else if e.refreshes then some { s with
        loads := s.loads + 1, drawing := s.drawing.erase map, drawn := map :: s.drawn,
        cleanup := some map, button := ⟨false, true⟩ }
      else some { s with
        loads := s.loads + 1, drawing := s.drawing.erase map, drawn := map :: s.drawn }
  | .click =>
      if s.button.onclick && !s.button.disabled then
        some (initMap e { s with button := { s.button with disabled := true } })
      else some s

def page (readyState : ReadyState) (maplibregl stopMapPopup : Bool) : State :=
  ⟨readyState, maplibregl, stopMapPopup, [], [], false, ⟨false, false⟩, true, 0, 0, 0, 0, [],
    [], none⟩

/-- The script runs while the page is parsed, or in a body that was swapped in. -/
def start (swapped maplibregl stopMapPopup : Bool) : State :=
  if swapped then bindEmbed e (page .complete maplibregl stopMapPopup)
  else page .loading maplibregl stopMapPopup

end Model

section Enabled

variable {e : Embed} {s t : State} {k j : ℕ}

/-- What the listeners of the script and each wait keep is kept by all of them. -/
theorem pollAll_of {P : State → Prop} (hbind : P (bindEmbed e s))
    (hpoll : ∀ (u : State) (i : ℕ), P u → P (poll e u i)) : P (pollAll e s) :=
  List.foldlRecOn _ _ hbind (fun u hu i _ => hpoll u i hu)

theorem next_contentLoaded (h : next e s .contentLoaded = some t) :
    s.readyState = .loading ∧ t = pollAll e { s with readyState := .interactive } := by
  obtain ⟨hready, hstate⟩ := Option.ite_none_right_eq_some.1 h
  exact ⟨hready, (Option.some.inj hstate).symm⟩

theorem next_load (h : next e s .load = some t) :
    s.readyState = .interactive ∧ t = pollAll e { s with readyState := .complete } := by
  obtain ⟨hready, hstate⟩ := Option.ite_none_right_eq_some.1 h
  exact ⟨hready, (Option.some.inj hstate).symm⟩

theorem next_frame (h : next e s (.frame k j) = some t) :
    ∃ wait n, s.libraryWaits[k]? = some wait ∧ wait.loops[j]? = some n ∧ n ≤ 300 ∧
      (s.maplibregl = true ∧ t = invoke e k { s with
          libraryWaits := s.libraryWaits.set k { wait with loops := wait.loops.eraseIdx j } } ∨
        t = { s with
          libraryWaits := s.libraryWaits.set k { wait with loops := wait.loops.set j (n + 1) } }) := by
  simp only [next] at h
  split at h
  · cases h
  · rename_i wait hwait
    split at h
    · cases h
    · rename_i n hloop
      split_ifs at h with hlimit hlibrary
      · exact ⟨wait, n, hwait, hloop, by omega, Or.inl ⟨hlibrary, (Option.some.inj h).symm⟩⟩
      · exact ⟨wait, n, hwait, hloop, by omega, Or.inr (Option.some.inj h).symm⟩

theorem next_popupFrame (h : next e s (.popupFrame k) = some t) :
    ∃ n, s.popupWaits[k]? = some n ∧ n ≤ 120 ∧
      (s.stopMapPopup = true ∧ t = doInit e { s with popupWaits := s.popupWaits.eraseIdx k } ∨
        t = { s with popupWaits := s.popupWaits.set k (n + 1) }) := by
  simp only [next] at h
  split at h
  · cases h
  · rename_i n hwait
    split_ifs at h with hlimit hpopup
    · exact ⟨n, hwait, by omega, Or.inl ⟨hpopup, (Option.some.inj h).symm⟩⟩
    · exact ⟨n, hwait, by omega, Or.inr (Option.some.inj h).symm⟩

theorem next_click (h : next e s .click = some t) :
    (s.button.onclick = true ∧ s.button.disabled = false ∧
        t = initMap e { s with button := { s.button with disabled := true } }) ∨ t = s := by
  simp only [next] at h
  split_ifs at h with hclick
  · rw [Bool.and_eq_true, Bool.not_eq_true'] at hclick
    exact Or.inl ⟨hclick.1, hclick.2, (Option.some.inj h).symm⟩
  · exact Or.inr (Option.some.inj h).symm

end Enabled

section Safety

variable {e : Embed} {s t : State}

/-- One request or map, and a button that fits it. -/
structure OneMap (e : Embed) (s : State) : Prop where
  fresh : s.embedInit = false → s.requests = 0 ∧ s.inFlight = 0 ∧ s.drawing = [] ∧ s.drawn = [] ∧
    s.button = ⟨false, false⟩ ∧ s.loader = true
  scripts : s.embedInit = true → s.hasScripts e = true
  single : s.inFlight + s.drawing.length + s.drawn.length ≤ 1
  cleanup : s.cleanup = if e.refreshes then s.drawn.head? else none
  loader : s.embedInit = true → (s.loader = true ↔ 0 < s.inFlight)
  button : s.button.onclick = true → e.refreshes = true ∧
    (s.button.disabled = true ↔ 0 < s.inFlight + s.drawing.length)
  unused : s.button.onclick = false → s.requests ≤ 1
  loaded : s.button.onclick = true ↔ e.refreshes = true ∧ 0 < s.loads

theorem OneMap.embedInit_of_onclick (h : OneMap e s) (honclick : s.button.onclick = true) :
    s.embedInit = true := by
  by_contra hinit
  rw [Bool.not_eq_true] at hinit
  rw [(h.fresh hinit).2.2.2.2.1] at honclick
  cases honclick

/-- What waits for the scripts has no part in it. -/
theorem OneMap.of_waits (h : OneMap e s) (libraryWaits : List LibraryWait) (popupWaits : List ℕ) :
    OneMap e { s with libraryWaits, popupWaits } := ⟨h.fresh, h.scripts, h.single, h.cleanup,
  h.loader, h.button, h.unused, h.loaded⟩

theorem initMap_eq (h : s.hasScripts e = true) : initMap e s = { s with
    drawn := match s.cleanup with
      | some map => s.drawn.erase map
      | none => s.drawn
    cleanup := none
    loader := s.loader || e.refreshes
    requests := s.requests + 1
    inFlight := s.inFlight + 1 } := if_pos h

/-- A request of an idle page removes the map that is drawn. -/
theorem oneMap_initMap (hinit : s.embedInit = true) (hscripts : s.hasScripts e = true)
    (hidle : s.inFlight = 0 ∧ s.drawing = [])
    (hdrawn : s.drawn = [] ∧ s.cleanup = none ∨ ∃ map, s.drawn = [map] ∧ s.cleanup = some map)
    (hloader : s.loader = true ∨ e.refreshes = true)
    (hbutton : s.button.onclick = true → e.refreshes = true ∧ s.button.disabled = true)
    (hunused : s.button.onclick = false → s.requests = 0)
    (hloaded : s.button.onclick = true ↔ e.refreshes = true ∧ 0 < s.loads) :
    OneMap e (initMap e s) := by
  have hremoved : (match s.cleanup with
      | some map => s.drawn.erase map
      | none => s.drawn) = [] := by
    rcases hdrawn with ⟨hdrawn, hcleanup⟩ | ⟨map, hdrawn, hcleanup⟩
    · rw [hcleanup, hdrawn]
    · rw [hcleanup, hdrawn]
      exact List.erase_cons_head map []
  rw [initMap_eq hscripts, hremoved]
  constructor
  · intro hfresh
    rw [hinit] at hfresh
    cases hfresh
  · exact fun _ => hscripts
  · simp [hidle.1, hidle.2]
  · simp
  · intro _
    rcases hloader with hloader | hloader <;> simp [hloader]
  · intro honclick
    exact ⟨(hbutton honclick).1, iff_of_true (hbutton honclick).2 (by dsimp only; omega)⟩
  · intro honclick
    simp [hunused honclick]
  · exact hloaded

theorem OneMap.doInit (h : OneMap e s) : OneMap e (doInit e s) := by
  unfold MapEmbed.doInit
  split_ifs with hinit hscripts
  · exact h
  · obtain ⟨hrequests, hinFlight, hdrawing, hdrawn, hbutton, hloader⟩ :=
      h.fresh (Bool.not_eq_true _ ▸ hinit)
    have hcleanup : s.cleanup = none := by
      rw [h.cleanup, hdrawn]
      split_ifs <;> rfl
    apply oneMap_initMap (s := { s with embedInit := true }) rfl hscripts ⟨hinFlight, hdrawing⟩
      (Or.inl ⟨hdrawn, hcleanup⟩) (Or.inl hloader)
    · intro honclick
      change s.button.onclick = true at honclick
      rw [hbutton] at honclick
      cases honclick
    · exact fun _ => hrequests
    · exact h.loaded
  · exact h

theorem OneMap.onLibrary (h : OneMap e s) : OneMap e (onLibrary e s) := by
  unfold MapEmbed.onLibrary whenStopMapPopupReady
  split_ifs
  · exact h.doInit
  · exact h.of_waits _ _
  · exact h.doInit

theorem OneMap.bindEmbed (h : OneMap e s) : OneMap e (bindEmbed e s) := by
  unfold MapEmbed.bindEmbed whenMapLibreReady
  split_ifs
  · exact h
  · exact h.onLibrary
  · exact h.of_waits _ _
  · exact h.of_waits _ _

theorem OneMap.invoke (h : OneMap e s) (k : ℕ) : OneMap e (invoke e k s) := by
  unfold MapEmbed.invoke
  split
  · split_ifs
    · exact h
    · exact (h.of_waits _ _).onLibrary
  · exact h

theorem OneMap.poll (h : OneMap e s) (k : ℕ) : OneMap e (poll e s k) := by
  unfold MapEmbed.poll
  split_ifs
  · exact h.invoke k
  · exact h.of_waits _ _

theorem OneMap.pollAll (h : OneMap e s) : OneMap e (pollAll e s) :=
  pollAll_of h.bindEmbed (fun _ k h => h.poll k)

theorem OneMap.of_readyState (h : OneMap e s) (readyState : ReadyState) :
    OneMap e { s with readyState } :=
  ⟨h.fresh, h.scripts, h.single, h.cleanup, h.loader, h.button, h.unused, h.loaded⟩

theorem OneMap.click (h : OneMap e s) (honclick : s.button.onclick = true)
    (henabled : s.button.disabled = false) :
    OneMap e (initMap e { s with button := { s.button with disabled := true } }) := by
  have hinit := h.embedInit_of_onclick honclick
  obtain ⟨hrefreshes, hdisabled⟩ := h.button honclick
  rw [henabled] at hdisabled
  have hidle : s.inFlight = 0 ∧ s.drawing = [] := by
    have hnot : ¬ 0 < s.inFlight + s.drawing.length := fun hpos => by
      cases hdisabled.2 hpos
    exact ⟨by omega, List.length_eq_zero_iff.1 (by omega)⟩
  apply oneMap_initMap (s := { s with button := { s.button with disabled := true } }) hinit
    (h.scripts hinit) hidle
  · have hcleanup := h.cleanup
    have hsingle := h.single
    rw [if_pos hrefreshes] at hcleanup
    cases hdrawn : s.drawn with
    | nil =>
        rw [hdrawn] at hcleanup
        exact Or.inl ⟨rfl, hcleanup⟩
    | cons map rest =>
        rw [hdrawn] at hcleanup hsingle
        have hrest : rest = [] := List.length_eq_zero_iff.1 (by
          rw [List.length_cons] at hsingle
          omega)
        exact Or.inr ⟨map, by rw [hrest], hcleanup⟩
  · exact Or.inr hrefreshes
  · exact fun _ => ⟨hrefreshes, rfl⟩
  · intro hnot
    change s.button.onclick = false at hnot
    rw [honclick] at hnot
    cases hnot
  · exact h.loaded

theorem OneMap.answer (h : OneMap e s) (hpos : s.inFlight ≠ 0) (ok : Bool) {t : State}
    (hnext : next e s (.answer ok) = some t) : OneMap e t := by
  have hinit : s.embedInit = true := by
    by_contra hinit
    exact hpos (h.fresh (Bool.not_eq_true _ ▸ hinit)).2.1
  have hsingle := h.single
  have hone : s.inFlight = 1 ∧ s.drawing = [] ∧ s.drawn = [] := by
    refine ⟨by omega, List.length_eq_zero_iff.1 (by omega), List.length_eq_zero_iff.1 (by omega)⟩
  obtain ⟨hinFlight, hdrawing, hdrawn⟩ := hone
  simp only [next] at hnext
  rw [if_neg hpos] at hnext
  have hcleanup := h.cleanup
  have hfresh : ¬ s.embedInit = false := by simp [hinit]
  split_ifs at hnext with hok hrefreshes <;> obtain rfl := Option.some.inj hnext
  · refine ⟨fun h => absurd h hfresh, h.scripts, ?_, hcleanup, ?_, ?_, h.unused, h.loaded⟩
    · simp [hinFlight, hdrawing, hdrawn]
    · simp [hinFlight]
    · intro honclick
      have hbutton := h.button honclick
      rw [hinFlight, hdrawing] at hbutton
      exact ⟨hbutton.1, iff_of_true (hbutton.2.2 (by decide)) (by dsimp only [List.length_cons]; omega)⟩
  · refine ⟨fun h => absurd h hfresh, h.scripts, ?_, hcleanup, ?_, ?_, h.unused, h.loaded⟩
    · simp [hinFlight, hdrawing, hdrawn]
    · simp [hinFlight]
    · simp [hinFlight, hdrawing, hrefreshes]
  · refine ⟨fun h => absurd h hfresh, h.scripts, ?_, hcleanup, ?_, ?_, h.unused, h.loaded⟩
    · simp [hinFlight, hdrawing, hdrawn]
    · simp [hinFlight]
    · intro honclick
      exact absurd (h.button honclick).1 hrefreshes

theorem OneMap.mapLoad (h : OneMap e s) {map : ℕ} (hmem : map ∈ s.drawing) {t : State}
    (hnext : next e s (.mapLoad map) = some t) : OneMap e t := by
  have hsingle := h.single
  have hpos := List.length_pos_of_mem hmem
  have hinFlight : s.inFlight = 0 := by omega
  have hdrawn : s.drawn = [] := List.length_eq_zero_iff.1 (by omega)
  have hdrawing : s.drawing = [map] := by
    obtain ⟨m, hm⟩ := List.length_eq_one_iff.1 (show s.drawing.length = 1 by omega)
    rw [hm, List.mem_singleton] at hmem
    rw [hm, hmem]
  have hinit : s.embedInit = true := by
    by_contra hinit
    rw [(h.fresh (Bool.not_eq_true _ ▸ hinit)).2.2.1] at hdrawing
    cases hdrawing
  have hfresh : ¬ s.embedInit = false := by simp [hinit]
  have hloader := h.loader hinit
  simp only [next] at hnext
  rw [if_neg (not_not.2 hmem), hdrawing, hdrawn] at hnext
  split_ifs at hnext with hrefreshes <;> obtain rfl := Option.some.inj hnext
  · refine ⟨fun h => absurd h hfresh, h.scripts, ?_, ?_, fun _ => hloader, ?_,
      fun h => Bool.noConfusion h, ?_⟩
    · simp [hinFlight]
    · simp [hrefreshes]
    · simp [hinFlight, hrefreshes]
    · simp [hrefreshes]
  · refine ⟨fun h => absurd h hfresh, h.scripts, ?_, ?_, fun _ => hloader, ?_, h.unused, ?_⟩
    · simp [hinFlight]
    · simp [h.cleanup, hrefreshes]
    · intro honclick
      exact absurd (h.button honclick).1 hrefreshes
    · rw [h.loaded]
      simp [hrefreshes]

/-- Every event keeps it. -/
theorem OneMap.next (h : OneMap e s) {event : Event} (hnext : next e s event = some t) :
    OneMap e t := by
  cases event with
  | libraryRuns =>
      obtain rfl := Option.some.inj hnext
      refine ⟨h.fresh, fun hinit => ?_, h.single, h.cleanup, h.loader, h.button, h.unused, h.loaded⟩
      have hscripts := h.scripts hinit
      simp only [State.hasScripts, Bool.and_eq_true, Bool.true_and] at hscripts ⊢
      exact hscripts.2
  | popupScriptRuns =>
      obtain rfl := Option.some.inj hnext
      refine ⟨h.fresh, fun hinit => ?_, h.single, h.cleanup, h.loader, h.button, h.unused, h.loaded⟩
      have hscripts := h.scripts hinit
      simp only [State.hasScripts, Bool.and_eq_true, Bool.true_or, Bool.and_true] at hscripts ⊢
      exact hscripts.1
  | contentLoaded =>
      obtain ⟨-, rfl⟩ := next_contentLoaded hnext
      exact (h.of_readyState _).pollAll
  | load =>
      obtain ⟨-, rfl⟩ := next_load hnext
      exact (h.of_readyState _).pollAll
  | partSwapped =>
      obtain rfl := Option.some.inj hnext
      exact h.bindEmbed
  | frame k j =>
      obtain ⟨wait, n, -, -, -, ⟨-, rfl⟩ | rfl⟩ := next_frame hnext
      · exact (h.of_waits _ _).invoke k
      · exact h.of_waits _ _
  | popupFrame k =>
      obtain ⟨n, -, -, ⟨-, rfl⟩ | rfl⟩ := next_popupFrame hnext
      · exact (h.of_waits _ _).doInit
      · exact h.of_waits _ _
  | answer ok =>
      have hpos : s.inFlight ≠ 0 := by
        intro hzero
        simp only [MapEmbed.next] at hnext
        rw [if_pos hzero] at hnext
        cases hnext
      exact h.answer hpos ok hnext
  | mapLoad map =>
      have hmem : map ∈ s.drawing := by
        by_contra hnot
        simp only [MapEmbed.next] at hnext
        rw [if_pos hnot] at hnext
        cases hnext
      exact h.mapLoad hmem hnext
  | click =>
      obtain ⟨honclick, henabled, rfl⟩ | rfl := next_click hnext
      · exact h.click honclick henabled
      · exact h

theorem oneMap_start (swapped maplibregl stopMapPopup : Bool) :
    OneMap e (start e swapped maplibregl stopMapPopup) := by
  have hpage : ∀ readyState, OneMap e (page readyState maplibregl stopMapPopup) := by
    intro readyState
    constructor <;> simp [page]
  unfold start
  split_ifs
  · exact (hpage _).bindEmbed
  · exact hpage _

end Safety

section Start

variable {e : Embed} {s t : State}

/-- Something was started, which counts frames or has counted to its limit. -/
def Polls (s : State) : Prop :=
  (∃ (k : ℕ) (wait : LibraryWait), s.libraryWaits[k]? = some wait ∧ wait.done = false ∧
    wait.loops ≠ []) ∨ s.popupWaits ≠ []

def Counts (s : State) : Prop :=
  (∃ (k j n : ℕ) (wait : LibraryWait), s.libraryWaits[k]? = some wait ∧ wait.done = false ∧
    wait.loops[j]? = some n ∧ n ≤ 300) ∨ ∃ k n : ℕ, s.popupWaits[k]? = some n ∧ n ≤ 120

structure RanOut (s : State) : Prop where
  polls : Polls s
  library : ∀ wait ∈ s.libraryWaits, wait.done = false → ∀ n ∈ wait.loops, n = 301
  popup : ∀ n ∈ s.popupWaits, n = 121

/-- No loop counts on above its limit. -/
structure Limited (s : State) : Prop where
  library : ∀ wait ∈ s.libraryWaits, ∀ n ∈ wait.loops, n ≤ 301
  popup : ∀ n ∈ s.popupWaits, n ≤ 121

theorem Limited.counts_or_ranOut (h : Limited s) (hpolls : Polls s) : Counts s ∨ RanOut s := by
  by_cases hcounts : Counts s
  · exact Or.inl hcounts
  · refine Or.inr ⟨hpolls, fun wait hwait hdone n hn => ?_, fun n hn => ?_⟩
    · obtain ⟨k, hk⟩ := List.mem_iff_getElem?.1 hwait
      obtain ⟨j, hj⟩ := List.mem_iff_getElem?.1 hn
      have hlimit := h.library wait hwait n hn
      have hnot : ¬ n ≤ 300 := fun hle => hcounts (Or.inl ⟨k, j, n, wait, hk, hdone, hj, hle⟩)
      omega
    · obtain ⟨k, hk⟩ := List.mem_iff_getElem?.1 hn
      have hlimit := h.popup n hn
      have hnot : ¬ n ≤ 120 := fun hle => hcounts (Or.inr ⟨k, n, hk, hle⟩)
      omega

theorem Limited.of_waits (h : Limited s) (hlibrary : t.libraryWaits = s.libraryWaits)
    (hpopup : t.popupWaits = s.popupWaits) : Limited t := by
  constructor
  · rw [hlibrary]
    exact h.library
  · rw [hpopup]
    exact h.popup

theorem initMap_waits : (initMap e s).libraryWaits = s.libraryWaits ∧
    (initMap e s).popupWaits = s.popupWaits := by
  unfold initMap
  split_ifs <;> exact ⟨rfl, rfl⟩

theorem Limited.initMap (h : Limited s) : Limited (initMap e s) :=
  h.of_waits initMap_waits.1 initMap_waits.2

theorem Limited.doInit (h : Limited s) : Limited (doInit e s) := by
  unfold MapEmbed.doInit
  split_ifs
  · exact h
  · exact (h.of_waits (t := { s with embedInit := true }) rfl rfl).initMap
  · exact h

theorem Limited.onLibrary (h : Limited s) : Limited (onLibrary e s) := by
  unfold MapEmbed.onLibrary whenStopMapPopupReady
  split_ifs
  · exact h.doInit
  · refine ⟨h.library, fun n hn => ?_⟩
    rcases List.mem_append.1 hn with hn | hn
    · exact h.popup n hn
    · rw [List.mem_singleton.1 hn]
      omega
  · exact h.doInit

/-- A loop that is started has counted no frame. -/
theorem Limited.bindEmbed (h : Limited s) : Limited (bindEmbed e s) := by
  unfold MapEmbed.bindEmbed whenMapLibreReady
  split_ifs with hinit hlibrary
  · exact h
  · exact h.onLibrary
  all_goals
    refine ⟨fun wait hwait n hn => ?_, h.popup⟩
    rcases List.mem_append.1 hwait with hwait | hwait
    · exact h.library wait hwait n hn
    · rw [List.mem_singleton.1 hwait] at hn
      simp_all

/-- One wait that keeps its limit takes the place of another. -/
theorem Limited.set (h : Limited s) (k : ℕ) (wait : LibraryWait)
    (hwait : ∀ n ∈ wait.loops, n ≤ 301) :
    Limited { s with libraryWaits := s.libraryWaits.set k wait } := by
  refine ⟨fun other hother => ?_, h.popup⟩
  rcases List.mem_or_eq_of_mem_set hother with hmem | rfl
  · exact h.library other hmem
  · exact hwait

theorem Limited.invoke (h : Limited s) (k : ℕ) : Limited (invoke e k s) := by
  unfold MapEmbed.invoke
  split
  · rename_i wait hwait
    split_ifs
    · exact h
    · have hloops := h.library wait (List.mem_of_getElem? hwait)
      exact (h.set k { wait with done := true } hloops).onLibrary
  · exact h

theorem Limited.poll (h : Limited s) (k : ℕ) : Limited (poll e s k) := by
  unfold MapEmbed.poll
  split_ifs
  · exact h.invoke k
  · refine ⟨fun wait hwait n hn => ?_, h.popup⟩
    obtain ⟨i, hi⟩ := List.mem_iff_getElem?.1 hwait
    rw [List.getElem?_modify, Option.map_eq_map, Option.map_eq_some_iff] at hi
    obtain ⟨wait', hwait', rfl⟩ := hi
    have hmem := List.mem_of_getElem? hwait'
    split_ifs at hn
    · rcases List.mem_append.1 hn with hn | hn
      · exact h.library wait' hmem n hn
      · rw [List.mem_singleton.1 hn]
        omega
    · exact h.library wait' hmem n hn

theorem Limited.pollAll (h : Limited s) : Limited (pollAll e s) :=
  pollAll_of h.bindEmbed (fun _ k h => h.poll k)

theorem Limited.frame (h : Limited s) {k j : ℕ} (hnext : next e s (.frame k j) = some t) :
    Limited t := by
  obtain ⟨wait, n, hwait, -, hlimit, ⟨-, rfl⟩ | rfl⟩ := next_frame hnext
  all_goals have hloops := h.library wait (List.mem_of_getElem? hwait)
  · apply Limited.invoke
    exact h.set _ _ fun n hn => hloops n (List.mem_of_mem_eraseIdx hn)
  · apply h.set
    intro n hn
    rcases List.mem_or_eq_of_mem_set hn with hn | rfl
    · exact hloops n hn
    · omega

theorem Limited.popupFrame (h : Limited s) {k : ℕ} (hnext : next e s (.popupFrame k) = some t) :
    Limited t := by
  obtain ⟨n, -, hlimit, ⟨-, rfl⟩ | rfl⟩ := next_popupFrame hnext
  · apply Limited.doInit
    exact ⟨h.library, fun n hn => h.popup n (List.mem_of_mem_eraseIdx hn)⟩
  · refine ⟨h.library, fun n hn => ?_⟩
    rcases List.mem_or_eq_of_mem_set hn with hn | rfl
    · exact h.popup n hn
    · omega

theorem Limited.next (h : Limited s) {event : Event} (hnext : next e s event = some t) :
    Limited t := by
  cases event with
  | libraryRuns =>
      obtain rfl := Option.some.inj hnext
      exact ⟨h.library, h.popup⟩
  | popupScriptRuns =>
      obtain rfl := Option.some.inj hnext
      exact ⟨h.library, h.popup⟩
  | contentLoaded =>
      obtain ⟨-, rfl⟩ := next_contentLoaded hnext
      exact (h.of_waits (t := { s with readyState := .interactive }) rfl rfl).pollAll
  | load =>
      obtain ⟨-, rfl⟩ := next_load hnext
      exact (h.of_waits (t := { s with readyState := .complete }) rfl rfl).pollAll
  | partSwapped =>
      obtain rfl := Option.some.inj hnext
      exact h.bindEmbed
  | frame k j => exact h.frame hnext
  | popupFrame k => exact h.popupFrame hnext
  | answer ok =>
      simp only [MapEmbed.next] at hnext
      split_ifs at hnext <;> obtain rfl := Option.some.inj hnext <;> exact ⟨h.library, h.popup⟩
  | mapLoad map =>
      simp only [MapEmbed.next] at hnext
      split_ifs at hnext <;> obtain rfl := Option.some.inj hnext <;> exact ⟨h.library, h.popup⟩
  | click =>
      obtain ⟨-, -, rfl⟩ | rfl := next_click hnext
      · exact Limited.initMap ⟨h.library, h.popup⟩
      · exact h

theorem limited_start (swapped maplibregl stopMapPopup : Bool) :
    Limited (start e swapped maplibregl stopMapPopup) := by
  have hpage : ∀ readyState, Limited (page readyState maplibregl stopMapPopup) := by
    intro readyState
    constructor <;> simp [page]
  unfold start
  split_ifs
  · exact (hpage _).bindEmbed
  · exact hpage _

structure Waits (e : Embed) (s : State) : Prop where
  library : s.popupWaits ≠ [] → s.maplibregl = true
  polls : s.readyState ≠ .loading → s.embedInit = true ∨ Polls s

theorem doInit_embedInit (h : s.hasScripts e = true) : (doInit e s).embedInit = true := by
  have hscripts : ({ s with embedInit := true } : State).hasScripts e = true := h
  unfold doInit
  split_ifs with hinit
  · exact hinit
  · rw [initMap_eq hscripts]

theorem doInit_maplibregl : (doInit e s).maplibregl = s.maplibregl := by
  unfold doInit initMap
  split_ifs <;> rfl

/-- With the library there only the popup script is waited for. -/
theorem onLibrary_polls (h : s.maplibregl = true) :
    (onLibrary e s).embedInit = true ∨ (onLibrary e s).popupWaits ≠ [] := by
  unfold onLibrary whenStopMapPopupReady
  split_ifs with hneeds hpopup
  · exact Or.inl (doInit_embedInit (by simp [State.hasScripts, h, hpopup]))
  · exact Or.inr (by simp)
  · exact Or.inl (doInit_embedInit (by simp [State.hasScripts, h, hneeds]))

theorem waits_onLibrary (h : s.maplibregl = true) : Waits e (onLibrary e s) := by
  refine ⟨fun _ => ?_, fun _ => (onLibrary_polls h).imp_right Or.inr⟩
  unfold onLibrary whenStopMapPopupReady
  split_ifs
  · rw [doInit_maplibregl, h]
  · exact h
  · rw [doInit_maplibregl, h]

theorem invoke_of_not_done {k : ℕ} {w : LibraryWait} (hwait : s.libraryWaits[k]? = some w)
    (hdone : w.done = false) (hlibrary : s.maplibregl = true) :
    invoke e k s =
      onLibrary e { s with libraryWaits := s.libraryWaits.set k { w with done := true } } := by
  unfold invoke
  rw [hwait]
  exact if_neg (by simp [hdone, hlibrary])

theorem waits_bindEmbed (h : s.popupWaits ≠ [] → s.maplibregl = true) : Waits e (bindEmbed e s) := by
  unfold bindEmbed whenMapLibreReady
  split_ifs with hinit hlibrary hloading
  · exact ⟨h, fun _ => Or.inl hinit⟩
  · exact waits_onLibrary hlibrary
  · exact ⟨h, fun hnot => absurd hloading hnot⟩
  · refine ⟨h, fun _ => Or.inr (Or.inl ⟨s.libraryWaits.length, ⟨false, [0]⟩, ?_, rfl, by simp⟩)⟩
    simp

theorem Waits.invoke (h : Waits e s) (k : ℕ) : Waits e (invoke e k s) := by
  unfold MapEmbed.invoke
  split
  · split_ifs with hdone
    · exact h
    · rw [Bool.or_eq_true, Bool.not_eq_true', not_or, Bool.not_eq_false] at hdone
      exact waits_onLibrary hdone.2
  · exact h

/-- Where the library is missing, waits keep their loops. -/
theorem Waits.of_libraryWaits (h : Waits e s) {libraryWaits : List LibraryWait}
    (hkept : ∀ (k : ℕ) (wait : LibraryWait), s.libraryWaits[k]? = some wait → wait.done = false →
      wait.loops ≠ [] → ∃ wait', libraryWaits[k]? = some wait' ∧ wait'.done = false ∧
        wait'.loops ≠ []) : Waits e { s with libraryWaits } := by
  refine ⟨h.library, fun hready => (h.polls hready).imp_right fun hpolls => ?_⟩
  rcases hpolls with ⟨k, wait, hwait, hdone, hloops⟩ | hpopup
  · obtain ⟨wait', hwait'⟩ := hkept k wait hwait hdone hloops
    exact Or.inl ⟨k, wait', hwait'⟩
  · exact Or.inr hpopup

theorem Waits.poll (h : Waits e s) (k : ℕ) : Waits e (poll e s k) := by
  unfold MapEmbed.poll
  split_ifs
  · exact h.invoke k
  · apply h.of_libraryWaits
    intro i wait hwait hdone hloops
    rw [List.getElem?_modify, hwait]
    by_cases hi : k = i
    · exact ⟨{ wait with loops := wait.loops ++ [0] }, by simp [hi], hdone, by simp⟩
    · exact ⟨wait, by simp [hi], hdone, hloops⟩

theorem waits_pollAll (h : s.popupWaits ≠ [] → s.maplibregl = true) : Waits e (pollAll e s) :=
  pollAll_of (waits_bindEmbed h) (fun _ k h => h.poll k)

theorem Waits.initMap (h : Waits e s) : Waits e (initMap e s) := by
  unfold MapEmbed.initMap
  split_ifs
  · exact ⟨h.library, h.polls⟩
  · exact h

theorem Waits.frame (h : Waits e s) {k j : ℕ} (hnext : next e s (.frame k j) = some t) :
    Waits e t := by
  obtain ⟨wait, n, hwait, -, -, ⟨hlibrary, rfl⟩ | rfl⟩ := next_frame hnext
  all_goals have hlt : k < s.libraryWaits.length := (List.getElem?_eq_some_iff.1 hwait).1
  · -- The wait that finds the library is done, and so are the others of the same wait.
    cases hdone : wait.done with
    | true =>
        apply Waits.invoke
        apply h.of_libraryWaits
        intro i wait' hwait' hdone' hloops
        have hne : k ≠ i := by
          rintro rfl
          rw [hwait] at hwait'
          rw [← Option.some.inj hwait', hdone] at hdone'
          cases hdone'
        exact ⟨wait', by rw [List.getElem?_set_ne hne, hwait'], hdone', hloops⟩
    | false =>
        have hself := List.getElem?_set_self (a := LibraryWait.mk false (wait.loops.eraseIdx j)) hlt
        rw [invoke_of_not_done (s := { s with libraryWaits := _ }) hself rfl hlibrary]
        exact waits_onLibrary hlibrary
  · apply h.of_libraryWaits
    intro i wait' hwait' hdone' hloops
    by_cases hi : k = i
    · subst hi
      rw [hwait] at hwait'
      obtain rfl := Option.some.inj hwait'
      exact ⟨_, List.getElem?_set_self hlt, hdone', by simpa using hloops⟩
    · exact ⟨wait', by rw [List.getElem?_set_ne hi, hwait'], hdone', hloops⟩

theorem Waits.popupFrame (h : Waits e s) {k : ℕ} (hnext : next e s (.popupFrame k) = some t) :
    Waits e t := by
  obtain ⟨n, hwait, -, hcases⟩ := next_popupFrame hnext
  have hpopup : s.popupWaits ≠ [] := by
    intro hnil
    rw [hnil] at hwait
    cases hwait
  have hlibrary := h.library hpopup
  obtain ⟨hready, rfl⟩ | rfl := hcases
  · refine ⟨fun _ => ?_, fun _ => Or.inl (doInit_embedInit ?_)⟩
    · rw [doInit_maplibregl]
      exact hlibrary
    · simp [State.hasScripts, hlibrary, hready]
  · refine ⟨fun _ => hlibrary, fun hnot => (h.polls hnot).imp_right fun hpolls => ?_⟩
    exact hpolls.imp_right fun _ => by simpa using hpopup

theorem Waits.next (h : Waits e s) {event : Event} (hnext : next e s event = some t) :
    Waits e t := by
  cases event with
  | libraryRuns =>
      obtain rfl := Option.some.inj hnext
      exact ⟨fun _ => rfl, h.polls⟩
  | popupScriptRuns =>
      obtain rfl := Option.some.inj hnext
      exact ⟨h.library, h.polls⟩
  | contentLoaded =>
      obtain ⟨-, rfl⟩ := next_contentLoaded hnext
      exact waits_pollAll h.library
  | load =>
      obtain ⟨-, rfl⟩ := next_load hnext
      exact waits_pollAll h.library
  | partSwapped =>
      obtain rfl := Option.some.inj hnext
      exact waits_bindEmbed h.library
  | frame k j => exact h.frame hnext
  | popupFrame k => exact h.popupFrame hnext
  | answer ok =>
      simp only [MapEmbed.next] at hnext
      split_ifs at hnext <;> obtain rfl := Option.some.inj hnext <;> exact ⟨h.library, h.polls⟩
  | mapLoad map =>
      simp only [MapEmbed.next] at hnext
      split_ifs at hnext <;> obtain rfl := Option.some.inj hnext <;> exact ⟨h.library, h.polls⟩
  | click =>
      obtain ⟨-, -, rfl⟩ | rfl := next_click hnext
      · exact Waits.initMap ⟨h.library, h.polls⟩
      · exact h

theorem waits_start (swapped maplibregl stopMapPopup : Bool) :
    Waits e (start e swapped maplibregl stopMapPopup) := by
  unfold start
  split_ifs
  · exact waits_bindEmbed (fun h => absurd rfl h)
  · exact ⟨fun h => absurd rfl h, fun h => absurd rfl h⟩

/-- Where both scripts are there, the map is asked for in the next frame that something counts. -/
structure StartsAtFrame (e : Embed) (s : State) : Prop where
  library : ∀ (k j n : ℕ) (wait : LibraryWait), s.libraryWaits[k]? = some wait →
    wait.done = false → wait.loops[j]? = some n → n ≤ 300 → s.hasScripts e = true →
      ∃ t, MapEmbed.next e s (.frame k j) = some t ∧ t.embedInit = true
  popup : ∀ k n : ℕ, s.popupWaits[k]? = some n → n ≤ 120 → s.hasScripts e = true →
    s.stopMapPopup = true → ∃ t, MapEmbed.next e s (.popupFrame k) = some t ∧ t.embedInit = true

theorem onLibrary_embedInit (h : s.hasScripts e = true) : (onLibrary e s).embedInit = true := by
  have hscripts := h
  rw [State.hasScripts, Bool.and_eq_true, Bool.or_eq_true, Bool.not_eq_true'] at hscripts
  unfold onLibrary whenStopMapPopupReady
  split_ifs with hneeds hpopup
  · exact doInit_embedInit h
  · exact absurd (hscripts.2.resolve_right (by simp [hneeds])) hpopup
  · exact doInit_embedInit h

theorem startsAtFrame (s : State) : StartsAtFrame e s := by
  constructor
  · intro k j n wait hwait hdone hloop hlimit hscripts
    have hlibrary : s.maplibregl = true := by
      rw [State.hasScripts, Bool.and_eq_true] at hscripts
      exact hscripts.1
    have hlt : k < s.libraryWaits.length := (List.getElem?_eq_some_iff.1 hwait).1
    have hframe : MapEmbed.next e s (.frame k j) = some (invoke e k { s with
        libraryWaits := s.libraryWaits.set k { wait with loops := wait.loops.eraseIdx j } }) := by
      simp only [MapEmbed.next]
      rw [hwait]
      simp only
      rw [hloop]
      simp only
      rw [if_neg (by omega), if_pos hlibrary]
    refine ⟨_, hframe, ?_⟩
    have hself := List.getElem?_set_self (a := { wait with loops := wait.loops.eraseIdx j }) hlt
    rw [invoke_of_not_done (s := { s with libraryWaits := _ }) hself hdone hlibrary]
    exact onLibrary_embedInit hscripts
  · intro k n hwait hlimit hscripts hpopup
    have hframe : MapEmbed.next e s (.popupFrame k) =
        some (doInit e { s with popupWaits := s.popupWaits.eraseIdx k }) := by
      simp only [MapEmbed.next]
      rw [hwait]
      simp only
      rw [if_neg (by omega), if_pos hpopup]
    exact ⟨_, hframe, doInit_embedInit hscripts⟩

theorem onLibrary_of_embedInit (h : s.embedInit = true) : (onLibrary e s).embedInit = true := by
  have hdoInit : doInit e s = s := if_pos h
  unfold onLibrary whenStopMapPopupReady
  split_ifs
  · rw [hdoInit, h]
  · exact h
  · rw [hdoInit, h]

theorem poll_of_embedInit (h : s.embedInit = true) (k : ℕ) : (poll e s k).embedInit = true := by
  unfold poll invoke
  split_ifs
  · split
    · split_ifs
      · exact h
      · exact onLibrary_of_embedInit h
    · exact h
  · exact h

/-- A page that has loaded with both scripts has asked for its map. -/
theorem load_embedInit (hscripts : s.hasScripts e = true) (hnext : next e s .load = some t) :
    t.embedInit = true := by
  have hlibrary : s.maplibregl = true := by
    rw [State.hasScripts, Bool.and_eq_true] at hscripts
    exact hscripts.1
  obtain ⟨-, rfl⟩ := next_load hnext
  refine pollAll_of (P := fun u => u.embedInit = true) ?_ (fun _ k h => poll_of_embedInit h k)
  unfold bindEmbed whenMapLibreReady
  split_ifs with hinit
  · exact hinit
  · exact onLibrary_embedInit hscripts

end Start

section Runs

/-- Of a page at any moment: one request or map with a button that fits, and a map that is asked for
or waited for once the page is parsed, until frames run out. -/
structure MapPage (e : Embed) (s : State) : Prop extends OneMap e s where
  polls : s.readyState ≠ .loading → s.embedInit = true ∨ Counts s ∨ RanOut s
  starts : StartsAtFrame e s
  load : ∀ t, MapEmbed.next e s .load = some t → s.hasScripts e = true → t.embedInit = true

/-- The library is late by a frame, the first answer draws a map, and the second fails. -/
def sampleEvents : List Event :=
  [.partSwapped, .contentLoaded, .frame 1 0, .libraryRuns, .frame 0 0, .load, .answer true,
    .mapLoad 0, .partSwapped, .click, .click, .answer false, .click]

theorem sampleEvents_execute :
    (exec (next stopMap) (start stopMap false false true) sampleEvents).isSome := by
  decide +kernel

end Runs

end SimplyTransport.MapEmbed
