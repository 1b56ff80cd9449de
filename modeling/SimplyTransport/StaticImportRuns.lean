import SimplyTransport.StaticImport

/-!
# Runs of the static import

A run leaves no stale response where each is stored in time for its deletion, and a response that
is stored too late can outlive it. The keys of stop and trip pages match none of the patterns.
-/

namespace SimplyTransport.StaticImport
open Transition Glob

variable {redisNamespace : String} {directory : String → Option ℕ} {s t : State}

section Runs

variable {store : ResponseStore Response} {now finish : DateTime}

theorem counted_initial :
    Counted (commitCount (importGtfsDataset directory)) (initial directory store now) :=
  Nat.zero_add _

theorem deleteKeysByPattern_mem {pattern : String} (h : pattern ∈ deletedPatterns) :
    .deleteKeysByPattern pattern ∈ importGtfsDataset directory := by
  apply List.mem_cons_of_mem
  exact List.mem_append_right _ (List.mem_cons_of_mem _ (List.mem_map_of_mem h))

theorem guarded_initial (hstore : ∀ key r, store key = some r →
      r.response.handler.readsStatic = true → r.expires ≤ finish ∨
        ∃ pattern ∈ deletedPatterns, globMatches pattern key = true) (total : ℕ) :
    Guarded total finish (initial directory store now) := by
  intro key r hr hstale _ hfinish
  obtain ⟨pattern, hmem, hmatches⟩ := (hstore key r hr hstale.1).resolve_left (not_le.2 hfinish)
  exact Or.inr ⟨pattern, deleteKeysByPattern_mem hmem, hmatches⟩

/-- When a run of the import has ended, no response from the static tables is left that was
computed before its last commit, provided that what was in the store of such responses before the
run, and what is stored of them during it, is still to be deleted then or has expired at its
end. -/
theorem import_leaves_no_stale_page
    (hstore : ∀ key r, store key = some r → r.response.handler.readsStatic = true →
      r.expires ≤ s.now ∨ ∃ pattern ∈ deletedPatterns, globMatches pattern key = true)
    (hrun : RunWhile (next redisNamespace)
      (Timely redisNamespace (commitCount (importGtfsDataset directory)) s.now)
      (initial directory store now) s)
    (hfinished : s.finished = true) : NoStaleResponse s := by
  have hcounted := hrun.toRun.invariant counted_initial (fun _ _ _ h he => counted_step h he)
  have hguarded := hrun.invariant (guarded_initial hstore _)
    (fun _ _ _ h htimely he => guarded_step h htimely he)
  exact hguarded.noStaleResponse hcounted hfinished

theorem advance_delete {keys : String → Bool} (hraised : s.raised = false)
    (hkeys : s.keys = some keys) : s.advance = some (s.delete keys) := by
  rw [State.advance, hraised, hkeys]

theorem advance_perform {instruction : Instruction} {rest : List Instruction}
    (hraised : s.raised = false) (hkeys : s.keys = none) (hrest : s.rest = instruction :: rest) :
    s.advance = some (s.perform rest instruction) := by
  rw [State.advance, hraised, hkeys, hrest]

/-- The rest of the run alone leaves an entry that none of its deletions is for. -/
theorem exists_run_keeping {key : String} (hraised : s.raised = false) (hkeys : s.keys = none)
    (hkey : ∀ pattern, .deleteKeysByPattern pattern ∈ s.rest → globMatches pattern key = false) :
    ∃ t, Run (next redisNamespace) s t ∧ t.finished = true ∧ t.now = s.now ∧
      t.store key = s.store key := by
  induction hrest : s.rest generalizing s with
  | nil => exact ⟨s, RunWhile.refl s, finished_iff.2 ⟨hrest, hkeys, hraised⟩, rfl, rfl⟩
  | cons instruction rest ih =>
      have hperform := advance_perform hraised hkeys hrest
      have htail : ∀ pattern, .deleteKeysByPattern pattern ∈ rest →
          globMatches pattern key = false := fun pattern hmem =>
        hkey pattern (hrest ▸ List.mem_cons_of_mem _ hmem)
      have hfirst : ∀ pattern, instruction = .deleteKeysByPattern pattern →
          s.matching pattern key = false := fun pattern heq => by
        rw [State.matching, hkey pattern (hrest ▸ heq ▸ List.mem_cons_self), Bool.and_false]
      cases instruction with
      | deleteKeysByPattern pattern =>
          have hdelete := advance_delete (s := s.perform rest (.deleteKeysByPattern pattern))
            hraised rfl
          obtain ⟨t, hrun, hfinished, hnow, hstore⟩ :=
            ih (s := (s.perform rest (.deleteKeysByPattern pattern)).delete (s.matching pattern))
              hraised rfl htail rfl
          have hstart : Run (next redisNamespace) s t :=
            ((RunWhile.refl s).tail (e := .advance) trivial hperform |>.tail
              (e := .advance) trivial hdelete).trans hrun
          refine ⟨t, hstart, hfinished, hnow, hstore.trans ?_⟩
          exact if_neg (by rw [hfirst pattern rfl]; exact Bool.false_ne_true)
      | _ =>
          obtain ⟨t, hrun, hfinished, hnow, hstore⟩ :=
            ih (s := { s with rest := rest, commits := s.commits + 1 }) hraised hkeys htail rfl
          exact ⟨t, ((RunWhile.refl s).tail (e := .advance) trivial hperform).trans hrun,
            hfinished, hnow, hstore⟩

theorem exists_run_of_not_doomed {key : String} (hraised : s.raised = false)
    (h : ¬ Doomed s key) :
    ∃ t, Run (next redisNamespace) s t ∧ t.finished = true ∧ t.now = s.now ∧
      t.store key = s.store key := by
  have hkey : ∀ pattern, .deleteKeysByPattern pattern ∈ s.rest →
      globMatches pattern key = false := fun pattern hmem =>
    Bool.eq_false_iff.2 (fun hmatches => h (Or.inr ⟨pattern, hmem, hmatches⟩))
  cases hkeys : s.keys with
  | none => exact exists_run_keeping hraised hkeys hkey
  | some keys =>
      have hnot : ¬ keys key = true := fun hmem => h (Or.inl ⟨keys, hkeys, hmem⟩)
      obtain ⟨t, hrun, hfinished, hnow, hstore⟩ :=
        @exists_run_keeping redisNamespace (s.delete keys) _ hraised rfl hkey
      have hdelete := advance_delete hraised hkeys
      exact ⟨t, ((RunWhile.refl s).tail (e := .advance) trivial hdelete).trans hrun, hfinished,
        hnow, hstore.trans (if_neg hnot)⟩

/-- A response that is stored too late can outlive the run: nothing more has to happen than the
rest of it. -/
theorem stale_response_of_not_timely {i : ℕ}
    (hrun : Run (next redisNamespace) (initial directory store now) s) (hraised : s.raised = false)
    (he : next redisNamespace s (.set i) = some t)
    (hnot : ¬ Timely redisNamespace (commitCount (importGtfsDataset directory)) s.now s (.set i)) :
    ∃ u, Run (next redisNamespace) t u ∧ u.finished = true ∧ ¬ NoStaleResponse u := by
  obtain ⟨handler, key, commits, hi, rfl⟩ := set_cases he
  simp only [Timely, hi, Classical.not_imp, not_or] at hnot
  obtain ⟨⟨hstatic, hcommits⟩, _, hdoomed⟩ := hnot
  obtain ⟨u, hrun', hfinished, hnow, hstore⟩ :=
    @exists_run_of_not_doomed redisNamespace { s with
      store := s.store.set (makeKey redisNamespace key) ⟨handler, commits⟩ s.now handler.cache
      requests := Function.update s.requests i .idle } _ hraised hdoomed
  refine ⟨u, hrun', hfinished, fun hfresh => ?_⟩
  have hcounted : Counted (commitCount (importGtfsDataset directory)) u :=
    Run.invariant ((hrun.tail trivial he).trans hrun') counted_initial
      (fun _ _ _ h he => counted_step h he)
  have hlive : s.now < s.now.addSeconds handler.cache := by
    have hpos := handler.cache_pos
    simp only [DateTime.lt_iff, DateTime.addSeconds, DateTime.addMicros]
    omega
  have hget : u.store.get (makeKey redisNamespace key) u.now = some ⟨handler, commits⟩ := by
    rw [ResponseStore.get_eq_some]
    exact ⟨⟨⟨handler, commits⟩, s.now.addSeconds handler.cache⟩,
      hstore.trans (Function.update_self _ _ _), hnow ▸ hlive, rfl⟩
  have hle := hfresh _ _ hget hstatic
  rw [hcounted.of_finished hfinished] at hle
  exact absurd hcommits (not_lt.2 hle)

end Runs

section Examples

def stopRequest : Request := ⟨[("stop_id", "8220DB000007")], []⟩

def stopsOnly (file : String) : Option ℕ := if file = "stops.txt" then some 1 else none

def beforeImport : State := initial stopsOnly (fun _ => none) ⟨0⟩

def stopPageEvents : List Event :=
  [.lookup 0 .realtimeStop stopRequest, .read 0, .set 0] ++ List.replicate 20 .advance

theorem stopPageEvents_run : (exec (next "SimplyTransport:response_cache:v1.2.0") beforeImport
    stopPageEvents).isSome = true := by decide

/-- The page of a stop that was stored before the run is still there after it. -/
theorem import_leaves_stop_page :
    ¬ ∀ (redisNamespace : String) (directory : String → Option ℕ) (now : DateTime) (s : State),
      Run (next redisNamespace) (initial directory (fun _ => none) now) s →
      s.finished = true → NoStaleResponse s := by
  intro h
  have hfresh := h _ stopsOnly ⟨0⟩ _ (run_of_exec (exec_get _ stopPageEvents_run)) (by decide)
    "SimplyTransport:response_cache:v1.2.0:realtime:stop:8220DB000007" ⟨.realtimeStop, 0⟩
    (by decide) rfl
  exact absurd hfresh (by decide)

/-- Before the run there are a page of delays, which no pattern matches, and a page of a schedule. -/
def pagesBefore : ResponseStore Response := fun key =>
  if key = "SimplyTransport:response_cache:v1.2.0:delays_html_route:15" then
    some ⟨⟨.delaysRoute, 0⟩, ⟨86400000000⟩⟩
  else if key = "SimplyTransport:response_cache:v1.2.0:schedule:8220DB000007:MONDAY" then
    some ⟨⟨.realtimeStopSchedule, 0⟩, ⟨86400000000⟩⟩
  else none

theorem pagesBefore_deleted {finish : DateTime} (key : String) (r : StoredResponse Response)
    (hr : pagesBefore key = some r) (hstatic : r.response.handler.readsStatic = true) :
    r.expires ≤ finish ∨ ∃ pattern ∈ deletedPatterns, globMatches pattern key = true := by
  unfold pagesBefore at hr
  split_ifs at hr with hdelays hschedule
  · rw [← Option.some.inj hr] at hstatic
    cases hstatic
  · rw [hschedule]
    exact Or.inr ⟨"*schedule:*", by decide, by decide⟩

theorem readMap_run : (exec (next "SimplyTransport:response_cache:v1.2.0")
    (initial stopsOnly pagesBefore ⟨0⟩)
    [.lookup 0 .stopMapData stopRequest, .read 0]).isSome = true := by decide

def readMap : State := (exec (next "SimplyTransport:response_cache:v1.2.0")
  (initial stopsOnly pagesBefore ⟨0⟩)
  [.lookup 0 .stopMapData stopRequest, .read 0]).get readMap_run

theorem storedMap_run :
    (next "SimplyTransport:response_cache:v1.2.0" readMap (.set 0)).isSome = true := by decide

def storedMap : State :=
  (next "SimplyTransport:response_cache:v1.2.0" readMap (.set 0)).get storedMap_run

theorem importAfterMap_run : (exec (next "SimplyTransport:response_cache:v1.2.0") storedMap
    (List.replicate 20 .advance)).isSome = true := by decide

theorem timely_readMap {total : ℕ} {finish : DateTime} :
    Timely "SimplyTransport:response_cache:v1.2.0" total finish readMap (.set 0) := by
  have hread : readMap.requests 0 = .computed .stopMapData "stop_map:8220DB000007" 0 := by decide
  simp only [Timely, hread]
  intro _
  exact Or.inr (Or.inr ⟨"*stop_map:*", by decide, by decide⟩)

theorem import_leaves_no_stale_stop_map :
    NoStaleResponse ((exec (next "SimplyTransport:response_cache:v1.2.0") storedMap
      (List.replicate 20 .advance)).get importAfterMap_run) := by
  have hread := runWhile_of_exec (C := Timely "SimplyTransport:response_cache:v1.2.0"
    (commitCount (importGtfsDataset stopsOnly)) ⟨0⟩) (fun e he _ => by
      rcases List.mem_pair.1 he with rfl | rfl <;> trivial) (exec_get _ readMap_run)
  have hstored := hread.tail timely_readMap (Option.some_get storedMap_run).symm
  have hrun := hstored.trans (runWhile_of_exec (fun e he _ => by
    rw [List.eq_of_mem_replicate he]
    trivial) (exec_get _ importAfterMap_run))
  exact import_leaves_no_stale_page pagesBefore_deleted hrun (by decide)

end Examples

end SimplyTransport.StaticImport
