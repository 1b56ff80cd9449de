import SimplyTransport.ResponseCache
import SimplyTransport.Transition

/-!
# An import of static data beside cached requests

`import_gtfs_dataset` clears the realtime tables, clears and fills a table for each file that
exists, records an event, all in transactions of their own, and then deletes keys of the response
cache by a list of patterns, each with a `KEYS` and a `DEL`. A cached request misses the store,
reads the database and stores its response, each of them at any time. `Guarded` is the invariant:
what is stored of responses that the run makes stale is still to be deleted, or expires in time.
-/

namespace SimplyTransport.StaticImport
open Transition Glob

/-- A transaction of the import, which commits, or a deletion. -/
inductive Instruction
  | clearRealtimeTables
  | clearTable (file : String)
  | importData (file : String)
  | createEvent
  | deleteKeysByPattern (pattern : String)
  deriving DecidableEq

def Instruction.commits : Instruction → Bool
  | .deleteKeysByPattern _ => false
  | _ => true

def filesToImport : List String :=
  ["agency.txt", "calendar.txt", "calendar_dates.txt", "routes.txt", "stops.txt", "trips.txt",
    "stop_times.txt", "shapes.txt"]

/-- The run on a directory: how often `import_data` of a file commits, or `none` where the file
is skipped. -/
def importGtfsDataset (directory : String → Option ℕ) : List Instruction :=
  .clearRealtimeTables ::
    (filesToImport.flatMap (fun file =>
      match directory file with
      | none => []
      | some n => .clearTable file :: List.replicate n (.importData file)) ++
    .createEvent :: deletedPatterns.map .deleteKeysByPattern)

def commitCount (l : List Instruction) : ℕ := l.countP Instruction.commits

/-- A response: its handler, and how many commits the run had made when its rows were read. -/
structure Response where
  handler : Handler
  commits : ℕ
  deriving DecidableEq

inductive RequestState
  | idle
  | missed (handler : Handler) (key : String)
  | computed (handler : Handler) (key : String) (commits : ℕ)
  deriving DecidableEq

/-- The run's remaining instructions, the keys that a `KEYS` has returned and its `DEL` has not
deleted yet, the store and the requests. -/
structure State where
  now : DateTime
  rest : List Instruction
  keys : Option (String → Bool)
  raised : Bool
  commits : ℕ
  store : ResponseStore Response
  requests : ℕ → RequestState

inductive Event
  | tick (micros : ℕ)
  | advance
  | raise
  | lookup (i : ℕ) (handler : Handler) (request : Request)
  | read (i : ℕ)
  | set (i : ℕ)

def initial (directory : String → Option ℕ) (store : ResponseStore Response) (now : DateTime) :
    State where
  now := now
  rest := importGtfsDataset directory
  keys := none
  raised := false
  commits := 0
  store := store
  requests _ := .idle

namespace State

def matching (s : State) (pattern key : String) : Bool :=
  (s.store.get key s.now).isSome && globMatches pattern key

/-- `DEL` of keys; of none it changes nothing, and the run then skips it. -/
def delete (s : State) (keys : String → Bool) : State :=
  { s with keys := none, store := fun key => if keys key then none else s.store key }

def perform (s : State) (rest : List Instruction) : Instruction → State
  | .deleteKeysByPattern pattern => { s with rest := rest, keys := some (s.matching pattern) }
  | _ => { s with rest := rest, commits := s.commits + 1 }

def advance (s : State) : Option State :=
  match s.raised, s.keys, s.rest with
  | true, _, _ => none
  | false, some keys, _ => some (s.delete keys)
  | false, none, instruction :: rest => some (s.perform rest instruction)
  | false, none, [] => none

def finished (s : State) : Bool := s.rest.isEmpty && s.keys.isNone && !s.raised

end State

variable {redisNamespace : String} {directory : String → Option ℕ} {s t : State}

section System

variable (redisNamespace : String)

def next (s : State) : Event → Option State
  | .tick micros => some { s with now := s.now.addMicros micros }
  | .advance => s.advance
  | .raise => if s.finished then none else some { s with raised := true }
  | .lookup i handler request =>
    match s.requests i, handler.cacheKeyBuilder request with
    | .idle, .ok key =>
      if (s.store.get (makeKey redisNamespace key) s.now).isSome then some s
      else some { s with requests := Function.update s.requests i (.missed handler key) }
    | _, _ => none
  | .read i =>
    match s.requests i with
    | .missed handler key =>
      some { s with requests := Function.update s.requests i (.computed handler key s.commits) }
    | _ => none
  | .set i =>
    match s.requests i with
    | .computed handler key commits =>
      some { s with
        store :=
          s.store.set (makeKey redisNamespace key) ⟨handler, commits⟩ s.now handler.cache
        requests := Function.update s.requests i .idle }
    | _ => none

def Doomed (s : State) (key : String) : Prop :=
  (∃ keys, s.keys = some keys ∧ keys key = true) ∨
    ∃ pattern, .deleteKeysByPattern pattern ∈ s.rest ∧ globMatches pattern key = true

/-- A response of a handler that reads the static tables, read before the last of the run's
`total` commits. -/
def Stale (total : ℕ) (r : Response) : Prop := r.handler.readsStatic = true ∧ r.commits < total

/-- A stale response is stored only where the run has still to delete its key, or where it
expires by the instant `finish`. -/
def Timely (total : ℕ) (finish : DateTime) (s : State) : Event → Prop
  | .set i =>
    match s.requests i with
    | .computed handler key commits =>
      Stale total ⟨handler, commits⟩ → s.now.addSeconds handler.cache ≤ finish ∨
        Doomed s (makeKey redisNamespace key)
    | _ => True
  | _ => True

/-- Every live response of a handler that reads the static tables was read after every commit. -/
def NoStaleResponse (s : State) : Prop :=
  ∀ key r, s.store.get key s.now = some r → r.handler.readsStatic = true → s.commits ≤ r.commits

def Counted (total : ℕ) (s : State) : Prop := s.commits + commitCount s.rest = total

/-- What is stored of stale responses is still to be deleted or expires in time. -/
def Guarded (total : ℕ) (finish : DateTime) (s : State) : Prop :=
  ∀ key r, s.store key = some r → Stale total r.response → s.now < r.expires →
    finish < r.expires → Doomed s key

end System

section Steps

variable {total : ℕ} {finish : DateTime} {e : Event}

theorem advance_cases (h : s.advance = some t) :
    (∃ keys, s.keys = some keys ∧ t = s.delete keys) ∨
      ∃ instruction rest, s.keys = none ∧ s.rest = instruction :: rest ∧
        t = s.perform rest instruction := by
  unfold State.advance at h
  split at h
  · cases h
  · next keys _ hkeys => exact Or.inl ⟨keys, hkeys, (Option.some.inj h).symm⟩
  · next instruction rest _ hkeys hrest =>
    exact Or.inr ⟨instruction, rest, hkeys, hrest, (Option.some.inj h).symm⟩
  · cases h

theorem raise_cases (h : next redisNamespace s .raise = some t) : t = { s with raised := true } := by
  simp only [next] at h
  split_ifs at h
  exact (Option.some.inj h).symm

theorem lookup_cases {i : ℕ} {handler : Handler} {request : Request}
    (h : next redisNamespace s (.lookup i handler request) = some t) :
    ∃ requests, t = { s with requests := requests } := by
  simp only [next] at h
  split at h
  · split_ifs at h
    · exact ⟨s.requests, (Option.some.inj h).symm⟩
    · exact ⟨_, (Option.some.inj h).symm⟩
  · cases h

theorem read_cases {i : ℕ} (h : next redisNamespace s (.read i) = some t) :
    ∃ requests, t = { s with requests := requests } := by
  simp only [next] at h
  split at h
  · exact ⟨_, (Option.some.inj h).symm⟩
  · cases h

theorem set_cases {i : ℕ} (h : next redisNamespace s (.set i) = some t) :
    ∃ handler key commits, s.requests i = .computed handler key commits ∧
      t = { s with
        store :=
          s.store.set (makeKey redisNamespace key) ⟨handler, commits⟩ s.now handler.cache
        requests := Function.update s.requests i .idle } := by
  simp only [next] at h
  split at h
  · next handler key commits hi => exact ⟨handler, key, commits, hi, (Option.some.inj h).symm⟩
  · cases h

theorem Counted.perform (h : Counted total s) {instruction : Instruction}
    {rest : List Instruction} (hrest : s.rest = instruction :: rest) :
    Counted total (s.perform rest instruction) := by
  unfold Counted at h ⊢
  rw [hrest, commitCount] at h
  cases instruction with
  | deleteKeysByPattern pattern => rwa [List.countP_cons_of_neg Bool.false_ne_true] at h
  | _ =>
      rw [List.countP_cons_of_pos rfl, ← add_assoc] at h
      change s.commits + 1 + commitCount rest = total
      rwa [commitCount, add_right_comm]

theorem counted_step (h : Counted total s) (he : next redisNamespace s e = some t) :
    Counted total t := by
  cases e with
  | tick micros =>
      obtain rfl := Option.some.inj he
      exact h
  | advance =>
      obtain ⟨keys, _, rfl⟩ | ⟨instruction, rest, _, hrest, rfl⟩ := advance_cases he
      · exact h
      · exact h.perform hrest
  | raise =>
      obtain rfl := raise_cases he
      exact h
  | lookup i handler request =>
      obtain ⟨requests, rfl⟩ := lookup_cases he
      exact h
  | read i =>
      obtain ⟨requests, rfl⟩ := read_cases he
      exact h
  | set i =>
      obtain ⟨handler, key, commits, _, rfl⟩ := set_cases he
      exact h

theorem Guarded.tick (h : Guarded total finish s) (micros : ℕ) :
    Guarded total finish { s with now := s.now.addMicros micros } := fun key r hr hstale hlive =>
  h key r hr hstale ((DateTime.le_addMicros s.now micros).trans_lt hlive)

/-- What a `DEL` leaves was not among its keys. -/
theorem Guarded.delete (h : Guarded total finish s) {keys : String → Bool}
    (hkeys : s.keys = some keys) : Guarded total finish (s.delete keys) := by
  intro key r hr hstale hlive hfinish
  dsimp only [State.delete] at hr
  split_ifs at hr with hkey
  obtain ⟨keys', hkeys', hkey'⟩ | hpattern := h key r hr hstale hlive hfinish
  · rw [hkeys] at hkeys'
    exact absurd (Option.some.inj hkeys' ▸ hkey') hkey
  · exact Or.inr hpattern

theorem Guarded.commit (h : Guarded total finish s) {instruction : Instruction}
    {rest : List Instruction} (hrest : s.rest = instruction :: rest)
    (hcommits : instruction.commits = true) :
    Guarded total finish { s with rest := rest, commits := s.commits + 1 } := by
  intro key r hr hstale hlive hfinish
  obtain hkeys | ⟨pattern, hmem, hmatches⟩ := h key r hr hstale hlive hfinish
  · exact Or.inl hkeys
  · rw [hrest, List.mem_cons] at hmem
    refine Or.inr ⟨pattern, hmem.resolve_left (fun heq => ?_), hmatches⟩
    rw [← heq] at hcommits
    cases hcommits

/-- The pattern whose turn it is finds the live entries that it was to delete. -/
theorem Guarded.keys (h : Guarded total finish s) {pattern : String} {rest : List Instruction}
    (hkeys : s.keys = none) (hrest : s.rest = .deleteKeysByPattern pattern :: rest) :
    Guarded total finish { s with rest := rest, keys := some (s.matching pattern) } := by
  intro key r hr hstale hlive hfinish
  obtain ⟨keys, hsome, _⟩ | ⟨pattern', hmem, hmatches⟩ := h key r hr hstale hlive hfinish
  · rw [hkeys] at hsome
    cases hsome
  · rw [hrest, List.mem_cons] at hmem
    rcases hmem with heq | hmem
    · obtain rfl := Instruction.deleteKeysByPattern.inj heq
      have hget : (s.store.get key s.now).isSome = true :=
        Option.isSome_iff_exists.2 ⟨_, ResponseStore.get_eq_some.2 ⟨r, hr, hlive, rfl⟩⟩
      exact Or.inl ⟨_, rfl, by rw [State.matching, hget, hmatches, Bool.and_self]⟩
    · exact Or.inr ⟨pattern', hmem, hmatches⟩

theorem Guarded.perform (h : Guarded total finish s) {instruction : Instruction}
    {rest : List Instruction} (hkeys : s.keys = none) (hrest : s.rest = instruction :: rest) :
    Guarded total finish (s.perform rest instruction) := by
  cases instruction with
  | deleteKeysByPattern pattern => exact h.keys hkeys hrest
  | _ => exact h.commit hrest rfl

theorem Guarded.set (h : Guarded total finish s) {i : ℕ} {handler : Handler} {key : String}
    {commits : ℕ} (hi : s.requests i = .computed handler key commits)
    (htimely : Timely redisNamespace total finish s (.set i)) (requests : ℕ → RequestState) :
    Guarded total finish { s with
      store := s.store.set (makeKey redisNamespace key) ⟨handler, commits⟩ s.now handler.cache
      requests := requests } := by
  intro key' r hr hstale hlive hfinish
  simp only [Timely, hi] at htimely
  dsimp only [ResponseStore.set] at hr
  by_cases hkey : key' = makeKey redisNamespace key
  · subst hkey
    rw [Function.update_self] at hr
    obtain rfl := Option.some.inj hr
    exact (htimely hstale).resolve_left (not_le.2 hfinish)
  · rw [Function.update_of_ne hkey] at hr
    exact h key' r hr hstale hlive hfinish

theorem guarded_step (h : Guarded total finish s)
    (htimely : Timely redisNamespace total finish s e)
    (he : next redisNamespace s e = some t) : Guarded total finish t := by
  cases e with
  | tick micros =>
      obtain rfl := Option.some.inj he
      exact h.tick micros
  | advance =>
      obtain ⟨keys, hkeys, rfl⟩ | ⟨instruction, rest, hkeys, hrest, rfl⟩ := advance_cases he
      · exact h.delete hkeys
      · exact h.perform hkeys hrest
  | raise =>
      obtain rfl := raise_cases he
      exact h
  | lookup i handler request =>
      obtain ⟨requests, rfl⟩ := lookup_cases he
      exact h
  | read i =>
      obtain ⟨requests, rfl⟩ := read_cases he
      exact h
  | set i =>
      obtain ⟨handler, key, commits, hi, rfl⟩ := set_cases he
      exact h.set hi htimely _

theorem finished_iff : s.finished = true ↔ s.rest = [] ∧ s.keys = none ∧ s.raised = false := by
  simp only [State.finished, Bool.and_eq_true, List.isEmpty_iff, Option.isNone_iff_eq_none,
    Bool.not_eq_true', and_assoc]

theorem Counted.of_finished (h : Counted total s) (hfinished : s.finished = true) :
    s.commits = total := by
  rwa [Counted, (finished_iff.1 hfinished).1, commitCount, List.countP_nil, add_zero] at h

theorem not_doomed_of_finished (hfinished : s.finished = true) (key : String) :
    ¬ Doomed s key := by
  obtain ⟨hrest, hkeys, _⟩ := finished_iff.1 hfinished
  rintro (⟨keys, hsome, _⟩ | ⟨pattern, hmem, _⟩)
  · rw [hkeys] at hsome
    cases hsome
  · rw [hrest] at hmem
    cases hmem

theorem Guarded.noStaleResponse (h : Guarded total s.now s) (hcounted : Counted total s)
    (hfinished : s.finished = true) : NoStaleResponse s := by
  intro key r hget hstatic
  obtain ⟨entry, hentry, hlive, rfl⟩ := ResponseStore.get_eq_some.1 hget
  by_contra hlt
  rw [hcounted.of_finished hfinished, not_le] at hlt
  exact not_doomed_of_finished hfinished key (h key entry hentry ⟨hstatic, hlt⟩ hlive hlive)

end Steps

end SimplyTransport.StaticImport
