import SimplyTransport.EventLabels
import SimplyTransport.OrderedDict
import SimplyTransport.Retention
import SimplyTransport.SearchPages
import SimplyTransport.Transition

/-!
# The log of events

Jobs log what they did as events that expire, and clean-ups delete the events that had expired when
they began: they select the ids first, of one type or of all, and delete them later, so that several
of them can have selected one event. The start page shows when the last event of each type was
logged.
-/

namespace SimplyTransport.EventLog

open Paging Retention Transition EventLabels

inductive EventType
  | gtfsDatabaseUpdated
  | realtimeDatabaseUpdated
  | realtimeVehiclesDatabaseUpdated
  | stopFeaturesDatabaseUpdated
  | databaseStatisticsUpdated
  | cleanupEventsDeleted
  | cleanupDelaysDeleted
  | recordTsStopTimes
  deriving DecidableEq

structure EventModel (α : Type) where
  id : ℕ
  eventType : EventType
  description : String
  expiryTime : DateTime
  attributes : α
  createdAt : DateTime

structure PrettyEvent (α : Type) extends EventModel α where
  createdAtPretty : List Char

variable {α : Type}

def EventModel.addPrettyCreatedAt (currentTime : DateTime) (event : EventModel α) : PrettyEvent α :=
  ⟨event, createdAtPretty currentTime event.createdAt⟩

def defaultExpiry (now : DateTime) : DateTime := now.addSeconds (90 * 86400)

/-- An event before it is added; its id and the time of its creation come with its row. -/
structure Draft (α : Type) where
  eventType : EventType
  description : String
  expiryTime : DateTime
  attributes : α

def Draft.row (draft : Draft α) (id : ℕ) (createdAt : DateTime) : EventModel α :=
  ⟨id, draft.eventType, draft.description, draft.expiryTime, draft.attributes, createdAt⟩

/-- A call of `cleanup_events` with its reading of the clock, and the ids once it has selected
them. -/
structure Cleanup where
  eventType : Option EventType
  reading : DateTime
  selected : Option (List ℕ)

def Cleanup.selects (cleanup : Cleanup) (event : EventModel α) : Bool :=
  cleanup.eventType.all (fun eventType => event.eventType = eventType) &&
    event.expiryTime < cleanup.reading

def Cleanup.eventsToDelete (cleanup : Cleanup) (table : List (EventModel α)) : List ℕ :=
  (table.filter cleanup.selects).map EventModel.id

def deleteMany (ids : List ℕ) (table : List (EventModel α)) : List (EventModel α) :=
  table.filter (fun event => !decide (event.id ∈ ids))

section Queries

inductive Order
  | asc
  | desc

/-- What the database can return for rows in an order of their creation. -/
def Answers (order : Order) (rows answer : List (EventModel α)) : Prop :=
  match order with
  | .asc => SortedBy EventModel.createdAt rows answer
  | .desc => SortedBy (fun event => OrderDual.toDual event.createdAt) rows answer

def ofType (eventType : EventType) (table : List (EventModel α)) : List (EventModel α) :=
  table.filter (fun event => event.eventType = eventType)

def getPaginatedEventsByTypeWithTotal (answer : List (EventModel α)) (limitOffset : LimitOffset) :
    List (EventModel α) × ℕ := getManyAndCount answer limitOffset

def getMostRecentEventByType (answer : List (EventModel α)) : Option (EventModel α) :=
  match (getPaginatedEventsByTypeWithTotal answer ⟨1, 0⟩).1 with
  | [] => none
  | event :: _ => some event

def getSinglePrettyEventByType (answer : List (EventModel α)) (currentTime : DateTime) :
    Option (PrettyEvent α) :=
  match (getPaginatedEventsByTypeWithTotal answer ⟨1, 0⟩).1 with
  | [] => none
  | event :: _ => some (event.addPrettyCreatedAt currentTime)

def newestIds (answers : List (List (EventModel α))) : List ℕ :=
  answers.flatMap (fun answer => (answer.take 1).map EventModel.id)

/-- What the database can answer when the newest events of some types are read. -/
structure ReadsNewest (table : List (EventModel α)) (eventTypes : List EventType)
    (answers : List (List (EventModel α))) (rows : List (EventModel α)) : Prop where
  answered : List.Forall₂ (fun eventType answer => Answers .desc (ofType eventType table) answer)
    eventTypes answers
  rows : rows.Perm (table.filter (fun event => decide (event.id ∈ newestIds answers)))

def getMultiplePrettyEventsByTypes (eventTypes : List EventType) (rows : List (EventModel α))
    (currentTime : DateTime) : OrderedDict EventType (PrettyEvent α) :=
  if eventTypes = [] then OrderedDict.empty
  else OrderedDict.lastBy (fun event : PrettyEvent α => event.eventType)
    (rows.map (EventModel.addPrettyCreatedAt currentTime))

end Queries

structure EventTable (α : Type) where
  rows : List (EventModel α)
  nextId : ℕ
  ids_nodup : (rows.map EventModel.id).Nodup
  ids_lt : ∀ event ∈ rows, event.id < nextId

/-- `log` has every event that was ever added; `executed` has the clean-ups that have deleted their
events and `returned` the numbers they have returned. -/
structure State (α : Type) where
  now : DateTime
  table : List (EventModel α)
  log : List (EventModel α)
  nextId : ℕ
  drafts : List (Draft α)
  cleanups : List Cleanup
  executed : List Cleanup
  returned : List ℕ

inductive Event (α : Type)
  | setClock (now : DateTime)
  | createEvent (eventType : EventType) (description : String) (attributes : α)
      (expiryTime : Option DateTime)
  | add (k : ℕ)
  | failAdd (k : ℕ)
  | beginCleanup (eventType : Option EventType)
  | select (k : ℕ)
  | delete (k : ℕ)
  | failCleanup (k : ℕ)

def next (s : State α) : Event α → Option (State α)
  | .setClock now => some { s with now }
  | .createEvent eventType description attributes expiryTime => some { s with
      drafts := ⟨eventType, description, expiryTime.getD (defaultExpiry s.now), attributes⟩ ::
        s.drafts }
  | .add k =>
      match s.drafts[k]? with
      | some draft => some { s with
          table := s.table ++ [draft.row s.nextId s.now]
          log := s.log ++ [draft.row s.nextId s.now]
          nextId := s.nextId + 1
          drafts := s.drafts.eraseIdx k }
      | none => none
  | .failAdd k => some { s with drafts := s.drafts.eraseIdx k }
  | .beginCleanup eventType => some { s with cleanups := ⟨eventType, s.now, none⟩ :: s.cleanups }
  | .select k =>
      match s.cleanups[k]? with
      | some cleanup =>
          if cleanup.selected = none then some { s with
            cleanups := { cleanup with selected := some (cleanup.eventsToDelete s.table) } ::
              s.cleanups.eraseIdx k }
          else none
      | none => none
  | .delete k =>
      match s.cleanups[k]? with
      | some cleanup =>
          match cleanup.selected with
          | some ids => some { s with
              table := deleteMany ids s.table
              cleanups := s.cleanups.eraseIdx k
              executed := cleanup :: s.executed
              returned := ids.length :: s.returned }
          | none => none
      | none => none
  | .failCleanup k => some { s with cleanups := s.cleanups.eraseIdx k }

def State.start (now : DateTime) (table : EventTable α) : State α :=
  ⟨now, table.rows, table.rows, table.nextId, [], [], [], []⟩

def Forward (s : State α) : Event α → Prop
  | .setClock now => s.now ≤ now
  | _ => True

section Kept

/-- No clean-up that has deleted its events selects this one. -/
def Kept (executed : List Cleanup) (event : EventModel α) : Prop :=
  ∀ cleanup ∈ executed, cleanup.selects event = false

structure Selected (log : List (EventModel α)) (nextId : ℕ) (cleanup : Cleanup) (ids : List ℕ) :
    Prop where
  lt : ∀ id ∈ ids, id < nextId
  selects : ∀ event ∈ log, event.id ∈ ids → cleanup.selects event = true

structure Logged (s : State α) : Prop where
  ids_nodup : (s.log.map EventModel.id).Nodup
  ids_lt : ∀ event ∈ s.log, event.id < s.nextId
  retains : Retains (Kept s.executed) s.table s.log
  selected : ∀ cleanup ∈ s.cleanups, ∀ ids, cleanup.selected = some ids →
    Selected s.log s.nextId cleanup ids
  counted : s.log.length ≤ s.table.length + s.returned.sum

variable {s t : State α}

theorem Logged.table_nodup (h : Logged s) : (s.table.map EventModel.id).Nodup :=
  h.ids_nodup.sublist (h.retains.sublist.map EventModel.id)

theorem Logged.start (now : DateTime) (table : EventTable α) : Logged (State.start now table) where
  ids_nodup := table.ids_nodup
  ids_lt := table.ids_lt
  retains := Retains.refl _ _
  selected := fun _ h => absurd h List.not_mem_nil
  counted := le_rfl

theorem Logged.add (h : Logged s) (draft : Draft α) (drafts : List (Draft α)) :
    Logged { s with
      table := s.table ++ [draft.row s.nextId s.now]
      log := s.log ++ [draft.row s.nextId s.now]
      nextId := s.nextId + 1
      drafts } where
  ids_nodup := by
    rw [List.map_append, List.nodup_append]
    refine ⟨h.ids_nodup, List.nodup_singleton _, fun a ha b hb => ?_⟩
    obtain ⟨event, hevent, rfl⟩ := List.mem_map.1 ha
    obtain rfl := List.mem_singleton.1 hb
    exact (h.ids_lt event hevent).ne
  ids_lt := by
    intro event hevent
    rcases List.mem_append.1 hevent with hevent | hevent
    · exact (h.ids_lt event hevent).trans (Nat.lt_succ_self _)
    · obtain rfl := List.mem_singleton.1 hevent
      exact Nat.lt_succ_self _
  retains := h.retains.append _
  selected := by
    intro cleanup hcleanup ids hids
    obtain ⟨hlt, hselects⟩ := h.selected cleanup hcleanup ids hids
    refine ⟨fun id hid => (hlt id hid).trans (Nat.lt_succ_self _), fun event hevent hid => ?_⟩
    rcases List.mem_append.1 hevent with hevent | hevent
    · exact hselects event hevent hid
    · obtain rfl := List.mem_singleton.1 hevent
      exact absurd (hlt _ hid) (lt_irrefl _)
  counted := by
    have hcounted := h.counted
    simp only [List.length_append]
    omega

theorem selected_eventsToDelete (h : Logged s) (cleanup : Cleanup) :
    Selected s.log s.nextId cleanup (cleanup.eventsToDelete s.table) := by
  unfold Cleanup.eventsToDelete
  constructor
  · intro id hid
    obtain ⟨event, hevent, rfl⟩ := List.mem_map.1 hid
    exact h.ids_lt event (h.retains.sublist.subset (List.mem_of_mem_filter hevent))
  · intro event hevent hid
    obtain ⟨event', hevent', heq⟩ := List.mem_map.1 hid
    obtain ⟨htable, hselects⟩ := List.mem_filter.1 hevent'
    have hlog := h.retains.sublist.subset htable
    rwa [List.inj_on_of_nodup_map h.ids_nodup hlog hevent heq] at hselects

theorem Logged.select (h : Logged s) (cleanup : Cleanup) (k : ℕ) :
    Logged { s with
      cleanups := { cleanup with selected := some (cleanup.eventsToDelete s.table) } ::
        s.cleanups.eraseIdx k } where
  ids_nodup := h.ids_nodup
  ids_lt := h.ids_lt
  retains := h.retains
  selected := by
    intro cleanup' hcleanup' ids hids
    rcases List.mem_cons.1 hcleanup' with rfl | hcleanup'
    · obtain rfl := Option.some.inj hids
      obtain ⟨hlt, hselects⟩ := selected_eventsToDelete h cleanup
      exact ⟨hlt, hselects⟩
    · exact h.selected cleanup' (List.mem_of_mem_eraseIdx hcleanup') ids hids
  counted := h.counted

/-- No more events are deleted than ids were selected. -/
theorem length_deleteMany (h : Logged s) (ids : List ℕ) :
    s.table.length ≤ (deleteMany ids s.table).length + ids.length := by
  have hsplit := length_filter_add (fun event : EventModel α => decide (event.id ∈ ids)) s.table
  have hnodup : ((s.table.filter (fun event => decide (event.id ∈ ids))).map
      EventModel.id).Nodup := h.table_nodup.sublist (List.filter_sublist.map _)
  have hsubset : (s.table.filter (fun event => decide (event.id ∈ ids))).map EventModel.id ⊆
      ids := by
    intro id hid
    obtain ⟨event, hevent, rfl⟩ := List.mem_map.1 hid
    exact of_decide_eq_true (List.mem_filter.1 hevent).2
  have hle := (List.subperm_of_subset hnodup hsubset).length_le
  rw [List.length_map] at hle
  unfold deleteMany
  omega

theorem Logged.delete (h : Logged s) {cleanup : Cleanup} (k : ℕ) {ids : List ℕ}
    (hcleanup : cleanup ∈ s.cleanups) (hids : cleanup.selected = some ids) :
    Logged { s with
      table := deleteMany ids s.table
      cleanups := s.cleanups.eraseIdx k
      executed := cleanup :: s.executed
      returned := ids.length :: s.returned } where
  ids_nodup := h.ids_nodup
  ids_lt := h.ids_lt
  retains := by
    apply h.retains.delete
    · exact fun event hevent c hc => hevent c (List.mem_cons_of_mem _ hc)
    · intro event hevent hkept
      apply decide_eq_false
      intro hid
      have hselects := (h.selected cleanup hcleanup ids hids).selects event
        (h.retains.sublist.subset hevent) hid
      rw [hkept cleanup List.mem_cons_self] at hselects
      cases hselects
  selected := fun c hc => h.selected c (List.mem_of_mem_eraseIdx hc)
  counted := by
    have hcounted := h.counted
    have hdeleted := length_deleteMany h ids
    simp only [List.sum_cons]
    omega

theorem Logged.next {e : Event α} (h : Logged s) (hnext : EventLog.next s e = some t) :
    Logged t := by
  cases e with
  | setClock now =>
      obtain rfl := Option.some.inj hnext
      exact ⟨h.ids_nodup, h.ids_lt, h.retains, h.selected, h.counted⟩
  | createEvent eventType description attributes expiryTime =>
      obtain rfl := Option.some.inj hnext
      exact ⟨h.ids_nodup, h.ids_lt, h.retains, h.selected, h.counted⟩
  | add k =>
      simp only [EventLog.next] at hnext
      split at hnext
      · obtain rfl := Option.some.inj hnext
        exact h.add _ _
      · cases hnext
  | failAdd k =>
      obtain rfl := Option.some.inj hnext
      exact ⟨h.ids_nodup, h.ids_lt, h.retains, h.selected, h.counted⟩
  | beginCleanup eventType =>
      obtain rfl := Option.some.inj hnext
      refine ⟨h.ids_nodup, h.ids_lt, h.retains, fun cleanup hcleanup ids hids => ?_, h.counted⟩
      rcases List.mem_cons.1 hcleanup with rfl | hcleanup
      · cases hids
      · exact h.selected cleanup hcleanup ids hids
  | select k =>
      simp only [EventLog.next] at hnext
      split at hnext
      · split_ifs at hnext
        obtain rfl := Option.some.inj hnext
        exact h.select _ k
      · cases hnext
  | delete k =>
      simp only [EventLog.next] at hnext
      split at hnext
      · rename_i cleanup hcleanup
        split at hnext
        · rename_i ids hids
          obtain rfl := Option.some.inj hnext
          exact h.delete k (List.mem_of_getElem? hcleanup) hids
        · cases hnext
      · cases hnext
  | failCleanup k =>
      obtain rfl := Option.some.inj hnext
      exact ⟨h.ids_nodup, h.ids_lt, h.retains,
        fun cleanup hcleanup => h.selected cleanup (List.mem_of_mem_eraseIdx hcleanup), h.counted⟩

theorem Logged.run (h : Logged s) (hrun : Run EventLog.next s t) : Logged t :=
  hrun.invariant h (fun _ _ _ h hnext => h.next hnext)

end Kept

section Newest

/-- An event of the table such that none of its type was created later, of those that no clean-up
has deleted. -/
structure IsLatest (s : State α) (eventType : EventType) (event : EventModel α) : Prop where
  mem : event ∈ s.table
  type_eq : event.eventType = eventType
  latest : ∀ later ∈ s.log, later.eventType = eventType → event.createdAt < later.createdAt →
    ∃ cleanup ∈ s.executed, cleanup.selects later = true

variable {s : State α} {eventType : EventType} {answer : List (EventModel α)}

theorem mem_or_deleted (h : Logged s) {event : EventModel α} (hevent : event ∈ s.log) :
    event ∈ s.table ∨ ∃ cleanup ∈ s.executed, cleanup.selects event = true := by
  by_cases hkept : Kept s.executed event
  · exact Or.inl (h.retains.mem hevent hkept)
  · unfold Kept at hkept
    push Not at hkept
    obtain ⟨cleanup, hcleanup, hselects⟩ := hkept
    exact Or.inr ⟨cleanup, hcleanup, Bool.eq_true_of_not_eq_false hselects⟩

/-- The first of the events that are ordered by their creation, latest first. -/
theorem head_latest {event : EventModel α} {rest : List (EventModel α)}
    (hanswer : Answers .desc (ofType eventType s.table) (event :: rest)) :
    (event ∈ s.table ∧ event.eventType = eventType) ∧
      ∀ other ∈ s.table, other.eventType = eventType → other.createdAt ≤ event.createdAt := by
  have hmem : ∀ other : EventModel α, other ∈ event :: rest ↔
      other ∈ s.table ∧ other.eventType = eventType := by
    intro other
    rw [hanswer.perm.mem_iff, ofType, List.mem_filter, decide_eq_true_eq]
  refine ⟨(hmem event).1 List.mem_cons_self, fun other hother htype => ?_⟩
  rcases List.mem_cons.1 ((hmem other).2 ⟨hother, htype⟩) with rfl | hrest
  · exact le_rfl
  · exact (List.pairwise_cons.1 hanswer.sorted).1 other hrest

theorem isLatest_head (h : Logged s) {event : EventModel α} {rest : List (EventModel α)}
    (hanswer : Answers .desc (ofType eventType s.table) (event :: rest)) :
    IsLatest s eventType event := by
  obtain ⟨⟨hmem, htype⟩, hle⟩ := head_latest hanswer
  refine ⟨hmem, htype, fun later hlater hlaterType hlt => ?_⟩
  rcases mem_or_deleted h hlater with htable | hdeleted
  · exact absurd (hle later htable hlaterType) (not_le.2 hlt)
  · exact hdeleted

theorem exists_of_forall₂ {β γ : Type} {R : β → γ → Prop} {l : List β} {l' : List γ}
    (h : List.Forall₂ R l l') {c : γ} (hc : c ∈ l') : ∃ b ∈ l, R b c := by
  induction h with
  | nil => exact absurd hc List.not_mem_nil
  | @cons b c' l l' hbc _ ih =>
      rcases List.mem_cons.1 hc with rfl | hc
      · exact ⟨b, List.mem_cons_self, hbc⟩
      · obtain ⟨b', hb', hR⟩ := ih hc
        exact ⟨b', List.mem_cons_of_mem _ hb', hR⟩

theorem mem_newestIds {answers : List (List (EventModel α))} {id : ℕ} :
    id ∈ newestIds answers ↔ ∃ event rest, event :: rest ∈ answers ∧ event.id = id := by
  unfold newestIds
  rw [List.mem_flatMap]
  constructor
  · rintro ⟨answer, hanswer, hid⟩
    cases answer with
    | nil => exact absurd hid List.not_mem_nil
    | cons event rest =>
        obtain rfl := List.mem_singleton.1 hid
        exact ⟨event, rest, hanswer, rfl⟩
  · rintro ⟨event, rest, hanswer, rfl⟩
    exact ⟨event :: rest, hanswer, List.mem_singleton.2 rfl⟩

/-- The rows that are read are the first events of the answers. -/
theorem mem_rows_iff (h : Logged s) {eventTypes : List EventType}
    {answers : List (List (EventModel α))} {rows : List (EventModel α)}
    (hreads : ReadsNewest s.table eventTypes answers rows) {event : EventModel α} :
    event ∈ rows ↔ ∃ rest, event :: rest ∈ answers := by
  rw [hreads.rows.mem_iff, List.mem_filter, decide_eq_true_eq, mem_newestIds]
  constructor
  · rintro ⟨hmem, event', rest, hanswer, hid⟩
    obtain ⟨eventType, -, hsorted⟩ := exists_of_forall₂ hreads.answered hanswer
    have htable := (head_latest hsorted).1.1
    rw [← List.inj_on_of_nodup_map h.table_nodup htable hmem hid]
    exact ⟨rest, hanswer⟩
  · rintro ⟨rest, hanswer⟩
    obtain ⟨eventType, -, hsorted⟩ := exists_of_forall₂ hreads.answered hanswer
    exact ⟨(head_latest hsorted).1.1, event, rest, hanswer, rfl⟩

structure ShowsLatest (s : State α) (eventTypes : List EventType) (currentTime : DateTime)
    (events : OrderedDict EventType (PrettyEvent α)) : Prop where
  shown : ∀ eventType event, events.get? eventType = some event → eventType ∈ eventTypes ∧
    ∃ logged, IsLatest s eventType logged ∧ event = logged.addPrettyCreatedAt currentTime
  missing : ∀ eventType ∈ eventTypes, events.get? eventType = none → ∀ event ∈ s.log,
    event.eventType = eventType → ∃ cleanup ∈ s.executed, cleanup.selects event = true
  single : ∀ eventType ∈ eventTypes, ∀ answer, Answers .desc (ofType eventType s.table) answer →
    (events.get? eventType).map PrettyEvent.createdAtPretty =
      (getSinglePrettyEventByType answer currentTime).map PrettyEvent.createdAtPretty

section Shows

variable {eventTypes : List EventType} {answers : List (List (EventModel α))}
  {rows : List (EventModel α)} {currentTime : DateTime}

theorem get?_some (h : Logged s) (hreads : ReadsNewest s.table eventTypes answers rows)
    {event : PrettyEvent α}
    (hget : (getMultiplePrettyEventsByTypes eventTypes rows currentTime).get? eventType =
      some event) :
    ∃ logged rest, (logged :: rest ∈ answers ∧ eventType ∈ eventTypes) ∧
      Answers .desc (ofType eventType s.table) (logged :: rest) ∧
        event = logged.addPrettyCreatedAt currentTime := by
  unfold getMultiplePrettyEventsByTypes at hget
  split_ifs at hget
  · cases hget
  rw [OrderedDict.get?_lastBy] at hget
  obtain ⟨hmem, htype⟩ := List.mem_filter.1 (List.mem_of_getLast? hget)
  rw [decide_eq_true_eq] at htype
  obtain ⟨logged, hlogged, rfl⟩ := List.mem_map.1 hmem
  obtain ⟨rest, hanswer⟩ := (mem_rows_iff h hreads).1 hlogged
  obtain ⟨eventType', hmem', hsorted⟩ := exists_of_forall₂ hreads.answered hanswer
  obtain rfl : eventType' = eventType := (head_latest hsorted).1.2.symm.trans htype
  exact ⟨logged, rest, ⟨hanswer, hmem'⟩, hsorted, rfl⟩

/-- A type without an event in the dictionary has none in the table. -/
theorem get?_none (h : Logged s) (hreads : ReadsNewest s.table eventTypes answers rows)
    (htype : eventType ∈ eventTypes)
    (hget : (getMultiplePrettyEventsByTypes eventTypes rows currentTime).get? eventType = none) :
    ofType eventType s.table = [] := by
  obtain ⟨answer, hanswer, hsorted⟩ := exists_of_forall₂ hreads.answered.flip htype
  cases answer with
  | nil => exact hsorted.perm.nil_eq.symm
  | cons event rest =>
      have hrow := (mem_rows_iff h hreads).2 ⟨rest, hanswer⟩
      have heventType := (head_latest hsorted).1.2
      unfold getMultiplePrettyEventsByTypes at hget
      rw [if_neg (List.ne_nil_of_mem htype), OrderedDict.get?_lastBy, List.getLast?_eq_none_iff,
        List.filter_eq_nil_iff] at hget
      exact absurd (decide_eq_true heventType)
        (hget _ (List.mem_map_of_mem (f := EventModel.addPrettyCreatedAt currentTime) hrow))

/-- Events that are first in answers for one type were created at one time. -/
theorem createdAt_eq_of_heads {event event' : EventModel α} {rest rest' : List (EventModel α)}
    (hanswer : Answers .desc (ofType eventType s.table) (event :: rest))
    (hanswer' : Answers .desc (ofType eventType s.table) (event' :: rest')) :
    event.createdAt = event'.createdAt := by
  obtain ⟨⟨hmem, htype⟩, hle⟩ := head_latest hanswer
  obtain ⟨⟨hmem', htype'⟩, hle'⟩ := head_latest hanswer'
  exact le_antisymm (hle' event hmem htype) (hle event' hmem' htype')

theorem single_eq (h : Logged s) (hreads : ReadsNewest s.table eventTypes answers rows)
    (htype : eventType ∈ eventTypes) (hanswer : Answers .desc (ofType eventType s.table) answer) :
    ((getMultiplePrettyEventsByTypes eventTypes rows currentTime).get? eventType).map
        PrettyEvent.createdAtPretty =
      (getSinglePrettyEventByType answer currentTime).map PrettyEvent.createdAtPretty := by
  cases hget : (getMultiplePrettyEventsByTypes eventTypes rows currentTime).get? eventType with
  | none =>
      have hnil := get?_none h hreads htype hget
      rw [hnil] at hanswer
      rw [hanswer.perm.eq_nil]
      rfl
  | some event =>
      obtain ⟨logged, rest, -, hsorted, rfl⟩ := get?_some h hreads hget
      cases answer with
      | nil => exact absurd (hsorted.perm.trans hanswer.perm.symm).eq_nil (List.cons_ne_nil _ _)
      | cons first others =>
          have hcreated := createdAt_eq_of_heads hsorted hanswer
          change some (createdAtPretty currentTime logged.createdAt) =
            some (createdAtPretty currentTime first.createdAt)
          rw [hcreated]

theorem showsLatest (h : Logged s) (hreads : ReadsNewest s.table eventTypes answers rows) :
    ShowsLatest s eventTypes currentTime
      (getMultiplePrettyEventsByTypes eventTypes rows currentTime) where
  shown eventType event hget := by
    obtain ⟨logged, rest, ⟨-, htype⟩, hsorted, hevent⟩ := get?_some h hreads hget
    exact ⟨htype, logged, isLatest_head h hsorted, hevent⟩
  missing eventType htype hget event hevent heventType := by
    have hnil := get?_none h hreads htype hget
    rcases mem_or_deleted h hevent with htable | hdeleted
    · have hmem : event ∈ ofType eventType s.table :=
        List.mem_filter.2 ⟨htable, decide_eq_true heventType⟩
      rw [hnil] at hmem
      exact absurd hmem List.not_mem_nil
    · exact hdeleted
  single eventType htype answer hanswer := single_eq h hreads htype hanswer

end Shows

end Newest

section Runs

def ReadBefore (s : State α) : Prop :=
  (∀ cleanup ∈ s.cleanups, cleanup.reading ≤ s.now) ∧ ∀ cleanup ∈ s.executed, cleanup.reading ≤ s.now

theorem readBefore_next {s t : State α} {e : Event α} (h : ReadBefore s) (hforward : Forward s e)
    (hnext : next s e = some t) : ReadBefore t := by
  cases e with
  | setClock now =>
      obtain rfl := Option.some.inj hnext
      exact ⟨fun c hc => (h.1 c hc).trans hforward, fun c hc => (h.2 c hc).trans hforward⟩
  | createEvent eventType description attributes expiryTime =>
      obtain rfl := Option.some.inj hnext
      exact h
  | add k =>
      simp only [next] at hnext
      split at hnext
      · obtain rfl := Option.some.inj hnext
        exact h
      · cases hnext
  | failAdd k =>
      obtain rfl := Option.some.inj hnext
      exact h
  | beginCleanup eventType =>
      obtain rfl := Option.some.inj hnext
      refine ⟨fun c hc => ?_, h.2⟩
      rcases List.mem_cons.1 hc with rfl | hc
      · exact le_rfl
      · exact h.1 c hc
  | select k =>
      simp only [next] at hnext
      split at hnext
      · rename_i cleanup hcleanup
        split_ifs at hnext
        obtain rfl := Option.some.inj hnext
        refine ⟨fun c hc => ?_, h.2⟩
        rcases List.mem_cons.1 hc with rfl | hc
        · exact h.1 cleanup (List.mem_of_getElem? hcleanup)
        · exact h.1 c (List.mem_of_mem_eraseIdx hc)
      · cases hnext
  | delete k =>
      simp only [next] at hnext
      split at hnext
      · rename_i cleanup hcleanup
        split at hnext
        · obtain rfl := Option.some.inj hnext
          refine ⟨fun c hc => h.1 c (List.mem_of_mem_eraseIdx hc), fun c hc => ?_⟩
          rcases List.mem_cons.1 hc with rfl | hc
          · exact h.1 c (List.mem_of_getElem? hcleanup)
          · exact h.2 c hc
        · cases hnext
      · cases hnext
  | failCleanup k =>
      obtain rfl := Option.some.inj hnext
      exact ⟨fun c hc => h.1 c (List.mem_of_mem_eraseIdx hc), h.2⟩

/-- Clean-ups delete what they select, and pages show the last of what they do not. -/
structure LogSurvives (start s : State α) : Prop where
  kept : ∀ event ∈ s.log, Kept s.executed event → event ∈ s.table
  forward : RunWhile next Forward start s → ∀ event ∈ s.log, s.now ≤ event.expiryTime →
    event ∈ s.table
  counted : s.log.length ≤ s.table.length + s.returned.sum
  shows : ∀ eventTypes answers rows currentTime, ReadsNewest s.table eventTypes answers rows →
    ShowsLatest s eventTypes currentTime
      (getMultiplePrettyEventsByTypes eventTypes rows currentTime)

/-- In every run of jobs and of clean-ups that overlap. -/
theorem start_page_shows_latest (now : DateTime) (table : EventTable α) (s : State α)
    (hrun : Run next (State.start now table) s) : LogSurvives (State.start now table) s := by
  have hlogged := (Logged.start now table).run hrun
  refine ⟨fun event hevent hkept => hlogged.retains.mem hevent hkept,
    fun hforward event hevent hnow => ?_, hlogged.counted,
    fun eventTypes answers rows currentTime hreads => showsLatest hlogged hreads⟩
  have hread : ReadBefore s := hforward.invariant
    ⟨fun c hc => absurd hc List.not_mem_nil, fun c hc => absurd hc List.not_mem_nil⟩
    (fun _ _ _ h hC hnext => readBefore_next h hC hnext)
  refine hlogged.retains.mem hevent (fun cleanup hcleanup => ?_)
  have hle := (hread.2 cleanup hcleanup).trans hnow
  rw [Cleanup.selects, decide_eq_false (not_lt.2 hle), Bool.and_false]

def sampleTable : EventTable Unit :=
  ⟨[⟨1, .gtfsDatabaseUpdated, "", ⟨63813960000000000⟩, (), ⟨63806184000000000⟩⟩], 2, by decide,
    by decide⟩

/-- Two clean-ups select one event, and between their deletions another one of its type is
logged. -/
def sampleEvents : List (Event Unit) :=
  [.setClock ⟨63814132800000000⟩, .beginCleanup none, .beginCleanup (some .gtfsDatabaseUpdated),
    .select 0, .select 1, .delete 0, .createEvent .gtfsDatabaseUpdated "" () none, .add 0, .delete 0]

theorem sampleEvents_execute :
    (exec next (State.start ⟨63806184000000000⟩ sampleTable) sampleEvents).isSome := by
  decide +kernel

theorem start_page_shows_latest_sample :
    LogSurvives (State.start ⟨63806184000000000⟩ sampleTable)
      ((exec next (State.start ⟨63806184000000000⟩ sampleTable) sampleEvents).get
        sampleEvents_execute) :=
  start_page_shows_latest ⟨63806184000000000⟩ sampleTable _
    (run_of_exec (exec_get sampleEvents sampleEvents_execute))

end Runs

end SimplyTransport.EventLog
