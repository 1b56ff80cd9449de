import SimplyTransport.DateTime
import SimplyTransport.Transition
import Mathlib.Algebra.BigOperators.Group.Multiset.Basic
import Mathlib.Algebra.BigOperators.Fin
import Mathlib.Algebra.Order.BigOperators.Group.Finset
import Mathlib.Data.Multiset.AddSub

/-!
# The queue of the batch importers

A producer builds the models of the rows and puts them in batches into a bounded queue, then one
`None` for each consumer; a consumer commits the batches it gets and stops at the first `None`.
The models committed, held by a consumer, queued and not yet queued are together always those of
the rows read, and the `None`s come last and are as many as the consumers still to stop.
-/

namespace SimplyTransport.OrmImport
open Transition

def numberOfConsumers : ℕ := 2

instance instNeZeroConsumers : NeZero numberOfConsumers := ⟨by decide⟩

def queueMaxsize : ℕ := 2

/-- Where the producer is: in the loop, at a `put` of it, after it, or out. -/
inductive Producer (ρ μ : Type)
  | loop (rows : List ρ) (objectsToCommit : List μ) (batchCount : ℕ)
  | putBatch (rows : List ρ) (objectsToCommit : List μ)
  | putLast (objectsToCommit : List μ)
  | putNone (remaining : ℕ)
  | done
  | failed (e : PyError)

/-- A consumer waits in `q.get()`, commits a batch or has stopped. -/
inductive Consumer (μ : Type)
  | getting
  | committing (batch : List μ)
  | stopped

structure State (ρ μ : Type) where
  producer : Producer ρ μ
  queue : List (Option (List μ))
  consumers : Fin numberOfConsumers → Consumer μ
  committed : List μ
  rowsImported : ℕ

inductive Event
  | produce
  | consume (i : Fin numberOfConsumers)

variable {ρ μ : Type}

def initial (rows : List ρ) : State ρ μ := ⟨.loop rows [] 0, [], fun _ => .getting, [], 0⟩

namespace State

/-- `await q.put(item)`, which waits while the queue is full. -/
def put (s : State ρ μ) (item : Option (List μ)) (producer : Producer ρ μ) :
    Option (State ρ μ) :=
  if s.queue.length < queueMaxsize then
    some { s with queue := s.queue ++ [item], producer := producer }
  else none

def setConsumer (s : State ρ μ) (i : Fin numberOfConsumers) (c : Consumer μ) : State ρ μ :=
  { s with consumers := Function.update s.consumers i c }

end State

section Steps

variable (buildModel : ρ → Except PyError μ) (batchsize : ℕ)

def stepProducer (s : State ρ μ) : Option (State ρ μ) :=
  match s.producer with
  | .loop (row :: rows) objectsToCommit batchCount =>
    match buildModel row with
    | .error e => some { s with producer := .failed e }
    | .ok model =>
      let objectsToCommit := objectsToCommit ++ [model]
      let batchCount := batchCount + 1
      some { s with
        rowsImported := s.rowsImported + 1
        producer :=
          if batchCount ≥ batchsize then .putBatch rows objectsToCommit
          else .loop rows objectsToCommit batchCount }
  | .loop [] objectsToCommit _ =>
    some { s with
      producer :=
        if objectsToCommit.isEmpty then .putNone numberOfConsumers else .putLast objectsToCommit }
  | .putBatch rows objectsToCommit => s.put (some objectsToCommit) (.loop rows [] 0)
  | .putLast objectsToCommit => s.put (some objectsToCommit) (.putNone numberOfConsumers)
  | .putNone 0 => some { s with producer := .done }
  | .putNone (n + 1) => s.put none (.putNone n)
  | .done => none
  | .failed _ => none

def stepConsumer (s : State ρ μ) (i : Fin numberOfConsumers) : Option (State ρ μ) :=
  match s.consumers i with
  | .getting =>
    match s.queue with
    | [] => none
    | some batch :: queue => some ({ s with queue := queue }.setConsumer i (.committing batch))
    | none :: queue => some ({ s with queue := queue }.setConsumer i .stopped)
  | .committing batch =>
    some ({ s with committed := s.committed ++ batch }.setConsumer i .getting)
  | .stopped => none

def next (s : State ρ μ) : Event → Option (State ρ μ)
  | .produce => stepProducer buildModel batchsize s
  | .consume i => stepConsumer s i

end Steps

namespace State

def Completed (s : State ρ μ) : Prop := s.producer = .done ∧ ∀ i, s.consumers i = .stopped

def Final (s : State ρ μ) : Prop := s.Completed ∨ ∃ e, s.producer = .failed e

end State

def Producer.remaining : Producer ρ μ → List ρ
  | .loop rows _ _ => rows
  | .putBatch rows _ => rows
  | _ => []

def Producer.pending : Producer ρ μ → List μ
  | .loop _ objectsToCommit _ => objectsToCommit
  | .putBatch _ objectsToCommit => objectsToCommit
  | .putLast objectsToCommit => objectsToCommit
  | _ => []

/-- The `None`s that the producer has still to put. -/
def Producer.sentinels : Producer ρ μ → ℕ
  | .putNone n => n
  | .done => 0
  | _ => numberOfConsumers

def Consumer.held : Consumer μ → Multiset μ
  | .committing batch => batch
  | _ => 0

def Consumer.stops : Consumer μ → ℕ
  | .stopped => 1
  | _ => 0

@[simp] theorem Consumer.held_getting : (getting : Consumer μ).held = 0 := rfl

@[simp] theorem Consumer.held_committing (batch : List μ) : (committing batch).held = batch := rfl

@[simp] theorem Consumer.held_stopped : (stopped : Consumer μ).held = 0 := rfl

@[simp] theorem Consumer.stops_getting : (getting : Consumer μ).stops = 0 := rfl

@[simp] theorem Consumer.stops_committing (batch : List μ) : (committing batch).stops = 0 := rfl

@[simp] theorem Consumer.stops_stopped : (stopped : Consumer μ).stops = 1 := rfl

def queued : List (Option (List μ)) → Multiset μ
  | [] => 0
  | some batch :: queue => batch + queued queue
  | none :: queue => queued queue

def heldBy (consumers : Fin numberOfConsumers → Consumer μ) : Multiset μ :=
  ∑ i, (consumers i).held

def stopCount (consumers : Fin numberOfConsumers → Consumer μ) : ℕ := ∑ i, (consumers i).stops

def State.models (s : State ρ μ) : Multiset μ :=
  s.committed + heldBy s.consumers + queued s.queue + s.producer.pending

structure Inv (buildModel : ρ → Except PyError μ) (rows : List ρ) (s : State ρ μ) : Prop where
  read : (∀ e, s.producer ≠ .failed e) → ∃ processed models,
    rows = processed ++ s.producer.remaining ∧ processed.mapM buildModel = .ok models ∧
      s.rowsImported = processed.length ∧ s.models = (models : Multiset μ)
  order : ∃ batches k, s.queue = batches.map some ++ List.replicate k none ∧
    k + stopCount s.consumers + s.producer.sentinels = numberOfConsumers ∧
    (0 < stopCount s.consumers → batches = [])

section Sums

theorem sum_update {M : Type} [AddCommMonoid M] (w : Consumer μ → M)
    (f : Fin numberOfConsumers → Consumer μ) (i : Fin numberOfConsumers) (c : Consumer μ) :
    ∑ j, w (Function.update f i c j) + w (f i) = ∑ j, w (f j) + w c := by
  rw [← Finset.add_sum_erase _ _ (Finset.mem_univ i), ← Finset.add_sum_erase _ (fun j => w (f j))
    (Finset.mem_univ i), Function.update_self]
  have hrest : ∑ j ∈ Finset.univ.erase i, w (Function.update f i c j) =
      ∑ j ∈ Finset.univ.erase i, w (f j) := by
    apply Finset.sum_congr rfl
    intro j hj
    rw [Function.update_of_ne (Finset.ne_of_mem_erase hj)]
  rw [hrest]
  ac_rfl

theorem queued_append (q q' : List (Option (List μ))) :
    queued (q ++ q') = queued q + queued q' := by
  induction q with
  | nil => exact (zero_add _).symm
  | cons item q ih =>
      cases item with
      | none => exact ih
      | some batch => rw [List.cons_append, queued, queued, ih, add_assoc]

end Sums

theorem inv_initial (buildModel : ρ → Except PyError μ) (rows : List ρ) :
    Inv buildModel rows (initial rows) := by
  refine ⟨fun _ => ⟨[], [], rfl, rfl, rfl, ?_⟩, [], 0, rfl, ?_, fun _ => rfl⟩
  · simp [State.models, heldBy, initial, queued, Producer.pending]
  · simp [stopCount, initial, Producer.sentinels]

variable {buildModel : ρ → Except PyError μ} {batchsize : ℕ} {rows : List ρ} {s t : State ρ μ}

section Produce

theorem Inv.fail (h : Inv buildModel rows s) (e : PyError) {p : Producer ρ μ}
    (hs : s.producer = p) (hp : p.sentinels = numberOfConsumers) :
    Inv buildModel rows { s with producer := .failed e } := by
  refine ⟨fun hnot => absurd rfl (hnot e), ?_⟩
  obtain ⟨batches, k, hqueue, hcount, hstop⟩ := h.order
  rw [hs, hp] at hcount
  exact ⟨batches, k, hqueue, hcount, hstop⟩

/-- The producer moves on without reading or putting anything. -/
theorem Inv.move (h : Inv buildModel rows s) {p q : Producer ρ μ} (hs : s.producer = p)
    (hfailed : ∀ e, p ≠ .failed e) (hremaining : q.remaining = p.remaining)
    (hpending : q.pending = p.pending) (hsentinels : q.sentinels = p.sentinels) :
    Inv buildModel rows { s with producer := q } := by
  subst hs
  constructor
  · intro _
    obtain ⟨processed, models, hrows, hmap, hcount, hmodels⟩ := h.read hfailed
    refine ⟨processed, models, hremaining ▸ hrows, hmap, hcount, ?_⟩
    rw [← hmodels, State.models, State.models, hpending]
  · obtain ⟨batches, k, hqueue, hcount, hstop⟩ := h.order
    exact ⟨batches, k, hqueue, hsentinels ▸ hcount, hstop⟩

/-- A row is read, and its model waits for its batch. -/
theorem Inv.build (h : Inv buildModel rows s) {p : Producer ρ μ} {row : ρ} {rest : List ρ}
    {objects : List μ} {count : ℕ} {model : μ} (hs : s.producer = .loop (row :: rest) objects count)
    (hrow : buildModel row = .ok model) (hremaining : p.remaining = rest)
    (hpending : p.pending = objects ++ [model]) (hsentinels : p.sentinels = numberOfConsumers) :
    Inv buildModel rows { s with rowsImported := s.rowsImported + 1, producer := p } := by
  obtain ⟨processed, models, hrows, hmap, hcount, hmodels⟩ := h.read (by rw [hs]; exact nofun)
  obtain ⟨batches, k, hqueue, hsum, hstop⟩ := h.order
  rw [hs] at hrows hsum
  rw [← show p.sentinels = (Producer.loop (row :: rest) objects count).sentinels from hsentinels]
    at hsum
  refine ⟨fun _ => ⟨processed ++ [row], models ++ [model], ?_, ?_, ?_, ?_⟩,
    batches, k, hqueue, hsum, hstop⟩
  · rw [hremaining, List.append_assoc]
    exact hrows
  · rw [List.mapM_append, hmap]
    simp only [List.mapM_cons, hrow, List.mapM_nil]
    rfl
  · rw [List.length_append, ← hcount]
    rfl
  · have hpend : s.producer.pending = objects := by rw [hs]; rfl
    rw [State.models, hpend] at hmodels
    rw [State.models, hpending, ← Multiset.coe_add, ← Multiset.coe_add, ← hmodels, ← add_assoc]

theorem Inv.putSome (h : Inv buildModel rows s) {p q : Producer ρ μ} {batch : List μ}
    (hs : s.producer = p) (hfailed : ∀ e, p ≠ .failed e) (hremaining : q.remaining = p.remaining)
    (hbatch : p.pending = batch) (hpending : q.pending = [])
    (hp : p.sentinels = numberOfConsumers) (hq : q.sentinels = numberOfConsumers) :
    Inv buildModel rows { s with queue := s.queue ++ [some batch], producer := q } := by
  subst hs
  obtain ⟨batches, k, hqueue, hsum, hstop⟩ := h.order
  obtain ⟨rfl, hzero⟩ : k = 0 ∧ stopCount s.consumers = 0 := by omega
  constructor
  · intro _
    obtain ⟨processed, models, hrows, hmap, hcount, hmodels⟩ := h.read hfailed
    refine ⟨processed, models, hremaining ▸ hrows, hmap, hcount, ?_⟩
    rw [← hmodels, State.models, State.models, queued_append, hbatch, hpending]
    simp only [queued, Multiset.coe_nil, add_zero, add_assoc]
  · refine ⟨batches ++ [batch], 0, ?_, ?_, fun hpos => ?_⟩
    · simp [hqueue]
    · rw [hp.trans hq.symm] at hsum
      exact hsum
    · exact absurd hzero (Nat.ne_of_gt hpos)

theorem Inv.putNone (h : Inv buildModel rows s) {n : ℕ} (hs : s.producer = .putNone (n + 1)) :
    Inv buildModel rows { s with queue := s.queue ++ [none], producer := .putNone n } := by
  obtain ⟨batches, k, hqueue, hsum, hstop⟩ := h.order
  constructor
  · intro _
    obtain ⟨processed, models, hrows, hmap, hcount, hmodels⟩ := h.read (by rw [hs]; exact nofun)
    rw [hs] at hrows
    refine ⟨processed, models, hrows, hmap, hcount, ?_⟩
    rw [← hmodels, State.models, State.models, queued_append, hs]
    simp only [queued, add_zero, Producer.pending]
  · refine ⟨batches, k + 1, ?_, ?_, hstop⟩
    · rw [hqueue, List.replicate_succ', List.append_assoc]
    · rw [hs] at hsum
      simp only [Producer.sentinels] at hsum ⊢
      omega

theorem put_eq_some {item : Option (List μ)} {p : Producer ρ μ} (h : s.put item p = some t) :
    t = { s with queue := s.queue ++ [item], producer := p } := by
  unfold State.put at h
  split_ifs at h
  exact (Option.some.inj h).symm

theorem inv_stepProducer (h : Inv buildModel rows s)
    (ht : stepProducer buildModel batchsize s = some t) : Inv buildModel rows t := by
  unfold stepProducer at ht
  split at ht
  · rename_i row rest objects count hs
    split at ht
    · obtain rfl := Option.some.inj ht
      exact h.fail _ hs rfl
    · rename_i model hrow
      obtain rfl := Option.some.inj ht
      apply h.build hs hrow
      all_goals
        split_ifs
        · rfl
        · rfl
  · rename_i objects count hs
    obtain rfl := Option.some.inj ht
    cases objects with
    | nil => exact h.move hs nofun rfl rfl rfl
    | cons o objects => exact h.move hs nofun rfl rfl rfl
  · rename_i rest objects hs
    obtain rfl := put_eq_some ht
    exact h.putSome hs nofun rfl rfl rfl rfl rfl
  · rename_i objects hs
    obtain rfl := put_eq_some ht
    exact h.putSome hs nofun rfl rfl rfl rfl rfl
  · rename_i hs
    obtain rfl := Option.some.inj ht
    exact h.move hs nofun rfl rfl rfl
  · rename_i n hs
    obtain rfl := put_eq_some ht
    exact h.putNone hs
  · cases ht
  · cases ht

end Produce

section Consume

/-- A consumer changes what it does, together with the queue and the table. -/
theorem Inv.consume (h : Inv buildModel rows s) {i : Fin numberOfConsumers} {c : Consumer μ}
    {queue : List (Option (List μ))} {committed : List μ}
    (hmodels : (committed : Multiset μ) + c.held + queued queue =
      s.committed + (s.consumers i).held + queued s.queue)
    (horder : ∃ batches k, queue = batches.map some ++ List.replicate k none ∧
      k + stopCount s.consumers + c.stops + s.producer.sentinels =
        numberOfConsumers + (s.consumers i).stops ∧
      (0 < stopCount s.consumers + c.stops → batches = [])) :
    Inv buildModel rows ({ s with queue := queue, committed := committed }.setConsumer i c) := by
  have hheld : heldBy (Function.update s.consumers i c) + (s.consumers i).held =
      heldBy s.consumers + c.held := sum_update Consumer.held s.consumers i c
  have hstops : stopCount (Function.update s.consumers i c) + (s.consumers i).stops =
      stopCount s.consumers + c.stops := sum_update Consumer.stops s.consumers i c
  constructor
  · intro hfailed
    obtain ⟨processed, models, hrows, hmap, hcount, hread⟩ := h.read hfailed
    refine ⟨processed, models, hrows, hmap, hcount, ?_⟩
    rw [← hread]
    change (committed : Multiset μ) + heldBy (Function.update s.consumers i c) + queued queue +
      s.producer.pending = s.committed + heldBy s.consumers + queued s.queue + s.producer.pending
    congr 1
    apply add_right_cancel (b := (s.consumers i).held)
    calc (committed : Multiset μ) + heldBy (Function.update s.consumers i c) + queued queue +
          (s.consumers i).held
        = (committed : Multiset μ) + (heldBy (Function.update s.consumers i c) +
            (s.consumers i).held) + queued queue := by ac_rfl
      _ = (committed : Multiset μ) + c.held + queued queue + heldBy s.consumers := by
            rw [hheld]
            ac_rfl
      _ = s.committed + heldBy s.consumers + queued s.queue + (s.consumers i).held := by
            rw [hmodels]
            ac_rfl
  · obtain ⟨batches, k, hqueue, hsum, hstop⟩ := horder
    refine ⟨batches, k, hqueue, ?_, fun hpos => hstop ?_⟩
    · change k + stopCount (Function.update s.consumers i c) + s.producer.sentinels = _
      omega
    · change 0 < stopCount (Function.update s.consumers i c) at hpos
      omega

theorem Inv.takeBatch (h : Inv buildModel rows s) {i : Fin numberOfConsumers}
    (hi : s.consumers i = .getting) {batch : List μ} {queue : List (Option (List μ))}
    (hs : s.queue = some batch :: queue) :
    Inv buildModel rows ({ s with queue := queue }.setConsumer i (.committing batch)) := by
  apply h.consume
  · simp only [hi, hs, queued, Consumer.held_getting, Consumer.held_committing, add_zero,
      add_assoc]
  · obtain ⟨batches, k, hqueue, hsum, hstop⟩ := h.order
    rw [hs] at hqueue
    simp only [hi, Consumer.stops_getting, Consumer.stops_committing, add_zero]
    cases batches with
    | nil => cases k <;> cases hqueue
    | cons b batches =>
        exact ⟨batches, k, (List.cons.inj hqueue).2, hsum, fun hpos => nomatch hstop hpos⟩

/-- A `None` is first only when no batch is queued. -/
theorem Inv.takeNone (h : Inv buildModel rows s) {i : Fin numberOfConsumers}
    (hi : s.consumers i = .getting) {queue : List (Option (List μ))}
    (hs : s.queue = none :: queue) :
    Inv buildModel rows ({ s with queue := queue }.setConsumer i .stopped) := by
  apply h.consume
  · simp only [hi, hs, queued, Consumer.held_getting, Consumer.held_stopped, add_zero]
  · obtain ⟨batches, k, hqueue, hsum, hstop⟩ := h.order
    rw [hs] at hqueue
    simp only [hi, Consumer.stops_getting, Consumer.stops_stopped, add_zero]
    cases batches with
    | cons b batches => cases hqueue
    | nil =>
        cases k with
        | zero => cases hqueue
        | succ k => exact ⟨[], k, (List.cons.inj hqueue).2, by omega, fun _ => rfl⟩

theorem Inv.commit (h : Inv buildModel rows s) {i : Fin numberOfConsumers} {batch : List μ}
    (hi : s.consumers i = .committing batch) :
    Inv buildModel rows ({ s with committed := s.committed ++ batch }.setConsumer i .getting) := by
  apply h.consume
  · simp only [hi, ← Multiset.coe_add, Consumer.held_getting, Consumer.held_committing, add_zero]
  · obtain ⟨batches, k, hqueue, hsum, hstop⟩ := h.order
    simp only [hi, Consumer.stops_getting, Consumer.stops_committing, add_zero]
    exact ⟨batches, k, hqueue, hsum, hstop⟩

theorem inv_stepConsumer (h : Inv buildModel rows s) {i : Fin numberOfConsumers}
    (ht : stepConsumer s i = some t) : Inv buildModel rows t := by
  unfold stepConsumer at ht
  split at ht
  · rename_i hi
    split at ht
    · cases ht
    · rename_i batch queue hs
      obtain rfl := Option.some.inj ht
      exact h.takeBatch hi hs
    · rename_i queue hs
      obtain rfl := Option.some.inj ht
      exact h.takeNone hi hs
  · rename_i batch hi
    obtain rfl := Option.some.inj ht
    exact h.commit hi
  · cases ht

end Consume

theorem inv_run (h : Run (next buildModel batchsize) (initial rows) t) : Inv buildModel rows t := by
  refine h.invariant (inv_initial buildModel rows) (fun s e t hI he => ?_)
  cases e with
  | produce => exact inv_stepProducer hI he
  | consume i => exact inv_stepConsumer hI he

section Built

/-- Whatever is committed, held, queued or pending has been built from some row. -/
structure Built (buildModel : ρ → Except PyError μ) (s : State ρ μ) : Prop where
  committed : ∀ m ∈ s.committed, ∃ row, buildModel row = .ok m
  held : ∀ i batch, s.consumers i = .committing batch → ∀ m ∈ batch, ∃ row, buildModel row = .ok m
  queue : ∀ batch, some batch ∈ s.queue → ∀ m ∈ batch, ∃ row, buildModel row = .ok m
  pending : ∀ m ∈ s.producer.pending, ∃ row, buildModel row = .ok m

theorem built_initial (buildModel : ρ → Except PyError μ) (rows : List ρ) :
    Built buildModel (initial rows) :=
  ⟨nofun, fun _ _ hi => (nomatch hi), fun _ hbatch => (nomatch hbatch), nofun⟩

theorem Built.produce (h : Built buildModel s) {p : Producer ρ μ} {n : ℕ}
    (hp : ∀ m ∈ p.pending, ∃ row, buildModel row = .ok m) :
    Built buildModel { s with rowsImported := n, producer := p } :=
  ⟨h.committed, h.held, h.queue, hp⟩

theorem Built.put (h : Built buildModel s) {item : Option (List μ)} {p : Producer ρ μ}
    (hitem : ∀ batch, item = some batch → ∀ m ∈ batch, ∃ row, buildModel row = .ok m)
    (hp : p.pending = []) (ht : s.put item p = some t) : Built buildModel t := by
  obtain rfl := put_eq_some ht
  refine ⟨h.committed, h.held, fun batch hbatch => ?_, ?_⟩
  · rcases List.mem_append.1 hbatch with hbatch | hbatch
    · exact h.queue batch hbatch
    · exact hitem batch (List.mem_singleton.1 hbatch).symm
  · rw [hp]
    exact nofun

theorem built_stepProducer (h : Built buildModel s)
    (ht : stepProducer buildModel batchsize s = some t) : Built buildModel t := by
  have hpending := h.pending
  unfold stepProducer at ht
  split at ht
  · rename_i row rest objects count hs
    rw [hs] at hpending
    split at ht
    · obtain rfl := Option.some.inj ht
      exact h.produce nofun
    · rename_i model hrow
      obtain rfl := Option.some.inj ht
      have hobjects : ∀ m ∈ objects ++ [model], ∃ row, buildModel row = .ok m := by
        intro m hm
        rcases List.mem_append.1 hm with hm | hm
        · exact hpending m hm
        · exact ⟨row, List.mem_singleton.1 hm ▸ hrow⟩
      apply h.produce
      split_ifs
      · exact hobjects
      · exact hobjects
  · rename_i objects count hs
    rw [hs] at hpending
    obtain rfl := Option.some.inj ht
    apply h.produce
    split_ifs
    · exact nofun
    · exact hpending
  · rename_i rest objects hs
    rw [hs] at hpending
    exact h.put (fun batch hbatch => Option.some.inj hbatch ▸ hpending) rfl ht
  · rename_i objects hs
    rw [hs] at hpending
    exact h.put (fun batch hbatch => Option.some.inj hbatch ▸ hpending) rfl ht
  · obtain rfl := Option.some.inj ht
    exact h.produce nofun
  · refine h.put ?_ rfl ht
    rintro _ ⟨⟩
  · cases ht
  · cases ht

theorem Built.consume (h : Built buildModel s) {i : Fin numberOfConsumers} {c : Consumer μ}
    {queue : List (Option (List μ))} {committed : List μ}
    (hcommitted : ∀ m ∈ committed, ∃ row, buildModel row = .ok m)
    (hqueue : ∀ batch, some batch ∈ queue → some batch ∈ s.queue)
    (hc : ∀ batch, c = .committing batch → ∀ m ∈ batch, ∃ row, buildModel row = .ok m) :
    Built buildModel ({ s with queue := queue, committed := committed }.setConsumer i c) := by
  refine ⟨hcommitted, fun j batch hj => ?_, fun batch hbatch => h.queue batch (hqueue batch hbatch),
    h.pending⟩
  by_cases hij : j = i
  · subst hij
    exact hc batch (by simpa [State.setConsumer] using hj)
  · refine h.held j batch ?_
    simpa [State.setConsumer, Function.update_of_ne hij] using hj

theorem built_stepConsumer (h : Built buildModel s) {i : Fin numberOfConsumers}
    (ht : stepConsumer s i = some t) : Built buildModel t := by
  unfold stepConsumer at ht
  split at ht
  · split at ht
    · cases ht
    · rename_i batch queue hs
      obtain rfl := Option.some.inj ht
      refine h.consume h.committed (fun b hb => hs ▸ List.mem_cons_of_mem _ hb) ?_
      rintro _ ⟨⟩
      exact h.queue batch (hs ▸ List.mem_cons_self)
    · rename_i queue hs
      obtain rfl := Option.some.inj ht
      exact h.consume h.committed (fun b hb => hs ▸ List.mem_cons_of_mem _ hb) nofun
  · rename_i batch hi
    obtain rfl := Option.some.inj ht
    refine h.consume (fun m hm => ?_) (fun _ hb => hb) nofun
    rcases List.mem_append.1 hm with hm | hm
    · exact h.committed m hm
    · exact h.held i batch hi m hm
  · cases ht

theorem built_run (h : Run (next buildModel batchsize) (initial rows) t) : Built buildModel t := by
  refine h.invariant (built_initial buildModel rows) (fun s e t hI he => ?_)
  cases e with
  | produce => exact built_stepProducer hI he
  | consume i => exact built_stepConsumer hI he

/-- The producer asks for no row but those that remain. -/
theorem stepProducer_congr {build' : ρ → Except PyError μ}
    (h : ∀ row ∈ s.producer.remaining, buildModel row = build' row) :
    stepProducer buildModel batchsize s = stepProducer build' batchsize s := by
  unfold stepProducer
  cases hproducer : s.producer with
  | loop rows objects count =>
      rw [hproducer] at h
      cases rows with
      | nil => rfl
      | cons row rows => simp only [h row List.mem_cons_self]
  | putNone n => cases n <;> rfl
  | _ => rfl

theorem remaining_stepProducer (ht : stepProducer buildModel batchsize s = some t) :
    t.producer.remaining ⊆ s.producer.remaining := by
  unfold stepProducer at ht
  split at ht
  · rename_i row rest objects count hs
    rw [hs]
    split at ht
    · obtain rfl := Option.some.inj ht
      exact List.nil_subset _
    · obtain rfl := Option.some.inj ht
      dsimp only
      split_ifs
      · exact List.subset_cons_self row rest
      · exact List.subset_cons_self row rest
  · obtain rfl := Option.some.inj ht
    dsimp only
    split_ifs
    · exact List.nil_subset _
    · exact List.nil_subset _
  · rename_i rest objects hs
    obtain rfl := put_eq_some ht
    rw [hs]
    exact List.Subset.refl _
  · obtain rfl := put_eq_some ht
    exact List.nil_subset _
  · obtain rfl := Option.some.inj ht
    exact List.nil_subset _
  · obtain rfl := put_eq_some ht
    exact List.nil_subset _
  · cases ht
  · cases ht

theorem producer_stepConsumer {i : Fin numberOfConsumers} (ht : stepConsumer s i = some t) :
    t.producer = s.producer := by
  unfold stepConsumer at ht
  split at ht
  · split at ht
    · cases ht
    · obtain rfl := Option.some.inj ht
      rfl
    · obtain rfl := Option.some.inj ht
      rfl
  · obtain rfl := Option.some.inj ht
    rfl
  · cases ht

theorem next_congr {build' : ρ → Except PyError μ} {e : Event}
    (h : ∀ row ∈ s.producer.remaining, buildModel row = build' row)
    (hnext : next buildModel batchsize s e = some t) :
    next build' batchsize s e = some t ∧ t.producer.remaining ⊆ s.producer.remaining := by
  cases e with
  | produce => exact ⟨(stepProducer_congr h).symm.trans hnext, remaining_stepProducer hnext⟩
  | consume i =>
      refine ⟨hnext, ?_⟩
      rw [producer_stepConsumer hnext]
      exact List.Subset.refl _

/-- A run is one of every importer that builds the same of the rows of the file. -/
theorem run_congr {build' : ρ → Except PyError μ} (h : ∀ row ∈ rows, buildModel row = build' row)
    (hrun : Run (next buildModel batchsize) (initial rows) t) :
    Run (next build' batchsize) (initial rows) t := by
  have hboth := hrun.invariant (I := fun s => s.producer.remaining ⊆ rows ∧
    Run (next build' batchsize) (initial rows) s) ⟨List.Subset.refl _, RunWhile.refl _⟩ ?_
  · exact hboth.2
  · rintro s e t ⟨hrows, hrun'⟩ hnext
    obtain ⟨hnext', hless⟩ := next_congr (fun row hrow => h row (hrows hrow)) hnext
    exact ⟨fun row hrow => hrows (hless hrow), hrun'.tail trivial hnext'⟩

/-- Whatever is committed has been built from a row of the file. -/
theorem committed_of_rows (hrun : Run (next buildModel batchsize) (initial rows) t) :
    ∀ m ∈ t.committed, ∃ row ∈ rows, buildModel row = .ok m := by
  classical
  intro m hm
  have hown : ∀ row ∈ rows, buildModel row =
      if row ∈ rows then buildModel row else .error .valueError := fun row hrow => (if_pos hrow).symm
  obtain ⟨row, hrow⟩ := (built_run (run_congr hown hrun)).committed m hm
  split_ifs at hrow with hmem
  exact ⟨row, hmem, hrow⟩

end Built

section Progress

theorem numberOfConsumers_pos : 0 < numberOfConsumers := by decide

/-- A consumer that has not stopped can move while something is queued. -/
theorem exists_consume {i : Fin numberOfConsumers} (hi : s.consumers i ≠ .stopped)
    (hqueue : s.queue ≠ []) : ∃ i t, stepConsumer s i = some t := by
  refine ⟨i, ?_⟩
  unfold stepConsumer
  cases hc : s.consumers i with
  | stopped => exact absurd hc hi
  | committing batch => exact ⟨_, rfl⟩
  | getting =>
      cases hq : s.queue with
      | nil => exact absurd hq hqueue
      | cons item queue =>
          cases item with
          | none => exact ⟨_, rfl⟩
          | some batch => exact ⟨_, rfl⟩

theorem stopCount_of_stopped (h : ∀ i, s.consumers i = .stopped) :
    stopCount s.consumers = numberOfConsumers := by
  simp [stopCount, h]

theorem exists_not_stopped (h : stopCount s.consumers < numberOfConsumers) :
    ∃ i, s.consumers i ≠ .stopped := by
  by_contra hall
  have hcount := stopCount_of_stopped fun i => not_not.1 (not_exists.1 hall i)
  omega

theorem Consumer.stops_le_one (c : Consumer μ) : c.stops ≤ 1 := by
  cases c <;> simp

theorem stopCount_lt {i : Fin numberOfConsumers} (hi : s.consumers i ≠ .stopped) :
    stopCount s.consumers < numberOfConsumers := by
  have hzero : (s.consumers i).stops < 1 := by
    cases hc : s.consumers i with
    | stopped => exact absurd hc hi
    | getting => exact Nat.one_pos
    | committing batch => exact Nat.one_pos
  have hlt := Finset.sum_lt_sum (fun j _ => (s.consumers j).stops_le_one)
    ⟨i, Finset.mem_univ i, hzero⟩
  simpa [stopCount] using hlt

/-- A full queue is taken from, as long as a `None` is still to be put. -/
theorem exists_move_of_put (h : Inv buildModel rows s) {item : Option (List μ)}
    {p : Producer ρ μ} (hs : 0 < s.producer.sentinels) :
    (∃ t, s.put item p = some t) ∨ ∃ i t, stepConsumer s i = some t := by
  by_cases hroom : s.queue.length < queueMaxsize
  · exact Or.inl ⟨_, if_pos hroom⟩
  · obtain ⟨batches, k, _, hsum, _⟩ := h.order
    obtain ⟨i, hi⟩ := exists_not_stopped (s := s) (by omega)
    refine Or.inr (exists_consume hi fun hnil => hroom ?_)
    rw [hnil]
    exact (by decide : 0 < queueMaxsize)

/-- Every state that is not final has a step. -/
theorem exists_step (h : Inv buildModel rows s) (hfinal : ¬ s.Final) :
    ∃ e t, next buildModel batchsize s e = some t := by
  have hmove : (∃ t, stepProducer buildModel batchsize s = some t) ∨
      ∃ i t, stepConsumer s i = some t := by
    unfold stepProducer
    cases hp : s.producer with
    | loop rest objects count =>
        cases rest with
        | nil => exact Or.inl ⟨_, rfl⟩
        | cons row rest =>
            dsimp only
            cases buildModel row with
            | error e => exact Or.inl ⟨_, rfl⟩
            | ok model => exact Or.inl ⟨_, rfl⟩
    | putBatch rest objects => exact exists_move_of_put h (by rw [hp]; exact numberOfConsumers_pos)
    | putLast objects => exact exists_move_of_put h (by rw [hp]; exact numberOfConsumers_pos)
    | putNone n =>
        cases n with
        | zero => exact Or.inl ⟨_, rfl⟩
        | succ n => exact exists_move_of_put h (by rw [hp]; exact Nat.succ_pos n)
    | failed e => exact absurd (Or.inr ⟨e, hp⟩) hfinal
    | done =>
        -- The consumers that have not stopped are as many as the `None`s in the queue.
        obtain ⟨batches, k, hqueue, hsum, _⟩ := h.order
        rw [hp] at hsum
        have hnot : ¬ ∀ i, s.consumers i = .stopped := fun hall => hfinal (Or.inl ⟨hp, hall⟩)
        obtain ⟨i, hi⟩ := not_forall.1 hnot
        refine Or.inr (exists_consume hi fun hnil => ?_)
        have hlt := stopCount_lt hi
        rw [hnil] at hqueue
        have hk := congrArg List.length hqueue
        simp only [List.length_nil, List.length_append, List.length_replicate] at hk
        simp only [Producer.sentinels] at hsum
        omega
  rcases hmove with ⟨t, ht⟩ | ⟨i, t, ht⟩
  · exact ⟨.produce, t, ht⟩
  · exact ⟨.consume i, t, ht⟩

/-- When all tasks have ended, nothing is queued or held, and no `None` is left. -/
theorem completed_spec (h : Inv buildModel rows s) (hdone : s.Completed) :
    ∃ models, rows.mapM buildModel = .ok models ∧ s.committed.Perm models ∧
      s.rowsImported = rows.length ∧ s.queue = [] := by
  obtain ⟨hp, hstopped⟩ := hdone
  obtain ⟨processed, models, hrows, hmap, hcount, hmodels⟩ := h.read (by rw [hp]; exact nofun)
  obtain ⟨batches, k, hqueue, hsum, hstop⟩ := h.order
  have hall := stopCount_of_stopped hstopped
  rw [hp] at hrows hsum
  have hempty : s.queue = [] := by
    have hk : k = 0 := by omega
    have hbatches : batches = [] := hstop (by rw [hall]; decide)
    rw [hqueue, hk, hbatches]
    rfl
  have hprocessed : rows = processed := hrows.trans (List.append_nil _)
  have hheld : heldBy s.consumers = 0 := by simp [heldBy, hstopped]
  refine ⟨models, hprocessed ▸ hmap, ?_, hprocessed ▸ hcount, hempty⟩
  rw [State.models, hempty, hp, hheld] at hmodels
  simpa [queued, Producer.pending] using hmodels

end Progress

section Measure

/-- More than the steps that follow from where the producer is. -/
def Producer.weight : Producer ρ μ → ℕ
  | .loop rows objectsToCommit _ =>
    5 * rows.length + (if objectsToCommit.isEmpty then 0 else 4) + 2 + 2 * numberOfConsumers
  | .putBatch rows _ => 5 * rows.length + 5 + 2 * numberOfConsumers
  | .putLast _ => 4 + 2 * numberOfConsumers
  | .putNone n => 1 + 2 * n
  | .done => 0
  | .failed _ => 0

def Consumer.weight : Consumer μ → ℕ
  | .committing _ => 1
  | _ => 0

def queueWeight : List (Option (List μ)) → ℕ
  | [] => 0
  | some _ :: queue => 2 + queueWeight queue
  | none :: queue => 1 + queueWeight queue

def State.measure (s : State ρ μ) : ℕ :=
  s.producer.weight + queueWeight s.queue + ∑ i, (s.consumers i).weight

theorem queueWeight_append (q : List (Option (List μ))) (item : Option (List μ)) :
    queueWeight (q ++ [item]) = queueWeight q + queueWeight [item] := by
  induction q with
  | nil => exact (zero_add _).symm
  | cons i q ih =>
      cases i with
      | none => rw [List.cons_append, queueWeight, queueWeight, ih, add_assoc]
      | some batch => rw [List.cons_append, queueWeight, queueWeight, ih, add_assoc]

theorem measure_setConsumer (s : State ρ μ) (i : Fin numberOfConsumers) (c : Consumer μ) :
    (s.setConsumer i c).measure + (s.consumers i).weight = s.measure + c.weight := by
  have hsum := sum_update Consumer.weight s.consumers i c
  simp only [State.measure, State.setConsumer]
  omega

theorem measure_put {item : Option (List μ)} {p : Producer ρ μ} (h : s.put item p = some t)
    (hw : p.weight + queueWeight [item] < s.producer.weight) : t.measure < s.measure := by
  obtain rfl := put_eq_some h
  simp only [State.measure, queueWeight_append]
  omega

theorem measure_stepProducer (h : stepProducer buildModel batchsize s = some t) :
    t.measure < s.measure := by
  unfold stepProducer at h
  split at h
  · rename_i row rest objects count hs
    split at h
    · obtain rfl := Option.some.inj h
      simp only [State.measure, hs, Producer.weight, List.length_cons]
      omega
    · obtain rfl := Option.some.inj h
      simp only [State.measure, hs]
      split_ifs
      · simp only [Producer.weight, List.length_cons]
        omega
      · simp only [Producer.weight, List.length_cons]
        split_ifs <;> omega
  · rename_i objects count hs
    obtain rfl := Option.some.inj h
    simp only [State.measure, hs]
    split_ifs with hempty
    · simp only [Producer.weight, hempty, if_true, List.length_nil]
      omega
    · simp only [Producer.weight, hempty, List.length_nil]
      simp
  · rename_i rest objects hs
    apply measure_put h
    rw [hs]
    simp only [Producer.weight, queueWeight, List.isEmpty_nil, if_true]
    omega
  · rename_i objects hs
    apply measure_put h
    rw [hs]
    simp only [Producer.weight, queueWeight]
    omega
  · rename_i hs
    obtain rfl := Option.some.inj h
    simp only [State.measure, hs, Producer.weight]
    omega
  · rename_i n hs
    apply measure_put h
    rw [hs]
    simp only [Producer.weight, queueWeight]
    omega
  · cases h
  · cases h

theorem measure_stepConsumer {i : Fin numberOfConsumers} (h : stepConsumer s i = some t) :
    t.measure < s.measure := by
  unfold stepConsumer at h
  split at h
  · rename_i hi
    split at h
    · cases h
    · rename_i batch queue hs
      obtain rfl := Option.some.inj h
      have hset := measure_setConsumer { s with queue := queue } i (.committing batch)
      simp only [hi, Consumer.weight] at hset
      simp only [State.measure, hs, queueWeight] at hset ⊢
      omega
    · rename_i queue hs
      obtain rfl := Option.some.inj h
      have hset := measure_setConsumer { s with queue := queue } i .stopped
      simp only [hi, Consumer.weight] at hset
      simp only [State.measure, hs, queueWeight] at hset ⊢
      omega
  · rename_i batch hi
    obtain rfl := Option.some.inj h
    have hset := measure_setConsumer { s with committed := s.committed ++ batch } i .getting
    simp only [hi, Consumer.weight] at hset
    simp only [State.measure] at hset ⊢
    omega
  · cases h

theorem length_exec_le (events : List Event)
    (h : exec (next buildModel batchsize) s events = some t) :
    events.length ≤ s.measure := by
  induction events generalizing s with
  | nil => exact Nat.zero_le _
  | cons e events ih =>
      rw [exec_cons] at h
      obtain ⟨u, hu, ht⟩ := Option.bind_eq_some_iff.1 h
      have hlt : u.measure < s.measure := by
        cases e with
        | produce => exact measure_stepProducer hu
        | consume i => exact measure_stepConsumer hu
      have hle := ih ht
      rw [List.length_cons]
      omega

end Measure

/-- In every interleaving: a state that is not final has a step and only finitely many can
follow; when `gather` returns, the table has the models of the rows, each once. -/
theorem orm_import_queue (buildModel : ρ → Except PyError μ) (batchsize : ℕ) (rows : List ρ)
    (s : State ρ μ) (h : Run (next buildModel batchsize) (initial rows) s) :
    (¬ s.Final → ∃ e t, next buildModel batchsize s e = some t) ∧
    (∀ events t, exec (next buildModel batchsize) s events = some t →
      events.length ≤ s.measure) ∧
    (s.Completed → ∃ models, rows.mapM buildModel = .ok models ∧ s.committed.Perm models ∧
      s.rowsImported = rows.length ∧ s.queue = []) :=
  ⟨exists_step (inv_run h), fun events _ he => length_exec_le events he,
    completed_spec (inv_run h)⟩

/-- Three rows in batches of two: the second batch is taken by the other consumer. -/
def threeRows : List Event :=
  [.produce, .produce, .produce, .produce, .produce, .produce, .consume 0, .produce, .consume 1,
    .produce, .produce, .consume 1, .consume 0, .consume 0, .consume 1]

theorem orm_import_queue_three_rows :
    ∃ s, exec (next (fun row : ℕ => .ok row) 2) (initial [10, 20, 30]) threeRows = some s ∧
      s.committed = [30, 10, 20] ∧
      ∃ models, [10, 20, 30].mapM (fun row : ℕ => (.ok row : Except PyError ℕ)) = .ok models ∧
        s.committed.Perm models ∧ s.rowsImported = 3 ∧ s.queue = [] := by
  refine ⟨_, rfl, rfl, (orm_import_queue (fun row : ℕ => .ok row) 2 [10, 20, 30] _
    (run_of_exec (rfl : exec _ _ threeRows = some _))).2.2 ⟨rfl, ?_⟩⟩
  exact Fin.forall_fin_two.2 ⟨rfl, rfl⟩

end SimplyTransport.OrmImport
