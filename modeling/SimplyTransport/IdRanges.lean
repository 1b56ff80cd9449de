import SimplyTransport.Transition
import Mathlib.Data.List.Nodup
import Mathlib.Logic.Function.Basic
import Mathlib.Tactic.Ring

/-!
# Id ranges reserved from a sequence

`reserve_id_range` evaluates `setval(seq, nextval(seq) + count - 1)`: it advances the counter of
the sequence by one and then overwrites it with the end of its range. Each of the two calls is
atomic, the statement is not, and a counter that is not transactional is shared by all sessions.
-/

namespace SimplyTransport.IdRanges
open Transition

variable {ρ : Type}

def recordsWithIds (rows : List ρ) (firstId : ℤ) : List (ℤ × ρ) :=
  rows.zipIdx.map (fun p => (firstId + p.2, p.1))

/-- What `reserve_id_range` returns, from the value that `setval` gave back. -/
def reserveIdRange (last : ℤ) (count : ℕ) : ℤ := last - count + 1

/-- A session of the database: it copies nothing, or it has evaluated `nextval` for a batch. -/
inductive Pc (ρ : Type)
  | idle
  | claimed (value : ℤ) (rows : List ρ)

structure Batch (ρ : Type) where
  first : ℤ
  rows : List ρ

def Batch.records (b : Batch ρ) : List (ℤ × ρ) := recordsWithIds b.rows b.first

def Batch.Holds (b : Batch ρ) (x : ℤ) : Prop := b.first ≤ x ∧ x ≤ b.first + b.rows.length - 1

structure State (ρ : Type) where
  counter : ℤ
  sessions : ℕ → Pc ρ
  batches : List (Batch ρ)

inductive Event (ρ : Type)
  | nextval (t : ℕ) (rows : List ρ)
  | setval (t : ℕ)

def initial (counter : ℤ) : State ρ := ⟨counter, fun _ => .idle, []⟩

def State.setSession (s : State ρ) (t : ℕ) (pc : Pc ρ) : State ρ :=
  { s with sessions := Function.update s.sessions t pc }

def next (s : State ρ) : Event ρ → Option (State ρ)
  | .nextval t rows =>
    match s.sessions t with
    | .idle =>
      -- Both callers return before the reservation when there is no row.
      if rows.isEmpty then none else
      let value := s.counter + 1
      some ({ s with counter := value }.setSession t (.claimed value rows))
    | _ => none
  | .setval t =>
    match s.sessions t with
    | .claimed value rows =>
      let last := value + rows.length - 1
      let first := reserveIdRange last rows.length
      some ({ s with counter := last, batches := ⟨first, rows⟩ :: s.batches }.setSession t .idle)
    | _ => none

/-- No `nextval` falls between the `nextval` and the `setval` of a longer range, and no `setval`
moves the counter back. -/
def Ordered (s : State ρ) : Event ρ → Prop
  | .nextval _ _ => ∀ t value rows, s.sessions t = .claimed value rows → rows.length ≤ 1
  | .setval t => ∀ value rows, s.sessions t = .claimed value rows →
      s.counter ≤ value + rows.length - 1

/-- The ranges are disjoint, lie above the counter's start, and no two copied rows share an id. -/
structure Unique (start : ℤ) (s : State ρ) : Prop where
  disjoint : s.batches.Pairwise (fun b b' => ∀ x, b.Holds x → ¬ b'.Holds x)
  fresh : ∀ b ∈ s.batches, ∀ x, b.Holds x → start < x
  nodup : ((s.batches.flatMap Batch.records).map Prod.fst).Nodup

theorem setSession_sessions (s : State ρ) (t u : ℕ) (pc : Pc ρ) :
    (s.setSession t pc).sessions u = if u = t then pc else s.sessions u := by
  simp [State.setSession, Function.update_apply]

theorem reserveIdRange_last (value : ℤ) (count : ℕ) :
    reserveIdRange (value + count - 1) count = value := by
  unfold reserveIdRange
  ring

theorem nextval_cases {s s' : State ρ} {t : ℕ} {rows : List ρ}
    (he : next s (.nextval t rows) = some s') :
    s.sessions t = .idle ∧ 1 ≤ rows.length ∧
      s' = { s with counter := s.counter + 1 }.setSession t (.claimed (s.counter + 1) rows) := by
  simp only [next] at he
  split at he
  · next ht =>
    by_cases hrows : rows.isEmpty
    · rw [if_pos hrows] at he; cases he
    · rw [if_neg hrows] at he
      rw [List.isEmpty_iff] at hrows
      exact ⟨ht, List.length_pos_iff.2 hrows, (Option.some.inj he).symm⟩
  · cases he

theorem setval_cases {s s' : State ρ} {t : ℕ} (he : next s (.setval t) = some s') :
    ∃ value rows, s.sessions t = .claimed value rows ∧
      s' = ({ s with counter := value + rows.length - 1,
                     batches := ⟨value, rows⟩ :: s.batches } : State ρ).setSession t .idle := by
  simp only [next] at he
  split at he
  · next value rows ht =>
    rw [reserveIdRange_last] at he
    exact ⟨value, rows, ht, (Option.some.inj he).symm⟩
  · cases he

theorem next_setval {s : State ρ} {t : ℕ} {value : ℤ} {rows : List ρ}
    (ht : s.sessions t = .claimed value rows) :
    next s (.setval t) = some (({ s with
      counter := value + rows.length - 1,
      batches := ⟨value, rows⟩ :: s.batches } : State ρ).setSession t .idle) := by
  simp only [next, ht, reserveIdRange_last]

theorem mem_records_iff (b : Batch ρ) (x : ℤ) : x ∈ b.records.map Prod.fst ↔ b.Holds x := by
  simp only [Batch.records, recordsWithIds, List.map_map, Batch.Holds]
  constructor
  · intro hx
    obtain ⟨⟨row, i⟩, hmem, rfl⟩ := List.mem_map.1 hx
    have hi : i < b.rows.length := by simpa using List.snd_lt_of_mem_zipIdx hmem
    simp only [Function.comp_apply]
    omega
  · rintro ⟨hle, hlt⟩
    have hi : (x - b.first).toNat < b.rows.length := by omega
    apply List.mem_map.2
    refine ⟨(b.rows[(x - b.first).toNat], (x - b.first).toNat), ?_, ?_⟩
    · exact List.mk_mem_zipIdx_iff_getElem?.2 (List.getElem?_eq_getElem hi)
    · simp only [Function.comp_apply]
      omega

theorem nodup_records (b : Batch ρ) : (b.records.map Prod.fst).Nodup := by
  have hids : b.records.map Prod.fst =
      (List.range b.rows.length).map (fun i : ℕ => b.first + i) := by
    simp only [Batch.records, recordsWithIds, List.map_map]
    rw [List.range_eq_range', ← List.zipIdx_map_snd 0 b.rows, List.map_map]
    rfl
  rw [hids]
  apply List.Nodup.map _ List.nodup_range
  intro i j hij
  simpa using hij

theorem nodup_iff_disjoint (bs : List (Batch ρ)) :
    ((bs.flatMap Batch.records).map Prod.fst).Nodup ↔
      bs.Pairwise (fun b b' => ∀ x, b.Holds x → ¬ b'.Holds x) := by
  rw [List.map_flatMap, List.nodup_flatMap]
  simp only [nodup_records, implies_true, true_and]
  apply List.Pairwise.iff
  intro b b'
  simp only [Function.onFun, List.disjoint_left, mem_records_iff]

/-- A batch that overlaps an earlier one gives two rows the same id. -/
theorem not_unique {start : ℤ} {s : State ρ} {b : Batch ρ} {bs : List (Batch ρ)}
    (hs : s.batches = b :: bs) {c : Batch ρ} (hc : c ∈ bs) {x : ℤ} (hb : b.Holds x)
    (hx : c.Holds x) : ¬ Unique start s := by
  intro h
  have hd := h.disjoint
  rw [hs, List.pairwise_cons] at hd
  exact hd.1 c hc x hb hx

end SimplyTransport.IdRanges
