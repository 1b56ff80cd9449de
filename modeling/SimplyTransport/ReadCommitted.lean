import SimplyTransport.Transition
import Mathlib.Data.List.Basic
import Mathlib.Logic.Function.Basic

/-!
# Two replacements of a table under READ COMMITTED

Each of two transactions deletes all rows that it sees, inserts its records and commits. A
`DELETE` sees the rows that were committed when the statement began; it waits for rows that the
other transaction has deleted and passes over those that are gone then. An insertion waits for a
row of the other transaction with one of its keys and raises where that row is committed. Two
statements that wait for each other make one of the transactions fail. A row is known by the
transaction that wrote it.
-/

namespace ReadCommitted
open Transition

/-- The writer of a row, which is none for the rows at the start, and its place. -/
abbrev RowId := Option Bool × ℕ

inductive Phase (α : Type)
  | idle
  | deleting (seen : List RowId)
  | deleted (marked : List RowId)
  | inserting (marked : List RowId)
  | inserted (marked : List RowId) (new : List (RowId × α))
  | committed
  | failed

def Phase.ids {α : Type} : Phase α → List RowId
  | .deleting seen => seen
  | .deleted marked => marked
  | .inserting marked => marked
  | .inserted marked _ => marked
  | _ => []

def Phase.locked {α : Type} : Phase α → List RowId
  | .deleting _ => []
  | ph => ph.ids

def Phase.new {α : Type} : Phase α → List (RowId × α)
  | .inserted _ new => new
  | _ => []

def Phase.isOpen {α : Type} : Phase α → Bool
  | .idle => false
  | .committed => false
  | .failed => false
  | _ => true

def Phase.isEnded {α : Type} : Phase α → Bool
  | .committed => true
  | .failed => true
  | _ => false

def Phase.isUnfinished {α : Type} : Phase α → Bool
  | .deleting _ => true
  | .inserting _ => true
  | _ => false

def Phase.isInserted {α : Type} : Phase α → Bool
  | .inserted _ _ => true
  | _ => false

structure State (α : Type) where
  rows : List (RowId × α)
  phase : Bool → Phase α

inductive Event
  | beginDelete (p : Bool)
  | finishDelete (p : Bool)
  | beginInsert (p : Bool)
  | finishInsert (p : Bool)
  | raiseInsert (p : Bool)
  | commit (p : Bool)
  | deadlock (p : Bool)

def Event.run : Event → Bool
  | .beginDelete p => p
  | .finishDelete p => p
  | .beginInsert p => p
  | .finishInsert p => p
  | .raiseInsert p => p
  | .commit p => p
  | .deadlock p => p

def rowsOf {α : Type} (writer : Option Bool) (records : List α) : List (RowId × α) :=
  records.zipIdx.map (fun a => ((writer, a.2), a.1))

def initial {α : Type} (records : List α) : State α := ⟨rowsOf none records, fun _ => .idle⟩

def State.setPhase {α : Type} (s : State α) (p : Bool) (ph : Phase α) : State α :=
  { s with phase := Function.update s.phase p ph }

def State.replace {α : Type} (s : State α) (marked : List RowId) (new : List (RowId × α)) :
    State α :=
  { s with rows := s.rows.filter (fun r => r.1 ∉ marked) ++ new }

section System

variable {α κ : Type} [DecidableEq κ] (key : α → κ) (records : Bool → List α)

/-- A record of the transaction has the key of a row that it has not deleted, or of a row that
the other one has inserted. -/
def Conflicts (s : State α) (p : Bool) (marked : List RowId) : Prop :=
  ∃ a ∈ records p, (∃ r ∈ s.rows, r.1 ∉ marked ∧ key r.2 = key a) ∨
    ∃ r ∈ (s.phase (!p)).new, key r.2 = key a

instance (s : State α) (p : Bool) (marked : List RowId) :
    Decidable (Conflicts key records s p marked) :=
  inferInstanceAs (Decidable (∃ a ∈ records p, _))

def next (s : State α) : Event → Option (State α)
  | .beginDelete p =>
    match s.phase p with
    | .idle => some (s.setPhase p (.deleting (s.rows.map Prod.fst)))
    | _ => none
  | .finishDelete p =>
    match s.phase p with
    | .deleting seen =>
      if ∃ i ∈ seen, i ∈ (s.phase (!p)).locked then none
      else some (s.setPhase p (.deleted (seen.filter (fun i => i ∈ s.rows.map Prod.fst))))
    | _ => none
  | .beginInsert p =>
    match s.phase p with
    | .deleted marked =>
      some (s.setPhase p (if (records p).isEmpty then .inserted marked [] else .inserting marked))
    | _ => none
  | .finishInsert p =>
    match s.phase p with
    | .inserting marked =>
      if Conflicts key records s p marked then none
      else some (s.setPhase p (.inserted marked (rowsOf (some p) (records p))))
    | _ => none
  | .raiseInsert p =>
    match s.phase p with
    | .inserting marked =>
      -- Such a row may have a key of the records, or one of their serial numbers.
      if ∃ r ∈ s.rows, r.1 ∉ marked then some (s.setPhase p .failed) else none
    | _ => none
  | .commit p =>
    match s.phase p with
    | .inserted marked new =>
      some ((s.replace marked new).setPhase p .committed)
    | _ => none
  | .deadlock p =>
    if (s.phase p).isUnfinished ∧ (s.phase (!p)).isUnfinished then some (s.setPhase p .failed)
    else none

/-- The records share a key, or there are none on one side. -/
def Compatible : Prop :=
  (∃ a ∈ records true, ∃ b ∈ records false, key a = key b) ∨ ∃ p, records p = []

/-- A `DELETE` begins while the other transaction is not open, unless the records are compatible. -/
def Separate (s : State α) : Event → Prop
  | .beginDelete p => (s.phase (!p)).isOpen = false ∨ Compatible key records
  | _ => True

/-- Of the committed rows, which are those of the other transaction, none is known here. -/
structure Missed (s : State α) (p : Bool) (ids : List RowId) : Prop where
  committed : s.phase (!p) = .committed
  rows : s.rows.map Prod.snd = records (!p)
  compatible : Compatible key records
  unseen : ∀ r ∈ s.rows, r.1 ∉ ids

/-- All committed rows are known, or they are those of the other transaction. -/
def Knows (s : State α) (p : Bool) (ids : List RowId) : Prop :=
  (∀ r ∈ s.rows, r.1 ∈ ids) ∨ Missed key records s p ids

def PhaseOk (s : State α) (p : Bool) : Phase α → Prop
  | .deleting seen => Knows key records s p seen
  | .deleted marked => Knows key records s p marked
  | .inserting marked => Knows key records s p marked
  | .inserted marked new => Knows key records s p marked ∧ new.map Prod.snd = records p ∧
      (Missed key records s p marked → ∃ q, records q = [])
  | .failed => s.phase (!p) ≠ .idle ∧ s.phase (!p) ≠ .failed
  | _ => True

/-- Once a transaction has committed, the table holds the records of one; before, what a
transaction knows is all of the table. -/
structure Inv (s : State α) : Prop where
  content : (∀ p, s.phase p ≠ .committed) ∨
    ∃ p, s.phase p = .committed ∧ s.rows.map Prod.snd = records p
  phases : ∀ p, PhaseOk key records s p (s.phase p)
  both_open : (∀ p, (s.phase p).isOpen = true) → Compatible key records
  both_inserted : (∀ p, (s.phase p).isInserted = true) → ∃ q, records q = []
  rows_written : ∀ r ∈ s.rows, ∀ p, r.1.1 = some p → s.phase p = .committed
  ids_written : ∀ q, ∀ i ∈ (s.phase q).ids, ∀ p, i.1 = some p → s.phase p = .committed
  new_written : ∀ p, ∀ r ∈ (s.phase p).new, r.1.1 = some p

end System

end ReadCommitted
