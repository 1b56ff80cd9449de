import SimplyTransport.Transaction
import SimplyTransport.VehicleImporter

/-!
# `snapshot_copy_table` on a table

The rows of a dataset are deleted and the records copied under ids from the table's sequence, in
one transaction. Any statement may raise, and a row that has the id of another one or that a
unique constraint excludes makes the copy raise. Then the rows are those before; the sequence
does not go back.
-/

namespace SimplyTransport.SnapshotCopy
open Transaction

/-- How a record becomes a row of a table, and which records its unique constraint keeps apart. -/
structure Table (α β : Type) where
  withId : ℤ → α → β
  idOf : β → ℤ
  toRecord : β → α
  datasetOf : α → String
  conflicts : α → α → Bool
  idOf_withId : ∀ i a, idOf (withId i a) = i
  toRecord_withId : ∀ i a, toRecord (withId i a) = a
  conflicts_dataset : ∀ a b, conflicts a b → datasetOf a = datasetOf b

def rtTrip : Table RtTripRecord RTTripModel where
  withId := rtTripWithId
  idOf r := r.id
  toRecord r := r.toRtTripRecord
  datasetOf a := a.dataset
  conflicts a b := a.key = b.key
  idOf_withId _ _ := rfl
  toRecord_withId _ _ := rfl
  conflicts_dataset a b h := by
    simp only [RtTripRecord.key, Prod.mk.injEq, decide_eq_true_eq] at h
    exact h.2.2

def rtStopTime : Table RtStopTimeRecord RTStopTimeModel where
  withId := rtStopTimeWithId
  idOf r := r.id
  toRecord r := r.toRtStopTimeRecord
  datasetOf a := a.dataset
  conflicts a b := a.key = b.key
  idOf_withId _ _ := rfl
  toRecord_withId _ _ := rfl
  conflicts_dataset a b h := by
    simp only [RtStopTimeRecord.key, Prod.mk.injEq, decide_eq_true_eq] at h
    exact h.2.2.2

/-- `rt_vehicle` has no unique constraint but its primary key. -/
def rtVehicle : Table RtVehicleRecord RTVehicleRow where
  withId := rtVehicleWithId
  idOf r := r.id
  toRecord r := r.toRecord
  datasetOf a := a.dataset
  conflicts _ _ := false
  idOf_withId _ _ := rfl
  toRecord_withId _ _ := rfl
  conflicts_dataset _ _ h := by cases h

structure State (β : Type) where
  rows : List β
  lastValue : ℤ

inductive Statement
  | begin
  | delete
  | rawConnection
  | nextval
  | setval
  | copy (id : ℤ)
  | commit

section Program

variable {α β : Type} (t : Table α β) (fault : Statement → Option PyError)

def Table.IsOf (dataset : String) (r : β) : Bool := t.datasetOf (t.toRecord r) = dataset

def Table.clash (r r' : β) : Bool :=
  t.idOf r = t.idOf r' ∨ t.conflicts (t.toRecord r) (t.toRecord r')

def Table.newRows (records : List α) (firstId : ℤ) : List β :=
  (IdRanges.recordsWithIds records firstId).map (fun p => t.withId p.1 p.2)

def Table.keptRows (dataset : String) (rows : List β) : List β :=
  rows.filter (fun r => ! t.IsOf dataset r)

def deleteRows (dataset : String) : Prog PyError (State β) Unit := do
  raise? (fault .delete)
  update (fun s => { s with rows := t.keptRows dataset s.rows })

def reserveIdRange (count : ℕ) : Prog PyError (State β) ℤ := do
  raise? (fault .nextval)
  update (fun s => { s with lastValue := s.lastValue + 1 })
  let value ← read State.lastValue
  raise? (fault .setval)
  let last := value + count - 1
  update (fun s => { s with lastValue := last })
  return IdRanges.reserveIdRange last count

def copyRow (row : β) : Prog PyError (State β) Unit := do
  raise? (fault (.copy (t.idOf row)))
  let rows ← read State.rows
  raise? (if rows.any (t.clash row) then some .integrityError else none)
  update (fun s => { s with rows := s.rows ++ [row] })

def copyRecordsToTable : List β → Prog PyError (State β) Unit
  | [] => pure ()
  | row :: rows => do
    copyRow t fault row
    copyRecordsToTable rows

def snapshotCopyTable (records : List α) (dataset : String) : Prog PyError (State β) Unit :=
  atomically (fun s s' => { s' with rows := s.rows }) do
    raise? (fault .begin)
    deleteRows t fault dataset
    if records.isEmpty then raise? (fault .commit) else
    raise? (fault .rawConnection)
    let firstId ← reserveIdRange fault records.length
    copyRecordsToTable t fault (t.newRows records firstId)
    raise? (fault .commit)

end Program

variable {α β : Type} {t : Table α β} {fault : Statement → Option PyError} {s s' : State β}
  {records : List α} {dataset : String}

theorem deleteRows_eq_ok {u : Unit} :
    (deleteRows t fault dataset).run s = (.ok u, s') ↔
      fault .delete = none ∧ s' = { s with rows := t.keptRows dataset s.rows } := by
  simp only [deleteRows, run_bind_eq_ok, run_raise_eq_ok, run_update_eq_ok]
  constructor
  · rintro ⟨_, _, ⟨h, rfl⟩, rfl⟩
    exact ⟨h, rfl⟩
  · rintro ⟨h, rfl⟩
    exact ⟨(), s, ⟨h, rfl⟩, rfl⟩

theorem reserveIdRange_eq_ok {count : ℕ} {first : ℤ} :
    (reserveIdRange fault count).run s = (.ok first, s') ↔
      (fault .nextval = none ∧ fault .setval = none) ∧ first = s.lastValue + 1 ∧
        s' = { s with lastValue := s.lastValue + count } := by
  have hlast : s.lastValue + 1 + (count : ℤ) - 1 = s.lastValue + count := by omega
  have hfirst : IdRanges.reserveIdRange (s.lastValue + count) count = s.lastValue + 1 := by
    unfold IdRanges.reserveIdRange
    omega
  simp only [reserveIdRange, run_bind_eq_ok, run_raise_eq_ok, run_update_eq_ok, run_read_eq_ok,
    run_pure_eq_ok]
  constructor
  · rintro ⟨_, _, ⟨hn, rfl⟩, _, _, rfl, _, _, ⟨rfl, rfl⟩, _, _, ⟨hs, rfl⟩, _, _, rfl, rfl, rfl⟩
    simp only [hlast, hfirst]
    exact ⟨⟨hn, hs⟩, trivial, trivial⟩
  · rintro ⟨⟨hn, hs⟩, rfl, rfl⟩
    refine ⟨(), _, ⟨hn, rfl⟩, (), _, rfl, _, _, ⟨rfl, rfl⟩, (), _, ⟨hs, rfl⟩, (), _, rfl, ?_, ?_⟩
    · simp only [hlast, hfirst]
    · simp only [hlast]

theorem copyRow_eq_ok {row : β} {u : Unit} :
    (copyRow t fault row).run s = (.ok u, s') ↔
      fault (.copy (t.idOf row)) = none ∧ (∀ r ∈ s.rows, ¬ t.clash row r) ∧
        s' = { s with rows := s.rows ++ [row] } := by
  have hany : (if s.rows.any (t.clash row) then some PyError.integrityError else none) = none ↔
      ∀ r ∈ s.rows, ¬ t.clash row r := by
    simp
  simp only [copyRow, run_bind_eq_ok, run_raise_eq_ok, run_update_eq_ok, run_read_eq_ok]
  constructor
  · rintro ⟨_, _, ⟨hf, rfl⟩, _, _, ⟨rfl, rfl⟩, _, _, ⟨hclash, rfl⟩, rfl⟩
    exact ⟨hf, hany.1 hclash, rfl⟩
  · rintro ⟨hf, hclash, rfl⟩
    exact ⟨(), _, ⟨hf, rfl⟩, _, _, ⟨rfl, rfl⟩, (), _, ⟨hany.2 hclash, rfl⟩, rfl⟩

/-- The copy of rows succeeds when none of them clashes with a row before it. -/
theorem copyRecordsToTable_eq_ok {rows : List β} {u : Unit} :
    (copyRecordsToTable t fault rows).run s = (.ok u, s') ↔
      (∀ row ∈ rows, fault (.copy (t.idOf row)) = none) ∧
      (∀ row ∈ rows, ∀ r ∈ s.rows, ¬ t.clash row r) ∧
      rows.Pairwise (fun r row => ¬ t.clash row r) ∧
      s' = { s with rows := s.rows ++ rows } := by
  induction rows generalizing s with
  | nil =>
      simp only [copyRecordsToTable, run_pure_eq_ok, List.append_nil, List.not_mem_nil,
        false_implies, implies_true, List.Pairwise.nil, true_and]
      exact eq_comm
  | cons row rows ih =>
      simp only [copyRecordsToTable, run_bind_eq_ok, copyRow_eq_ok, ih, List.forall_mem_cons,
        List.pairwise_cons]
      constructor
      · rintro ⟨_, _, ⟨hf, hrow, rfl⟩, hfs, hrows, hpair, rfl⟩
        refine ⟨⟨hf, hfs⟩, ⟨hrow, fun r' hr' r hr => ?_⟩, ⟨fun r' hr' => ?_, hpair⟩, ?_⟩
        · exact hrows r' hr' r (List.mem_append_left _ hr)
        · exact hrows r' hr' row (List.mem_append_right _ List.mem_cons_self)
        · simp only [List.append_assoc, List.singleton_append]
      · rintro ⟨⟨hf, hfs⟩, ⟨hrow, hrows⟩, ⟨hhead, hpair⟩, rfl⟩
        refine ⟨(), _, ⟨hf, hrow, rfl⟩, hfs, fun r' hr' r hr => ?_, hpair, ?_⟩
        · rcases List.mem_append.1 hr with hr | hr
          · exact hrows r' hr' r hr
          · rw [List.mem_singleton.1 hr]
            exact hhead r' hr'
        · simp only [List.append_assoc, List.singleton_append]

structure Quiet (t : Table α β) (fault : Statement → Option PyError) (new : List β) : Prop where
  begin : fault .begin = none
  delete : fault .delete = none
  copy : new ≠ [] → fault .rawConnection = none ∧ (fault .nextval = none ∧ fault .setval = none) ∧
    ∀ row ∈ new, fault (.copy (t.idOf row)) = none
  commit : fault .commit = none

/-- When a run succeeds, and what it leaves. -/
theorem snapshotCopyTable_eq_ok {new : List β} (hnew : new = t.newRows records (s.lastValue + 1))
    {u : Unit} :
    (snapshotCopyTable t fault records dataset).run s = (.ok u, s') ↔
      Quiet t fault new ∧ (∀ row ∈ new, ∀ r ∈ t.keptRows dataset s.rows, ¬ t.clash row r) ∧
        new.Pairwise (fun r row => ¬ t.clash row r) ∧
        s' = ⟨t.keptRows dataset s.rows ++ new, s.lastValue + records.length⟩ := by
  rw [snapshotCopyTable, run_atomically_eq_ok]
  simp only [run_bind_eq_ok, run_raise_eq_ok, deleteRows_eq_ok]
  cases records with
  | nil =>
      obtain rfl : new = [] := hnew
      simp only [List.isEmpty_nil, if_true, run_raise_eq_ok, List.length_nil, Nat.cast_zero,
        add_zero, List.append_nil]
      constructor
      · rintro ⟨_, _, ⟨hb, rfl⟩, _, _, ⟨hd, rfl⟩, hc, rfl⟩
        exact ⟨⟨hb, hd, fun h => absurd rfl h, hc⟩, nofun, .nil, rfl⟩
      · rintro ⟨h, _, _, rfl⟩
        exact ⟨(), _, ⟨h.begin, rfl⟩, (), _, ⟨h.delete, rfl⟩, h.commit, rfl⟩
  | cons a records =>
      have hne : new ≠ [] := by
        rw [hnew]
        exact List.cons_ne_nil _ _
      simp only [List.isEmpty_cons, Bool.false_eq_true, if_false, run_bind_eq_ok, run_raise_eq_ok,
        reserveIdRange_eq_ok, copyRecordsToTable_eq_ok]
      constructor
      · rintro ⟨_, _, ⟨hb, rfl⟩, _, _, ⟨hd, rfl⟩, _, _, ⟨hraw, rfl⟩, _, _, ⟨hseq, rfl, rfl⟩, _, _,
          ⟨hcopy, hclash, hpair, rfl⟩, hc, rfl⟩
        rw [hnew]
        exact ⟨⟨hb, hd, fun _ => ⟨hraw, hseq, hcopy⟩, hc⟩, hclash, hpair, rfl⟩
      · rintro ⟨h, hclash, hpair, rfl⟩
        obtain ⟨hraw, hseq, hcopy⟩ := h.copy hne
        rw [hnew] at hcopy hclash hpair ⊢
        exact ⟨(), _, ⟨h.begin, rfl⟩, (), _, ⟨h.delete, rfl⟩, (), _, ⟨hraw, rfl⟩, _, _,
          ⟨hseq, rfl, rfl⟩, (), _, ⟨hcopy, hclash, hpair, rfl⟩, h.commit, rfl⟩

/-- Whatever raises, the rows are those before. -/
theorem snapshotCopyTable_error {e : PyError}
    (h : (snapshotCopyTable t fault records dataset).run s = (.error e, s')) :
    s'.rows = s.rows := by
  obtain ⟨_, rfl⟩ := run_atomically_error h
  rfl

structure Table.Admits (t : Table α β) (dataset : String) (records : List α) : Prop where
  of_dataset : ∀ a ∈ records, t.datasetOf a = dataset
  apart : records.Pairwise (fun a b => ¬ t.conflicts b a)

theorem newRows_map (t : Table α β) (records : List α) (firstId : ℤ) :
    (t.newRows records firstId).map (fun r => (t.idOf r, t.toRecord r)) =
      IdRanges.recordsWithIds records firstId := by
  simp only [Table.newRows, List.map_map, Function.comp_def, t.idOf_withId, t.toRecord_withId,
    Prod.mk.eta, List.map_id']

theorem newRows_mem {firstId : ℤ} {row : β} (h : row ∈ t.newRows records firstId) :
    t.toRecord row ∈ records ∧ firstId ≤ t.idOf row ∧ t.idOf row ≤ firstId + records.length - 1 := by
  have hmem : (t.idOf row, t.toRecord row) ∈ IdRanges.recordsWithIds records firstId := by
    rw [← newRows_map t]
    exact List.mem_map_of_mem h
  refine ⟨?_, (IdRanges.mem_records_iff ⟨firstId, records⟩ _).1 (List.mem_map_of_mem hmem)⟩
  obtain ⟨p, hp, heq⟩ := List.mem_map.1 hmem
  rw [← (Prod.mk.inj heq).2]
  exact (List.mem_zipIdx' hp).2 ▸ List.getElem_mem _

theorem newRows_nodup (t : Table α β) (records : List α) (firstId : ℤ) :
    ((t.newRows records firstId).map t.idOf).Nodup := by
  have hmap : (t.newRows records firstId).map t.idOf =
      (IdRanges.recordsWithIds records firstId).map Prod.fst := by
    rw [← newRows_map t, List.map_map]
    rfl
  rw [hmap]
  exact IdRanges.nodup_records ⟨firstId, records⟩

theorem newRows_toRecord (t : Table α β) (records : List α) (firstId : ℤ) :
    (t.newRows records firstId).map t.toRecord = records := by
  have hsnd := congrArg (List.map Prod.snd) (newRows_map t records firstId)
  rw [List.map_map, IdRanges.recordsWithIds, List.map_map] at hsnd
  exact hsnd.trans (List.zipIdx_map_fst 0 records)

theorem newRows_apart (h : t.Admits dataset records) (firstId : ℤ) :
    (t.newRows records firstId).Pairwise (fun r row => ¬ t.clash row r) := by
  have hapart := h.apart
  rw [← newRows_toRecord t records firstId, List.pairwise_map] at hapart
  have hids := newRows_nodup t records firstId
  rw [List.Nodup, List.pairwise_map] at hids
  apply (hapart.and hids).imp
  intro r row hne hclash
  rcases of_decide_eq_true hclash with hid | hconflict
  · exact hne.2 hid.symm
  · exact hne.1 hconflict

theorem keptRows_mem {rows : List β} {r : β} :
    r ∈ t.keptRows dataset rows ↔ r ∈ rows ∧ t.datasetOf (t.toRecord r) ≠ dataset := by
  simp [Table.keptRows, Table.IsOf]

/-- A new row clashes with a row of another dataset only by its id. -/
theorem clash_kept_iff (h : t.Admits dataset records) {firstId : ℤ} {rows : List β} {row r : β}
    (hrow : row ∈ t.newRows records firstId) (hr : r ∈ t.keptRows dataset rows) :
    t.clash row r ↔ t.idOf row = t.idOf r := by
  have hof := h.of_dataset _ (newRows_mem hrow).1
  have hother := (keptRows_mem.1 hr).2
  simp only [Table.clash, decide_eq_true_eq, or_iff_left_iff_imp]
  intro hconflict
  rw [t.conflicts_dataset _ _ hconflict] at hof
  exact absurd hof hother

/-- Keys of records with their dataset stay unique in the table, which need not enforce them. -/
theorem snapshotCopyTable_keys {κ : Type} {key : α → κ}
    (hkey : ∀ a b, key a = key b → t.datasetOf a = t.datasetOf b)
    (hrecords : (records.map key).Nodup) (hof : ∀ a ∈ records, t.datasetOf a = dataset)
    (hs : (s.rows.map (fun r => key (t.toRecord r))).Nodup) :
    Ends (snapshotCopyTable t fault records dataset) s
      (fun _ s' => (s'.rows.map (fun r => key (t.toRecord r))).Nodup)
      (fun s' => (s'.rows.map (fun r => key (t.toRecord r))).Nodup) := by
  unfold Ends
  rcases hrun : (snapshotCopyTable t fault records dataset).run s with ⟨e | u, s'⟩
  · have hrows := snapshotCopyTable_error hrun
    dsimp only
    rwa [hrows]
  · obtain ⟨_, _, _, rfl⟩ := (snapshotCopyTable_eq_ok rfl).1 hrun
    have hnew : (t.newRows records (s.lastValue + 1)).map (fun r => key (t.toRecord r)) =
        records.map key := by
      have hmap := congrArg (List.map key) (newRows_toRecord t records (s.lastValue + 1))
      rwa [List.map_map] at hmap
    have hkept : ((t.keptRows dataset s.rows).map (fun r => key (t.toRecord r))).Nodup :=
      hs.sublist (List.filter_sublist.map _)
    simp only [List.map_append, hnew]
    refine List.nodup_append.2 ⟨hkept, hrecords, ?_⟩
    rintro _ hr _ ha rfl
    obtain ⟨r, hr, hrkey⟩ := List.mem_map.1 hr
    obtain ⟨a, ha, hakey⟩ := List.mem_map.1 ha
    apply (keptRows_mem.1 hr).2
    rw [hkey _ _ (hrkey.trans hakey.symm), hof a ha]

/-- The rows of the dataset are the records with consecutive ids, beyond the sequence's last value
and of no other row, and the rows of the other datasets are as they were. -/
structure Replaces (t : Table α β) (dataset : String) (records : List α) (s s' : State β) :
    Prop where
  rows : (s'.rows.filter (t.IsOf dataset)).map (fun r => (t.idOf r, t.toRecord r)) =
    IdRanges.recordsWithIds records (s.lastValue + 1)
  fresh : ∀ r ∈ t.keptRows dataset s'.rows,
    ¬ (s.lastValue < t.idOf r ∧ t.idOf r ≤ s.lastValue + records.length)
  others : t.keptRows dataset s'.rows = t.keptRows dataset s.rows

theorem filter_keptRows (t : Table α β) (dataset : String) (rows : List β) :
    (t.keptRows dataset rows).filter (t.IsOf dataset) = [] ∧
      t.keptRows dataset (t.keptRows dataset rows) = t.keptRows dataset rows := by
  simp only [Table.keptRows, List.filter_filter, Bool.and_not_self, Bool.and_self,
    List.filter_false, and_self]

theorem filter_newRows (h : t.Admits dataset records) (firstId : ℤ) :
    (t.newRows records firstId).filter (t.IsOf dataset) = t.newRows records firstId ∧
      t.keptRows dataset (t.newRows records firstId) = [] := by
  have hof : ∀ row ∈ t.newRows records firstId, t.IsOf dataset row := fun row hrow =>
    decide_eq_true (h.of_dataset _ (newRows_mem hrow).1)
  refine ⟨List.filter_eq_self.2 hof, List.filter_eq_nil_iff.2 (fun row hrow => ?_)⟩
  simp [hof row hrow]

theorem replaces_of_ok (h : t.Admits dataset records) {u : Unit}
    (hrun : (snapshotCopyTable t fault records dataset).run s = (.ok u, s')) :
    Replaces t dataset records s s' := by
  obtain ⟨_, hclash, _, rfl⟩ := (snapshotCopyTable_eq_ok rfl).1 hrun
  have hkept := filter_keptRows t dataset s.rows
  have hnew := filter_newRows h (s.lastValue + 1)
  have hothers : t.keptRows dataset (t.keptRows dataset s.rows ++
      t.newRows records (s.lastValue + 1)) = t.keptRows dataset s.rows := by
    have happend : ∀ l l' : List β,
        t.keptRows dataset (l ++ l') = t.keptRows dataset l ++ t.keptRows dataset l' :=
      fun l l' => List.filter_append l l'
    rw [happend, hkept.2, hnew.2, List.append_nil]
  refine ⟨?_, fun r hr hid => ?_, hothers⟩
  · rw [List.filter_append, hkept.1, hnew.1, List.nil_append]
    exact newRows_map t records (s.lastValue + 1)
  · -- Some new row has each id of the range.
    simp only [hothers] at hr
    have hmem : t.idOf r ∈ (IdRanges.recordsWithIds records (s.lastValue + 1)).map Prod.fst := by
      apply (IdRanges.mem_records_iff ⟨s.lastValue + 1, records⟩ _).2
      simp only [IdRanges.Batch.Holds]
      omega
    rw [← newRows_map t, List.map_map] at hmem
    obtain ⟨row, hrow, hrowId⟩ := List.mem_map.1 hmem
    exact hclash row hrow r hr ((clash_kept_iff h hrow hr).2 hrowId)

/-- Where no statement raises of itself and no other row has an id of the range, the copy does not
raise: the records do not violate a unique constraint. -/
theorem ok_of_quiet (h : t.Admits dataset records) (hquiet : ∀ st, fault st = none)
    (hids : ∀ r ∈ t.keptRows dataset s.rows,
      ¬ (s.lastValue < t.idOf r ∧ t.idOf r ≤ s.lastValue + records.length)) :
    ∃ s', (snapshotCopyTable t fault records dataset).run s = (.ok (), s') := by
  refine ⟨_, (snapshotCopyTable_eq_ok rfl).2 ⟨?_, fun row hrow r hr hclash => ?_,
    newRows_apart h _, rfl⟩⟩
  · exact ⟨hquiet _, hquiet _, fun _ => ⟨hquiet _, ⟨hquiet _, hquiet _⟩, fun _ _ => hquiet _⟩,
      hquiet _⟩
  · have hid := (clash_kept_iff h hrow hr).1 hclash
    obtain ⟨_, hfirst, hlast⟩ := newRows_mem hrow
    apply hids r hr
    omega

end SimplyTransport.SnapshotCopy
