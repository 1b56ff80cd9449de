import SimplyTransport.DatasetImports
import SimplyTransport.SnapshotCopy

/-!
# `CopyImporter.import_data`

The secondary indexes are dropped, the lines of the file are read and copied in batches, and the
indexes are created again whatever happened. Each statement on the raw connection commits by
itself, and a `COPY` inserts all of its records or none. Opening the file, reading a line, making
a record of it and every statement but those that create indexes may raise.
-/

namespace SimplyTransport.CopyImport
open Transaction

/-- What the CSV reader makes of a file: its lines, or what it raises at one of them. -/
abbrev CsvLines := List (Except PyError (List String))

/-- An importer and its table. A record is a row that wants its id, where the ids are from a
sequence. `keyOf` is the primary key. -/
structure CopyImporter (κ β : Type) where
  tableName : String
  csvFields : List String
  recordFromRow : CsvRow → Except PyError (ℤ → β)
  idSequence : Option String
  batchsize : ℕ+
  secondaryIndexes : List String
  keyOf : β → κ

section Importers

variable {φ : Type} (pyFloat : String → Except PyError φ) (dataset : String) (batchsize : ℕ+)

def tripImporter : CopyImporter String TripModel where
  tableName := "trip"
  csvFields := tripCsvFields
  recordFromRow row := keyed (tripRecord dataset row)
  idSequence := none
  batchsize := batchsize
  secondaryIndexes :=
    ["ix_trip_route_id", "ix_trip_service_id", "ix_trip_shape_id", "ix_trip_dataset"]
  keyOf r := r.id

def shapeImporter : CopyImporter ℤ (ShapeModel φ) where
  tableName := "shape"
  csvFields := shapeCsvFields
  recordFromRow := shapeRecord pyFloat dataset
  idSequence := some "shape_id_seq"
  batchsize := batchsize
  secondaryIndexes := ["ix_shape_shape_id_sequence"]
  keyOf r := r.id

def stopTimeImporter : CopyImporter ℤ StopTimeModel where
  tableName := "stop_time"
  csvFields := stopTimeCsvFields
  recordFromRow := stopTimeRecord dataset
  idSequence := some "stop_time_id_seq"
  batchsize := batchsize
  secondaryIndexes := ["ix_stop_time_trip_id", "ix_stop_time_stop_id"]
  keyOf r := r.id

end Importers

/-- The table with the sequence of its ids, and the indexes that exist. -/
structure Database (β : Type) where
  table : SnapshotCopy.State β
  indexes : List String

structure State (β : Type) extends Database β where
  rowsImported : ℕ

inductive Statement
  | dropIndex (name : String)
  | connect
  | openFile
  | reserve (statement : SnapshotCopy.Statement)
  | copy

def nextLine : CsvLines → Except PyError (List String)
  | [] => .error .stopIteration
  | line :: _ => line

namespace CopyImporter

section Program

variable {κ β : Type} [DecidableEq κ] (t : CopyImporter κ β)
  (fault : Statement → State β → Option PyError)

def execute (statement : Statement) : Prog PyError (State β) Unit := do
  let s ← read id
  raise? (fault statement s)

def dropIndexes : List String → Prog PyError (State β) Unit
  | [] => pure ()
  | index :: indexes => do
    execute fault (.dropIndex index)
    update (fun s => { s with indexes := s.indexes.filter (fun name => name ≠ index) })
    dropIndexes indexes

def dropSecondaryIndexes : Prog PyError (State β) Unit :=
  atomically (fun s _ => s) (dropIndexes fault t.secondaryIndexes)

def createIndex (index : String) (s : State β) : State β :=
  if index ∈ s.indexes then s else { s with indexes := s.indexes ++ [index] }

def createIndexes : List String → Prog PyError (State β) Unit
  | [] => pure ()
  | index :: indexes => do
    update (createIndex index)
    createIndexes indexes

def createSecondaryIndexes : Prog PyError (State β) Unit := createIndexes t.secondaryIndexes

def reserveIdRange (count : ℕ) : Prog PyError (State β) ℤ := do
  let s ← read id
  zoom (fun s => s.table) (fun s table => { s with table := table })
    (SnapshotCopy.reserveIdRange (fun statement => fault (.reserve statement) s) count)

def copyRecordsToTable (rows : List β) : Prog PyError (State β) Unit := do
  execute fault .copy
  let s ← read id
  raise? (if ((s.table.rows ++ rows).map t.keyOf).Nodup then none else some .integrityError)
  update (fun s => { s with table := { s.table with rows := s.table.rows ++ rows } })

def copyBatch (batch : List (ℤ → β)) : Prog PyError (State β) Unit :=
  match t.idSequence with
  | none => copyRecordsToTable t fault (batch.map (fun record => record 0))
  | some _ => do
    let firstId ← reserveIdRange fault batch.length
    copyRecordsToTable t fault
      ((IdRanges.recordsWithIds batch firstId).map (fun p => p.2 p.1))

def copyRows (col : List (String × ℕ)) : CsvLines → List (ℤ → β) → Prog PyError (State β) Unit
  | [], batch => if batch.isEmpty then pure () else copyBatch t fault batch
  | line :: lines, batch => do
    let row ← ofExcept line
    let record ← ofExcept (t.recordFromRow (copyRow col row))
    let batch := batch ++ [record]
    update (fun s => { s with rowsImported := s.rowsImported + 1 })
    if batch.length ≥ t.batchsize then do
      copyBatch t fault batch
      copyRows col lines []
    else copyRows col lines batch

def copyFile (file : CsvLines) : Prog PyError (State β) Unit := do
  execute fault .connect
  execute fault .openFile
  let header ← ofExcept (nextLine file)
  let col ← ofExcept (csvColumnIndexes header t.csvFields)
  copyRows t fault col file.tail []

/-- `file` is what is under the importer's file path, where it has one. -/
def importData (file : Option CsvLines) : Prog PyError (State β) Unit :=
  match file with
  | none => raise? (some .valueError)
  | some file => tryFinally
    (do
      dropSecondaryIndexes t fault
      copyFile t fault file)
    (createSecondaryIndexes t)

end Program

section Specification

variable {κ β : Type} (t : CopyImporter κ β)

def recordOf (file : CsvLines) (line : Except PyError (List String)) :
    Except PyError (ℤ → β) := do
  let header ← nextLine file
  let col ← csvColumnIndexes header t.csvFields
  let row ← line
  t.recordFromRow (copyRow col row)

def recordsOf (file : CsvLines) (count : ℕ) : Except PyError (List (ℤ → β)) :=
  (file.tail.take count).mapM (t.recordOf file)

/-- The rows of records; their ids are `firstId` and those after it, if they are from a
sequence. -/
def place (firstId : ℤ) (records : List (ℤ → β)) : List β :=
  match t.idSequence with
  | none => records.map (fun record => record 0)
  | some _ => (IdRanges.recordsWithIds records firstId).map (fun p => p.2 p.1)

/-- The table has the records of whole batches from the start of the file, after what it had. -/
def WholeBatches (file : CsvLines) (before table : SnapshotCopy.State β) : Prop :=
  ∃ k records, t.recordsOf file (k * t.batchsize) = .ok records ∧
    records.length = k * t.batchsize ∧
    table.rows = before.rows ++ t.place (before.lastValue + 1) records

def HasFields (file : CsvLines) : Prop :=
  ∃ header col, nextLine file = .ok header ∧ csvColumnIndexes header t.csvFields = .ok col

def WholeFile (file : CsvLines) (before table : SnapshotCopy.State β) : Prop :=
  t.HasFields file ∧ ∃ records, t.recordsOf file file.tail.length = .ok records ∧
    table.rows = before.rows ++ t.place (before.lastValue + 1) records

def Indexed (before s : Database β) : Prop :=
  ∀ name, name ∈ s.indexes ↔ name ∈ before.indexes ∨ name ∈ t.secondaryIndexes

/-- The lines of a file that the CSV reader can read to its end. -/
def linesOf (file : CsvFile) : CsvLines := .ok file.header :: file.rows.map .ok

theorem recordsOf_linesOf {t : CopyImporter κ β} {file : CsvFile} {col : List (String × ℕ)}
    (hcol : csvColumnIndexes file.header t.csvFields = .ok col) (count : ℕ) :
    t.recordsOf (linesOf file) count =
      (file.rows.take count).mapM (fun row => t.recordFromRow (copyRow col row)) := by
  rw [recordsOf, linesOf, List.tail_cons, ← List.map_take, List.mapM_map]
  apply mapM_congr
  intro row _
  simp only [Function.comp_apply, recordOf, nextLine, hcol, bind, Except.bind]

end Specification

section Copy

variable {κ β : Type} {t : CopyImporter κ β} {fault : Statement → State β → Option PyError}
  {s : State β} {file : CsvLines}

theorem recordsWithIds_append (xs ys : List (ℤ → β)) (firstId : ℤ) :
    IdRanges.recordsWithIds (xs ++ ys) firstId =
      IdRanges.recordsWithIds xs firstId ++ IdRanges.recordsWithIds ys (firstId + xs.length) := by
  simp only [IdRanges.recordsWithIds, List.zipIdx_append, List.map_append, zero_add]
  congr 1
  rw [List.zipIdx_eq_map_add (i := xs.length), List.map_map]
  apply List.map_congr_left
  intro p _
  simp only [Function.comp_apply, Nat.cast_add, Prod.mk.injEq, and_true]
  omega

theorem place_append (xs ys : List (ℤ → β)) (firstId : ℤ) :
    t.place firstId (xs ++ ys) = t.place firstId xs ++ t.place (firstId + xs.length) ys := by
  unfold place
  cases t.idSequence with
  | none => exact List.map_append
  | some _ =>
      dsimp only
      rw [recordsWithIds_append, List.map_append]

theorem ends_execute {statement : Statement} {Q : Unit → State β → Prop} {R : State β → Prop}
    (hQ : Q () s) (hR : R s) : Ends (execute fault statement) s Q R :=
  ends_bind (ends_read (ends_raise (fun _ => hQ) hR))

theorem ends_reserveIdRange {count : ℕ} :
    Ends (reserveIdRange fault count) s
      (fun firstId s' => firstId = s.table.lastValue + 1 ∧
        s' = { s with table := ⟨s.table.rows, s.table.lastValue + count⟩ })
      (fun s' => s'.table.rows = s.table.rows ∧ s'.indexes = s.indexes) := by
  refine ends_bind (ends_read (ends_zoom ?_))
  refine ends_bind (ends_raise (fun _ => ?_) ⟨rfl, rfl⟩)
  refine ends_bind (ends_update (ends_bind (ends_read ?_)))
  refine ends_bind (ends_raise (fun _ => ?_) ⟨rfl, rfl⟩)
  refine ends_bind (ends_update (ends_pure ⟨?_, ?_⟩))
  · dsimp only [id, IdRanges.reserveIdRange]
    omega
  · simp only [State.mk.injEq, Database.mk.injEq, SnapshotCopy.State.mk.injEq, true_and,
      and_true]
    omega

/-- The loop has copied `committed`, whole batches of records. -/
structure Copied (t : CopyImporter κ β) (before table : SnapshotCopy.State β)
    (committed : List (ℤ → β)) : Prop where
  rows : table.rows = before.rows ++ t.place (before.lastValue + 1) committed
  next_id : ∀ later, t.place (table.lastValue + 1) later =
    t.place (before.lastValue + 1 + committed.length) later
  whole : (t.batchsize : ℕ) ∣ committed.length

abbrev Read (t : CopyImporter κ β) (file done : CsvLines) (records : List (ℤ → β)) : Prop :=
  List.Forall₂ (fun line record => t.recordOf file line = .ok record) done records

variable {before table table' : SnapshotCopy.State β} {committed batch : List (ℤ → β)}

theorem copied_nil : Copied t before before [] where
  rows := by
    unfold place
    cases t.idSequence with
    | none => exact (List.append_nil _).symm
    | some _ => exact (List.append_nil _).symm
  next_id later := by rw [List.length_nil, Nat.cast_zero, add_zero]
  whole := dvd_zero _

theorem Copied.wholeBatches {done lines : CsvLines} (hs : Copied t before table committed)
    (hfile : file.tail = done ++ lines) (hdone : Read t file done (committed ++ batch))
    (hrows : table'.rows = table.rows) : t.WholeBatches file before table' := by
  obtain ⟨k, hk⟩ := hs.whole
  rw [Nat.mul_comm] at hk
  refine ⟨k, committed, ?_, hk, hrows.trans hs.rows⟩
  have hle : committed.length ≤ done.length := by
    rw [hdone.length_eq, List.length_append]
    omega
  have htake := List.forall₂_take committed.length hdone
  rw [List.take_left] at htake
  rw [recordsOf, ← hk, hfile, List.take_append_of_le_length hle]
  exact mapM_of_forall₂ htake

theorem Copied.rows_append (hs : Copied t before table committed)
    (hrows : table'.rows = table.rows ++ t.place (table.lastValue + 1) batch) :
    table'.rows = before.rows ++ t.place (before.lastValue + 1) (committed ++ batch) := by
  rw [hrows, hs.rows, hs.next_id, place_append, List.append_assoc]

theorem Copied.append (hs : Copied t before table committed)
    (hbatch : batch.length = t.batchsize)
    (hrows : table'.rows = table.rows ++ t.place (table.lastValue + 1) batch)
    (hnext : ∀ later, t.place (table'.lastValue + 1) later =
      t.place (table.lastValue + 1 + batch.length) later) :
    Copied t before table' (committed ++ batch) where
  rows := hs.rows_append hrows
  next_id later := by
    have hboth := hs.next_id (batch ++ later)
    rw [place_append, place_append, hs.next_id] at hboth
    rw [hnext, List.append_cancel_left hboth, List.length_append, Nat.cast_add, add_assoc]
  whole := by
    rw [List.length_append, hbatch]
    exact hs.whole.add (dvd_refl _)

variable [DecidableEq κ]

theorem ends_copyRecordsToTable {rows : List β} :
    Ends (t.copyRecordsToTable fault rows) s
      (fun _ s' => s' = { s with table := { s.table with rows := s.table.rows ++ rows } })
      (fun s' => s' = s) :=
  ends_bind (ends_execute (ends_bind (ends_read (ends_bind (ends_raise (fun _ => ends_update rfl)
    rfl)))) rfl)

/-- A batch is copied behind the rows of the table, or the rows stay. -/
theorem ends_copyBatch {batch : List (ℤ → β)} :
    Ends (t.copyBatch fault batch) s
      (fun _ s' => s'.table.rows = s.table.rows ++ t.place (s.table.lastValue + 1) batch ∧
        (∀ later, t.place (s'.table.lastValue + 1) later =
          t.place (s.table.lastValue + 1 + batch.length) later) ∧
        s'.indexes = s.indexes ∧ s'.rowsImported = s.rowsImported)
      (fun s' => s'.table.rows = s.table.rows ∧ s'.indexes = s.indexes) := by
  unfold copyBatch place
  cases t.idSequence with
  | none =>
      refine ends_copyRecordsToTable.mono ?_ ?_
      · rintro _ _ rfl
        exact ⟨rfl, fun _ => rfl, rfl, rfl⟩
      · rintro _ rfl
        exact ⟨rfl, rfl⟩
  | some _ =>
      refine ends_reserveIdRange.bind ?_
      rintro _ _ ⟨rfl, rfl⟩
      refine ends_copyRecordsToTable.mono ?_ ?_
      · rintro _ _ rfl
        refine ⟨rfl, fun later => ?_, rfl, rfl⟩
        dsimp only
        rw [add_right_comm]
      · rintro _ rfl
        exact ⟨rfl, rfl⟩

theorem ends_copyRows {imported : ℕ} {header : List String} {col : List (String × ℕ)}
    (hheader : nextLine file = .ok header) (hcol : csvColumnIndexes header t.csvFields = .ok col)
    {lines done : CsvLines} (hfile : file.tail = done ++ lines)
    (hdone : Read t file done (committed ++ batch)) (hbatch : batch.length < t.batchsize)
    (hs : Copied t before s.table committed)
    (himported : s.rowsImported = imported + done.length) :
    Ends (t.copyRows fault col lines batch) s
      (fun _ s' => t.WholeFile file before s'.table ∧
        s'.rowsImported = imported + file.tail.length ∧ s'.indexes = s.indexes)
      (fun s' => t.WholeBatches file before s'.table ∧ s'.indexes = s.indexes) := by
  have hfields : t.HasFields file := ⟨header, col, hheader, hcol⟩
  induction lines generalizing s done committed batch with
  | nil =>
      have hread : done = file.tail := by rw [hfile, List.append_nil]
      have hall : t.recordsOf file file.tail.length = .ok (committed ++ batch) := by
        rw [recordsOf, List.take_length, ← hread]
        exact mapM_of_forall₂ hdone
      rw [hread] at himported
      unfold copyRows
      split_ifs with hempty
      · rw [List.isEmpty_iff.1 hempty, List.append_nil] at hall
        exact ends_pure ⟨⟨hfields, committed, hall, hs.rows⟩, himported, rfl⟩
      · refine ends_copyBatch.mono ?_ ?_
        · rintro _ s' ⟨hrows, _, hindexes, hrest⟩
          exact ⟨⟨hfields, _, hall, hs.rows_append hrows⟩, hrest.trans himported, hindexes⟩
        · rintro s' ⟨hrows, hindexes⟩
          exact ⟨hs.wholeBatches hfile hdone hrows, hindexes⟩
  | cons line lines ih =>
      have hraise := hs.wholeBatches hfile hdone rfl
      refine ends_bind (ends_ofExcept (fun row hrow => ?_) ⟨hraise, rfl⟩)
      refine ends_bind (ends_ofExcept (fun record hrecord => ?_) ⟨hraise, rfl⟩)
      have hnext : file.tail = (done ++ [line]) ++ lines := by
        rw [hfile, List.append_assoc, List.singleton_append]
      have hread : Read t file (done ++ [line]) (committed ++ (batch ++ [record])) := by
        rw [← List.append_assoc]
        refine List.rel_append hdone (.cons ?_ .nil)
        simp only [recordOf, hheader, hcol, hrow, hrecord, bind, Except.bind]
      have hcount : s.rowsImported + 1 = imported + (done ++ [line]).length := by
        rw [himported, List.length_append, List.length_singleton, add_assoc]
      refine ends_bind (ends_update ?_)
      split_ifs with hfull
      · refine ends_bind (ends_copyBatch.mono ?_ ?_)
        · rintro _ s' ⟨hrows, hids, hindexes, hrest⟩
          have hlength : (batch ++ [record]).length = t.batchsize := by
            rw [List.length_append, List.length_singleton] at hfull ⊢
            omega
          rw [← List.append_nil (committed ++ (batch ++ [record]))] at hread
          refine (ih hnext hread t.batchsize.pos (hs.append hlength hrows hids)
            (hrest.trans hcount)).mono ?_ ?_
          · rintro _ s'' ⟨hwhole, himported', hindexes'⟩
            exact ⟨hwhole, himported', hindexes'.trans hindexes⟩
          · rintro s'' ⟨hwhole, hindexes'⟩
            exact ⟨hwhole, hindexes'.trans hindexes⟩
        · rintro s' ⟨hrows, hindexes⟩
          exact ⟨hs.wholeBatches hfile hdone hrows, hindexes⟩
      · exact ih hnext hread (not_le.1 hfull) hs hcount

theorem ends_copyFile :
    Ends (t.copyFile fault file) s
      (fun _ s' => t.WholeFile file s.table s'.table ∧
        s'.rowsImported = s.rowsImported + file.tail.length ∧ s'.indexes = s.indexes)
      (fun s' => t.WholeBatches file s.table s'.table ∧ s'.indexes = s.indexes) := by
  have hraise : t.WholeBatches file s.table s.table ∧ s.indexes = s.indexes :=
    ⟨copied_nil.wholeBatches (List.nil_append _).symm .nil rfl, rfl⟩
  refine ends_bind (ends_execute ?_ hraise)
  refine ends_bind (ends_execute ?_ hraise)
  refine ends_bind (ends_ofExcept (fun header hheader => ?_) hraise)
  refine ends_bind (ends_ofExcept (fun col hcol => ?_) hraise)
  exact ends_copyRows hheader hcol (List.nil_append _).symm .nil t.batchsize.pos copied_nil rfl

end Copy

section Indexes

variable {κ β : Type} {t : CopyImporter κ β} {fault : Statement → State β → Option PyError}
  {s : State β}

theorem ends_dropIndexes {indexes : List String} {R : State β → Prop} (hR : ∀ s, R s) :
    Ends (dropIndexes fault indexes) s
      (fun _ s' => s'.table = s.table ∧ s'.rowsImported = s.rowsImported ∧
        ∀ name ∉ indexes, name ∈ s'.indexes ↔ name ∈ s.indexes) R := by
  induction indexes generalizing s with
  | nil => exact ends_pure ⟨rfl, rfl, fun _ _ => Iff.rfl⟩
  | cons index indexes ih =>
      refine ends_bind (ends_execute (ends_bind (ends_update (ih.mono ?_ (fun _ h => h)))) (hR s))
      rintro _ s' ⟨htable, himported, hnames⟩
      refine ⟨htable, himported, fun name hname => ?_⟩
      rw [List.mem_cons, not_or] at hname
      rw [hnames name hname.2, List.mem_filter, decide_eq_true_eq, and_iff_left hname.1]

theorem ends_dropSecondaryIndexes :
    Ends (dropSecondaryIndexes t fault) s
      (fun _ s' => s'.table = s.table ∧ s'.rowsImported = s.rowsImported ∧
        ∀ name ∉ t.secondaryIndexes, name ∈ s'.indexes ↔ name ∈ s.indexes)
      (fun s' => s' = s) :=
  ends_atomically (ends_dropIndexes (fun _ => rfl))

theorem mem_createIndex {index name : String} :
    name ∈ (createIndex index s).indexes ↔ name = index ∨ name ∈ s.indexes := by
  unfold createIndex
  split_ifs with h
  · exact ⟨Or.inr, fun hname => hname.elim (fun heq => heq ▸ h) id⟩
  · rw [List.mem_append, List.mem_singleton, or_comm]

theorem ends_createIndexes {indexes : List String} {R : State β → Prop} :
    Ends (createIndexes indexes) s
      (fun _ s' => s'.table = s.table ∧ s'.rowsImported = s.rowsImported ∧
        ∀ name, name ∈ s'.indexes ↔ name ∈ s.indexes ∨ name ∈ indexes) R := by
  induction indexes generalizing s with
  | nil => exact ends_pure ⟨rfl, rfl, fun _ => by simp⟩
  | cons index indexes ih =>
      refine ends_bind (ends_update (ih.mono ?_ (fun _ h => h)))
      rintro _ s' ⟨htable, himported, hnames⟩
      have hrest : (createIndex index s).table = s.table ∧
          (createIndex index s).rowsImported = s.rowsImported := by
        unfold createIndex
        split_ifs
        · exact ⟨rfl, rfl⟩
        · exact ⟨rfl, rfl⟩
      refine ⟨htable.trans hrest.1, himported.trans hrest.2, fun name => ?_⟩
      rw [hnames, mem_createIndex, List.mem_cons]
      tauto

end Indexes

section ImportData

variable {κ β : Type} [DecidableEq κ] {t : CopyImporter κ β}
  {fault : Statement → State β → Option PyError}

/-- The bracket around `_copy_file` keeps assertions on the table and on the rows imported. -/
theorem ends_importData {file : CsvLines} {before : Database β}
    {Q R : SnapshotCopy.State β → ℕ → Prop} (hdrop : R before.table 0)
    (hcopy : ∀ s : State β, s.table = before.table → s.rowsImported = 0 →
      Ends (t.copyFile fault file) s
        (fun _ s' => Q s'.table s'.rowsImported ∧ s'.indexes = s.indexes)
        (fun s' => R s'.table s'.rowsImported ∧ s'.indexes = s.indexes)) :
    Ends (t.importData fault (some file)) ⟨before, 0⟩
      (fun _ s => Q s.table s.rowsImported ∧ t.Indexed before s.toDatabase)
      (fun s => R s.table s.rowsImported ∧ t.Indexed before s.toDatabase) := by
  have hcreate : ∀ {P : SnapshotCopy.State β → ℕ → Prop} {R' : State β → Prop} (s : State β),
      P s.table s.rowsImported →
      (∀ name ∉ t.secondaryIndexes, name ∈ s.indexes ↔ name ∈ before.indexes) →
      Ends (createSecondaryIndexes t) s
        (fun _ s' => P s'.table s'.rowsImported ∧ t.Indexed before s'.toDatabase) R' := by
    intro P R' s hP hkept
    refine ends_createIndexes.mono ?_ (fun _ h => h)
    rintro _ s' ⟨htable, himported, hnames⟩
    rw [htable, himported]
    refine ⟨hP, fun name => ?_⟩
    rw [hnames]
    by_cases hname : name ∈ t.secondaryIndexes
    · simp only [hname, or_true]
    · simp only [hname, or_false, hkept name hname]
  refine ends_tryFinally (ends_bind (ends_dropSecondaryIndexes.mono ?_ ?_))
  · rintro _ s ⟨htable, himported, hkept⟩
    refine (hcopy s htable himported).mono ?_ ?_
    · rintro _ s' ⟨hQ, hindexes⟩
      exact hcreate s' hQ (fun name hname => hindexes ▸ hkept name hname)
    · rintro s' ⟨hR, hindexes⟩
      exact hcreate s' hR (fun name hname => hindexes ▸ hkept name hname)
  · rintro s rfl
    exact hcreate _ hdrop (fun _ _ => Iff.rfl)

/-- Whatever fails, whole batches are in the table, in the order of the file and with consecutive
ids; an import that returns has copied and counted every row; the indexes exist again. -/
theorem copy_import_commits_whole_batches (t : CopyImporter κ β)
    (fault : Statement → State β → Option PyError) (file : CsvLines) (before : Database β) :
    Ends (t.importData fault (some file)) ⟨before, 0⟩
      (fun _ s => (t.WholeFile file before.table s.table ∧ s.rowsImported = file.tail.length) ∧
        t.Indexed before s.toDatabase)
      (fun s => t.WholeBatches file before.table s.table ∧ t.Indexed before s.toDatabase) := by
  refine ends_importData (Q := fun table imported =>
    t.WholeFile file before.table table ∧ imported = file.tail.length)
    (R := fun table _ => t.WholeBatches file before.table table) ?_ ?_
  · exact copied_nil.wholeBatches (List.nil_append _).symm .nil rfl
  · intro s htable himported
    rw [← htable]
    refine ends_copyFile.mono ?_ (fun _ h => h)
    rintro _ s' ⟨hwhole, hcount, hindexes⟩
    exact ⟨⟨hwhole, by rw [hcount, himported, Nat.zero_add]⟩, hindexes⟩

-- The fourth row does not parse: one batch of two is there, and the third row is counted only.
example :
    let points : CopyImporter ℤ (ℤ × String) :=
      { tableName := "point"
        csvFields := ["name"]
        recordFromRow := fun row => do
          let name ← row "name"
          return fun id => (id, name)
        idSequence := some "point_id_seq"
        batchsize := 2
        secondaryIndexes := ["ix_point_name"]
        keyOf := Prod.fst }
    let file := [.ok ["name"], .ok ["a"], .ok ["b"], .ok ["c"], .error .valueError]
    let s := ((points.importData (fun _ _ => none) (some file)).run ⟨⟨⟨[], 6⟩, []⟩, 0⟩).2
    s.table.rows = [(7, "a"), (8, "b")] ∧ s.rowsImported = 3 ∧ s.indexes = ["ix_point_name"] := by
  decide

/-- On a file whose rows are as long as its header, an import commits what the relation says of the
importer `i`, at whatever statement it fails. -/
def Imports (t : CopyImporter κ β) (i : Importer (ℤ → β)) : Prop :=
  ∀ (fault : Statement → State β → Option PyError) (file : CsvFile) (before : Database β),
    Ends (t.importData fault (some (linesOf file))) ⟨before, 0⟩
      (fun _ s => (∃ records, ImportData file i records true ∧
        s.table.rows = before.table.rows ++ t.place (before.table.lastValue + 1) records) ∧
        t.Indexed before s.toDatabase)
      (fun s => (∃ records, ImportData file i records false ∧
        s.table.rows = before.table.rows ++ t.place (before.table.lastValue + 1) records) ∧
        t.Indexed before s.toDatabase)

theorem imports_copy (hsize : (t.batchsize : ℕ) = copyBatchSize) :
    t.Imports (.copy t.csvFields t.recordFromRow) := by
  intro fault file before
  have hraise : ∀ table, t.WholeBatches (linesOf file) before.table table →
      ∃ records, ImportData file (.copy t.csvFields t.recordFromRow) records false ∧
        table.rows = before.table.rows ++ t.place (before.table.lastValue + 1) records := by
    rintro table ⟨k, records, hrecords, -, hrows⟩
    refine ⟨records, ?_, hrows⟩
    cases hcol : csvColumnIndexes file.header t.csvFields with
    | ok col =>
        rw [recordsOf_linesOf hcol, hsize] at hrecords
        exact .copyRaises hcol hrecords
    | error e =>
        have hnone : ∀ line, t.recordOf (linesOf file) line = .error e := fun line => by
          simp only [recordOf, linesOf, nextLine, hcol, bind, Except.bind]
        have hread := forall₂_of_mapM hrecords
        generalize (linesOf file).tail.take (k * t.batchsize) = lines at hread
        cases hread with
        | nil => exact .copyRaisesFirst
        | cons hline _ =>
            rw [hnone] at hline
            cases hline
  refine ends_importData (Q := fun table _ =>
    ∃ records, ImportData file (.copy t.csvFields t.recordFromRow) records true ∧
      table.rows = before.table.rows ++ t.place (before.table.lastValue + 1) records)
    (R := fun table _ =>
    ∃ records, ImportData file (.copy t.csvFields t.recordFromRow) records false ∧
      table.rows = before.table.rows ++ t.place (before.table.lastValue + 1) records) ?_ ?_
  · exact hraise _ (copied_nil.wholeBatches (List.nil_append _).symm .nil rfl)
  · intro s htable _
    rw [← htable] at hraise ⊢
    refine ends_copyFile.mono ?_ (fun s' h => ⟨hraise _ h.1, h.2⟩)
    rintro _ s' ⟨⟨⟨header, col, hheader, hcol⟩, records, hrecords, hrows⟩, -, hindexes⟩
    obtain rfl := Except.ok.inj hheader
    rw [recordsOf_linesOf hcol, linesOf, List.tail_cons, List.length_map, List.take_length]
      at hrecords
    exact ⟨⟨records, .copyReturns (bind_eq_ok.2 ⟨col, hcol, hrecords⟩), hrows⟩, hindexes⟩

end ImportData

section Importers

variable {φ : Type} (pyFloat : String → Except PyError φ) (dataset : String) {batchsize : ℕ+}

/-- The three importers that copy are those of the import of a dataset. -/
theorem importers_import (hsize : (batchsize : ℕ) = copyBatchSize) :
    (tripImporter dataset batchsize).Imports (importer pyFloat dataset .trip) ∧
      (stopTimeImporter dataset batchsize).Imports (importer pyFloat dataset .stopTime) ∧
      (shapeImporter pyFloat dataset batchsize).Imports (importer pyFloat dataset .shape) :=
  ⟨imports_copy hsize, imports_copy hsize, imports_copy hsize⟩

end Importers

end CopyImporter

end SimplyTransport.CopyImport
