import SimplyTransport.DatasetTables
import SimplyTransport.OrmImportQueue
import SimplyTransport.StaticImport

/-!
# Imports of datasets into the static tables

`import_gtfs_dataset` clears and fills the table of each file that exists, one after the other. A
table in which another dataset has rows is cleared by `DELETE`, any other by `TRUNCATE`; the rows
of `stop_feature` that refer to a deleted stop go with it. An insertion that breaks a primary key
fails. The run may raise anywhere, and what is committed until then stays.
-/

namespace SimplyTransport
open Transition

structure StopFeatureRow where
  id : ℤ
  stopId : String
  dataset : String
  deriving DecidableEq

/-- The eight tables and `stop_feature`, whose `stop_id` refers to a stop. -/
structure StaticDb (φ : Type) where
  rows : (t : StaticTable) → List (t.Row φ)
  features : List StopFeatureRow
  keys_nodup : ∀ t, ((rows t).filterMap t.key).Nodup
  feature_stop : ∀ f ∈ features, ∃ s ∈ rows .stop, s.id = f.stopId

theorem noRows_nodup {φ : Type} (t : StaticTable) :
    (([] : List (t.Row φ)).filterMap t.key).Nodup := List.nodup_nil

theorem noFeatures_stop {φ : Type} (f : StopFeatureRow) (hf : f ∈ []) :
    ∃ s ∈ ([] : List (StaticTable.stop.Row φ)), s.id = f.stopId := absurd hf List.not_mem_nil

def StaticDb.empty {φ : Type} : StaticDb φ := ⟨fun _ => [], [], noRows_nodup, noFeatures_stop⟩

inductive ClearStrategy
  | delete
  | truncate
  | truncateCascade
  deriving DecidableEq

def truncateCascadeTables : List String := ["stop"]

def chooseClearStrategy (otherDatasetExists : Bool) (tableName : String) : ClearStrategy :=
  if otherDatasetExists then .delete
  else if tableName ∈ truncateCascadeTables then .truncateCascade
  else .truncate

namespace StaticDb

variable {φ : Type}

/-- The rows of a table are kept where they satisfy `keep`, with features of kept stops. -/
def restrict (db : StaticDb φ) (t : StaticTable) (keep : t.Row φ → Bool)
    (features : List StopFeatureRow) (hsub : features.Sublist db.features)
    (hstop : ∀ f ∈ features, ∀ s ∈ db.rows .stop, s.id = f.stopId →
      s ∈ Function.update db.rows t ((db.rows t).filter keep) .stop) : StaticDb φ where
  rows := Function.update db.rows t ((db.rows t).filter keep)
  features := features
  keys_nodup t' := by
    by_cases ht : t' = t
    · subst ht
      rw [Function.update_self]
      exact (db.keys_nodup t').sublist (List.filter_sublist.filterMap _)
    · rw [Function.update_of_ne ht]
      exact db.keys_nodup t'
  feature_stop f hf := by
    obtain ⟨s, hs, hid⟩ := db.feature_stop f (hsub.subset hf)
    exact ⟨s, hstop f hf s hs hid, hid⟩

theorem restrict_rows_self (db : StaticDb φ) (t : StaticTable) (keep : t.Row φ → Bool)
    (features : List StopFeatureRow) (hsub) (hstop) :
    (db.restrict t keep features hsub hstop).rows t = (db.rows t).filter keep :=
  Function.update_self _ _ _

theorem restrict_rows_of_ne (db : StaticDb φ) {t t' : StaticTable} (ht : t' ≠ t)
    (keep : t.Row φ → Bool) (features : List StopFeatureRow) (hsub) (hstop) :
    (db.restrict t keep features hsub hstop).rows t' = db.rows t' :=
  Function.update_of_ne ht _ _

theorem mem_update_stop {db : StaticDb φ} {t : StaticTable} (ht : t ≠ .stop)
    {l : List (t.Row φ)} {s : StopRow φ} (hs : s ∈ db.rows .stop) :
    s ∈ Function.update db.rows t l .stop := by
  rw [Function.update_of_ne ht.symm]
  exact hs

/-- The features that `ON DELETE CASCADE` leaves when a dataset's rows are deleted. -/
def cascade (db : StaticDb φ) (t : StaticTable) (dataset : String) : List StopFeatureRow :=
  if t = .stop then
    db.features.filter (fun f => ∀ s ∈ db.rows .stop, s.dataset = dataset → s.id ≠ f.stopId)
  else db.features

def delete (db : StaticDb φ) (t : StaticTable) (dataset : String) : StaticDb φ :=
  db.restrict t (fun r => t.dataset r ≠ dataset) (db.cascade t dataset)
    (by
      unfold cascade
      split_ifs
      · exact List.filter_sublist
      · exact List.Sublist.refl _)
    (by
      intro f hf s hs hid
      by_cases ht : t = .stop
      · subst ht
        rw [cascade, if_pos rfl, List.mem_filter, decide_eq_true_eq] at hf
        rw [Function.update_self, List.mem_filter]
        exact ⟨hs, decide_eq_true (fun hd => hf.2 s hs hd hid)⟩
      · exact mem_update_stop ht hs)

/-- `TRUNCATE TABLE table`, which fails where another table refers to it. -/
def truncate (db : StaticDb φ) (t : StaticTable) : Option (StaticDb φ) :=
  if ht : t = .stop then none
  else some (db.restrict t (fun _ => false) db.features (List.Sublist.refl _)
    (fun _ _ _ hs _ => mem_update_stop ht hs))

/-- `TRUNCATE TABLE table CASCADE`, which truncates the tables that refer to it. -/
def truncateCascade (db : StaticDb φ) (t : StaticTable) : StaticDb φ :=
  db.restrict t (fun _ => false) (if t = .stop then [] else db.features)
    (by
      split_ifs
      · exact List.nil_sublist _
      · exact List.Sublist.refl _)
    (by
      intro f hf s hs _
      split_ifs at hf with ht
      · cases hf
      · exact mem_update_stop ht hs)

def otherDatasetExists (db : StaticDb φ) (t : StaticTable) (dataset : String) : Bool :=
  (db.rows t).any (fun r => t.dataset r ≠ dataset)

def clearTable (db : StaticDb φ) (t : StaticTable) (dataset : String) : Option (StaticDb φ) :=
  match chooseClearStrategy (db.otherDatasetExists t dataset) t.tableName with
  | .delete => some (db.delete t dataset)
  | .truncateCascade => some (db.truncateCascade t)
  | .truncate => db.truncate t

/-- The rows are added, unless two rows then have one key. -/
def insert (db : StaticDb φ) (t : StaticTable) (new : List (t.Row φ)) : Option (StaticDb φ) :=
  if h : ((db.rows t ++ new).filterMap t.key).Nodup then some {
    rows := Function.update db.rows t (db.rows t ++ new)
    features := db.features
    keys_nodup t' := by
      by_cases ht : t' = t
      · subst ht
        rw [Function.update_self]
        exact h
      · rw [Function.update_of_ne ht]
        exact db.keys_nodup t'
    feature_stop f hf := by
      obtain ⟨s, hs, hid⟩ := db.feature_stop f hf
      refine ⟨s, ?_, hid⟩
      by_cases ht : t = .stop
      · subst ht
        rw [Function.update_self]
        exact List.mem_append_left _ hs
      · exact mem_update_stop ht hs }
  else none

end StaticDb

def ormBatchsize : ℕ := 10000

def copyBatchSize : ℕ := 50000

/-- `import_data`: the records it has committed when it returns, or raises. The ORM importers
commit in the order of their consumers, the others in that of the file. -/
inductive ImportData {α : Type} (file : CsvFile) : Importer α → List α → Bool → Prop
  | ormReturns {buildModel : CsvRow → Except PyError α} {s : OrmImport.State (List String) α} :
      Run (OrmImport.next (fun row => buildModel (dictRow file.header row)) ormBatchsize)
        (OrmImport.initial file.rows) s →
      s.Completed → ImportData file (.orm buildModel) s.committed true
  | ormRaises {buildModel : CsvRow → Except PyError α} {s : OrmImport.State (List String) α} :
      Run (OrmImport.next (fun row => buildModel (dictRow file.header row)) ormBatchsize)
        (OrmImport.initial file.rows) s →
      ImportData file (.orm buildModel) s.committed false
  | copyReturns {csvFields : List String} {recordFromRow : CsvRow → Except PyError α}
      {records : List α} :
      copyImport file csvFields recordFromRow = .ok records →
      ImportData file (.copy csvFields recordFromRow) records true
  | copyRaises {csvFields : List String} {recordFromRow : CsvRow → Except PyError α}
      {col : List (String × ℕ)} {batches : ℕ} {records : List α} :
      csvColumnIndexes file.header csvFields = .ok col →
      (file.rows.take (batches * copyBatchSize)).mapM (fun row => recordFromRow (copyRow col row)) =
        .ok records →
      ImportData file (.copy csvFields recordFromRow) records false
  | copyRaisesFirst {csvFields : List String} {recordFromRow : CsvRow → Except PyError α} :
      ImportData file (.copy csvFields recordFromRow) [] false

/-- A file of one row is imported through the queue. -/
theorem importData_one {α : Type} {file : CsvFile} {buildModel : CsvRow → Except PyError α}
    {row : List String} {record : α} (hrows : file.rows = [row])
    (hrow : buildModel (dictRow file.header row) = .ok record) :
    ImportData file (.orm buildModel) [record] true := by
  have hfirst : OrmImport.next (fun row => buildModel (dictRow file.header row)) ormBatchsize
      (OrmImport.initial file.rows) .produce =
        some ⟨.loop [] [record] 1, [], fun _ => .getting, [], 1⟩ := by
    simp [OrmImport.next, OrmImport.stepProducer, OrmImport.initial, hrows, hrow, ormBatchsize]
  have hrest : ∃ s, exec (OrmImport.next (fun row => buildModel (dictRow file.header row))
        ormBatchsize) ⟨.loop [] [record] 1, [], fun _ => .getting, [], 1⟩
      [.produce, .produce, .produce, .consume 0, .consume 0, .produce, .produce, .consume 0,
        .consume 1] = some s ∧ s.committed = [record] ∧ s.Completed :=
    ⟨_, rfl, rfl, rfl, Fin.forall_fin_two.2 ⟨rfl, rfl⟩⟩
  obtain ⟨s, hs, hcommitted, hdone⟩ := hrest
  rw [← hcommitted]
  exact .ormReturns ((RunWhile.tail (RunWhile.refl _) trivial hfirst).trans (run_of_exec hs)) hdone

def insertedRows {α : Type} (records : List (ℤ → α)) (serials : List ℤ) : List α :=
  List.zipWith (fun record id => record id) records serials

/-- The tables in the order of `FILES_TO_IMPORT`. -/
def tablesToImport : List StaticTable :=
  [.agency, .calendar, .calendarDate, .route, .stop, .trip, .stopTime, .shape]

section Run

variable {φ : Type} (pyFloat : String → Except PyError φ) (dataset : String)
  (files : StaticTable → Option CsvFile)

/-- The loop over the files, from one database to another; it returns or it raises. -/
inductive ImportTables : List StaticTable → StaticDb φ → StaticDb φ → Bool → Prop
  | nil (db : StaticDb φ) : ImportTables [] db db true
  | skip {t : StaticTable} {ts : List StaticTable} {db db' : StaticDb φ} {returns : Bool} :
      files t = none → ImportTables ts db db' returns → ImportTables (t :: ts) db db' returns
  | fill {t : StaticTable} {ts : List StaticTable} {db cleared filled db' : StaticDb φ}
      {returns : Bool} {file : CsvFile} {records : List (ℤ → t.Row φ)} {serials : List ℤ} :
      files t = some file → db.clearTable t dataset = some cleared →
      ImportData file (importer pyFloat dataset t) records true →
      serials.length = records.length →
      cleared.insert t (insertedRows records serials) = some filled →
      ImportTables ts filled db' returns → ImportTables (t :: ts) db db' returns
  | raise {t : StaticTable} {ts : List StaticTable} {db cleared filled : StaticDb φ}
      {file : CsvFile} {records : List (ℤ → t.Row φ)} {serials : List ℤ} :
      files t = some file → db.clearTable t dataset = some cleared →
      ImportData file (importer pyFloat dataset t) records false →
      serials.length = records.length →
      cleared.insert t (insertedRows records serials) = some filled →
      ImportTables (t :: ts) db filled false
  | raiseFirst {ts : List StaticTable} (db : StaticDb φ) : ImportTables ts db db false

end Run

/-- A run of `import_gtfs_dataset` for some dataset and some of the files, whether it raises or
not. -/
def ImportRun {φ : Type} (pyFloat : String → Except PyError φ) (db db' : StaticDb φ) : Prop :=
  ∃ dataset files returns, ImportTables pyFloat dataset files tablesToImport db db' returns

end SimplyTransport
