import SimplyTransport.DatasetImports

/-!
# Imports leave other datasets alone

Every strategy of clearing a table leaves the rows of the other datasets: a table is truncated
only where it has none of them. The features of the other datasets stay as well, when each
feature has the dataset of its stop, and every run keeps it so.
-/

namespace SimplyTransport
open Transition

variable {φ : Type} {db db' : StaticDb φ} {t : StaticTable} {dataset : String}

namespace StaticDb

def FeaturesOwned (db : StaticDb φ) : Prop :=
  ∀ f ∈ db.features, ∀ s ∈ db.rows .stop, s.id = f.stopId → s.dataset = f.dataset

instance (db : StaticDb φ) : Decidable db.FeaturesOwned :=
  inferInstanceAs (Decidable (∀ f ∈ db.features, ∀ s ∈ db.rows .stop, s.id = f.stopId →
    s.dataset = f.dataset))

def rowsOf (db : StaticDb φ) (t : StaticTable) (dataset : String) : List (t.Row φ) :=
  (db.rows t).filter (fun r => t.dataset r = dataset)

def rowsBeside (db : StaticDb φ) (t : StaticTable) (dataset : String) : List (t.Row φ) :=
  (db.rows t).filter (fun r => t.dataset r ≠ dataset)

def featuresBeside (db : StaticDb φ) (dataset : String) : List StopFeatureRow :=
  db.features.filter (fun f => f.dataset ≠ dataset)

end StaticDb

section Clear

/-- A table has lost the rows of a dataset; of the features only some of that dataset are gone. -/
structure Cleared (db db' : StaticDb φ) (t : StaticTable) (dataset : String) : Prop where
  rows_self : db'.rows t = db.rowsBeside t dataset
  rows_other : ∀ t', t' ≠ t → db'.rows t' = db.rows t'
  features_sublist : db'.features.Sublist db.features
  features : db'.featuresBeside dataset = db.featuresBeside dataset

theorem rowsBeside_of_not_exists (h : db.otherDatasetExists t dataset = false) :
    db.rowsBeside t dataset = [] := by
  rw [StaticDb.rowsBeside, List.filter_eq_nil_iff]
  exact List.any_eq_false.1 h

/-- A feature of another dataset is of a stop that is not deleted. -/
theorem StaticDb.FeaturesOwned.cascade (h : db.FeaturesOwned) :
    (db.cascade t dataset).filter (fun f => f.dataset ≠ dataset) = db.featuresBeside dataset := by
  unfold StaticDb.cascade StaticDb.featuresBeside
  split_ifs
  · rw [List.filter_filter]
    apply List.filter_congr
    intro f hf
    rw [Bool.and_eq_left_iff_imp]
    intro hd
    rw [decide_eq_true_eq] at hd ⊢
    exact fun s hs hs' hid => hd ((h f hf s hs hid).symm.trans hs')
  · rfl

theorem cleared_delete (h : db.FeaturesOwned) : Cleared db (db.delete t dataset) t dataset where
  rows_self := StaticDb.restrict_rows_self _ _ _ _ _ _
  rows_other _ ht := StaticDb.restrict_rows_of_ne _ ht _ _ _ _
  features_sublist := by
    change (db.cascade t dataset).Sublist db.features
    unfold StaticDb.cascade
    split_ifs
    · exact List.filter_sublist
    · exact List.Sublist.refl _
  features := h.cascade

theorem filter_false {α : Type} (l : List α) : l.filter (fun _ => false) = [] :=
  List.filter_eq_nil_iff.2 (fun _ _ => Bool.false_ne_true)

/-- Where only the dataset has stops, only it has features. -/
theorem StaticDb.FeaturesOwned.featuresBeside_eq_nil (h : db.FeaturesOwned)
    (hother : db.otherDatasetExists .stop dataset = false) : db.featuresBeside dataset = [] := by
  rw [StaticDb.featuresBeside, List.filter_eq_nil_iff]
  intro f hf
  obtain ⟨s, hs, hid⟩ := db.feature_stop f hf
  have hmem := List.filter_eq_nil_iff.1 (rowsBeside_of_not_exists hother) s hs
  rw [decide_eq_true_eq, not_not] at hmem ⊢
  exact (h f hf s hs hid).symm.trans hmem

theorem cleared_truncateCascade (h : db.FeaturesOwned)
    (hother : db.otherDatasetExists .stop dataset = false) :
    Cleared db (db.truncateCascade .stop) .stop dataset where
  rows_self := by
    rw [rowsBeside_of_not_exists hother, StaticDb.truncateCascade, StaticDb.restrict_rows_self]
    exact filter_false _
  rows_other _ ht := StaticDb.restrict_rows_of_ne _ ht _ _ _ _
  features_sublist := List.nil_sublist _
  features := (h.featuresBeside_eq_nil hother).symm

theorem tableName_mem_iff (t : StaticTable) : t.tableName ∈ truncateCascadeTables ↔ t = .stop := by
  cases t <;> decide

/-- Clearing a table always succeeds. -/
theorem clearTable_cleared (h : db.FeaturesOwned) (t : StaticTable) (dataset : String) :
    ∃ cleared, db.clearTable t dataset = some cleared ∧ Cleared db cleared t dataset := by
  unfold StaticDb.clearTable chooseClearStrategy
  cases hother : db.otherDatasetExists t dataset with
  | true => exact ⟨_, rfl, cleared_delete h⟩
  | false =>
      by_cases ht : t = .stop
      · subst ht
        exact ⟨_, rfl, cleared_truncateCascade h hother⟩
      · simp only [tableName_mem_iff, ht, Bool.false_eq_true, if_false, StaticDb.truncate, dif_neg,
          not_false_eq_true]
        refine ⟨_, rfl, ?_, fun _ hne => StaticDb.restrict_rows_of_ne _ hne _ _ _ _,
          List.Sublist.refl _, rfl⟩
        rw [rowsBeside_of_not_exists hother, StaticDb.restrict_rows_self]
        exact filter_false _

theorem Cleared.featuresOwned (h : Cleared db db' t dataset) (howned : db.FeaturesOwned) :
    db'.FeaturesOwned := by
  intro f hf s hs hid
  refine howned f (h.features_sublist.subset hf) s ?_ hid
  by_cases ht : StaticTable.stop = t
  · subst ht
    rw [h.rows_self] at hs
    exact List.mem_of_mem_filter hs
  · rwa [h.rows_other _ ht] at hs

end Clear

section Insert

variable {new : List (t.Row φ)}

theorem insert_cases (h : db.insert t new = some db') :
    ((db.rows t ++ new).filterMap t.key).Nodup ∧ db'.rows t = db.rows t ++ new ∧
      (∀ t', t' ≠ t → db'.rows t' = db.rows t') ∧ db'.features = db.features := by
  unfold StaticDb.insert at h
  split_ifs at h with hkeys
  obtain rfl := Option.some.inj h
  exact ⟨hkeys, Function.update_self _ _ _, fun _ ht => Function.update_of_ne ht _ _, rfl⟩

/-- A new stop is not the stop of a feature, which has its key already. -/
theorem StaticDb.FeaturesOwned.insert (howned : db.FeaturesOwned)
    (h : db.insert t new = some db') : db'.FeaturesOwned := by
  obtain ⟨hkeys, hself, hother, hfeatures⟩ := insert_cases h
  intro f hf s hs hid
  rw [hfeatures] at hf
  by_cases ht : StaticTable.stop = t
  · subst ht
    rw [hself, List.mem_append] at hs
    rcases hs with hs | hs
    · exact howned f hf s hs hid
    · obtain ⟨s', hs', hid'⟩ := db.feature_stop f hf
      rw [List.filterMap_append] at hkeys
      have hold : f.stopId ∈ (db.rows .stop).filterMap StaticTable.stop.key :=
        List.mem_filterMap.2 ⟨s', hs', congrArg some hid'⟩
      have hnew : f.stopId ∈ List.filterMap StaticTable.stop.key new :=
        List.mem_filterMap.2 ⟨s, hs, congrArg some hid⟩
      exact absurd hnew (List.disjoint_of_nodup_append hkeys hold)
  · rw [hother _ ht] at hs
    exact howned f hf s hs hid

theorem mem_insertedRows {α : Type} {records : List (ℤ → α)} {serials : List ℤ} {r : α}
    (h : r ∈ insertedRows records serials) : ∃ record ∈ records, ∃ id, r = record id := by
  obtain ⟨i, hi, rfl⟩ := List.mem_iff_getElem.1 h
  have hlen : i < records.length := by
    rw [insertedRows, List.length_zipWith] at hi
    omega
  exact ⟨records[i], List.getElem_mem hlen, _, List.getElem_zipWith⟩

end Insert

section ImportData

variable {α : Type} {file : CsvFile} {imp : Importer α} {records : List α} {returns : Bool}

/-- Everything committed has been built from a row. -/
theorem importData_built (h : ImportData file imp records returns) :
    ∀ record ∈ records, ∃ row, imp.build row = .ok record := by
  intro record hrecord
  cases h with
  | ormReturns hrun hdone =>
      obtain ⟨row, hrow⟩ := (OrmImport.built_run hrun).committed record hrecord
      exact ⟨_, hrow⟩
  | ormRaises hrun =>
      obtain ⟨row, hrow⟩ := (OrmImport.built_run hrun).committed record hrecord
      exact ⟨_, hrow⟩
  | copyReturns hcopy =>
      obtain ⟨col, _, hmap⟩ := bind_eq_ok.1 hcopy
      obtain ⟨row, _, hrow⟩ := exists_line_of_forall₂ (forall₂_of_mapM hmap) record hrecord
      exact ⟨_, hrow⟩
  | copyRaises hcol hmap =>
      obtain ⟨row, _, hrow⟩ := exists_line_of_forall₂ (forall₂_of_mapM hmap) record hrecord
      exact ⟨_, hrow⟩
  | copyRaisesFirst => cases hrecord

/-- When `import_data` returns, the records of the file are committed, each once. -/
theorem importData_records (h : ImportData file imp records true) :
    ∃ fileRecords, imp.records file = .ok fileRecords ∧ records.Perm fileRecords := by
  cases h with
  | ormReturns hrun hdone =>
      obtain ⟨models, hmodels, hperm, _⟩ := (OrmImport.orm_import_queue _ _ _ _ hrun).2.2 hdone
      exact ⟨models, hmodels, hperm⟩
  | copyReturns hcopy => exact ⟨records, hcopy, List.Perm.refl _⟩

end ImportData

section Refill

variable {cleared : StaticDb φ} {new : List (t.Row φ)}

structure Refilled (db db' : StaticDb φ) (t : StaticTable) (dataset : String)
    (new : List (t.Row φ)) : Prop where
  owned : db'.FeaturesOwned
  rowsOf_self : db'.rowsOf t dataset = new
  rows_other : ∀ t', t' ≠ t → db'.rows t' = db.rows t'
  rowsBeside : ∀ t', db'.rowsBeside t' dataset = db.rowsBeside t' dataset
  features : db'.featuresBeside dataset = db.featuresBeside dataset

theorem Cleared.refilled (h : Cleared db cleared t dataset) (howned : db.FeaturesOwned)
    (hnew : ∀ r ∈ new, t.dataset r = dataset) (hinsert : cleared.insert t new = some db') :
    Refilled db db' t dataset new := by
  obtain ⟨_, hself, hother, hfeatures⟩ := insert_cases hinsert
  rw [h.rows_self] at hself
  have hof : (db.rowsBeside t dataset).filter (fun r => t.dataset r = dataset) = [] := by
    rw [List.filter_eq_nil_iff]
    intro r hr
    simpa using (List.mem_filter.1 hr).2
  have hbeside : (db.rowsBeside t dataset).filter (fun r => t.dataset r ≠ dataset) =
      db.rowsBeside t dataset := List.filter_eq_self.2 (fun r hr => (List.mem_filter.1 hr).2)
  have hnewOf : new.filter (fun r => t.dataset r = dataset) = new :=
    List.filter_eq_self.2 (fun r hr => decide_eq_true (hnew r hr))
  have hnewBeside : new.filter (fun r => t.dataset r ≠ dataset) = [] := by
    rw [List.filter_eq_nil_iff]
    intro r hr
    simpa using hnew r hr
  refine ⟨(h.featuresOwned howned).insert hinsert, ?_, fun t' ht => ?_, fun t' => ?_, ?_⟩
  · rw [StaticDb.rowsOf, hself, List.filter_append, hof, hnewOf, List.nil_append]
  · rw [hother t' ht, h.rows_other t' ht]
  · by_cases ht : t' = t
    · subst ht
      rw [StaticDb.rowsBeside, hself, List.filter_append, hbeside, hnewBeside, List.append_nil]
    · rw [StaticDb.rowsBeside, hother t' ht, h.rows_other t' ht, StaticDb.rowsBeside]
  · rw [StaticDb.featuresBeside, hfeatures]
    exact h.features

theorem refilled_of_import {pyFloat : String → Except PyError φ} {file : CsvFile}
    {records : List (ℤ → t.Row φ)} {serials : List ℤ} {returns : Bool} (howned : db.FeaturesOwned)
    (hclear : db.clearTable t dataset = some cleared)
    (hdata : ImportData file (importer pyFloat dataset t) records returns)
    (hinsert : cleared.insert t (insertedRows records serials) = some db') :
    Refilled db db' t dataset (insertedRows records serials) := by
  obtain ⟨cleared', hclear', h⟩ := clearTable_cleared howned t dataset
  obtain rfl := Option.some.inj (hclear'.symm.trans hclear)
  refine h.refilled howned (fun r hr => ?_) hinsert
  obtain ⟨record, hrecord, id, rfl⟩ := mem_insertedRows hr
  obtain ⟨row, hrow⟩ := importData_built hdata record hrecord
  exact importer_dataset t record hrow id

end Refill

section Runs

variable {pyFloat : String → Except PyError φ} {files : StaticTable → Option CsvFile}
  {ts : List StaticTable} {returns : Bool}

structure Kept (dataset : String) (files : StaticTable → Option CsvFile) (ts : List StaticTable)
    (db db' : StaticDb φ) : Prop where
  owned : db'.FeaturesOwned
  rowsOf : ∀ t, (t ∈ ts → files t = none) → db'.rowsOf t dataset = db.rowsOf t dataset
  rowsBeside : ∀ t, db'.rowsBeside t dataset = db.rowsBeside t dataset
  features : db'.featuresBeside dataset = db.featuresBeside dataset

theorem Kept.refl (howned : db.FeaturesOwned) : Kept dataset files ts db db :=
  ⟨howned, fun _ _ => rfl, fun _ => rfl, rfl⟩

/-- A table is refilled first and the rest is kept. -/
theorem Refilled.kept {filled : StaticDb φ} {file : CsvFile} {new : List (t.Row φ)}
    (h : Refilled db filled t dataset new) (hfile : files t = some file)
    (hrest : Kept dataset files ts filled db') : Kept dataset files (t :: ts) db db' := by
  refine ⟨hrest.owned, fun t' ht' => ?_, fun t' => ?_, ?_⟩
  · have hne : t' ≠ t := by
      rintro rfl
      rw [ht' List.mem_cons_self] at hfile
      cases hfile
    rw [hrest.rowsOf t' (fun hmem => ht' (List.mem_cons_of_mem _ hmem)), StaticDb.rowsOf,
      h.rows_other t' hne, StaticDb.rowsOf]
  · rw [hrest.rowsBeside t', h.rowsBeside t']
  · rw [hrest.features, h.features]

theorem importTables_kept (h : ImportTables pyFloat dataset files ts db db' returns)
    (howned : db.FeaturesOwned) : Kept dataset files ts db db' := by
  induction h with
  | nil db => exact Kept.refl howned
  | skip hfile _ ih =>
      obtain ⟨howned', hrows, hbeside, hfeatures⟩ := ih howned
      exact ⟨howned', fun t ht => hrows t (fun hmem => ht (List.mem_cons_of_mem _ hmem)), hbeside,
        hfeatures⟩
  | fill hfile hclear hdata _ hinsert _ ih =>
      have hrefilled := refilled_of_import howned hclear hdata hinsert
      exact hrefilled.kept hfile (ih hrefilled.owned)
  | raise hfile hclear hdata _ hinsert =>
      have hrefilled := refilled_of_import howned hclear hdata hinsert
      exact hrefilled.kept hfile (Kept.refl hrefilled.owned)
  | raiseFirst db => exact Kept.refl howned

/-- The rows are those of the file's records, each once. -/
def HoldsRecords {α : Type} (file : CsvFile) (imp : Importer (ℤ → α)) (rows : List α) : Prop :=
  ∃ fileRecords records serials, imp.records file = .ok fileRecords ∧
    records.Perm fileRecords ∧ serials.length = records.length ∧
    rows = insertedRows records serials

theorem importTables_filled (h : ImportTables pyFloat dataset files ts db db' returns)
    (hreturns : returns = true) (howned : db.FeaturesOwned) (hnodup : ts.Nodup) :
    ∀ t ∈ ts, ∀ file, files t = some file →
      HoldsRecords file (importer pyFloat dataset t) (db'.rowsOf t dataset) := by
  induction h with
  | nil db => exact fun t ht => absurd ht List.not_mem_nil
  | skip hfile _ ih =>
      intro t' ht' file hfile'
      rcases List.mem_cons.1 ht' with rfl | ht'
      · rw [hfile] at hfile'
        cases hfile'
      · exact ih hreturns howned (List.nodup_cons.1 hnodup).2 t' ht' file hfile'
  | @fill t ts db cleared filled db' returns file records serials hfile hclear hdata hlength hinsert
      hrest ih =>
      have hrefilled := refilled_of_import howned hclear hdata hinsert
      obtain ⟨hnot, hnodup⟩ := List.nodup_cons.1 hnodup
      intro t' ht' file' hfile'
      rcases List.mem_cons.1 ht' with rfl | ht'
      · -- The tables that follow leave the rows that this one got.
        obtain rfl := Option.some.inj (hfile.symm.trans hfile')
        have hkept := (importTables_kept hrest hrefilled.owned).rowsOf t'
          (fun hmem => absurd hmem hnot)
        obtain ⟨fileRecords, hrecords, hperm⟩ := importData_records hdata
        exact ⟨fileRecords, records, serials, hrecords, hperm, hlength,
          hkept.trans hrefilled.rowsOf_self⟩
      · exact ih hreturns hrefilled.owned hnodup t' ht' file' hfile'
  | raise => cases hreturns
  | raiseFirst => cases hreturns

theorem importRun_owned (h : ImportRun pyFloat db db') (howned : db.FeaturesOwned) :
    db'.FeaturesOwned := by
  obtain ⟨dataset, files, returns, hrun⟩ := h
  exact (importTables_kept hrun howned).owned

theorem importRuns_owned (h : Relation.ReflTransGen (ImportRun pyFloat) db db')
    (howned : db.FeaturesOwned) : db'.FeaturesOwned := by
  induction h with
  | refl => exact howned
  | tail _ hlast ih => exact importRun_owned hlast ih

structure Isolated (pyFloat : String → Except PyError φ) (dataset : String)
    (files : StaticTable → Option CsvFile) (db db' : StaticDb φ) : Prop where
  present : ∀ t file, files t = some file →
    HoldsRecords file (importer pyFloat dataset t) (db'.rowsOf t dataset)
  absent : ∀ t, files t = none → db'.rowsOf t dataset = db.rowsOf t dataset
  beside : ∀ t, db'.rowsBeside t dataset = db.rowsBeside t dataset
  features : db'.featuresBeside dataset = db.featuresBeside dataset

theorem mem_tablesToImport (t : StaticTable) : t ∈ tablesToImport := by
  cases t <;> decide

/-- After any runs, whether they raised or not, from a database in which every feature has the
dataset of its stop. -/
theorem static_import_isolated {db db₁ db₂ : StaticDb φ} (howned : db.FeaturesOwned)
    (hruns : Relation.ReflTransGen (ImportRun pyFloat) db db₁)
    (hrun : ImportTables pyFloat dataset files tablesToImport db₁ db₂ true) :
    Isolated pyFloat dataset files db₁ db₂ := by
  have howned₁ := importRuns_owned hruns howned
  have hkept := importTables_kept hrun howned₁
  exact {
    present := fun t file hfile => importTables_filled hrun rfl howned₁ (by decide) t
      (mem_tablesToImport t) file hfile
    absent := fun t hfile => hkept.rowsOf t (fun _ => hfile)
    beside := hkept.rowsBeside
    features := hkept.features }

end Runs

section Sample

def zeroFloat (_ : String) : Except PyError ℚ := .ok 0

def sampleStop (id dataset : String) : StopRow ℚ :=
  ⟨⟨id, "", "", "", "", "", none, none, dataset⟩, 0, 0⟩

def stopsFile : CsvFile where
  header := ["stop_id", "stop_code", "stop_name", "stop_desc", "stop_lat", "stop_lon", "zone_id",
    "stop_url", "location_type", "parent_station"]
  rows := [["a", "", "", "", "", "", "", "", "", ""]]
  full := by decide

def onlyStops (t : StaticTable) : Option CsvFile := if t = .stop then some stopsFile else none

theorem stopsFile_imported :
    ImportData stopsFile (importer zeroFloat "A" .stop) [fun _ => sampleStop "a" "A"] true :=
  importData_one rfl rfl

def stopsDb (stops : List (StopRow ℚ)) (features : List StopFeatureRow)
    (hkeys : (stops.filterMap StaticTable.stop.key).Nodup)
    (hstop : ∀ f ∈ features, ∃ s ∈ stops, s.id = f.stopId) : StaticDb ℚ where
  rows := Function.update (fun _ => []) .stop stops
  features := features
  keys_nodup t := by
    by_cases ht : t = .stop
    · subst ht
      rw [Function.update_self]
      exact hkeys
    · rw [Function.update_of_ne ht]
      exact List.nodup_nil
  feature_stop := by
    rw [Function.update_self]
    exact hstop

def twoDatasets : StaticDb ℚ :=
  stopsDb [sampleStop "a" "A", sampleStop "b" "B"] [⟨1, "a", "A"⟩, ⟨2, "b", "B"⟩] (by decide)
    (by decide)

theorem onlyStops_run {db cleared filled : StaticDb ℚ}
    (hclear : db.clearTable .stop "A" = some cleared)
    (hinsert : cleared.insert .stop (insertedRows [fun _ => sampleStop "a" "A"] [0]) =
      some filled) :
    ImportTables zeroFloat "A" onlyStops tablesToImport db filled true :=
  .skip rfl (.skip rfl (.skip rfl (.skip rfl (.fill rfl hclear stopsFile_imported rfl hinsert
    (.skip rfl (.skip rfl (.skip rfl (.nil filled))))))))

theorem static_import_isolated_two_datasets : ∃ db,
    ImportTables zeroFloat "A" onlyStops tablesToImport twoDatasets db true ∧
      Isolated zeroFloat "A" onlyStops twoDatasets db := by
  have howned : twoDatasets.FeaturesOwned := by decide
  have hrun : ∃ db, ImportTables zeroFloat "A" onlyStops tablesToImport twoDatasets db true :=
    ⟨_, onlyStops_run rfl rfl⟩
  obtain ⟨db, hrun⟩ := hrun
  exact ⟨db, hrun, static_import_isolated howned .refl hrun⟩

/-- A feature of "B" at the only stop, which is of "A", does not survive an import of "A". -/
theorem feature_of_other_dataset_removed : ∃ db db' : StaticDb ℚ,
    ImportTables zeroFloat "A" onlyStops tablesToImport db db' true ∧
      db.featuresBeside "A" = [⟨1, "a", "B"⟩] ∧ db'.featuresBeside "A" = [] :=
  ⟨stopsDb [sampleStop "a" "A"] [⟨1, "a", "B"⟩] (by decide) (by decide), _,
    onlyStops_run rfl rfl, rfl, rfl⟩

end Sample

end SimplyTransport
