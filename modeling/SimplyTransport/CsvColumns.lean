import SimplyTransport.DatasetTables
import Mathlib.Data.List.Nodup

/-!
# The columns that the importers find

What a row of either reader has under a name, and that importers of two files agree where the
files show the same under the names that are read.
-/

namespace SimplyTransport

def Shows (header row : List String) (name value : String) : Prop :=
  ∃ i : ℕ, header[i]? = some name ∧ row[i]? = some value

def Once (header : List String) (name : String) : Prop :=
  ∀ i j : ℕ, header[i]? = some name → header[j]? = some name → i = j

section Lookups

variable {header row names : List String} {name value : String} {col : List (String × ℕ)}

theorem once_of_nodup (h : header.Nodup) (name : String) : Once header name := by
  intro i j hi hj
  obtain ⟨hi, hi'⟩ := List.getElem?_eq_some_iff.1 hi
  obtain ⟨hj, hj'⟩ := List.getElem?_eq_some_iff.1 hj
  exact (h.getElem_inj_iff).1 (hi'.trans hj'.symm)

theorem Once.eq {value' : String} (h : Once header name) (hv : Shows header row name value)
    (hv' : Shows header row name value') : value = value' := by
  obtain ⟨i, hi, hvalue⟩ := hv
  obtain ⟨j, hj, hvalue'⟩ := hv'
  obtain rfl := h i j hi hj
  exact Option.some.inj (hvalue.symm.trans hvalue')

/-- A name without a mark stands where it stood once the mark of the first name is stripped. -/
theorem Shows.resolved (h : Shows header row name value) (hname : lstripBom name = name) :
    Shows (resolvedHeader header) row name value := by
  obtain ⟨i, hi, hvalue⟩ := h
  refine ⟨i, ?_, hvalue⟩
  cases header with
  | nil => cases hi
  | cons first rest =>
      cases i with
      | zero =>
          obtain rfl := Option.some.inj hi
          exact congrArg some hname
      | succ i => exact hi

theorem mem_iff_shows : name ∈ header ↔ Shows header header name name := by
  rw [List.mem_iff_getElem?]
  exact ⟨fun ⟨i, hi⟩ => ⟨i, hi, hi⟩, fun ⟨i, hi, _⟩ => ⟨i, hi⟩⟩

/-- A row of `DictReader` has what stands under the name, or no such key. -/
theorem dictRow_cases (header row : List String) (name : String) :
    (∃ value, dictRow header row name = .ok value ∧ Shows header row name value) ∨
      dictRow header row name = .error .keyError ∧ ∀ value, ¬ Shows header row name value := by
  have hshows : ∀ value, (name, value) ∈ (header.zip row).reverse ↔
      Shows header row name value := fun value => by
    rw [List.mem_reverse, List.mem_iff_getElem?]
    exact exists_congr (fun i => List.getElem?_zip_eq_some)
  unfold dictRow
  cases hlookup : (header.zip row).reverse.lookup name with
  | none =>
      refine .inr ⟨rfl, fun value hvalue => ?_⟩
      rw [List.lookup_eq_none_iff] at hlookup
      have hne := hlookup _ ((hshows value).2 hvalue)
      simp at hne
  | some value =>
      obtain ⟨l₁, l₂, hl, _⟩ := List.lookup_eq_some_iff.1 hlookup
      refine .inl ⟨value, rfl, (hshows value).1 ?_⟩
      rw [hl]
      exact List.mem_append_right _ List.mem_cons_self

theorem csvColumnIndexes_eq_ok :
    csvColumnIndexes header names = .ok col ↔ (∀ name ∈ names, name ∈ resolvedHeader header) ∧
      col = names.map (fun name => (name, (resolvedHeader header).idxOf name)) := by
  simp only [csvColumnIndexes]
  split_ifs with hmissing
  · simp only [ne_eq, List.filter_eq_nil_iff, decide_eq_true_eq, not_not, not_forall] at hmissing
    obtain ⟨name, hname, hnot⟩ := hmissing
    exact ⟨nofun, fun h => absurd (h.1 name hname) hnot⟩
  · simp only [ne_eq, List.filter_eq_nil_iff, decide_eq_true_eq, not_not] at hmissing
    exact ⟨fun h => ⟨hmissing, (Except.ok.inj h).symm⟩, fun h => by rw [h.2]⟩

theorem csvColumnIndexes_missing (h : ¬ ∀ name ∈ names, name ∈ resolvedHeader header) :
    csvColumnIndexes header names = .error .valueError := by
  simp only [csvColumnIndexes]
  rw [if_pos]
  rw [ne_eq, List.filter_eq_nil_iff]
  simpa only [decide_eq_true_eq, not_not] using h

theorem lookup_map_idxOf {columns : List String} :
    (names.map (fun name => (name, columns.idxOf name))).lookup name =
      if name ∈ names then some (columns.idxOf name) else none := by
  induction names with
  | nil => rfl
  | cons first names ih =>
      rw [List.map_cons, List.lookup_cons, ih]
      by_cases h : name = first
      · subst h
        simp
      · simp [h, beq_eq_false_iff_ne.2 h]

/-- What the record of a copied row is made of. -/
theorem copyRow_cases (hcol : csvColumnIndexes header names = .ok col) (row : List String)
    (name : String) :
    (name ∉ names ∧ copyRow col row name = .error .keyError) ∨
    (∃ value, copyRow col row name = .ok value ∧ name ∈ names ∧
      Shows (resolvedHeader header) row name value) ∨
    (name ∈ names ∧ copyRow col row name = .error .indexError ∧
      (Once (resolvedHeader header) name →
        ∀ value, ¬ Shows (resolvedHeader header) row name value)) := by
  obtain ⟨hfound, rfl⟩ := csvColumnIndexes_eq_ok.1 hcol
  unfold copyRow
  rw [lookup_map_idxOf]
  by_cases hname : name ∈ names
  · have hindex : (resolvedHeader header)[(resolvedHeader header).idxOf name]? = some name :=
      List.getElem?_idxOf (hfound name hname)
    rw [if_pos hname]
    dsimp only
    cases hvalue : row[(resolvedHeader header).idxOf name]? with
    | none =>
        refine .inr (.inr ⟨hname, rfl, fun honce value hshows => ?_⟩)
        obtain ⟨i, hi, hv⟩ := hshows
        rw [honce i _ hi hindex, hvalue] at hv
        cases hv
    | some value => exact .inr (.inl ⟨value, rfl, hname, _, hindex, hvalue⟩)
  · rw [if_neg hname]
    exact .inl ⟨hname, rfl⟩

end Lookups

def StaticTable.csvFields : StaticTable → List String
  | agency => ["agency_id", "agency_name", "agency_url", "agency_timezone"]
  | calendar =>
    ["service_id", "monday", "tuesday", "wednesday", "thursday", "friday", "saturday", "sunday",
      "start_date", "end_date"]
  | calendarDate => ["exception_type", "service_id", "date"]
  | route =>
    ["route_id", "agency_id", "route_short_name", "route_long_name", "route_desc", "route_type",
      "route_url", "route_color", "route_text_color"]
  | stop =>
    ["stop_id", "stop_code", "stop_name", "stop_desc", "stop_lat", "stop_lon", "zone_id",
      "stop_url", "location_type", "parent_station"]
  | trip => tripCsvFields
  | stopTime => stopTimeCsvFields
  | shape => shapeCsvFields

section Builds

variable {φ : Type} {pyFloat : String → Except PyError φ} {dataset : String} {row row' : CsvRow}

/-- An importer reads no other column. -/
theorem build_congr (t : StaticTable) (h : ∀ name ∈ t.csvFields, row name = row' name) :
    (importer pyFloat dataset t).build row = (importer pyFloat dataset t).build row' := by
  cases t with
  | agency =>
      simp only [StaticTable.csvFields, List.forall_mem_cons] at h
      simp only [importer, Importer.build, agencyModelOf, h]
  | calendar =>
      simp only [StaticTable.csvFields, List.forall_mem_cons] at h
      simp only [importer, Importer.build, calendarModelOf, intField, dateField, h]
  | calendarDate =>
      simp only [StaticTable.csvFields, List.forall_mem_cons] at h
      simp only [importer, Importer.build, calendarDateModelOf, dateField, h]
  | route =>
      simp only [StaticTable.csvFields, List.forall_mem_cons] at h
      simp only [importer, Importer.build, routeModelOf, intField, h]
  | stop =>
      simp only [StaticTable.csvFields, List.forall_mem_cons] at h
      simp only [importer, Importer.build, stopRowOf, optionalIntField, h]
  | trip =>
      simp only [StaticTable.csvFields, tripCsvFields, List.forall_mem_cons] at h
      simp only [importer, Importer.build, tripRecord, intField, h]
  | stopTime =>
      simp only [StaticTable.csvFields, stopTimeCsvFields, List.forall_mem_cons] at h
      simp only [importer, Importer.build, stopTimeRecord, intField, timeField, optionalIntField, h]
  | shape =>
      simp only [StaticTable.csvFields, shapeCsvFields, List.forall_mem_cons] at h
      simp only [importer, Importer.build, shapeRecord, intField, h]

theorem guard_eq_ok {α : Type} {p : Prop} [Decidable p] {e : PyError} {x : Except PyError α}
    {a : α} : (if p then .error e else x) = .ok a ↔ ¬ p ∧ x = .ok a := by
  split_ifs with hp
  · exact ⟨nofun, fun h => absurd hp h.1⟩
  · exact ⟨fun h => ⟨hp, h⟩, fun h => h.2⟩

/-- Nothing is made of a row without one of the columns. -/
theorem build_reads (t : StaticTable) {record : ℤ → t.Row φ}
    (h : (importer pyFloat dataset t).build row = .ok record) :
    ∀ name ∈ t.csvFields, ∃ value, row name = .ok value := by
  have hnil : (∀ name ∈ ([] : List String), ∃ value, row name = .ok value) ↔ True := by simp
  cases t with
  | agency =>
      simp only [importer, Importer.build, keyed, agencyModelOf, bind_eq_ok] at h
      simp only [StaticTable.csvFields, List.forall_mem_cons, hnil, and_true]
      grind
  | calendar =>
      simp only [importer, Importer.build, keyed, calendarModelOf, intField, dateField, bind_eq_ok] at h
      simp only [StaticTable.csvFields, List.forall_mem_cons, hnil, and_true]
      grind
  | calendarDate =>
      simp only [importer, Importer.build, calendarDateModelOf, dateField, bind_eq_ok] at h
      simp only [StaticTable.csvFields, List.forall_mem_cons, hnil, and_true]
      grind
  | route =>
      simp only [importer, Importer.build, keyed, routeModelOf, intField, bind_eq_ok,
        guard_eq_ok] at h
      simp only [StaticTable.csvFields, List.forall_mem_cons, hnil, and_true]
      grind
  | stop =>
      simp only [importer, Importer.build, keyed, stopRowOf, optionalIntField, bind_eq_ok] at h
      simp only [StaticTable.csvFields, List.forall_mem_cons, hnil, and_true]
      grind
  | trip =>
      simp only [importer, Importer.build, keyed, tripRecord, intField, bind_eq_ok] at h
      simp only [StaticTable.csvFields, tripCsvFields, List.forall_mem_cons, hnil, and_true]
      grind
  | stopTime =>
      simp only [importer, Importer.build, stopTimeRecord, intField, timeField, optionalIntField, bind_eq_ok] at h
      simp only [StaticTable.csvFields, stopTimeCsvFields, List.forall_mem_cons, hnil, and_true]
      grind
  | shape =>
      simp only [importer, Importer.build, shapeRecord, intField, bind_eq_ok] at h
      simp only [StaticTable.csvFields, shapeCsvFields, List.forall_mem_cons, hnil, and_true]
      grind

end Builds

/-- Two files show the same under each of the fields, row for row. -/
structure SameFields (fields header : List String) (rows : List (List String))
    (header' : List String) (rows' : List (List String)) : Prop where
  once : ∀ name ∈ fields, Once header name
  once' : ∀ name ∈ fields, Once header' name
  mem : ∀ name ∈ fields, name ∈ header ↔ name ∈ header'
  rows : List.Forall₂ (fun row row' => ∀ name ∈ fields, ∀ value,
    Shows header row name value ↔ Shows header' row' name value) rows rows'

section SameFields

variable {α : Type} {fields : List String} {file file' : CsvFile}

theorem ormImport_congr {buildModel : CsvRow → Except PyError α}
    (hbuild : ∀ row row', (∀ name ∈ fields, row name = row' name) →
      buildModel row = buildModel row')
    (h : SameFields fields file.header file.rows file'.header file'.rows) :
    ormImport file buildModel = ormImport file' buildModel := by
  refine mapM_eq_of_forall₂ (h.rows.imp (fun row row' hrow => hbuild _ _ (fun name hname => ?_)))
  rcases dictRow_cases file.header row name with ⟨value, heq, hvalue⟩ | ⟨heq, hnone⟩
  · rcases dictRow_cases file'.header row' name with ⟨value', heq', hvalue'⟩ | ⟨_, hnone'⟩
    · rw [heq, heq', (h.once' name hname).eq ((hrow name hname value).1 hvalue) hvalue']
    · exact absurd ((hrow name hname value).1 hvalue) (hnone' value)
  · rcases dictRow_cases file'.header row' name with ⟨value', _, hvalue'⟩ | ⟨heq', _⟩
    · exact absurd ((hrow name hname value').2 hvalue') (hnone value')
    · rw [heq, heq']

theorem copyImport_congr {recordFromRow : CsvRow → Except PyError α}
    (h : SameFields fields (resolvedHeader file.header) file.rows (resolvedHeader file'.header)
      file'.rows) :
    copyImport file fields recordFromRow = copyImport file' fields recordFromRow := by
  unfold copyImport
  by_cases hfound : ∀ name ∈ fields, name ∈ resolvedHeader file.header
  · have hfound' := fun name hname => (h.mem name hname).1 (hfound name hname)
    have hcol := csvColumnIndexes_eq_ok.2 ⟨hfound, rfl⟩
    have hcol' := csvColumnIndexes_eq_ok.2 ⟨hfound', rfl⟩
    rw [hcol, hcol']
    refine mapM_eq_of_forall₂ (h.rows.imp (fun row row' hrow => congrArg recordFromRow ?_))
    funext name
    rcases copyRow_cases hcol row name with ⟨hname, heq⟩ | ⟨value, heq, hname, hvalue⟩ |
      ⟨hname, heq, hnone⟩
    · rcases copyRow_cases hcol' row' name with ⟨_, heq'⟩ | ⟨_, _, hname', _⟩ | ⟨hname', _⟩
      · rw [heq, heq']
      · exact absurd hname' hname
      · exact absurd hname' hname
    · have hvalue' := (hrow name hname value).1 hvalue
      rcases copyRow_cases hcol' row' name with ⟨hname', _⟩ | ⟨_, heq', _, hshows⟩ | ⟨_, _, hnone'⟩
      · exact absurd hname hname'
      · rw [heq, heq', (h.once' name hname).eq hvalue' hshows]
      · exact absurd hvalue' (hnone' (h.once' name hname) value)
    · rcases copyRow_cases hcol' row' name with ⟨hname', _⟩ | ⟨value, _, _, hshows⟩ | ⟨_, heq', _⟩
      · exact absurd hname hname'
      · exact absurd ((hrow name hname value).2 hshows) (hnone (h.once name hname) value)
      · rw [heq, heq']
  · have hfound' : ¬ ∀ name ∈ fields, name ∈ resolvedHeader file'.header :=
      fun hall => hfound (fun name hname => (h.mem name hname).2 (hall name hname))
    rw [csvColumnIndexes_missing hfound, csvColumnIndexes_missing hfound']
    rfl

def Agree (fields header header' : List String) : Prop :=
  ∀ name ∈ fields, ∀ i : ℕ, header[i]? = some name ↔ header'[i]? = some name

theorem agree_refl (fields header : List String) : Agree fields header header :=
  fun _ _ _ => Iff.rfl

/-- A first column that is not read may have any other name that is not. -/
theorem agree_set {header : List String} {name : String}
    (hfirst : ∀ first ∈ header.head?, first ∉ fields) (hname : name ∉ fields) :
    Agree fields header (header.set 0 name) := by
  intro field hfield i
  cases header with
  | nil => exact Iff.rfl
  | cons first names =>
      cases i with
      | succ i => exact Iff.rfl
      | zero =>
          simp only [List.set_cons_zero, List.getElem?_cons_zero, Option.some.injEq]
          refine iff_of_false ?_ ?_
          · rintro rfl
            exact hfirst _ rfl hfield
          · rintro rfl
            exact hname hfield

theorem SameFields.agree {header header' H H' : List String} {rows rows' : List (List String)}
    (h : SameFields fields header rows header' rows') (hH : Agree fields header H)
    (hH' : Agree fields header' H') : SameFields fields H rows H' rows' where
  once name hname i j hi hj :=
    h.once name hname i j ((hH name hname i).2 hi) ((hH name hname j).2 hj)
  once' name hname i j hi hj :=
    h.once' name hname i j ((hH' name hname i).2 hi) ((hH' name hname j).2 hj)
  mem name hname := by
    have hmem := h.mem name hname
    simp only [List.mem_iff_getElem?] at hmem ⊢
    rw [← exists_congr (hH name hname), hmem, exists_congr (hH' name hname)]
  rows := h.rows.imp (fun row row' hrow name hname value => by
    have hvalue := hrow name hname value
    unfold Shows at hvalue ⊢
    rw [← exists_congr (fun i => and_congr_left' (hH name hname i)), hvalue,
      exists_congr (fun i => and_congr_left' (hH' name hname i))])

theorem sameFields_refl {header : List String} (h : header.Nodup) (rows : List (List String)) :
    SameFields fields header rows header rows where
  once name _ := once_of_nodup h name
  once' name _ := once_of_nodup h name
  mem _ _ := Iff.rfl
  rows := List.forall₂_same.2 (fun _ _ _ _ _ => Iff.rfl)

end SameFields

/-- The importers that copy look for their columns in a header without a byte order mark. -/
def StaticTable.copies : StaticTable → Bool
  | trip | stopTime | shape => true
  | agency | calendar | calendarDate | route | stop => false

def StaticTable.readHeader (t : StaticTable) (header : List String) : List String :=
  if t.copies then resolvedHeader header else header

section Records

variable {φ : Type} {pyFloat : String → Except PyError φ} {dataset : String} {file file' : CsvFile}

theorem records_orm {t : StaticTable} (h : t.copies = false) :
    (importer pyFloat dataset t).records file =
      ormImport file (importer pyFloat dataset t).build := by
  cases t <;> first | rfl | cases h

theorem records_copy {t : StaticTable} (h : t.copies = true) :
    (importer pyFloat dataset t).records file =
      copyImport file t.csvFields (importer pyFloat dataset t).build := by
  cases t <;> first | rfl | cases h

/-- The records depend on what the files show under the fields of the importer. -/
theorem records_congr (t : StaticTable)
    (h : SameFields t.csvFields (t.readHeader file.header) file.rows (t.readHeader file'.header)
      file'.rows) :
    (importer pyFloat dataset t).records file = (importer pyFloat dataset t).records file' := by
  cases hcopies : t.copies with
  | false =>
      simp only [StaticTable.readHeader, hcopies, Bool.false_eq_true, if_false] at h
      rw [records_orm hcopies, records_orm hcopies]
      exact ormImport_congr (fun row row' hrow => build_congr t hrow) h
  | true =>
      simp only [StaticTable.readHeader, hcopies, if_true] at h
      rw [records_copy hcopies, records_copy hcopies]
      exact copyImport_congr h

end Records

end SimplyTransport
