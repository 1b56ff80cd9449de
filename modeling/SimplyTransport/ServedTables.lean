import SimplyTransport.CsvColumns
import SimplyTransport.DatasetIsolation
import SimplyTransport.ScheduleController
import SimplyTransport.StaticContracts

/-!
# What of the tables can be served

The imports store any number of a direction, a location and so on, and only the types of routes are
those of members by then. After any imports a row can be served exactly where its numbers are of
members, and a timetable exactly where those of its calls and trips are. After imports of files whose
texts are such numbers everything can.
-/

namespace SimplyTransport

open ApiContracts

def Importer.reader {α : Type} (file : CsvFile) : Importer α → List String → CsvRow
  | orm _, row => dictRow file.header row
  | copy csvFields _, row =>
      match csvColumnIndexes file.header csvFields with
      | .ok col => copyRow col row
      | .error e => fun _ => .error e

/-- A text that the importer reads as the number of a member. -/
def ReadsAs {E : Type} (d : Enumeration E ℤ) (text : String) : Prop :=
  ∃ e, pyInt text.toList = .ok (d.value e)

/-- The columns with numbers of members that the importer does not check, and what their texts are
where they keep to them. -/
def enumColumns : StaticTable → List (String × (String → Prop))
  | .stop => [("location_type", fun text => text = "" ∨ ReadsAs LocationType.enum text)]
  | .trip => [("direction_id", ReadsAs Direction.enum)]
  | .stopTime => [("pickup_type", fun text => text = "" ∨ ReadsAs PickupType.enum text),
      ("drop_off_type", fun text => text = "" ∨ ReadsAs DropoffType.enum text),
      ("timepoint", fun text => text = "" ∨ ReadsAs Timepoint.enum text)]
  | .agency | .calendar | .calendarDate | .route | .shape => []

def KeepsToMembers (t : StaticTable) (file : CsvFile) : Prop :=
  ∀ column ∈ enumColumns t, ∀ row ∈ file.rows, ∀ text,
    Shows (t.readHeader file.header) row column.1 text → column.2 text

section Tables

variable {φ : Type}

theorem StaticDb.map_nodup (db : StaticDb φ) (t : StaticTable) {id : t.Row φ → String}
    (hkey : ∀ row, t.key row = some (id row)) : ((db.rows t).map id).Nodup := by
  have hkeys := db.keys_nodup t
  have hmap : (db.rows t).filterMap t.key = (db.rows t).map id := by
    rw [← List.filterMap_eq_map]
    exact List.filterMap_congr (fun row _ => hkey row)
  rwa [hmap] at hkeys

def StaticDb.timetable (db : StaticDb φ) : StaticDatabase where
  routes := db.rows .route
  calendars := db.rows .calendar
  calendarDates := db.rows .calendarDate
  stops := (db.rows .stop).map StopRow.toStopModel
  trips := db.rows .trip
  stopTimes := db.rows .stopTime
  routes_nodup := db.map_nodup .route (fun _ => rfl)
  calendars_nodup := db.map_nodup .calendar (fun _ => rfl)
  stops_nodup := by
    rw [List.map_map]
    exact db.map_nodup .stop (fun _ => rfl)
  trips_nodup := db.map_nodup .trip (fun _ => rfl)

def MembersImportRun (pyFloat : String → Except PyError φ) (db db' : StaticDb φ) : Prop :=
  ∃ dataset files returns, (∀ t file, files t = some file → KeepsToMembers t file) ∧
    ImportTables pyFloat dataset files tablesToImport db db' returns

def Timetable (db : StaticDb φ) (schedules : List StaticScheduleModel) : Prop :=
  ∃ now stopId startTime endTime day,
    getScheduleByStopId db.timetable now stopId startTime endTime day = .ok schedules

/-- What the endpoints can serve of a database: the rows whose numbers are of members, which all
routes are, each told by its response, and the timetables of such calls and trips. -/
structure ServesMembers (db : StaticDb φ) : Prop where
  rows : ∀ t, ∀ row ∈ db.rows t, Accepted (modelValidate t row) ↔ Enumerated t row
  routes : ∀ row ∈ db.rows .route, Accepted (Route.modelValidate row)
  told : ∀ t, ∀ row ∈ db.rows t, ∀ row' ∈ db.rows t, ∀ x, modelValidate t row = .ok x →
    modelValidate t row' = .ok x → row = row'
  timetables : ∀ schedules, Timetable db schedules →
    (Accepted (schedules.mapM StaticSchedule.modelValidate) ↔ ∀ s ∈ schedules,
      Enumerated (φ := φ) .stopTime s.stopTime ∧ Enumerated (φ := φ) .trip s.trip)

structure ServesAll (db : StaticDb φ) : Prop where
  rows : ∀ t, ∀ row ∈ db.rows t, Accepted (modelValidate t row)
  timetables : ∀ schedules, Timetable db schedules →
    Accepted (schedules.mapM StaticSchedule.modelValidate)

end Tables

section Reading

variable {φ α : Type} {pyFloat : String → Except PyError φ} {dataset : String} {file : CsvFile}

/-- Everything committed has been built from a row of the file. -/
theorem importData_row {imp : Importer α} {records : List α} {returns : Bool}
    (h : ImportData file imp records returns) :
    ∀ record ∈ records, ∃ row ∈ file.rows, imp.build (imp.reader file row) = .ok record := by
  intro record hrecord
  cases h with
  | ormReturns hrun hdone => exact OrmImport.committed_of_rows hrun record hrecord
  | ormRaises hrun => exact OrmImport.committed_of_rows hrun record hrecord
  | copyReturns hcopy =>
      obtain ⟨col, hcol, hmap⟩ := bind_eq_ok.1 hcopy
      obtain ⟨row, hrow, hbuild⟩ := exists_line_of_forall₂ (forall₂_of_mapM hmap) record hrecord
      refine ⟨row, hrow, ?_⟩
      simp only [Importer.reader, hcol]
      exact hbuild
  | copyRaises hcol hmap =>
      obtain ⟨row, hrow, hbuild⟩ := exists_line_of_forall₂ (forall₂_of_mapM hmap) record hrecord
      refine ⟨row, List.mem_of_mem_take hrow, ?_⟩
      simp only [Importer.reader, hcol]
      exact hbuild
  | copyRaisesFirst => cases hrecord

theorem shows_of_orm {buildModel : CsvRow → Except PyError α} {row : List String}
    {name text : String} (h : (Importer.orm buildModel).reader file row name = .ok text) :
    Shows file.header row name text := by
  rcases dictRow_cases file.header row name with ⟨value, hvalue, hshows⟩ | ⟨herror, -⟩
  · rwa [Except.ok.inj (h.symm.trans hvalue)]
  · cases h.symm.trans herror

theorem shows_of_copy {csvFields : List String} {recordFromRow : CsvRow → Except PyError α}
    {row : List String} {name text : String}
    (h : (Importer.copy csvFields recordFromRow).reader file row name = .ok text) :
    Shows (resolvedHeader file.header) row name text := by
  unfold Importer.reader at h
  cases hcol : csvColumnIndexes file.header csvFields with
  | error e =>
      simp only [hcol] at h
      cases h
  | ok col =>
      simp only [hcol] at h
      rcases copyRow_cases hcol row name with ⟨-, herror⟩ | ⟨value, hvalue, -, hshows⟩ | ⟨-, herror, -⟩
      · cases h.symm.trans herror
      · rwa [Except.ok.inj (h.symm.trans hvalue)]
      · cases h.symm.trans herror

/-- What an importer finds under a name stands there in the file. -/
theorem shows_of_reader (t : StaticTable) {row : List String} {name text : String}
    (h : (importer pyFloat dataset t).reader file row name = .ok text) :
    Shows (t.readHeader file.header) row name text := by
  cases t with
  | trip => exact shows_of_copy h
  | stopTime => exact shows_of_copy h
  | shape => exact shows_of_copy h
  | agency => exact shows_of_orm h
  | calendar => exact shows_of_orm h
  | calendarDate => exact shows_of_orm h
  | route => exact shows_of_orm h
  | stop => exact shows_of_orm h

end Reading

section Building

variable {φ E : Type} {pyFloat : String → Except PyError φ} {dataset name : String} {fields : CsvRow}
variable {d : Enumeration E ℤ}

theorem intField_member {n : ℤ} (hread : ∀ text, fields name = .ok text → ReadsAs d text)
    (h : intField fields name = .ok n) : ∃ e, d.value e = n := by
  obtain ⟨text, htext, hn⟩ := bind_eq_ok.1 h
  obtain ⟨e, he⟩ := hread text htext
  exact ⟨e, Except.ok.inj (he.symm.trans hn)⟩

theorem optionalIntField_member {o : Option ℤ}
    (hread : ∀ text, fields name = .ok text → text = "" ∨ ReadsAs d text)
    (h : optionalIntField fields name = .ok o) : ∀ n ∈ o, ∃ e, d.value e = n := by
  obtain ⟨text, htext, ho⟩ := bind_eq_ok.1 h
  unfold optionalInt at ho
  split_ifs at ho with hempty
  · obtain rfl := Except.ok.inj ho
    exact fun n hn => absurd hn (Option.not_mem_none n)
  · obtain ⟨m, hm, ho⟩ := bind_eq_ok.1 ho
    obtain rfl := Except.ok.inj ho
    obtain ⟨e, he⟩ := (hread text htext).resolve_left hempty
    rintro n hn
    obtain rfl := Option.some.inj hn
    exact ⟨e, Except.ok.inj (he.symm.trans hm)⟩

/-- The importer of routes checks their types. -/
theorem routeModelOf_enumerated {route : RouteModel} (h : routeModelOf dataset fields = .ok route) :
    Enumerated (φ := φ) .route route := by
  iterate 5 obtain ⟨_, -, h⟩ := bind_eq_ok.1 h
  obtain ⟨routeType, -, h⟩ := bind_eq_ok.1 h
  obtain ⟨htype, h⟩ := guard_eq_ok.1 h
  iterate 3 obtain ⟨_, -, h⟩ := bind_eq_ok.1 h
  obtain rfl := Except.ok.inj h
  have hmember : routeType ∈ RouteType.enum.members.map RouteType.enum.value := not_not.1 htype
  obtain ⟨e, -, he⟩ := List.mem_map.1 hmember
  exact ⟨e, he⟩

theorem tripRecord_enumerated {trip : TripModel}
    (hread : ∀ text, fields "direction_id" = .ok text → ReadsAs Direction.enum text)
    (h : tripRecord dataset fields = .ok trip) : Enumerated (φ := φ) .trip trip := by
  iterate 6 obtain ⟨_, -, h⟩ := bind_eq_ok.1 h
  obtain ⟨direction, hdirection, h⟩ := bind_eq_ok.1 h
  obtain ⟨_, -, h⟩ := bind_eq_ok.1 h
  obtain rfl := Except.ok.inj h
  exact intField_member hread hdirection

theorem stopRowOf_enumerated {stop : StopRow φ}
    (hread : ∀ text, fields "location_type" = .ok text →
      text = "" ∨ ReadsAs LocationType.enum text)
    (h : stopRowOf pyFloat dataset fields = .ok stop) : Enumerated .stop stop := by
  iterate 10 obtain ⟨_, -, h⟩ := bind_eq_ok.1 h
  obtain ⟨locationType, hlocation, h⟩ := bind_eq_ok.1 h
  obtain ⟨_, -, h⟩ := bind_eq_ok.1 h
  obtain rfl := Except.ok.inj h
  exact optionalIntField_member hread hlocation

theorem stopTimeRecord_enumerated {record : ℤ → StopTimeModel}
    (hpickup : ∀ text, fields "pickup_type" = .ok text → text = "" ∨ ReadsAs PickupType.enum text)
    (hdropoff : ∀ text, fields "drop_off_type" = .ok text →
      text = "" ∨ ReadsAs DropoffType.enum text)
    (htimepoint : ∀ text, fields "timepoint" = .ok text → text = "" ∨ ReadsAs Timepoint.enum text)
    (h : stopTimeRecord dataset fields = .ok record) (id : ℤ) :
    Enumerated (φ := φ) .stopTime (record id) := by
  iterate 6 obtain ⟨_, -, h⟩ := bind_eq_ok.1 h
  obtain ⟨pickupType, hpickups, h⟩ := bind_eq_ok.1 h
  obtain ⟨dropoffType, hdropoffs, h⟩ := bind_eq_ok.1 h
  obtain ⟨timepoint, htimepoints, h⟩ := bind_eq_ok.1 h
  obtain rfl := Except.ok.inj h
  exact ⟨optionalIntField_member hpickup hpickups, optionalIntField_member hdropoff hdropoffs,
    optionalIntField_member htimepoint htimepoints⟩

theorem keyed_eq_ok {α : Type} {model : Except PyError α} {record : ℤ → α}
    (h : keyed model = .ok record) : ∃ m, model = .ok m ∧ ∀ id, record id = m := by
  obtain ⟨m, hm, h⟩ := bind_eq_ok.1 h
  obtain rfl := Except.ok.inj h
  exact ⟨m, hm, fun _ => rfl⟩

/-- What an importer makes of numbers of members. -/
theorem build_enumerated (t : StaticTable) {record : ℤ → t.Row φ}
    (hcolumns : ∀ column ∈ enumColumns t, ∀ text, fields column.1 = .ok text → column.2 text)
    (h : (importer pyFloat dataset t).build fields = .ok record) (id : ℤ) :
    Enumerated t (record id) := by
  cases t with
  | agency => trivial
  | calendar => trivial
  | calendarDate => trivial
  | shape => trivial
  | route =>
      obtain ⟨route, hroute, hrecord⟩ := keyed_eq_ok h
      rw [hrecord]
      exact routeModelOf_enumerated hroute
  | stop =>
      obtain ⟨stop, hstop, hrecord⟩ := keyed_eq_ok h
      rw [hrecord]
      exact stopRowOf_enumerated (hcolumns _ List.mem_cons_self) hstop
  | trip =>
      obtain ⟨trip, htrip, hrecord⟩ := keyed_eq_ok h
      rw [hrecord]
      exact tripRecord_enumerated (hcolumns _ List.mem_cons_self) htrip
  | stopTime =>
      exact stopTimeRecord_enumerated (hcolumns _ List.mem_cons_self)
        (hcolumns _ (List.mem_cons_of_mem _ List.mem_cons_self))
        (hcolumns _ (List.mem_cons_of_mem _ (List.mem_cons_of_mem _ List.mem_cons_self))) h id

end Building

section Runs

variable {φ : Type} {pyFloat : String → Except PyError φ} {dataset : String}
variable {files : StaticTable → Option CsvFile} {ts : List StaticTable} {returns : Bool}
variable {db db' : StaticDb φ}

theorem mem_of_restrict {t t' : StaticTable} {keep : t.Row φ → Bool}
    {features : List StopFeatureRow} {hsub} {hstop} {row : t'.Row φ}
    (h : row ∈ (db.restrict t keep features hsub hstop).rows t') : row ∈ db.rows t' := by
  by_cases ht : t' = t
  · subst ht
    rw [StaticDb.restrict_rows_self] at h
    exact List.mem_of_mem_filter h
  · rwa [StaticDb.restrict_rows_of_ne _ ht] at h

/-- Clearing a table adds no row to any. -/
theorem mem_of_clearTable {t t' : StaticTable} {cleared : StaticDb φ} {row : t'.Row φ}
    (h : db.clearTable t dataset = some cleared) (hrow : row ∈ cleared.rows t') :
    row ∈ db.rows t' := by
  unfold StaticDb.clearTable at h
  split at h
  · obtain rfl := Option.some.inj h
    exact mem_of_restrict hrow
  · obtain rfl := Option.some.inj h
    exact mem_of_restrict hrow
  · unfold StaticDb.truncate at h
    split_ifs at h
    obtain rfl := Option.some.inj h
    exact mem_of_restrict hrow

section Keeping

variable {P : (t : StaticTable) → t.Row φ → Prop}

def Builds (pyFloat : String → Except PyError φ) (dataset : String)
    (P : (t : StaticTable) → t.Row φ → Prop) (t : StaticTable) (file : CsvFile) : Prop :=
  ∀ row ∈ file.rows, ∀ record, (importer pyFloat dataset t).build
    ((importer pyFloat dataset t).reader file row) = .ok record → ∀ id, P t (record id)

theorem forall_fill {t : StaticTable} {cleared filled : StaticDb φ} {file : CsvFile}
    {records : List (ℤ → t.Row φ)} {serials : List ℤ} (hfile : Builds pyFloat dataset P t file)
    (hclear : db.clearTable t dataset = some cleared)
    (hdata : ImportData file (importer pyFloat dataset t) records returns)
    (hinsert : cleared.insert t (insertedRows records serials) = some filled)
    (hdb : ∀ t, ∀ row ∈ db.rows t, P t row) : ∀ t, ∀ row ∈ filled.rows t, P t row := by
  intro t' row hrow
  obtain ⟨-, hself, hother, -⟩ := insert_cases hinsert
  by_cases ht : t' = t
  · subst ht
    rw [hself] at hrow
    rcases List.mem_append.1 hrow with hold | hnew
    · exact hdb t' row (mem_of_clearTable hclear hold)
    · obtain ⟨record, hrecord, id, rfl⟩ := mem_insertedRows hnew
      obtain ⟨line, hline, hbuild⟩ := importData_row hdata record hrecord
      exact hfile line hline record hbuild id
  · rw [hother t' ht] at hrow
    exact hdb t' row (mem_of_clearTable hclear hrow)

/-- What all rows have before an import, and all that it makes, the rows after it have. -/
theorem importTables_forall
    (hfiles : ∀ t file, files t = some file → Builds pyFloat dataset P t file)
    (h : ImportTables pyFloat dataset files ts db db' returns)
    (hdb : ∀ t, ∀ row ∈ db.rows t, P t row) : ∀ t, ∀ row ∈ db'.rows t, P t row := by
  induction h with
  | nil db => exact hdb
  | skip _ _ ih => exact ih hdb
  | fill hfile hclear hdata _ hinsert _ ih =>
      exact ih (forall_fill (hfiles _ _ hfile) hclear hdata hinsert hdb)
  | raise hfile hclear hdata _ hinsert =>
      exact forall_fill (hfiles _ _ hfile) hclear hdata hinsert hdb
  | raiseFirst db => exact hdb

end Keeping

theorem importRun_routes (h : ImportRun pyFloat db db')
    (hdb : ∀ row ∈ db.rows .route, Enumerated .route row) :
    ∀ row ∈ db'.rows .route, Enumerated .route row := by
  obtain ⟨dataset, files, returns, hrun⟩ := h
  have hall : ∀ t, ∀ row ∈ db'.rows t, t = .route → Enumerated t row := by
    refine importTables_forall (fun t file _ line _ record hbuild id ht => ?_) hrun
      (fun t row hrow ht => ?_)
    · subst ht
      exact build_enumerated .route (fun _ hcolumn => absurd hcolumn List.not_mem_nil) hbuild id
    · subst ht
      exact hdb row hrow
  exact fun row hrow => hall .route row hrow rfl

theorem membersImportRun_enumerated (h : MembersImportRun pyFloat db db')
    (hdb : ∀ t, ∀ row ∈ db.rows t, Enumerated t row) :
    ∀ t, ∀ row ∈ db'.rows t, Enumerated t row := by
  obtain ⟨dataset, files, returns, hkeeps, hrun⟩ := h
  refine importTables_forall (fun t file hfile line hline record hbuild id => ?_) hrun hdb
  exact build_enumerated t (fun column hcolumn text htext =>
    hkeeps t file hfile column hcolumn line hline text (shows_of_reader t htext)) hbuild id

end Runs

section Timetables

variable {φ : Type} {db : StaticDb φ} {schedules : List StaticScheduleModel}

/-- A timetable is made of rows of the tables. -/
theorem rows_of_timetable (h : Timetable db schedules) : ∀ s ∈ schedules,
    s.route ∈ db.rows .route ∧ s.stopTime ∈ db.rows .stopTime ∧ s.trip ∈ db.rows .trip := by
  obtain ⟨now, stopId, startTime, endTime, day, h⟩ := h
  simp only [getScheduleByStopId] at h
  split_ifs at h
  obtain rfl := Except.ok.inj h
  intro s hs
  have hlisted := (applyCustom2300Sorting_perm _ _).subset hs
  rcases mem_addInAddedExceptions.1 hlisted with hregular | ⟨s', hjoin, -, -, -, rfl⟩
  · have hjoin := (mem_getStaticSchedules.1 (List.mem_of_mem_filter hregular)).1
    exact ⟨hjoin.route.1, hjoin.stopTime, hjoin.trip.1⟩
  · exact ⟨hjoin.route.1, hjoin.stopTime, hjoin.trip.1⟩

theorem accepted_timetable (h : Timetable db schedules)
    (hroutes : ∀ row ∈ db.rows .route, Enumerated .route row) :
    Accepted (schedules.mapM StaticSchedule.modelValidate) ↔ ∀ s ∈ schedules,
      Enumerated (φ := φ) .stopTime s.stopTime ∧ Enumerated (φ := φ) .trip s.trip := by
  refine exists_mapM_iff.trans (forall₂_congr (fun s hs => ?_))
  refine (accepted_staticSchedule (φ := φ)).trans (and_iff_right ?_)
  exact hroutes s.route (rows_of_timetable h s hs).1

end Timetables

section Statement

variable {φ : Type}

/-- After any imports, and after imports of files in which the numbers are those of members. -/
theorem static_tables_served (pyFloat : String → Except PyError φ) :
    (∀ db, Relation.ReflTransGen (ImportRun pyFloat) .empty db → ServesMembers db) ∧
      ∀ db, Relation.ReflTransGen (MembersImportRun pyFloat) .empty db → ServesAll db := by
  constructor
  · intro db h
    have hroutes : ∀ row ∈ db.rows .route, Enumerated .route row := by
      induction h with
      | refl => exact fun _ hrow => absurd hrow List.not_mem_nil
      | tail _ hrun ih => exact importRun_routes hrun ih
    exact ⟨fun t row _ => accepted_modelValidate t row,
      fun row hrow => accepted_route.2 (hroutes row hrow),
      fun t row _ row' _ x hx hx' => modelValidate_inj t hx hx',
      fun schedules hschedules => accepted_timetable hschedules hroutes⟩
  · intro db h
    have hrows : ∀ t, ∀ row ∈ db.rows t, Enumerated t row := by
      induction h with
      | refl => exact fun _ _ hrow => absurd hrow List.not_mem_nil
      | tail _ hrun ih => exact membersImportRun_enumerated hrun ih
    refine ⟨fun t row hrow => (accepted_modelValidate t row).2 (hrows t row hrow),
      fun schedules hschedules => (accepted_timetable hschedules (hrows .route)).2 ?_⟩
    intro s hs
    obtain ⟨-, hstopTime, htrip⟩ := rows_of_timetable hschedules s hs
    exact ⟨hrows .stopTime _ hstopTime, hrows .trip _ htrip⟩

end Statement

section Sample

def unplacedStop : StopRow ℚ := ⟨⟨"a", "", "", "", "", "", some 9, none, "A"⟩, 0, 0⟩

def unplacedFile : CsvFile where
  header := stopsFile.header
  rows := [["a", "", "", "", "", "", "", "", "9", ""]]
  full := by decide

def unplacedFiles (t : StaticTable) : Option CsvFile :=
  if t = .stop then some unplacedFile else none

theorem unplacedFile_imported :
    ImportData unplacedFile (importer zeroFloat "A" .stop) [fun _ => unplacedStop] true :=
  importData_one rfl rfl

theorem onlyStops_keepsToMembers (t : StaticTable) (file : CsvFile)
    (h : onlyStops t = some file) : KeepsToMembers t file := by
  unfold onlyStops at h
  split_ifs at h with ht
  subst ht
  obtain rfl := Option.some.inj h
  intro column hcolumn row hrow text hshows
  obtain rfl := List.mem_singleton.1 hcolumn
  obtain rfl := List.mem_singleton.1 hrow
  have honce : Once stopsFile.header "location_type" := once_of_nodup (by decide) _
  exact Or.inl (honce.eq hshows ⟨8, rfl, rfl⟩)

/-- A stop without a location type is served, and one with a location type of no member is not. -/
theorem static_tables_served_sample :
    (∃ db : StaticDb ℚ, (db.rows .stop).length = 1 ∧ ServesAll db) ∧
      ∃ db : StaticDb ℚ, db.rows .stop = [unplacedStop] ∧ ServesMembers db ∧
        ¬ Accepted (modelValidate .stop unplacedStop) := by
  constructor
  · have hrun : ∃ db : StaticDb ℚ, MembersImportRun zeroFloat .empty db ∧
        (db.rows .stop).length = 1 :=
      ⟨_, ⟨"A", onlyStops, true, onlyStops_keepsToMembers, onlyStops_run rfl rfl⟩, rfl⟩
    obtain ⟨db, hrun, hlength⟩ := hrun
    exact ⟨db, hlength, (static_tables_served zeroFloat).2 db (.single hrun)⟩
  · have hrun : ∃ db : StaticDb ℚ, ImportRun zeroFloat .empty db ∧
        db.rows .stop = [unplacedStop] :=
      ⟨_, ⟨"A", unplacedFiles, true, .skip rfl (.skip rfl (.skip rfl (.skip rfl
        (.fill rfl rfl unplacedFile_imported (rfl : [(0 : ℤ)].length = 1) rfl
          (.skip rfl (.skip rfl (.skip rfl (.nil _))))))))⟩, rfl⟩
    obtain ⟨db, hrun, hrows⟩ := hrun
    have hserves := (static_tables_served zeroFloat).1 db (.single hrun)
    refine ⟨db, hrows, hserves, ?_⟩
    rw [hserves.rows .stop unplacedStop (hrows ▸ List.mem_singleton_self _)]
    intro hmember
    obtain ⟨e, he⟩ := hmember 9 rfl
    cases e <;> cases he

end Sample

end SimplyTransport
