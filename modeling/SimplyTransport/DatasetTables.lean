import SimplyTransport.GtfsImporters

/-!
# The eight static tables and their importers

The row of each table, the file that it is imported from, and the importer that makes records of
the file for a dataset. Every record has the dataset of its importer. Serial numbers are given
when a record is inserted; the other keys come from the file. `pyFloat` is `float` of a text.
-/

namespace SimplyTransport

structure AgencyRow extends AgencyModel where
  url : String
  timezone : String

structure StopRow (φ : Type) extends StopModel where
  lat : φ
  lon : φ

structure ShapeModel (φ : Type) where
  id : ℤ
  shapeId : String
  lat : φ
  lon : φ
  sequence : ℤ
  distance : Option φ
  dataset : String

inductive StaticTable
  | agency
  | calendar
  | calendarDate
  | route
  | stop
  | trip
  | stopTime
  | shape
  deriving DecidableEq

namespace StaticTable

def tableName : StaticTable → String
  | agency => "agency"
  | calendar => "calendar"
  | calendarDate => "calendar_date"
  | route => "route"
  | stop => "stop"
  | trip => "trip"
  | stopTime => "stop_time"
  | shape => "shape"

abbrev Row (φ : Type) : StaticTable → Type
  | agency => AgencyRow
  | calendar => CalendarModel
  | calendarDate => CalendarDateModel
  | route => RouteModel
  | stop => StopRow φ
  | trip => TripModel
  | stopTime => StopTimeModel
  | shape => ShapeModel φ

variable {φ : Type}

def dataset : (t : StaticTable) → t.Row φ → String
  | agency, r => r.dataset
  | calendar, r => r.dataset
  | calendarDate, r => r.dataset
  | route, r => r.dataset
  | stop, r => r.dataset
  | trip, r => r.dataset
  | stopTime, r => r.dataset
  | shape, r => r.dataset

/-- The primary key, where it is not a serial number. -/
def key : (t : StaticTable) → t.Row φ → Option String
  | agency, r => some r.id
  | calendar, r => some r.id
  | calendarDate, _ => none
  | route, r => some r.id
  | stop, r => some r.id
  | trip, r => some r.id
  | stopTime, _ => none
  | shape, _ => none

end StaticTable

def shapeCsvFields : List String :=
  ["shape_id", "shape_pt_lat", "shape_pt_lon", "shape_pt_sequence", "shape_dist_traveled"]

section Records

variable {φ : Type} (pyFloat : String → Except PyError φ) (dataset : String) (row : CsvRow)

def optionalFloat (value : String) : Except PyError (Option φ) :=
  if value = "" then .ok none else do return some (← pyFloat value)

def agencyModelOf : Except PyError AgencyRow := do
  let id ← row "agency_id"
  let name ← row "agency_name"
  let url ← row "agency_url"
  let timezone ← row "agency_timezone"
  return { id := id, name := name, dataset := dataset, url := url, timezone := timezone }

def stopRowOf : Except PyError (StopRow φ) := do
  let id ← row "stop_id"
  let code ← row "stop_code"
  let name ← row "stop_name"
  let description ← row "stop_desc"
  let lat ← pyFloat (← row "stop_lat")
  let lon ← pyFloat (← row "stop_lon")
  let zoneId ← row "zone_id"
  let url ← row "stop_url"
  let locationType ← optionalIntField row "location_type"
  let parentStation ← row "parent_station"
  return {
    id := id
    code := code
    name := name
    description := description
    zoneId := zoneId
    url := url
    locationType := locationType
    parentStation := if parentStation = "" then none else some parentStation
    dataset := dataset
    lat := lat
    lon := lon }

def shapeRecord : Except PyError (ℤ → ShapeModel φ) := do
  let shapeId ← row "shape_id"
  let lat ← pyFloat (← row "shape_pt_lat")
  let lon ← pyFloat (← row "shape_pt_lon")
  let sequence ← intField row "shape_pt_sequence"
  let distance ← optionalFloat pyFloat (← row "shape_dist_traveled")
  return fun id => ⟨id, shapeId, lat, lon, sequence, distance, dataset⟩

end Records

/-- An importer through the ORM, or one that copies records of the fields it looks up. -/
inductive Importer (α : Type)
  | orm (buildModel : CsvRow → Except PyError α)
  | copy (csvFields : List String) (recordFromRow : CsvRow → Except PyError α)

namespace Importer

variable {α : Type}

def build : Importer α → CsvRow → Except PyError α
  | orm buildModel => buildModel
  | copy _ recordFromRow => recordFromRow

def records (file : CsvFile) : Importer α → Except PyError (List α)
  | orm buildModel => ormImport file buildModel
  | copy csvFields recordFromRow => copyImport file csvFields recordFromRow

end Importer

section Importers

variable {φ : Type} (pyFloat : String → Except PyError φ) (dataset : String)

/-- A row whose key is in the file takes no serial number. -/
def keyed {α : Type} (model : Except PyError α) : Except PyError (ℤ → α) := do
  let m ← model
  return fun _ => m

def importer : (t : StaticTable) → Importer (ℤ → t.Row φ)
  | .agency => .orm (fun row => keyed (agencyModelOf dataset row))
  | .calendar => .orm (fun row => keyed (calendarModelOf dataset row))
  | .calendarDate => .orm (calendarDateModelOf dataset)
  | .route => .orm (fun row => keyed (routeModelOf dataset row))
  | .stop => .orm (fun row => keyed (stopRowOf pyFloat dataset row))
  | .trip => .copy tripCsvFields (fun row => keyed (tripRecord dataset row))
  | .stopTime => .copy stopTimeCsvFields (stopTimeRecord dataset)
  | .shape => .copy shapeCsvFields (shapeRecord pyFloat dataset)

end Importers

section Dataset

def Yields {α : Type} (P : α → Prop) (x : Except PyError α) : Prop := ∀ a, x = .ok a → P a

variable {α β φ : Type} {P : α → Prop} {pyFloat : String → Except PyError φ} {dataset : String}
  {row : CsvRow}

theorem yields_pure {a : α} (h : P a) : Yields P (pure a) := fun _ ha => Except.ok.inj ha ▸ h

theorem yields_error {e : PyError} : Yields P (.error e) := nofun

theorem yields_bind {x : Except PyError β} {f : β → Except PyError α}
    (h : ∀ b, Yields P (f b)) : Yields P (x >>= f) := by
  intro a ha
  obtain ⟨b, _, hf⟩ := bind_eq_ok.1 ha
  exact h b a hf

theorem yields_keyed {x : Except PyError α} (h : Yields P x) :
    Yields (fun record : ℤ → α => ∀ id, P (record id)) (keyed x) := by
  intro record hrecord
  obtain ⟨m, hm, hf⟩ := bind_eq_ok.1 hrecord
  obtain rfl := Except.ok.inj hf
  exact fun _ => h m hm

theorem agencyModelOf_dataset :
    Yields (fun r : AgencyRow => r.dataset = dataset) (agencyModelOf dataset row) := by
  iterate 4 refine yields_bind (fun _ => ?_)
  exact yields_pure rfl

theorem calendarModelOf_dataset :
    Yields (fun r : CalendarModel => r.dataset = dataset) (calendarModelOf dataset row) := by
  iterate 10 refine yields_bind (fun _ => ?_)
  exact yields_pure rfl

theorem calendarDateModelOf_dataset :
    Yields (fun record : ℤ → CalendarDateModel => ∀ id, (record id).dataset = dataset)
      (calendarDateModelOf dataset row) := by
  iterate 4 refine yields_bind (fun _ => ?_)
  exact yields_pure (fun _ => rfl)

theorem routeModelOf_dataset :
    Yields (fun r : RouteModel => r.dataset = dataset) (routeModelOf dataset row) := by
  iterate 6 refine yields_bind (fun _ => ?_)
  split_ifs
  · iterate 3 refine yields_bind (fun _ => ?_)
    exact yields_pure rfl
  · exact yields_error

theorem stopRowOf_dataset :
    Yields (fun r : StopRow φ => r.dataset = dataset) (stopRowOf pyFloat dataset row) := by
  iterate 12 refine yields_bind (fun _ => ?_)
  exact yields_pure rfl

theorem tripRecord_dataset :
    Yields (fun r : TripModel => r.dataset = dataset) (tripRecord dataset row) := by
  iterate 8 refine yields_bind (fun _ => ?_)
  exact yields_pure rfl

theorem stopTimeRecord_dataset :
    Yields (fun record : ℤ → StopTimeModel => ∀ id, (record id).dataset = dataset)
      (stopTimeRecord dataset row) := by
  iterate 9 refine yields_bind (fun _ => ?_)
  exact yields_pure (fun _ => rfl)

theorem shapeRecord_dataset :
    Yields (fun record : ℤ → ShapeModel φ => ∀ id, (record id).dataset = dataset)
      (shapeRecord pyFloat dataset row) := by
  iterate 8 refine yields_bind (fun _ => ?_)
  exact yields_pure (fun _ => rfl)

/-- What an importer makes of a row has its dataset. -/
theorem importer_dataset (t : StaticTable) :
    Yields (fun record => ∀ id, t.dataset (record id) = dataset)
      ((importer pyFloat dataset t).build row) := by
  cases t with
  | agency => exact yields_keyed agencyModelOf_dataset
  | calendar => exact yields_keyed calendarModelOf_dataset
  | calendarDate => exact calendarDateModelOf_dataset
  | route => exact yields_keyed routeModelOf_dataset
  | stop => exact yields_keyed stopRowOf_dataset
  | trip => exact yields_keyed tripRecord_dataset
  | stopTime => exact stopTimeRecord_dataset
  | shape => exact shapeRecord_dataset

end Dataset

end SimplyTransport
