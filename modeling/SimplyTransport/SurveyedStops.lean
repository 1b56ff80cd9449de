import SimplyTransport.DatabaseStatistics
import SimplyTransport.DatasetIsolation
import SimplyTransport.References
import SimplyTransport.RouteMap
import SimplyTransport.StaticContracts
import SimplyTransport.StopFeatures
import SimplyTransport.StopPopups

/-!
# What the pages tell of the features of the stops

The maps of all stops, of realtime displays, of shelters and of unsurveyed stops, the popups of
their stops and the statistics read the tables `stop` and `stop_feature` with queries of their own.
Imports of datasets and of stop features write these tables, in any order and with any failure. The
maps always show as many stops as the statistics count. The rest agrees exactly while no stop has
two rows of features, which imports keep that find their dataset cleared and name no stop twice.
-/

namespace SimplyTransport

open References

structure SurveyDb (φ : Type) where
  static : StaticDb φ
  records : List StopFeatureRecord
  records_eq : records.map (fun f => f.toStopFeatureRow) = static.features
  nextId : ℤ

inductive StaticStopMapTypes
  | allStops
  | realtimeDisplays
  | shelteredStops
  | unsurveyed
  deriving DecidableEq

structure StaticStopsMapPayload (φ : Type) where
  center : φ × φ
  zoom : ℕ
  mapType : StaticStopMapTypes
  stops : List (StopMapStop φ)

namespace SurveyDb

variable {φ : Type} (s : SurveyDb φ)

section Tables

theorem record_stop : ∀ f ∈ s.records, ∃ stop ∈ s.static.rows .stop, stop.id = f.stopId := by
  intro f hf
  have hrow : f.toStopFeatureRow ∈ s.static.features := by
    rw [← s.records_eq]
    exact List.mem_map_of_mem hf
  exact s.static.feature_stop _ hrow

def featureDb : FeatureDb φ := ⟨s.static.rows .stop, s.records, s.record_stop, s.nextId⟩

def withFeatures (db : FeatureDb φ) (hstops : db.stops = s.static.rows .stop) : SurveyDb φ where
  static := { s.static with
    features := db.features.map (fun f => f.toStopFeatureRow)
    feature_stop := by
      intro f hf
      obtain ⟨record, hrecord, rfl⟩ := List.mem_map.1 hf
      rw [← hstops]
      exact db.feature_stop record hrecord }
  records := db.features
  records_eq := rfl
  nextId := db.nextId

def clearDatabase (importer : StopFeaturesImporter) : SurveyDb φ :=
  s.withFeatures (importer.clearDatabase s.featureDb) rfl

theorem stops_of_import {importer : StopFeaturesImporter} {db : FeatureDb φ}
    {result : ImportTotals × FeatureDb φ} (h : importer.importStopFeatures db = .ok result) :
    result.2.stops = db.stops := by
  obtain ⟨_, -, hstops, -, -⟩ := StopFeaturesImporter.importStopFeatures_ok h
  exact hstops

def importStopFeatures (importer : StopFeaturesImporter) : Except PyError (SurveyDb φ) :=
  match h : importer.importStopFeatures s.featureDb with
  | .ok result => .ok (s.withFeatures result.2 (stops_of_import h))
  | .error e => .error e

def empty : SurveyDb φ where
  static := .empty
  records := []
  records_eq := rfl
  nextId := 1

/-- The steps of the imports. Those of features are taken where `C` holds; one that raises, and a
run of `import_gtfs_dataset` that does so, leaves what it committed. -/
inductive Step (pyFloat : String → Except PyError φ) (C : StopFeaturesImporter → SurveyDb φ → Prop)
    (s s' : SurveyDb φ) : Prop
  | importGtfs : ImportRun pyFloat s.static s'.static → s'.records.Sublist s.records → Step pyFloat C s s'
  | clear (importer : StopFeaturesImporter) : s' = s.clearDatabase importer → Step pyFloat C s s'
  | importStopFeatures (importer : StopFeaturesImporter) : C importer s →
      s.importStopFeatures importer = .ok s' → Step pyFloat C s s'

def Reachable (pyFloat : String → Except PyError φ) (C : StopFeaturesImporter → SurveyDb φ → Prop) :
    SurveyDb φ → Prop := Relation.ReflTransGen (Step pyFloat C) empty

/-- The dataset of the import is cleared, and its known stops are different. -/
def Careful (importer : StopFeaturesImporter) (s : SurveyDb φ) : Prop :=
  (∀ f ∈ s.records, f.dataset ≠ importer.dataset) ∧
    ((importer.knownStops s.featureDb).map Prod.fst).Nodup

end Tables

section Pages

def joinStopFeature (p : StopFeatureRecord → Bool) : List (StopRow φ) :=
  joined (fun stop : StopRow φ => stop.id) (fun f : StopFeatureRecord => f.stopId)
    (s.static.rows .stop) (s.records.filter p)

def getStopsForStaticMapType : StaticStopMapTypes → List (StopRow φ)
  | .allStops => s.static.rows .stop
  | .realtimeDisplays => s.joinStopFeature (fun f => f.rtpiActive)
  | .shelteredStops => s.joinStopFeature (fun f => f.shelterActive)
  | .unsurveyed => s.joinStopFeature (fun f => f.surveyed = some false)

/-- `_center_from_stops` by a mean of coordinates; there is no result where it divides by zero. -/
def centerFromStops (mean : List φ → φ) (defaultMapCenter : φ × φ) (stops : List (LocatedStop φ)) :
    Option (φ × φ) :=
  let lats := stops.filterMap (fun stop => stop.lat)
  let lons := stops.filterMap (fun stop => stop.lon)
  if lats.isEmpty then some defaultMapCenter
  else if lons.isEmpty then none
  else some (mean lons, mean lats)

def buildStaticStopMapPayload (mean : List φ → φ) (defaultMapCenter : φ × φ)
    (stops : List (LocatedStop φ)) (mapType : StaticStopMapTypes) :
    Option (StaticStopsMapPayload φ) :=
  (centerFromStops mean defaultMapCenter stops).map (fun center =>
    ⟨center, 7, mapType, stops.filterMap (fun stop => stopToMapStop stop false)⟩)

def LoadsFeature (stopId : String) : Option StopFeatureRecord → Prop
  | some f => f ∈ s.records ∧ f.stopId = stopId
  | none => ∀ f ∈ s.records, f.stopId ≠ stopId

def streetViewUrl (repr : φ → String) : Option φ → Option φ → String
  | some lat, some lon => "https://www.google.com/maps?layer=c&cbll=" ++ repr lat ++ "," ++ repr lon ++
      "&cbp=0,0,,,"
  | _, _ => ""

/-- `assemble_stop_detailed`, as the popups read it. A stop whose location type is of no member is
rejected. -/
def assembleStopDetailed (repr : φ → String) (stop : StopRow φ)
    (stopFeature : Option StopFeatureRecord) (routeModels : List RouteModel) :
    Except PyError StopMapPopup.Detail := do
  let validated ← ApiContracts.Stop.modelValidate stop
  return {
    stop := ⟨.string (StopMapPopup.js validated.id), .string (StopMapPopup.js validated.code),
      .string (StopMapPopup.js validated.name)⟩
    routes := some (routeModels.map (fun r => ⟨.string (StopMapPopup.js r.id),
      .string (StopMapPopup.js r.shortName), .string (StopMapPopup.js r.longName)⟩))
    stopFeatures := stopFeature.map (fun sf =>
      ⟨sf.wheelchairAccessability, some sf.shelterActive, some sf.rtpiActive⟩)
    streetViewUrl :=
      .string (StopMapPopup.js (streetViewUrl repr stop.located.lat stop.located.lon)) }

def sources (delays : List TSStopTimeRow) (now : DateTime) : StatisticsSources φ where
  static := s.static
  stopFeatures := s.records.map (fun f => f.toStopFeatureModel)
  stopFeatures_eq := by
    rw [List.map_map]
    exact s.records_eq
  delays := delays
  now := now

end Pages

section Statement

def statisticOf : StaticStopMapTypes → StatisticType × String
  | .allStops => (.gtfsRecordCounts, "Stops")
  | .realtimeDisplays => (.stopFeatureCounts, "RealTime Display")
  | .shelteredStops => (.stopFeatureCounts, "Shelter Available")
  | .unsurveyed => (.stopFeatureCounts, "Unsurveyed Stops")

/-- The statistics have the key with this value, whatever was delayed and whenever they are made. -/
def Counts (type : StatisticType) (key : String) (value : ℕ) : Prop :=
  ∀ delays now, (key, value) ∈ computed (s.sources delays now) type

/-- Each map can be built of what the query returns, in any order. It shows all of it, and as many
stops as the statistics count; and a row of features is of a surveyed stop or of an unsurveyed. -/
structure MapsCounted : Prop where
  maps : ∀ (type : StaticStopMapTypes) (answer : List (StopRow φ)),
    answer.Perm (s.getStopsForStaticMapType type) → ∀ mean defaultMapCenter, ∃ center,
      buildStaticStopMapPayload mean defaultMapCenter (answer.map StopRow.located) type =
        some ⟨center, 7, type, answer.map (fun stop => stop.mapStop false)⟩
  counts : ∀ type, s.Counts (statisticOf type).1 (statisticOf type).2
    (s.getStopsForStaticMapType type).length
  surveys : ∃ surveyed unsurveyed, s.Counts .stopFeatureCounts "Surveyed Stops" surveyed ∧
    s.Counts .stopFeatureCounts "Unsurveyed Stops" unsurveyed ∧
    s.Counts .gtfsRecordCounts "Stop Features" (surveyed + unsurveyed)

def withoutFeatures : List (StopRow φ) :=
  unmatched (fun stop : StopRow φ => stop.id) (fun f : StopFeatureRecord => f.stopId)
    (s.static.rows .stop) s.records

structure PopupAgrees (stop : StopRow φ) (features : Option StopMapPopup.StopFeatures) : Prop where
  display : features.bind StopMapPopup.StopFeatures.rtpiActive = some true ↔
    stop ∈ s.getStopsForStaticMapType .realtimeDisplays
  shelter : features.bind StopMapPopup.StopFeatures.shelterActive = some true ↔
    stop ∈ s.getStopsForStaticMapType .shelteredStops
  none : features = Option.none ↔ stop ∈ s.withoutFeatures

/-- The request of a popup is answered for the stops with a location type of GTFS or none, and fails
for the others, whatever else is loaded. -/
def PopupsAnswered : Prop :=
  ∀ stop ∈ s.static.rows .stop, ∀ stopFeature, s.LoadsFeature stop.id stopFeature →
    ∀ repr routeModels, Accepted (assembleStopDetailed repr stop stopFeature routeModels) ↔
      ApiContracts.Enumerated .stop stop

/-- No map shows a stop twice, the popups that are answered agree with the maps, and each stop is
counted once, with its features or without. -/
structure PagesAgree : Prop where
  once : ∀ type, ((s.getStopsForStaticMapType type).map (fun stop => stop.id)).Nodup
  popups : ∀ stop ∈ s.static.rows .stop, ∀ stopFeature, s.LoadsFeature stop.id stopFeature →
    ∀ repr routeModels detail,
      assembleStopDetailed repr stop stopFeature routeModels = .ok detail →
      s.PopupAgrees stop detail.stopFeatures
  total : ∃ features without, s.Counts .gtfsRecordCounts "Stop Features" features ∧
    s.Counts .stopFeatureCounts "Stops with no features" without ∧
    s.Counts .gtfsRecordCounts "Stops" (features + without)

end Statement

section Imports

variable {s} {s' : SurveyDb φ} {pyFloat : String → Except PyError φ}
variable {C : StopFeaturesImporter → SurveyDb φ → Prop}

theorem nodup_stops : ((s.static.rows .stop).map (fun stop => stop.id)).Nodup := by
  have hnodup := s.static.keys_nodup .stop
  have hsome : StaticTable.stop.key = some ∘ (fun stop : StopRow φ => stop.id) := rfl
  rwa [hsome, ← List.filterMap_map, List.filterMap_some] at hnodup

/-- What all imports keep: a record has the dataset of its stop, and tells whether it was surveyed. -/
structure Sound (s : SurveyDb φ) : Prop where
  owned : s.static.FeaturesOwned
  surveyed : ∀ f ∈ s.records, f.surveyed ≠ none

theorem Sound.dataset_eq (h : Sound s) {f : StopFeatureRecord} (hf : f ∈ s.records)
    {stop : StopRow φ} (hstop : stop ∈ s.static.rows .stop) (hid : stop.id = f.stopId) :
    stop.dataset = f.dataset := by
  have hrow : f.toStopFeatureRow ∈ s.static.features := by
    rw [← s.records_eq]
    exact List.mem_map_of_mem hf
  exact h.owned _ hrow stop hstop hid

theorem sound_of_records (hdataset : ∀ f ∈ s.records, ∀ stop ∈ s.static.rows .stop,
    stop.id = f.stopId → stop.dataset = f.dataset) (hsurveyed : ∀ f ∈ s.records, f.surveyed ≠ none) :
    Sound s := by
  refine ⟨fun row hrow stop hstop hid => ?_, hsurveyed⟩
  rw [← s.records_eq] at hrow
  obtain ⟨f, hf, rfl⟩ := List.mem_map.1 hrow
  exact hdataset f hf stop hstop hid

theorem sound_empty : Sound (empty : SurveyDb φ) :=
  ⟨fun _ hf => absurd hf List.not_mem_nil, fun _ hf => absurd hf List.not_mem_nil⟩

section Features

open StopFeaturesImporter

variable {f g : StopFeatureRecord}

theorem surveyed_setRtpi {rtpi : Option RtpiProperties} (h : setRtpi f rtpi = .ok g) :
    g.surveyed = f.surveyed := by
  cases rtpi with
  | none =>
      obtain rfl := Except.ok.inj h
      rfl
  | some rtpi =>
      obtain ⟨updated, -, h⟩ := bind_eq_ok.1 h
      obtain rfl := Except.ok.inj h
      rfl

theorem surveyed_setShelter {shelter : Option ShelterProperties} (h : setShelter f shelter = .ok g) :
    g.surveyed = f.surveyed := by
  cases shelter with
  | none =>
      obtain rfl := Except.ok.inj h
      rfl
  | some shelter =>
      obtain ⟨type, -, h⟩ := bind_eq_ok.1 h
      obtain ⟨updated, -, h⟩ := bind_eq_ok.1 h
      obtain rfl := Except.ok.inj h
      rfl

theorem surveyed_setPole {pole : Option PoleProperties} (h : setPole f pole = .ok g) :
    g.surveyed = f.surveyed := by
  cases pole with
  | none =>
      obtain rfl := Except.ok.inj h
      rfl
  | some pole =>
      obtain ⟨updated, -, h⟩ := bind_eq_ok.1 h
      obtain rfl := Except.ok.inj h
      rfl

/-- Only the row of the stop itself says whether it is surveyed. -/
theorem surveyed_of_stopFeature {importer : StopFeaturesImporter} {id : ℤ} {code : String}
    {stop : StopProperties} (h : importer.stopFeature id code stop = .ok f) :
    f.surveyed ≠ none := by
  obtain ⟨f₀, h₀, h⟩ := bind_eq_ok.1 h
  obtain ⟨f₁, h₁, h⟩ := bind_eq_ok.1 h
  obtain ⟨f₂, h₂, h₃⟩ := bind_eq_ok.1 h
  rw [surveyed_setPole h₃, surveyed_setShelter h₂, surveyed_setRtpi h₁]
  obtain ⟨bays, -, h₀⟩ := bind_eq_ok.1 h₀
  obtain rfl := Except.ok.inj h₀
  exact Option.some_ne_none _

end Features

/-- An import of features that returns appends a row for each known stop. -/
theorem importStopFeatures_ok {importer : StopFeaturesImporter}
    (h : s.importStopFeatures importer = .ok s') : s'.static.rows = s.static.rows ∧
      ∃ rows, s'.records = s.records ++ rows ∧ (∀ f ∈ rows, f.surveyed ≠ none) ∧
        List.Forall₂ (fun entry f => importer.RowOf entry.1 f)
          (importer.knownStops s.featureDb) rows := by
  unfold importStopFeatures at h
  split at h
  · rename_i result himport
    obtain rfl := Except.ok.inj h
    obtain ⟨rows, hrows, himport⟩ := bind_eq_ok.1 himport
    obtain ⟨inserted, hinsert, himport⟩ := bind_eq_ok.1 himport
    obtain rfl := Except.ok.inj himport
    have hbuilt := forall₂_of_mapM hrows
    have hfst : (importer.knownStops s.featureDb).zipIdx.map Prod.fst =
        importer.knownStops s.featureDb := List.zipIdx_map_fst 0 _
    refine ⟨rfl, rows.map StopFeatureRecord.stored, (FeatureDb.insert_ok hinsert).1, ?_, ?_⟩
    · intro f hf
      obtain ⟨g, hg, rfl⟩ := List.mem_map.1 hf
      obtain ⟨entry, -, hbuild⟩ := exists_line_of_forall₂ hbuilt g hg
      have hsurveyed : g.surveyed ≠ none := surveyed_of_stopFeature hbuild
      exact hsurveyed
    · rw [← hfst, List.forall₂_map_left_iff, List.forall₂_map_right_iff]
      exact hbuilt.imp (fun _ _ hbuild => (StopFeaturesImporter.stopFeature_rowOf hbuild).stored)
  · cases h

/-- The stop of an imported row has its dataset. -/
theorem dataset_of_known {importer : StopFeaturesImporter} {rows : List StopFeatureRecord}
    (h : List.Forall₂ (fun entry f => importer.RowOf entry.1 f) (importer.knownStops s.featureDb) rows)
    {f : StopFeatureRecord} (hf : f ∈ rows) {stop : StopRow φ}
    (hstop : stop ∈ s.static.rows .stop) (hid : stop.id = f.stopId) :
    stop.dataset = importer.dataset := by
  obtain ⟨entry, hentry, hrow⟩ := exists_line_of_forall₂ h f hf
  have hknown := (StopFeaturesImporter.mem_knownStops.1 hentry).2.2.2
  obtain ⟨known, hmem, hcode⟩ := List.mem_map.1 hknown
  obtain ⟨hmem, hdataset⟩ := List.mem_filter.1 hmem
  have hsame : known = stop := List.inj_on_of_nodup_map s.nodup_stops hmem hstop
    (hcode.trans (hrow.stopId.symm.trans hid.symm))
  rw [← hsame]
  exact of_decide_eq_true hdataset

theorem sound_step (h : Sound s) (hstep : Step pyFloat C s s') : Sound s' := by
  cases hstep with
  | importGtfs hrun hrecords =>
      exact ⟨importRun_owned hrun h.owned, fun f hf => h.surveyed f (hrecords.subset hf)⟩
  | clear importer hclear =>
      subst hclear
      refine sound_of_records (fun f hf stop hstop hid => ?_) (fun f hf => ?_)
      · exact h.dataset_eq (List.mem_of_mem_filter hf) hstop hid
      · exact h.surveyed f (List.mem_of_mem_filter hf)
  | importStopFeatures importer _ himport =>
      obtain ⟨hstatic, rows, hrecords, hsurveyed, hrows⟩ := importStopFeatures_ok himport
      refine sound_of_records (fun f hf stop hstop hid => ?_) (fun f hf => ?_)
      · rw [hstatic] at hstop
        rw [hrecords] at hf
        rcases List.mem_append.1 hf with hf | hf
        · exact h.dataset_eq hf hstop hid
        · exact (dataset_of_known hrows hf hstop hid).trans
            (StopFeaturesImporter.dataset_of_rows hrows f hf).symm
      · rw [hrecords] at hf
        rcases List.mem_append.1 hf with hf | hf
        · exact h.surveyed f hf
        · exact hsurveyed f hf

theorem sound_of_reachable (h : Reachable pyFloat C s) : Sound s := by
  induction h with
  | refl => exact sound_empty
  | tail _ hstep ih => exact sound_step ih hstep

def OneRow (s : SurveyDb φ) : Prop := (s.records.map (fun f => f.stopId)).Nodup

theorem oneRow_step (h : Sound s) (hone : s.OneRow) (hstep : Step pyFloat Careful s s') :
    s'.OneRow := by
  cases hstep with
  | importGtfs _ hrecords => exact hone.sublist (hrecords.map _)
  | clear importer hclear =>
      subst hclear
      exact hone.sublist (List.filter_sublist.map _)
  | importStopFeatures importer hcareful himport =>
      obtain ⟨-, rows, hrecords, -, hrows⟩ := importStopFeatures_ok himport
      obtain ⟨hcleared, hdifferent⟩ := hcareful
      rw [OneRow, hrecords, List.map_append]
      refine List.Nodup.append hone ?_ ?_
      · rw [StopFeaturesImporter.stopIds_of_rows hrows]
        exact hdifferent
      · -- a stop of the dataset, which has no row yet
        intro stopId hold hnew
        obtain ⟨f, hf, rfl⟩ := List.mem_map.1 hold
        obtain ⟨g, hg, hid⟩ := List.mem_map.1 hnew
        obtain ⟨stop, hstop, hstopId⟩ := s.record_stop f hf
        have hother := h.dataset_eq hf hstop hstopId
        exact hcleared f hf (hother.symm.trans
          (dataset_of_known hrows hg hstop (hstopId.trans hid.symm)))

theorem oneRow_of_reachable (h : Reachable pyFloat Careful s) : s.OneRow := by
  induction h with
  | refl => exact List.nodup_nil
  | tail hrun hstep ih => exact oneRow_step (sound_of_reachable hrun) ih hstep

end Imports

section Agreement

variable {s}

theorem record_filter_stop (p : StopFeatureRecord → Bool) :
    ∀ f ∈ s.records.filter p, ∃ stop ∈ s.static.rows .stop, stop.id = f.stopId :=
  fun f hf => s.record_stop f (List.mem_of_mem_filter hf)

theorem length_joinStopFeature (p : StopFeatureRecord → Bool) :
    (s.joinStopFeature p).length = (s.records.filter p).length :=
  length_joined s.nodup_stops (record_filter_stop p)

theorem countFeatures_sources (delays : List TSStopTimeRow) (now : DateTime)
    (p : StopFeatureModel → Bool) : countFeatures (s.sources delays now) p =
      (s.records.filter (fun f => p f.toStopFeatureModel)).length := by
  rw [countFeatures]
  change ((s.records.map (fun f => f.toStopFeatureModel)).filter p).length = _
  rw [List.filter_map, List.length_map]
  rfl

theorem counts_gtfs {key : String} {value : ℕ}
    (h : ∀ delays now, (key, value) ∈ getGtfsRecordCounts (s.sources delays now)) :
    s.Counts .gtfsRecordCounts key value := by
  intro delays now
  simpa [computed, statisticCounts] using h delays now

theorem counts_features {key : String} {value : ℕ}
    (h : ∀ delays now, (key, value) ∈ getStopFeatureCounts (s.sources delays now)) :
    s.Counts .stopFeatureCounts key value := by
  intro delays now
  simpa [computed, statisticCounts] using h delays now

theorem counts_stops : s.Counts .gtfsRecordCounts "Stops" (s.static.rows .stop).length :=
  counts_gtfs (fun delays now => by simp [getGtfsRecordCounts, sources])

theorem counts_records : s.Counts .gtfsRecordCounts "Stop Features" s.records.length :=
  counts_gtfs (fun delays now => by simp [getGtfsRecordCounts, sources])

theorem counts_withoutFeatures :
    s.Counts .stopFeatureCounts "Stops with no features" s.withoutFeatures.length := by
  refine counts_features (fun delays now => ?_)
  have hstops : (s.static.rows .stop).filter (fun stop =>
      (s.sources delays now).stopFeatures.all (fun f => f.stopId ≠ stop.id)) = s.withoutFeatures := by
    refine List.filter_congr (fun stop _ => ?_)
    change (s.records.map (fun f => f.toStopFeatureModel)).all _ = _
    rw [List.all_map]
    rfl
  have hmem : ("Stops with no features", ((s.static.rows .stop).filter (fun stop =>
      (s.sources delays now).stopFeatures.all (fun f => f.stopId ≠ stop.id))).length) ∈
      getStopFeatureCounts (s.sources delays now) := by
    simp [getStopFeatureCounts, sources]
  rwa [hstops] at hmem

theorem mem_getStopFeatureCounts (delays : List TSStopTimeRow) (now : DateTime) :
    ("RealTime Display", (s.joinStopFeature (fun f => f.rtpiActive)).length) ∈
        getStopFeatureCounts (s.sources delays now) ∧
      ("Shelter Available", (s.joinStopFeature (fun f => f.shelterActive)).length) ∈
        getStopFeatureCounts (s.sources delays now) ∧
      ("Surveyed Stops", (s.joinStopFeature (fun f => f.surveyed = some true)).length) ∈
        getStopFeatureCounts (s.sources delays now) ∧
      ("Unsurveyed Stops", (s.joinStopFeature (fun f => f.surveyed = some false)).length) ∈
        getStopFeatureCounts (s.sources delays now) := by
  simp only [length_joinStopFeature, getStopFeatureCounts, countFeatures_sources]
  simp

theorem counts_maps (type : StaticStopMapTypes) : s.Counts (statisticOf type).1 (statisticOf type).2
    (s.getStopsForStaticMapType type).length := by
  cases type with
  | allStops => exact counts_stops
  | realtimeDisplays => exact counts_features (fun delays now => (mem_getStopFeatureCounts delays now).1)
  | shelteredStops =>
      exact counts_features (fun delays now => (mem_getStopFeatureCounts delays now).2.1)
  | unsurveyed =>
      exact counts_features (fun delays now => (mem_getStopFeatureCounts delays now).2.2.2)

/-- All stops of the tables have coordinates. -/
theorem exists_payload (mean : List φ → φ) (defaultMapCenter : φ × φ) (answer : List (StopRow φ))
    (type : StaticStopMapTypes) : ∃ center,
      buildStaticStopMapPayload mean defaultMapCenter (answer.map StopRow.located) type =
        some ⟨center, 7, type, answer.map (fun stop => stop.mapStop false)⟩ := by
  have hlats : (answer.map StopRow.located).filterMap (fun stop => stop.lat) =
      answer.map (fun stop => stop.lat) := by
    rw [List.filterMap_map]
    exact congrFun (List.filterMap_eq_map (f := fun stop : StopRow φ => stop.lat)) answer
  have hlons : (answer.map StopRow.located).filterMap (fun stop => stop.lon) =
      answer.map (fun stop => stop.lon) := by
    rw [List.filterMap_map]
    exact congrFun (List.filterMap_eq_map (f := fun stop : StopRow φ => stop.lon)) answer
  have hstops : (answer.map StopRow.located).filterMap (fun stop => stopToMapStop stop false) =
      answer.map (fun stop => stop.mapStop false) := by
    rw [List.filterMap_map]
    exact congrFun (List.filterMap_eq_map (f := fun stop : StopRow φ => stop.mapStop false)) answer
  have hcenter : ∃ center, centerFromStops mean defaultMapCenter (answer.map StopRow.located) =
      some center := by
    rw [centerFromStops, hlats, hlons, List.isEmpty_map, List.isEmpty_map]
    cases answer.isEmpty <;> exact ⟨_, rfl⟩
  obtain ⟨center, hcenter⟩ := hcenter
  refine ⟨center, ?_⟩
  rw [buildStaticStopMapPayload, hcenter, hstops]
  rfl

theorem Sound.mapsCounted (h : Sound s) : s.MapsCounted where
  maps type answer _ mean defaultMapCenter := exists_payload mean defaultMapCenter answer type
  counts := counts_maps
  surveys := by
    refine ⟨(s.joinStopFeature (fun f => f.surveyed = some true)).length,
      (s.joinStopFeature (fun f => f.surveyed = some false)).length,
      counts_features (fun delays now => (mem_getStopFeatureCounts delays now).2.2.1),
      counts_features (fun delays now => (mem_getStopFeatureCounts delays now).2.2.2), ?_⟩
    have hsplit : s.records.length =
        (s.joinStopFeature (fun f => f.surveyed = some true)).length +
          (s.joinStopFeature (fun f => f.surveyed = some false)).length := by
      rw [length_joinStopFeature, length_joinStopFeature,
        List.length_eq_length_filter_add (fun f => decide (f.surveyed = some true))]
      congr 2
      refine List.filter_congr (fun f hf => ?_)
      have hsome := h.surveyed f hf
      cases hsurveyed : f.surveyed with
      | none => exact absurd hsurveyed hsome
      | some surveyed => cases surveyed <;> rfl
    rw [← hsplit]
    exact counts_records

theorem stopFeatures_of_assemble {repr : φ → String} {stop : StopRow φ}
    {stopFeature : Option StopFeatureRecord} {routeModels : List RouteModel}
    {detail : StopMapPopup.Detail}
    (h : assembleStopDetailed repr stop stopFeature routeModels = .ok detail) :
    detail.stopFeatures = stopFeature.map (fun sf =>
      ⟨sf.wheelchairAccessability, some sf.shelterActive, some sf.rtpiActive⟩) := by
  obtain ⟨validated, -, h⟩ := bind_eq_ok.1 h
  obtain rfl := Except.ok.inj h
  rfl

theorem popupsAnswered : s.PopupsAnswered := by
  intro stop _ stopFeature _ repr routeModels
  rw [← ApiContracts.accepted_stop]
  constructor
  · rintro ⟨_, h⟩
    obtain ⟨validated, hvalid, -⟩ := bind_eq_ok.1 h
    exact ⟨validated, hvalid⟩
  · rintro ⟨validated, hvalid⟩
    exact ⟨_, bind_eq_ok.2 ⟨validated, hvalid, rfl⟩⟩

theorem nodup_joinStopFeature (h : s.OneRow) (p : StopFeatureRecord → Bool) :
    ((s.joinStopFeature p).map (fun stop => stop.id)).Nodup :=
  (nodup_joined_iff s.nodup_stops (record_filter_stop p)).2 (h.sublist (List.filter_sublist.map _))

theorem mem_joinStopFeature {stop : StopRow φ} (hstop : stop ∈ s.static.rows .stop)
    (p : StopFeatureRecord → Bool) :
    stop ∈ s.joinStopFeature p ↔ ∃ f ∈ s.records, p f = true ∧ f.stopId = stop.id := by
  rw [joinStopFeature, mem_joined, and_iff_right hstop]
  simp only [List.mem_filter, and_assoc]

/-- A stop with one row of features is on a map where this row has the flag of the map. -/
theorem mem_joinStopFeature_of_oneRow (h : s.OneRow) {stop : StopRow φ}
    (hstop : stop ∈ s.static.rows .stop) {f : StopFeatureRecord} (hf : f ∈ s.records)
    (hid : f.stopId = stop.id) (p : StopFeatureRecord → Bool) :
    stop ∈ s.joinStopFeature p ↔ p f = true := by
  rw [mem_joinStopFeature hstop]
  constructor
  · rintro ⟨g, hg, hp, hgid⟩
    rwa [List.inj_on_of_nodup_map h hg hf (hgid.trans hid.symm)] at hp
  · exact fun hp => ⟨f, hf, hp, hid⟩

theorem popupAgrees_of_oneRow (h : s.OneRow) {stop : StopRow φ} (hstop : stop ∈ s.static.rows .stop)
    {stopFeature : Option StopFeatureRecord} (hloads : s.LoadsFeature stop.id stopFeature) :
    s.PopupAgrees stop (stopFeature.map (fun sf =>
      ⟨sf.wheelchairAccessability, some sf.shelterActive, some sf.rtpiActive⟩)) := by
  cases stopFeature with
  | none =>
      have hnone : ∀ p, stop ∉ s.joinStopFeature p := by
        intro p hmem
        obtain ⟨f, hf, -, hid⟩ := (mem_joinStopFeature hstop p).1 hmem
        exact hloads f hf hid
      exact {
        display := iff_of_false (by simp) (hnone _)
        shelter := iff_of_false (by simp) (hnone _)
        none := iff_of_true rfl (mem_unmatched.2 ⟨hstop, hloads⟩) }
  | some f =>
      obtain ⟨hf, hid⟩ := hloads
      have hflag : ∀ p, p f = true ↔ stop ∈ s.joinStopFeature p := fun p =>
        (mem_joinStopFeature_of_oneRow h hstop hf hid p).symm
      exact {
        display := Option.some_inj.trans (hflag (fun f => f.rtpiActive))
        shelter := Option.some_inj.trans (hflag (fun f => f.shelterActive))
        none := iff_of_false (Option.some_ne_none _)
          (fun hmem => (mem_unmatched.1 hmem).2 f hf hid) }

theorem pagesAgree_of_oneRow (h : s.OneRow) : s.PagesAgree where
  once type := by
    cases type with
    | allStops => exact s.nodup_stops
    | realtimeDisplays => exact nodup_joinStopFeature h _
    | shelteredStops => exact nodup_joinStopFeature h _
    | unsurveyed => exact nodup_joinStopFeature h _
  popups stop hstop stopFeature hloads repr routeModels detail hdetail := by
    rw [stopFeatures_of_assemble hdetail]
    exact popupAgrees_of_oneRow h hstop hloads
  total := by
    refine ⟨s.records.length, s.withoutFeatures.length, counts_records, counts_withoutFeatures, ?_⟩
    have hstops := counts_stops (s := s)
    rwa [(length_rows_iff s.nodup_stops s.record_stop).2 h] at hstops

/-- A statistic has one value. -/
theorem Counts.unique {type : StatisticType} {key : String} {value value' : ℕ}
    (h : s.Counts type key value) (h' : s.Counts type key value') : value = value' := by
  have hkeys := nodup_computed (s.sources [] ⟨0⟩) type
  have hpair : (key, value) = (key, value') :=
    List.inj_on_of_nodup_map hkeys (h [] ⟨0⟩) (h' [] ⟨0⟩) rfl
  exact congrArg Prod.snd hpair

theorem oneRow_of_pagesAgree (h : s.PagesAgree) : s.OneRow := by
  obtain ⟨features, without, hfeatures, hwithout, hstops⟩ := h.total
  rw [Counts.unique hfeatures counts_records, Counts.unique hwithout counts_withoutFeatures] at hstops
  exact (length_rows_iff s.nodup_stops s.record_stop).1 (Counts.unique counts_stops hstops)

end Agreement

section Sample

variable {s}

theorem importStopFeatures_returns {importer : StopFeaturesImporter}
    (h : ∀ entry ∈ importer.knownStops s.featureDb, importer.Converts entry.1 entry.2 ∧
      importer.FitsColumns entry.1 entry.2) :
    ∃ s', s.importStopFeatures importer = .ok s' := by
  obtain ⟨result, hresult⟩ := StopFeaturesImporter.importStopFeatures_returns h
  unfold importStopFeatures
  split
  · exact ⟨_, rfl⟩
  · rename_i e himport
    rw [hresult] at himport
    cases himport

def oneStopImporter : StopFeaturesImporter := ⟨"A", [StopFeaturesImporter.bareStop "a"], [], [], []⟩

theorem converts_bareStop :
    oneStopImporter.Converts "a" (StopFeaturesImporter.bareStop "a") where
  bays := ⟨none, rfl⟩
  rtpi rtpi hrtpi := by cases hrtpi
  shelter shelter hshelter := by cases hshelter
  pole pole hpole := by cases hpole

theorem fitsColumns_bareStop :
    oneStopImporter.FitsColumns "a" (StopFeaturesImporter.bareStop "a") where
  texts := rfl
  bays n hn := by
    obtain rfl := Except.ok.inj hn
    rfl
  rtpi rtpi hrtpi := by cases hrtpi
  shelter shelter hshelter := by cases hshelter
  pole pole hpole := by cases hpole

theorem knownStops_of_stops {s : SurveyDb ℚ} (hstops : s.static.rows .stop = [sampleStop "a" "A"]) :
    oneStopImporter.knownStops s.featureDb = [("a", StopFeaturesImporter.bareStop "a")] := by
  have hexisting : oneStopImporter.existingStops s.featureDb = ["a"] := by
    rw [StopFeaturesImporter.existingStops]
    change (s.static.rows .stop |>.filter _).map _ = _
    rw [hstops]
    rfl
  rw [StopFeaturesImporter.knownStops, hexisting]
  rfl

/-- The import of the one stop appends one row. -/
theorem exists_import_oneStop {s : SurveyDb ℚ}
    (hstops : s.static.rows .stop = [sampleStop "a" "A"]) :
    ∃ s', s.importStopFeatures oneStopImporter = .ok s' ∧
      s'.static.rows .stop = [sampleStop "a" "A"] ∧
      ∃ f, s'.records = s.records ++ [f] ∧ f.stopId = "a" ∧ f.dataset = "A" := by
  have hknown := knownStops_of_stops hstops
  have hreturns : ∃ s', s.importStopFeatures oneStopImporter = .ok s' := by
    apply importStopFeatures_returns
    rw [hknown]
    intro entry hentry
    rw [List.mem_singleton.1 hentry]
    exact ⟨converts_bareStop, fitsColumns_bareStop⟩
  obtain ⟨s', himport⟩ := hreturns
  obtain ⟨hstatic, rows, hrecords, -, hrows⟩ := importStopFeatures_ok himport
  rw [hknown] at hrows
  obtain ⟨f, rest, hf, hrest, rfl⟩ := List.forall₂_cons_left_iff.1 hrows
  rw [List.forall₂_nil_left_iff] at hrest
  subst hrest
  exact ⟨s', himport, by rw [hstatic, hstops], f, hrecords, hf.stopId, hf.dataset⟩

theorem careful_oneStop {s : SurveyDb ℚ} (hstops : s.static.rows .stop = [sampleStop "a" "A"])
    (hcleared : ∀ f ∈ s.records, f.dataset ≠ "A") : Careful oneStopImporter s := by
  refine ⟨hcleared, ?_⟩
  rw [knownStops_of_stops hstops]
  exact List.nodup_singleton _

end Sample

end SurveyDb

end SimplyTransport
