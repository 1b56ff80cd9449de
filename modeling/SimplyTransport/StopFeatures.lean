import SimplyTransport.DatabaseStatistics
import SimplyTransport.RealtimeImporters
import SimplyTransport.Traversal

/-!
# The import of stop features

The importer deletes the rows of its dataset and adds one for each feature of the stops collection
whose code is a stop of the dataset. The features of the other three collections are found by code,
the last one of each. The stops are not told apart by code, and a value that does not convert or that
its column cannot hold raises after the rows are gone: a stop has exactly one row afterwards where
the codes are distinct and every value that is read converts and fits.
-/

namespace SimplyTransport

/-- `%H`, `%M` or `%S`: two digits where their number is within the limit, else one. The first of
two is an ASCII digit, and the second one too after the tens of a limit that has not all of them. -/
def readUpTo (limit : ℕ) : List Char → Option (ℕ × List Char)
  | [] => none
  | [a] => (decimal a).map (fun n => (n, []))
  | a :: b :: rest =>
      let one := (decimal a).map (fun n => (n, b :: rest))
      match decimal b with
      | none => one
      | some n =>
          if a.isDigit ∧ (digitValue a < (limit + 1) / 10 ∨
              b.isDigit ∧ digitValue a * 10 + n ≤ limit) then
            some (digitValue a * 10 + n, rest)
          else one

def readLiteral (c : Char) : List Char → Option (List Char)
  | d :: rest => if d = c then some rest else none
  | [] => none

def readSpace : List Char → Option (List Char)
  | c :: rest => if pyWhitespace c then some (rest.dropWhile pyWhitespace) else none
  | [] => none

/-- `%f` at the end: one to six digits, filled up with zeros. -/
def readFraction (cs : List Char) : Option ℕ :=
  if cs ≠ [] ∧ cs.length ≤ 6 ∧ cs.all Char.isDigit then
    some (Nat.ofDigits 10 ((cs ++ List.replicate (6 - cs.length) '0').reverse.map digitValue))
  else none

def readTimestamp (cs : List Char) : Option ((ℕ × ℤ × ℤ) × (ℕ × ℕ × ℕ) × ℕ) := do
  let (year, cs) ← readYear cs
  let (month, cs) ← readLiteral '-' cs >>= readMonth
  let (day, cs) ← readLiteral '-' cs >>= readDay
  let (hour, cs) ← readSpace cs >>= readUpTo 23
  let (minute, cs) ← readLiteral ':' cs >>= readUpTo 59
  let (second, cs) ← readLiteral ':' cs >>= readUpTo 61
  let micros ← readLiteral '.' cs >>= readFraction
  return ((year, month, day), (hour, minute, second), micros)

def strptimeTimestamp (cs : List Char) : Except PyError DateTime :=
  match readTimestamp cs with
  | none => .error .valueError
  | some ((year, month, day), (hour, minute, second), micros) => do
      let date ← Date.ofYmd year month day
      let time ← Time.ofHms hour minute second
      return (DateTime.combine date time).addMicros micros

/-- `datetime.strptime(value[:-1], …)`, of a value that may be null. -/
def lastUpdated : Option String → Except PyError DateTime
  | none => .error .typeError
  | some text => strptimeTimestamp text.toList.dropLast

def intOrNone : Option JsonScalar → Except PyError (Option ℤ)
  | none => .ok none
  | some value => if value.truthy then value.toInt.map some else .ok none

structure StopProperties where
  atcoCode : Option String
  scnGaeilge : Option String
  stopType : Option String
  bearing : Option String
  nptgLocalityRef : Option String
  ptBayCount : Option JsonScalar
  standingArea : Option Bool
  bikeStand : Option Bool
  bench : Option Bool
  bin : Option Bool
  stopAccessibility : Option Bool
  wheelchairAccessibility : Option Bool
  castleKerbing : Option Bool
  footpathToStop : Option Bool
  stepAtStop : Option Bool
  bikeLaneFront : Option Bool
  bikeLaneRear : Option Bool
  isSurveyed : Option String
  udSurveyor : Option String
  udCalculated : Option String

structure RtpiProperties where
  atcoCode : Option String
  name : Option String
  integratedIntoShelter : Option Bool
  lastUpdatedDateUtc : Option String

structure ShelterProperties where
  atcoCode : Option String
  description : Option String
  shelterTypeId : Option JsonScalar
  power : Option Bool
  light : Option Bool
  lastUpdatedDateUtc : Option String

structure PoleProperties where
  atcoCode : Option String
  position : Option String
  socketType : Option String
  poleType : Option String
  lastUpdatedDateUtc : Option String

structure StopFeatureRecord extends StopFeatureModel where
  stopNameIe : Option String
  stopType : Option String
  bearing : Option String
  nptgLocalityRef : Option String
  bays : Option ℤ
  standingArea : Option Bool
  bikeStand : Option Bool
  stopAccessability : Option Bool
  castleKerbing : Option Bool
  footpathToStop : Option Bool
  stepAtStop : Option Bool
  bikeLaneFront : Option Bool
  bikeLaneRear : Option Bool
  udSurveyor : Option String
  udCalculated : Option String
  lines : Option String
  integratedIntoShelter : Option Bool
  lastUpdatedRtpi : Option DateTime
  shelterDescription : Option String
  shelterType : Option ℤ
  power : Option Bool
  lastUpdatedShelter : Option DateTime
  poleActive : Bool
  position : Option String
  poleType : Option String
  socketType : Option String
  lastUpdatedPole : Option DateTime

/-- A text fits a column of `VARCHAR(length)` where it is not longer but for spaces at its end, and
has no NUL. -/
def fitsVarchar (length : ℕ) (text : String) : Bool :=
  (text.toList.drop length).all (fun c => c = ' ') && !text.toList.contains '\x00'

def storedVarchar (length : ℕ) (text : String) : String := String.ofList (text.toList.take length)

def fitsInteger (n : ℤ) : Bool := -2 ^ 31 ≤ n ∧ n < 2 ^ 31

abbrev Texts := List (ℕ × Option String)

def Texts.fit (texts : Texts) : Bool := texts.all (fun t => t.2.all (fitsVarchar t.1))

def StopProperties.texts (stop : StopProperties) : Texts :=
  [(1000, stop.scnGaeilge), (20, stop.stopType), (2, stop.bearing), (1000, stop.nptgLocalityRef),
    (1000, stop.udSurveyor), (100, stop.udCalculated)]

def RtpiProperties.texts (rtpi : RtpiProperties) : Texts := [(1000, rtpi.name)]

def ShelterProperties.texts (shelter : ShelterProperties) : Texts := [(1000, shelter.description)]

def PoleProperties.texts (pole : PoleProperties) : Texts :=
  [(1000, pole.position), (1000, pole.poleType), (1000, pole.socketType)]

namespace StopFeatureRecord

variable (f : StopFeatureRecord)

def stopTexts : Texts :=
  [(1000, f.stopNameIe), (20, f.stopType), (2, f.bearing), (1000, f.nptgLocalityRef),
    (1000, f.udSurveyor), (100, f.udCalculated)]

def rtpiTexts : Texts := [(1000, f.lines)]

def shelterTexts : Texts := [(1000, f.shelterDescription)]

def poleTexts : Texts := [(1000, f.position), (1000, f.poleType), (1000, f.socketType)]

/-- The columns of the table can hold the row. Its stop and dataset are in the table of stops. -/
def fits : Bool :=
  f.stopTexts.fit && f.bays.all fitsInteger && f.rtpiTexts.fit &&
    (f.shelterTexts.fit && f.shelterType.all fitsInteger) && f.poleTexts.fit

def stored : StopFeatureRecord :=
  { f with
    stopNameIe := f.stopNameIe.map (storedVarchar 1000)
    stopType := f.stopType.map (storedVarchar 20)
    bearing := f.bearing.map (storedVarchar 2)
    nptgLocalityRef := f.nptgLocalityRef.map (storedVarchar 1000)
    udSurveyor := f.udSurveyor.map (storedVarchar 1000)
    udCalculated := f.udCalculated.map (storedVarchar 100)
    lines := f.lines.map (storedVarchar 1000)
    shelterDescription := f.shelterDescription.map (storedVarchar 1000)
    position := f.position.map (storedVarchar 1000)
    poleType := f.poleType.map (storedVarchar 1000)
    socketType := f.socketType.map (storedVarchar 1000) }

end StopFeatureRecord

/-- The stops and their features, and the sequence that numbers the features. -/
structure FeatureDb (φ : Type) where
  stops : List (StopRow φ)
  features : List StopFeatureRecord
  feature_stop : ∀ f ∈ features, ∃ s ∈ stops, s.id = f.stopId
  nextId : ℤ

namespace FeatureDb

variable {φ : Type}

theorem feature_stop_filter (db : FeatureDb φ) (keep : StopFeatureRecord → Bool) :
    ∀ f ∈ db.features.filter keep, ∃ s ∈ db.stops, s.id = f.stopId :=
  fun f hf => db.feature_stop f (List.mem_of_mem_filter hf)

def delete (db : FeatureDb φ) (dataset : String) : FeatureDb φ :=
  { db with
    features := db.features.filter (fun f => f.dataset ≠ dataset)
    feature_stop := db.feature_stop_filter _ }

theorem feature_stop_append (db : FeatureDb φ) {rows : List StopFeatureRecord}
    (h : ∀ f ∈ rows, ∃ s ∈ db.stops, s.id = f.stopId) :
    ∀ f ∈ db.features ++ rows, ∃ s ∈ db.stops, s.id = f.stopId := by
  intro f hf
  rcases List.mem_append.1 hf with hf | hf
  · exact db.feature_stop f hf
  · exact h f hf

theorem stop_of_stored {db : FeatureDb φ} {rows : List StopFeatureRecord}
    (h : ∀ f ∈ rows, ∃ s ∈ db.stops, s.id = f.stopId) :
    ∀ f ∈ rows.map StopFeatureRecord.stored, ∃ s ∈ db.stops, s.id = f.stopId := by
  intro f hf
  obtain ⟨g, hg, rfl⟩ := List.mem_map.1 hf
  exact h g hg

/-- The insertion of rows, which fails where a column cannot hold a value or a row refers to no
stop. -/
def insert (db : FeatureDb φ) (rows : List StopFeatureRecord) : Except PyError (FeatureDb φ) :=
  if rows.all StopFeatureRecord.fits then
    if h : ∀ f ∈ rows, ∃ s ∈ db.stops, s.id = f.stopId then
      .ok { db with
        features := db.features ++ rows.map StopFeatureRecord.stored
        feature_stop := db.feature_stop_append (stop_of_stored h)
        nextId := db.nextId + rows.length }
    else .error .integrityError
  else .error .dataError

theorem insert_ok {db db' : FeatureDb φ} {rows : List StopFeatureRecord}
    (h : db.insert rows = .ok db') :
    db'.features = db.features ++ rows.map StopFeatureRecord.stored ∧ db'.stops = db.stops ∧
      ∀ f ∈ rows, f.fits = true := by
  unfold insert at h
  split_ifs at h with hfits hrefs
  obtain rfl := Except.ok.inj h
  exact ⟨rfl, rfl, List.all_eq_true.1 hfits⟩

theorem insert_returns {db : FeatureDb φ} {rows : List StopFeatureRecord}
    (hfits : ∀ f ∈ rows, f.fits = true) (hrefs : ∀ f ∈ rows, ∃ s ∈ db.stops, s.id = f.stopId) :
    ∃ db', db.insert rows = .ok db' := by
  have hall : rows.all StopFeatureRecord.fits = true := List.all_eq_true.2 hfits
  rw [insert, if_pos hall, dif_pos hrefs]
  exact ⟨_, rfl⟩

end FeatureDb

structure StopFeaturesImporter where
  dataset : String
  stops : List StopProperties
  poles : List PoleProperties
  shelters : List ShelterProperties
  rtpis : List RtpiProperties

structure ImportTotals where
  totalStops : ℕ
  totalPoles : ℕ
  totalShelters : ℕ
  totalRtpis : ℕ
  totalAddedToDatabase : ℕ

namespace StopFeaturesImporter

open OrderedDict

variable {φ : Type} (importer : StopFeaturesImporter)

def clearDatabase (db : FeatureDb φ) : FeatureDb φ := db.delete importer.dataset

def existingStops (db : FeatureDb φ) : List String :=
  (db.stops.filter (fun s => s.dataset = importer.dataset)).map (fun s => s.id)

def rtpi (code : String) : Option RtpiProperties :=
  (lastBy RtpiProperties.atcoCode importer.rtpis).get? (some code)

def shelter (code : String) : Option ShelterProperties :=
  (lastBy ShelterProperties.atcoCode importer.shelters).get? (some code)

def pole (code : String) : Option PoleProperties :=
  (lastBy PoleProperties.atcoCode importer.poles).get? (some code)

def newStopFeature (id : ℤ) (code : String) (stop : StopProperties) :
    Except PyError StopFeatureRecord := do
  let bays ← intOrNone stop.ptBayCount
  return {
    id
    stopId := code
    dataset := importer.dataset
    bench := stop.bench
    bin := stop.bin
    wheelchairAccessability := stop.wheelchairAccessibility
    surveyed := some (decide (stop.isSurveyed ≠ some "0"))
    rtpiActive := false
    shelterActive := false
    light := none
    stopNameIe := stop.scnGaeilge
    stopType := stop.stopType
    bearing := stop.bearing
    nptgLocalityRef := stop.nptgLocalityRef
    bays
    standingArea := stop.standingArea
    bikeStand := stop.bikeStand
    stopAccessability := stop.stopAccessibility
    castleKerbing := stop.castleKerbing
    footpathToStop := stop.footpathToStop
    stepAtStop := stop.stepAtStop
    bikeLaneFront := stop.bikeLaneFront
    bikeLaneRear := stop.bikeLaneRear
    udSurveyor := stop.udSurveyor
    udCalculated := stop.udCalculated
    lines := none
    integratedIntoShelter := none
    lastUpdatedRtpi := none
    shelterDescription := none
    shelterType := none
    power := none
    lastUpdatedShelter := none
    poleActive := false
    position := none
    poleType := none
    socketType := none
    lastUpdatedPole := none }

def setRtpi (f : StopFeatureRecord) : Option RtpiProperties → Except PyError StopFeatureRecord
  | none => .ok f
  | some rtpi => do
      let updated ← lastUpdated rtpi.lastUpdatedDateUtc
      return { f with
        rtpiActive := true
        lines := rtpi.name
        integratedIntoShelter := rtpi.integratedIntoShelter
        lastUpdatedRtpi := some updated }

def setShelter (f : StopFeatureRecord) :
    Option ShelterProperties → Except PyError StopFeatureRecord
  | none => .ok f
  | some shelter => do
      let type ← intOrNone shelter.shelterTypeId
      let updated ← lastUpdated shelter.lastUpdatedDateUtc
      return { f with
        shelterActive := true
        shelterDescription := shelter.description
        shelterType := type
        power := shelter.power
        light := shelter.light
        lastUpdatedShelter := some updated }

def setPole (f : StopFeatureRecord) : Option PoleProperties → Except PyError StopFeatureRecord
  | none => .ok f
  | some pole => do
      let updated ← lastUpdated pole.lastUpdatedDateUtc
      return { f with
        poleActive := true
        position := pole.position
        socketType := pole.socketType
        poleType := pole.poleType
        lastUpdatedPole := some updated }

def stopFeature (id : ℤ) (code : String) (stop : StopProperties) :
    Except PyError StopFeatureRecord := do
  let f ← importer.newStopFeature id code stop
  let f ← setRtpi f (importer.rtpi code)
  let f ← setShelter f (importer.shelter code)
  setPole f (importer.pole code)

def knownStops (db : FeatureDb φ) : List (String × StopProperties) :=
  importer.stops.filterMap (fun stop => stop.atcoCode.bind (fun code =>
    if code ≠ "" ∧ code ∈ importer.existingStops db then some (code, stop) else none))

/-- The rows are numbered when they are inserted. -/
def importStopFeatures (db : FeatureDb φ) : Except PyError (ImportTotals × FeatureDb φ) := do
  let rows ← (importer.knownStops db).zipIdx.mapM (fun entry =>
    importer.stopFeature (db.nextId + entry.2) entry.1.1 entry.1.2)
  let db ← db.insert rows
  return (⟨importer.stops.length, importer.poles.length, importer.shelters.length,
    importer.rtpis.length, rows.length⟩, db)

/-- What the two steps leave: an import that raises leaves what was cleared. -/
def reimport (db : FeatureDb φ) : FeatureDb φ :=
  let cleared := importer.clearDatabase db
  match importer.importStopFeatures cleared with
  | .ok (_, imported) => imported
  | .error _ => cleared

section Rows

variable {importer}

/-- What a row has of its stop: the code and dataset, and a flag for each collection with the code. -/
structure RowOf (importer : StopFeaturesImporter) (code : String) (f : StopFeatureRecord) : Prop where
  stopId : f.stopId = code
  dataset : f.dataset = importer.dataset
  rtpi : f.rtpiActive = true ↔ some code ∈ importer.rtpis.map RtpiProperties.atcoCode
  shelter : f.shelterActive = true ↔ some code ∈ importer.shelters.map ShelterProperties.atcoCode
  pole : f.poleActive = true ↔ some code ∈ importer.poles.map PoleProperties.atcoCode

structure Converts (importer : StopFeaturesImporter) (code : String) (stop : StopProperties) :
    Prop where
  bays : ∃ n, intOrNone stop.ptBayCount = .ok n
  rtpi : ∀ rtpi ∈ importer.rtpi code, ∃ t, lastUpdated rtpi.lastUpdatedDateUtc = .ok t
  shelter : ∀ shelter ∈ importer.shelter code, (∃ n, intOrNone shelter.shelterTypeId = .ok n) ∧
    ∃ t, lastUpdated shelter.lastUpdatedDateUtc = .ok t
  pole : ∀ pole ∈ importer.pole code, ∃ t, lastUpdated pole.lastUpdatedDateUtc = .ok t

structure FitsColumns (importer : StopFeaturesImporter) (code : String) (stop : StopProperties) :
    Prop where
  texts : stop.texts.fit = true
  bays : ∀ n, intOrNone stop.ptBayCount = .ok n → n.all fitsInteger = true
  rtpi : ∀ rtpi ∈ importer.rtpi code, rtpi.texts.fit = true
  shelter : ∀ shelter ∈ importer.shelter code, shelter.texts.fit = true ∧
    ∀ n, intOrNone shelter.shelterTypeId = .ok n → n.all fitsInteger = true
  pole : ∀ pole ∈ importer.pole code, pole.texts.fit = true

theorem get?_lastBy_isSome_iff {α : Type} (key : α → Option String) (l : List α)
    (code : String) : ((lastBy key l).get? (some code)).isSome = true ↔ some code ∈ l.map key := by
  rw [get?_lastBy, Option.isSome_iff_ne_none, ne_eq, List.getLast?_eq_none_iff,
    List.filter_eq_nil_iff, List.mem_map]
  simp

theorem newStopFeature_ok {id : ℤ} {code : String} {stop : StopProperties} {f : StopFeatureRecord}
    (h : importer.newStopFeature id code stop = .ok f) :
    f.stopId = code ∧ f.dataset = importer.dataset ∧ f.rtpiActive = false ∧
      f.shelterActive = false ∧ f.poleActive = false := by
  obtain ⟨bays, -, h⟩ := bind_eq_ok.1 h
  obtain rfl := Except.ok.inj h
  exact ⟨rfl, rfl, rfl, rfl, rfl⟩

theorem setRtpi_ok {f g : StopFeatureRecord} {rtpi : Option RtpiProperties}
    (h : setRtpi f rtpi = .ok g) :
    g.stopId = f.stopId ∧ g.dataset = f.dataset ∧ g.shelterActive = f.shelterActive ∧
      g.poleActive = f.poleActive ∧ g.rtpiActive = (f.rtpiActive || rtpi.isSome) := by
  cases rtpi with
  | none =>
      obtain rfl := Except.ok.inj h
      exact ⟨rfl, rfl, rfl, rfl, (Bool.or_false _).symm⟩
  | some rtpi =>
      obtain ⟨updated, -, h⟩ := bind_eq_ok.1 h
      obtain rfl := Except.ok.inj h
      exact ⟨rfl, rfl, rfl, rfl, (Bool.or_true _).symm⟩

theorem setShelter_ok {f g : StopFeatureRecord} {shelter : Option ShelterProperties}
    (h : setShelter f shelter = .ok g) :
    g.stopId = f.stopId ∧ g.dataset = f.dataset ∧ g.rtpiActive = f.rtpiActive ∧
      g.poleActive = f.poleActive ∧ g.shelterActive = (f.shelterActive || shelter.isSome) := by
  cases shelter with
  | none =>
      obtain rfl := Except.ok.inj h
      exact ⟨rfl, rfl, rfl, rfl, (Bool.or_false _).symm⟩
  | some shelter =>
      obtain ⟨type, -, h⟩ := bind_eq_ok.1 h
      obtain ⟨updated, -, h⟩ := bind_eq_ok.1 h
      obtain rfl := Except.ok.inj h
      exact ⟨rfl, rfl, rfl, rfl, (Bool.or_true _).symm⟩

theorem setPole_ok {f g : StopFeatureRecord} {pole : Option PoleProperties}
    (h : setPole f pole = .ok g) :
    g.stopId = f.stopId ∧ g.dataset = f.dataset ∧ g.rtpiActive = f.rtpiActive ∧
      g.shelterActive = f.shelterActive ∧ g.poleActive = (f.poleActive || pole.isSome) := by
  cases pole with
  | none =>
      obtain rfl := Except.ok.inj h
      exact ⟨rfl, rfl, rfl, rfl, (Bool.or_false _).symm⟩
  | some pole =>
      obtain ⟨updated, -, h⟩ := bind_eq_ok.1 h
      obtain rfl := Except.ok.inj h
      exact ⟨rfl, rfl, rfl, rfl, (Bool.or_true _).symm⟩

theorem stopFeature_rowOf {id : ℤ} {code : String} {stop : StopProperties} {f : StopFeatureRecord}
    (h : importer.stopFeature id code stop = .ok f) : RowOf importer code f := by
  obtain ⟨f₀, h₀, h⟩ := bind_eq_ok.1 h
  obtain ⟨f₁, h₁, h⟩ := bind_eq_ok.1 h
  obtain ⟨f₂, h₂, h₃⟩ := bind_eq_ok.1 h
  obtain ⟨hstop₀, hdataset₀, hrtpi₀, hshelter₀, hpole₀⟩ := newStopFeature_ok h₀
  obtain ⟨hstop₁, hdataset₁, hshelter₁, hpole₁, hrtpi₁⟩ := setRtpi_ok h₁
  obtain ⟨hstop₂, hdataset₂, hrtpi₂, hpole₂, hshelter₂⟩ := setShelter_ok h₂
  obtain ⟨hstop₃, hdataset₃, hrtpi₃, hshelter₃, hpole₃⟩ := setPole_ok h₃
  constructor
  · rw [hstop₃, hstop₂, hstop₁, hstop₀]
  · rw [hdataset₃, hdataset₂, hdataset₁, hdataset₀]
  · rw [hrtpi₃, hrtpi₂, hrtpi₁, hrtpi₀, Bool.false_or]
    exact get?_lastBy_isSome_iff _ _ _
  · rw [hshelter₃, hshelter₂, hshelter₁, hshelter₀, Bool.false_or]
    exact get?_lastBy_isSome_iff _ _ _
  · rw [hpole₃, hpole₂, hpole₁, hpole₀, Bool.false_or]
    exact get?_lastBy_isSome_iff _ _ _

theorem setRtpi_returns_iff (f : StopFeatureRecord) (rtpi : Option RtpiProperties) :
    (∃ g, setRtpi f rtpi = .ok g) ↔
      ∀ r ∈ rtpi, ∃ t, lastUpdated r.lastUpdatedDateUtc = .ok t := by
  cases rtpi with
  | none => simp [setRtpi]
  | some rtpi => simp [setRtpi, bind_eq_ok, pure, Except.pure]

theorem setShelter_returns_iff (f : StopFeatureRecord) (shelter : Option ShelterProperties) :
    (∃ g, setShelter f shelter = .ok g) ↔
      ∀ s ∈ shelter, (∃ n, intOrNone s.shelterTypeId = .ok n) ∧
        ∃ t, lastUpdated s.lastUpdatedDateUtc = .ok t := by
  cases shelter with
  | none => simp [setShelter]
  | some shelter => simp [setShelter, bind_eq_ok, pure, Except.pure]

theorem setPole_returns_iff (f : StopFeatureRecord) (pole : Option PoleProperties) :
    (∃ g, setPole f pole = .ok g) ↔
      ∀ p ∈ pole, ∃ t, lastUpdated p.lastUpdatedDateUtc = .ok t := by
  cases pole with
  | none => simp [setPole]
  | some pole => simp [setPole, bind_eq_ok, pure, Except.pure]

theorem stopFeature_returns_iff (id : ℤ) (code : String) (stop : StopProperties) :
    (∃ f, importer.stopFeature id code stop = .ok f) ↔ Converts importer code stop := by
  constructor
  · rintro ⟨f, h⟩
    obtain ⟨f₀, h₀, h⟩ := bind_eq_ok.1 h
    obtain ⟨f₁, h₁, h⟩ := bind_eq_ok.1 h
    obtain ⟨f₂, h₂, h₃⟩ := bind_eq_ok.1 h
    obtain ⟨bays, hbays, -⟩ := bind_eq_ok.1 h₀
    exact ⟨⟨bays, hbays⟩, (setRtpi_returns_iff _ _).1 ⟨f₁, h₁⟩,
      (setShelter_returns_iff _ _).1 ⟨f₂, h₂⟩, (setPole_returns_iff _ _).1 ⟨f, h₃⟩⟩
  · intro h
    obtain ⟨bays, hbays⟩ := h.bays
    have h₀ : ∃ f₀, importer.newStopFeature id code stop = .ok f₀ :=
      ⟨_, bind_eq_ok.2 ⟨bays, hbays, rfl⟩⟩
    obtain ⟨f₀, h₀⟩ := h₀
    obtain ⟨f₁, h₁⟩ := (setRtpi_returns_iff f₀ _).2 h.rtpi
    obtain ⟨f₂, h₂⟩ := (setShelter_returns_iff f₁ _).2 h.shelter
    obtain ⟨f₃, h₃⟩ := (setPole_returns_iff f₂ _).2 h.pole
    exact ⟨f₃, bind_eq_ok.2 ⟨f₀, h₀, bind_eq_ok.2 ⟨f₁, h₁, bind_eq_ok.2 ⟨f₂, h₂, h₃⟩⟩⟩⟩

theorem newStopFeature_fits {id : ℤ} {code : String} {stop : StopProperties}
    {f : StopFeatureRecord} (h : importer.newStopFeature id code stop = .ok f) :
    f.stopTexts = stop.texts ∧ intOrNone stop.ptBayCount = .ok f.bays ∧
      f.rtpiTexts.fit = true ∧ (f.shelterTexts.fit && f.shelterType.all fitsInteger) = true ∧
      f.poleTexts.fit = true := by
  obtain ⟨bays, hbays, h⟩ := bind_eq_ok.1 h
  obtain rfl := Except.ok.inj h
  exact ⟨rfl, hbays, rfl, rfl, rfl⟩

theorem setRtpi_fits {f g : StopFeatureRecord} {rtpi : Option RtpiProperties}
    (h : setRtpi f rtpi = .ok g) (hf : f.rtpiTexts.fit = true) :
    (g.rtpiTexts.fit = true ↔ ∀ r ∈ rtpi, r.texts.fit = true) ∧ g.stopTexts = f.stopTexts ∧
      g.bays = f.bays ∧ g.shelterTexts = f.shelterTexts ∧ g.shelterType = f.shelterType ∧
      g.poleTexts = f.poleTexts := by
  cases rtpi with
  | none =>
      obtain rfl := Except.ok.inj h
      exact ⟨iff_of_true hf (fun _ hr => by cases hr), rfl, rfl, rfl, rfl, rfl⟩
  | some rtpi =>
      obtain ⟨updated, -, h⟩ := bind_eq_ok.1 h
      obtain rfl := Except.ok.inj h
      exact ⟨by simp [StopFeatureRecord.rtpiTexts, RtpiProperties.texts], rfl, rfl, rfl, rfl, rfl⟩

theorem setShelter_fits {f g : StopFeatureRecord} {shelter : Option ShelterProperties}
    (h : setShelter f shelter = .ok g)
    (hf : (f.shelterTexts.fit && f.shelterType.all fitsInteger) = true) :
    ((g.shelterTexts.fit && g.shelterType.all fitsInteger) = true ↔ ∀ s ∈ shelter,
        s.texts.fit = true ∧ ∀ n, intOrNone s.shelterTypeId = .ok n → n.all fitsInteger = true) ∧
      g.stopTexts = f.stopTexts ∧ g.bays = f.bays ∧ g.rtpiTexts = f.rtpiTexts ∧
      g.poleTexts = f.poleTexts := by
  cases shelter with
  | none =>
      obtain rfl := Except.ok.inj h
      exact ⟨iff_of_true hf (fun _ hs => by cases hs), rfl, rfl, rfl, rfl⟩
  | some shelter =>
      obtain ⟨type, htype, h⟩ := bind_eq_ok.1 h
      obtain ⟨updated, -, h⟩ := bind_eq_ok.1 h
      obtain rfl := Except.ok.inj h
      refine ⟨?_, rfl, rfl, rfl, rfl⟩
      simp [htype, StopFeatureRecord.shelterTexts, ShelterProperties.texts]

theorem setPole_fits {f g : StopFeatureRecord} {pole : Option PoleProperties}
    (h : setPole f pole = .ok g) (hf : f.poleTexts.fit = true) :
    (g.poleTexts.fit = true ↔ ∀ p ∈ pole, p.texts.fit = true) ∧ g.stopTexts = f.stopTexts ∧
      g.bays = f.bays ∧ g.rtpiTexts = f.rtpiTexts ∧ g.shelterTexts = f.shelterTexts ∧
      g.shelterType = f.shelterType := by
  cases pole with
  | none =>
      obtain rfl := Except.ok.inj h
      exact ⟨iff_of_true hf (fun _ hp => by cases hp), rfl, rfl, rfl, rfl, rfl⟩
  | some pole =>
      obtain ⟨updated, -, h⟩ := bind_eq_ok.1 h
      obtain rfl := Except.ok.inj h
      exact ⟨by simp [StopFeatureRecord.poleTexts, PoleProperties.texts], rfl, rfl, rfl, rfl, rfl⟩

theorem stopFeature_fits_iff {id : ℤ} {code : String} {stop : StopProperties}
    {f : StopFeatureRecord} (h : importer.stopFeature id code stop = .ok f) :
    f.fits = true ↔ FitsColumns importer code stop := by
  obtain ⟨f₀, h₀, h⟩ := bind_eq_ok.1 h
  obtain ⟨f₁, h₁, h⟩ := bind_eq_ok.1 h
  obtain ⟨f₂, h₂, h₃⟩ := bind_eq_ok.1 h
  obtain ⟨hstop₀, hbays₀, hrtpi₀, hshelter₀, hpole₀⟩ := newStopFeature_fits h₀
  obtain ⟨hrtpi₁, hstop₁, hbays₁, hshelter₁, htype₁, hpole₁⟩ := setRtpi_fits h₁ hrtpi₀
  obtain ⟨hshelter₂, hstop₂, hbays₂, hrtpi₂, hpole₂⟩ :=
    setShelter_fits h₂ (by rw [hshelter₁, htype₁, hshelter₀])
  obtain ⟨hpole₃, hstop₃, hbays₃, hrtpi₃, hshelter₃, htype₃⟩ :=
    setPole_fits h₃ (by rw [hpole₂, hpole₁, hpole₀])
  rw [StopFeatureRecord.fits, Bool.and_eq_true, Bool.and_eq_true, Bool.and_eq_true,
    Bool.and_eq_true, hpole₃, hshelter₃, htype₃, hshelter₂, hrtpi₃, hrtpi₂, hrtpi₁, hstop₃, hstop₂,
    hstop₁, hstop₀, hbays₃, hbays₂, hbays₁]
  constructor
  · rintro ⟨⟨⟨⟨hstop, hbays⟩, hrtpi⟩, hshelter⟩, hpole⟩
    refine ⟨hstop, fun n hn => ?_, hrtpi, hshelter, hpole⟩
    rw [hbays₀] at hn
    rwa [← Except.ok.inj hn]
  · exact fun h => ⟨⟨⟨⟨h.texts, h.bays _ hbays₀⟩, h.rtpi⟩, h.shelter⟩, h.pole⟩

theorem RowOf.stored {code : String} {f : StopFeatureRecord} (h : RowOf importer code f) :
    RowOf importer code f.stored := ⟨h.stopId, h.dataset, h.rtpi, h.shelter, h.pole⟩

end Rows

section Runs

variable {importer}

theorem mem_knownStops {db : FeatureDb φ} {entry : String × StopProperties} :
    entry ∈ importer.knownStops db ↔ entry.2 ∈ importer.stops ∧ entry.2.atcoCode = some entry.1 ∧
      entry.1 ≠ "" ∧ entry.1 ∈ importer.existingStops db := by
  obtain ⟨code, stop⟩ := entry
  rw [knownStops, List.mem_filterMap]
  constructor
  · rintro ⟨stop', hstop, h⟩
    obtain ⟨code', hcode, h⟩ := Option.bind_eq_some_iff.1 h
    obtain ⟨hknown, h⟩ := Option.ite_none_right_eq_some.1 h
    obtain ⟨rfl, rfl⟩ := Prod.mk.inj (Option.some.inj h)
    exact ⟨hstop, hcode, hknown⟩
  · rintro ⟨hstop, hcode, hknown⟩
    exact ⟨stop, hstop, Option.bind_eq_some_iff.2 ⟨code, hcode, if_pos hknown⟩⟩

theorem exists_stop_of_mem_existingStops {db : FeatureDb φ} {code : String}
    (h : code ∈ importer.existingStops db) : ∃ s ∈ db.stops, s.id = code := by
  obtain ⟨s, hs, hid⟩ := List.mem_map.1 h
  exact ⟨s, List.mem_of_mem_filter hs, hid⟩

/-- An import that returns has added the row of each known stop, in their order. -/
theorem importStopFeatures_ok {db db' : FeatureDb φ} {totals : ImportTotals}
    (h : importer.importStopFeatures db = .ok (totals, db')) :
    ∃ rows, db'.features = db.features ++ rows ∧ db'.stops = db.stops ∧
      List.Forall₂ (fun entry f => RowOf importer entry.1 f) (importer.knownStops db) rows ∧
      ∀ entry ∈ importer.knownStops db, Converts importer entry.1 entry.2 ∧
        FitsColumns importer entry.1 entry.2 := by
  obtain ⟨rows, hrows, h⟩ := bind_eq_ok.1 h
  obtain ⟨inserted, hinsert, h⟩ := bind_eq_ok.1 h
  obtain ⟨-, rfl⟩ := Prod.mk.inj (Except.ok.inj h)
  have hentries := forall₂_of_mapM hrows
  have hfst : (importer.knownStops db).zipIdx.map Prod.fst = importer.knownStops db :=
    List.zipIdx_map_fst 0 _
  obtain ⟨hfeatures, hstops, hfits⟩ := FeatureDb.insert_ok hinsert
  refine ⟨rows.map StopFeatureRecord.stored, hfeatures, hstops, ?_, ?_⟩
  · rw [← hfst, List.forall₂_map_left_iff, List.forall₂_map_right_iff]
    exact hentries.imp fun entry f hf => (stopFeature_rowOf hf).stored
  · intro entry hentry
    rw [← hfst, List.mem_map] at hentry
    obtain ⟨numbered, hnumbered, rfl⟩ := hentry
    obtain ⟨f, hmem, hf⟩ := exists_mem_of_forall₂ hentries numbered hnumbered
    exact ⟨(stopFeature_returns_iff _ _ _).1 ⟨f, hf⟩, (stopFeature_fits_iff hf).1 (hfits f hmem)⟩

/-- It returns where the values of the known stops convert and fit: no row refers to a missing
stop. -/
theorem importStopFeatures_returns {db : FeatureDb φ}
    (h : ∀ entry ∈ importer.knownStops db, Converts importer entry.1 entry.2 ∧
      FitsColumns importer entry.1 entry.2) :
    ∃ result, importer.importStopFeatures db = .ok result := by
  have hrows : ∃ rows, (importer.knownStops db).zipIdx.mapM (fun entry =>
      importer.stopFeature (db.nextId + entry.2) entry.1.1 entry.1.2) = .ok rows := by
    apply exists_mapM_iff.2
    intro entry hentry
    have hmem : entry.1 ∈ importer.knownStops db := List.fst_mem_of_mem_zipIdx hentry
    exact (stopFeature_returns_iff _ _ _).2 (h _ hmem).1
  obtain ⟨rows, hrows⟩ := hrows
  have hbuilt : ∀ f ∈ rows, f.fits = true ∧ ∃ s ∈ db.stops, s.id = f.stopId := by
    intro f hf
    obtain ⟨entry, hentry, hrow⟩ := exists_line_of_forall₂ (forall₂_of_mapM hrows) f hf
    have hmem : entry.1 ∈ importer.knownStops db := List.fst_mem_of_mem_zipIdx hentry
    rw [(stopFeature_rowOf hrow).stopId]
    exact ⟨(stopFeature_fits_iff hrow).2 (h _ hmem).2,
      exists_stop_of_mem_existingStops (mem_knownStops.1 hmem).2.2.2⟩
  obtain ⟨db', hinsert⟩ := FeatureDb.insert_returns (fun f hf => (hbuilt f hf).1)
    (fun f hf => (hbuilt f hf).2)
  exact ⟨_, bind_eq_ok.2 ⟨rows, hrows, bind_eq_ok.2 ⟨db', hinsert, rfl⟩⟩⟩

end Runs

/-- One row for each known code of the stops collection with the flags of the other collections, and
the rows of other datasets as they were. -/
structure OneRowPerStop (db after : FeatureDb φ) : Prop where
  one : ∀ code, some code ∈ importer.stops.map StopProperties.atcoCode → code ≠ "" →
    code ∈ importer.existingStops db →
    (after.features.filter (fun f => f.dataset = importer.dataset ∧ f.stopId = code)).length = 1
  only : ∀ f ∈ after.features, f.dataset = importer.dataset → RowOf importer f.stopId f ∧
    some f.stopId ∈ importer.stops.map StopProperties.atcoCode ∧ f.stopId ≠ "" ∧
    f.stopId ∈ importer.existingStops db
  others : after.features.filter (fun f => f.dataset ≠ importer.dataset) =
    db.features.filter (fun f => f.dataset ≠ importer.dataset)

section OneRow

variable {importer}

theorem reimport_of_ok {db : FeatureDb φ} {result : ImportTotals × FeatureDb φ}
    (h : importer.importStopFeatures (importer.clearDatabase db) = .ok result) :
    importer.reimport db = result.2 := by
  rw [reimport]
  simp only [h]

theorem reimport_of_error {db : FeatureDb φ} {e : PyError}
    (h : importer.importStopFeatures (importer.clearDatabase db) = .error e) :
    importer.reimport db = importer.clearDatabase db := by
  rw [reimport]
  simp only [h]

/-- What the two steps leave, by whether the import returns. -/
theorem reimport_cases (importer : StopFeaturesImporter) (db : FeatureDb φ) :
    (∃ rows, (importer.reimport db).features = (importer.clearDatabase db).features ++ rows ∧
      List.Forall₂ (fun entry f => RowOf importer entry.1 f) (importer.knownStops db) rows ∧
      ∀ entry ∈ importer.knownStops db, Converts importer entry.1 entry.2 ∧
        FitsColumns importer entry.1 entry.2) ∨
    ((importer.reimport db).features = (importer.clearDatabase db).features ∧
      ∃ entry ∈ importer.knownStops db, ¬ (Converts importer entry.1 entry.2 ∧
        FitsColumns importer entry.1 entry.2)) := by
  cases himport : importer.importStopFeatures (importer.clearDatabase db) with
  | ok result =>
      obtain ⟨rows, hfeatures, -, hrows, hconverts⟩ := importStopFeatures_ok himport
      rw [reimport_of_ok himport]
      exact Or.inl ⟨rows, hfeatures, hrows, hconverts⟩
  | error e =>
      rw [reimport_of_error himport]
      apply Or.inr
      refine ⟨rfl, ?_⟩
      by_contra hnone
      have hall : ∀ entry ∈ importer.knownStops db, Converts importer entry.1 entry.2 ∧
          FitsColumns importer entry.1 entry.2 := by
        intro entry hentry
        by_contra hnot
        exact hnone ⟨entry, hentry, hnot⟩
      have hreturns : ∃ result,
          importer.importStopFeatures (importer.clearDatabase db) = .ok result :=
        importStopFeatures_returns hall
      obtain ⟨result, hresult⟩ := hreturns
      rw [himport] at hresult
      cases hresult

theorem stopIds_of_rows {known : List (String × StopProperties)} {rows : List StopFeatureRecord}
    (h : List.Forall₂ (fun entry f => RowOf importer entry.1 f) known rows) :
    rows.map (fun f => f.stopId) = known.map Prod.fst :=
  (map_eq_of_forall₂ (fun _ _ hrow => hrow.stopId.symm) h).symm

theorem dataset_of_rows {known : List (String × StopProperties)} {rows : List StopFeatureRecord}
    (h : List.Forall₂ (fun entry f => RowOf importer entry.1 f) known rows) :
    ∀ f ∈ rows, f.dataset = importer.dataset := by
  intro f hf
  obtain ⟨entry, -, hrow⟩ := exists_line_of_forall₂ h f hf
  exact hrow.dataset

/-- The rows of a code are as many as the code has known stops. -/
theorem length_rows_of_code {db : FeatureDb φ} {known : List (String × StopProperties)}
    {rows : List StopFeatureRecord}
    (h : List.Forall₂ (fun entry f => RowOf importer entry.1 f) known rows) (code : String) :
    (((importer.clearDatabase db).features ++ rows).filter
      (fun f => f.dataset = importer.dataset ∧ f.stopId = code)).length =
      (known.map Prod.fst).count code := by
  have hcleared : (importer.clearDatabase db).features.filter
      (fun f => f.dataset = importer.dataset ∧ f.stopId = code) = [] := by
    apply List.filter_eq_nil_iff.2
    intro f hf hkept
    have hdataset : f.dataset ≠ importer.dataset := by simpa using (List.mem_filter.1 hf).2
    exact hdataset (of_decide_eq_true hkept).1
  have hrows : rows.filter (fun f => f.dataset = importer.dataset ∧ f.stopId = code) =
      rows.filter (fun f => f.stopId = code) := by
    apply List.filter_congr
    intro f hf
    simp [dataset_of_rows h f hf]
  rw [List.filter_append, hcleared, List.nil_append, hrows, ← stopIds_of_rows h,
    List.count_eq_countP, List.countP_map, List.countP_eq_length_filter]
  rfl

theorem others_of_rows {db : FeatureDb φ} {rows : List StopFeatureRecord}
    (h : ∀ f ∈ rows, f.dataset = importer.dataset) :
    ((importer.clearDatabase db).features ++ rows).filter (fun f => f.dataset ≠ importer.dataset) =
      db.features.filter (fun f => f.dataset ≠ importer.dataset) := by
  have hrows : rows.filter (fun f => f.dataset ≠ importer.dataset) = [] := by
    apply List.filter_eq_nil_iff.2
    intro f hf
    simpa using h f hf
  rw [List.filter_append, hrows, List.append_nil, clearDatabase, FeatureDb.delete,
    List.filter_filter]
  simp only [Bool.and_self]

theorem mem_codes_of_mem_knownStops {db : FeatureDb φ} {entry : String × StopProperties}
    (h : entry ∈ importer.knownStops db) :
    some entry.1 ∈ importer.stops.map StopProperties.atcoCode ∧ entry.1 ≠ "" ∧
      entry.1 ∈ importer.existingStops db := by
  obtain ⟨hstop, hcode, hknown⟩ := mem_knownStops.1 h
  exact ⟨List.mem_map.2 ⟨_, hstop, hcode⟩, hknown⟩

theorem exists_knownStop {db : FeatureDb φ} {code : String}
    (hcode : some code ∈ importer.stops.map StopProperties.atcoCode) (hne : code ≠ "")
    (hknown : code ∈ importer.existingStops db) : code ∈ (importer.knownStops db).map Prod.fst := by
  obtain ⟨stop, hstop, hatco⟩ := List.mem_map.1 hcode
  exact List.mem_map.2 ⟨(code, stop), mem_knownStops.2 ⟨hstop, hatco, hne, hknown⟩, rfl⟩

section Rows

variable {db after : FeatureDb φ} {rows : List StopFeatureRecord}

theorem OneRowPerStop.nodup (h : importer.OneRowPerStop db after)
    (hfeatures : after.features = (importer.clearDatabase db).features ++ rows)
    (hrows : List.Forall₂ (fun entry f => RowOf importer entry.1 f) (importer.knownStops db) rows) :
    ((importer.knownStops db).map Prod.fst).Nodup := by
  apply List.nodup_iff_count_le_one.2
  intro code
  by_cases hmem : code ∈ (importer.knownStops db).map Prod.fst
  · obtain ⟨entry, hentry, rfl⟩ := List.mem_map.1 hmem
    obtain ⟨hcode, hne, hknown⟩ := mem_codes_of_mem_knownStops hentry
    have hone := h.one _ hcode hne hknown
    rw [hfeatures, length_rows_of_code hrows] at hone
    exact hone.le
  · rw [List.count_eq_zero_of_not_mem hmem]
    exact Nat.zero_le 1

theorem oneRowPerStop_of_nodup
    (hfeatures : after.features = (importer.clearDatabase db).features ++ rows)
    (hrows : List.Forall₂ (fun entry f => RowOf importer entry.1 f) (importer.knownStops db) rows)
    (hnodup : ((importer.knownStops db).map Prod.fst).Nodup) : importer.OneRowPerStop db after := by
  constructor
  · intro code hcode hne hknown
    rw [hfeatures, length_rows_of_code hrows]
    exact List.count_eq_one_of_mem hnodup (exists_knownStop hcode hne hknown)
  · intro f hf hdataset
    rw [hfeatures, List.mem_append] at hf
    rcases hf with hf | hf
    · have hother : f.dataset ≠ importer.dataset := by simpa using (List.mem_filter.1 hf).2
      exact absurd hdataset hother
    · obtain ⟨entry, hentry, hrow⟩ := exists_line_of_forall₂ hrows f hf
      rw [hrow.stopId]
      exact ⟨hrow, mem_codes_of_mem_knownStops hentry⟩
  · rw [hfeatures]
    exact others_of_rows (dataset_of_rows hrows)

/-- A known stop has no row where the rows were cleared only. -/
theorem not_oneRowPerStop_of_cleared (hfeatures : after.features = (importer.clearDatabase db).features)
    {entry : String × StopProperties} (hentry : entry ∈ importer.knownStops db) :
    ¬ importer.OneRowPerStop db after := by
  intro h
  obtain ⟨hcode, hne, hknown⟩ := mem_codes_of_mem_knownStops hentry
  have hone := h.one _ hcode hne hknown
  have hnone := @length_rows_of_code φ importer db [] [] .nil entry.1
  rw [List.append_nil] at hnone
  rw [hfeatures, hnone] at hone
  simp at hone

end Rows

end OneRow

/-- Each known stop has one row afterwards exactly where the codes of the known stops are distinct
and the values that their rows need convert and fit their columns. -/
theorem one_row_per_stop_iff (db : FeatureDb φ) :
    importer.OneRowPerStop db (importer.reimport db) ↔
      ((importer.knownStops db).map Prod.fst).Nodup ∧
        ∀ entry ∈ importer.knownStops db, Converts importer entry.1 entry.2 ∧
          FitsColumns importer entry.1 entry.2 := by
  rcases reimport_cases importer db with ⟨rows, hfeatures, hrows, hconverts⟩ | ⟨hfeatures, hbad⟩
  · constructor
    · exact fun h => ⟨h.nodup hfeatures hrows, hconverts⟩
    · exact fun ⟨hnodup, _⟩ => oneRowPerStop_of_nodup hfeatures hrows hnodup
  · obtain ⟨entry, hentry, hnot⟩ := hbad
    apply iff_of_false
    · exact not_oneRowPerStop_of_cleared hfeatures hentry
    · rintro ⟨-, hall⟩
      exact hnot (hall entry hentry)

def bareStop (code : String) : StopProperties where
  atcoCode := some code
  scnGaeilge := none
  stopType := none
  bearing := none
  nptgLocalityRef := none
  ptBayCount := none
  standingArea := none
  bikeStand := none
  bench := none
  bin := none
  stopAccessibility := none
  wheelchairAccessibility := none
  castleKerbing := none
  footpathToStop := none
  stepAtStop := none
  bikeLaneFront := none
  bikeLaneRear := none
  isSurveyed := none
  udSurveyor := none
  udCalculated := none

def repeatedCode : StopFeaturesImporter :=
  ⟨"TFI", [bareStop "8220DB000270", bareStop "8220DB000270"], [], [], []⟩

def oneStop : FeatureDb ℚ :=
  ⟨[⟨⟨"8220DB000270", "270", "Parnell Square", "", "", "", none, none, "TFI"⟩, 53, -6⟩], [],
    fun _ hf => absurd hf List.not_mem_nil, 1⟩

/-- A code that the stops collection has twice gets two rows. -/
theorem repeated_code_gets_two_rows :
    ¬ ∀ (importer : StopFeaturesImporter) (db : FeatureDb ℚ),
      importer.OneRowPerStop db (importer.reimport db) := by
  intro h
  have hone := (h repeatedCode oneStop).one "8220DB000270" (by decide) (by decide) (by decide)
  have htwo : ((repeatedCode.reimport oneStop).features.filter (fun f =>
      f.dataset = repeatedCode.dataset ∧ f.stopId = "8220DB000270")).length = 2 := by decide
  rw [htwo] at hone
  simp at hone

end StopFeaturesImporter

end SimplyTransport
