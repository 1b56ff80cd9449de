import SimplyTransport.GtfsImporters
import SimplyTransport.VehicleImporter

/-!
# The age of a vehicle's position

The importer stores the timestamp of a vehicle as a datetime of UTC without its zone. The server
subtracts it from its local time, the browser reads it as a local time of its own. The offsets
between UTC and these clocks are whole minutes below a day; an instant is a datetime of UTC.
-/

namespace SimplyTransport

structure UtcOffset where
  minutes : ℤ
  bounds : -1440 < minutes ∧ minutes < 1440

def UtcOffset.utc : UtcOffset := ⟨0, by decide⟩

def UtcOffset.localTime (offset : UtcOffset) (now : DateTime) : DateTime :=
  now.addMinutes offset.minutes

def UtcOffset.instant (offset : UtcOffset) (shown : DateTime) : DateTime :=
  shown.addMinutes (-offset.minutes)

/-- `timedelta.seconds` of a difference in microseconds: what the whole days leave. -/
def timedeltaSeconds (difference : ℤ) : ℤ := difference / 1000000 % 86400

/-- `mins_ago_updated`, with the local time of the server. -/
def RTVehicleModel.minsAgoUpdated (v : RTVehicleModel) (now : DateTime) : String :=
  let mins := timedeltaSeconds (now.sub v.timeOfUpdate) / 60
  if mins = 0 then "Less than a minute ago"
  else if mins = 1 then "1 min ago"
  else toString mins ++ " mins ago"

section Browser

variable (offset : UtcOffset) (now : DateTime)

def epochMillis (i : DateTime) : ℤ := (i.micros - 719163 * dayMicros) / 1000

/-- The ISO text is the datetime that it writes, or `none` where it is missing or no date. -/
def formatRelativeFromIso (iso : Option DateTime) : String :=
  match iso with
  | none => ""
  | some shown =>
    let mins := (epochMillis now - epochMillis (offset.instant shown)) / 60000
    if mins < 1 then "Less than a minute ago"
    else if mins = 1 then "1 min ago"
    else toString mins ++ " mins ago"

def vehiclePulseMaxAgeMs : ℤ := 180000

def vehiclePulseIsActive (timeOfUpdate : Option DateTime) : Bool :=
  match timeOfUpdate with
  | none => false
  | some shown =>
    epochMillis now - epochMillis (offset.instant shown) < vehiclePulseMaxAgeMs

end Browser

def ageLabel (mins : ℤ) : String :=
  if mins < 1 then "Less than a minute ago"
  else if mins = 1 then "1 min ago"
  else toString mins ++ " mins ago"

theorem minsText_ne (n : ℕ) : toString (n : ℤ) ++ " mins ago" ≠ "Less than a minute ago" ∧
    toString (n : ℤ) ++ " mins ago" ≠ "1 min ago" := by
  constructor
  · intro h
    have hchars := congrArg (fun s => s.toList.reverse) h
    simp only [String.toList_append, List.reverse_append] at hchars
    exact absurd (congrArg (fun cs => cs[4]?) hchars) (by simp)
  · intro h
    have hchars := congrArg (fun s => s.toList.reverse) h
    simp only [String.toList_append, List.reverse_append] at hchars
    exact absurd (congrArg (fun cs => cs[4]?) hchars) (by simp)

theorem ageLabel_of_lt {m : ℤ} (h : m < 1) : ageLabel m = "Less than a minute ago" := if_pos h

theorem ageLabel_of_two_le {m : ℤ} (h : 2 ≤ m) :
    ∃ k : ℕ, m = k ∧ ageLabel m = toString (k : ℤ) ++ " mins ago" := by
  lift m to ℕ using by omega
  refine ⟨m, rfl, ?_⟩
  rw [ageLabel, if_neg (by omega), if_neg (by omega)]

theorem repr_injective {k l : ℕ} (h : Nat.repr k = Nat.repr l) : k = l := by
  have hdigits : Nat.toDigits 10 k = Nat.toDigits 10 l := String.ofList_injective h
  rw [← Nat.ofDigitChars_ten_toDigits (n := k), hdigits, Nat.ofDigitChars_ten_toDigits]

theorem minsText_injective {k l : ℕ}
    (h : toString (k : ℤ) ++ " mins ago" = toString (l : ℤ) ++ " mins ago") : k = l :=
  repr_injective (String.append_left_inj _ |>.1 h)

/-- Two ages have one label when they are equal or both below a minute. -/
theorem ageLabel_eq_iff (m n : ℤ) : ageLabel m = ageLabel n ↔ m = n ∨ (m < 1 ∧ n < 1) := by
  constructor
  · intro h
    have hone : ageLabel 1 = "1 min ago" := rfl
    rcases lt_trichotomy m 1 with hm | rfl | hm
    · rcases lt_trichotomy n 1 with hn | rfl | hn
      · exact Or.inr ⟨hm, hn⟩
      · rw [ageLabel_of_lt hm, hone] at h
        exact absurd h (by decide)
      · obtain ⟨l, _, hl⟩ := ageLabel_of_two_le hn
        rw [ageLabel_of_lt hm, hl] at h
        exact absurd h.symm (minsText_ne l).1
    · rcases lt_trichotomy n 1 with hn | rfl | hn
      · rw [ageLabel_of_lt hn, hone] at h
        exact absurd h (by decide)
      · exact Or.inl rfl
      · obtain ⟨l, _, hl⟩ := ageLabel_of_two_le hn
        rw [hone, hl] at h
        exact absurd h.symm (minsText_ne l).2
    · obtain ⟨k, hk, hmk⟩ := ageLabel_of_two_le hm
      rcases lt_trichotomy n 1 with hn | rfl | hn
      · rw [hmk, ageLabel_of_lt hn] at h
        exact absurd h (minsText_ne k).1
      · rw [hmk, hone] at h
        exact absurd h (minsText_ne k).2
      · obtain ⟨l, hl, hnl⟩ := ageLabel_of_two_le hn
        rw [hmk, hnl] at h
        rw [hk, hl, minsText_injective h]
        exact Or.inl rfl
  · rintro (rfl | ⟨hm, hn⟩)
    · rfl
    · rw [ageLabel_of_lt hm, ageLabel_of_lt hn]

/-- The age at `now` of what happened `ts` seconds after 1970, in microseconds. -/
def trueAge (ts : ℤ) (now : DateTime) : ℤ := now.micros - (719163 * dayMicros + ts * 1000000)

/-- Both labels are those of the true age in whole minutes, and the pulse is active for three
minutes. -/
structure AgeSurvives (v : RTVehicleModel) (ts : ℤ) (now : DateTime)
    (server browser : UtcOffset) : Prop where
  server_label : v.minsAgoUpdated (server.localTime now) = ageLabel (trueAge ts now / 60000000)
  browser_label : formatRelativeFromIso browser now (some v.timeOfUpdate) =
    ageLabel (trueAge ts now / 60000000)
  pulse : vehiclePulseIsActive browser now (some v.timeOfUpdate) = true ↔
    trueAge ts now < 180000000

/-- Below a minute the offset of the server must leave less than a minute of the day, above it
there is no offset and no whole day; the browser has no offset, or an age that stays below a
minute under it. -/
def ClocksAgree (age : ℤ) (server browser : UtcOffset) : Prop :=
  ((age < 60000000 ∧ (age + server.minutes * 60000000) % dayMicros < 60000000) ∨
      (60000000 ≤ age ∧ age < dayMicros ∧ server.minutes = 0)) ∧
    (browser.minutes = 0 ∨
      (age < 60000000 ∧ age + browser.minutes * 60000000 < 60000000))

section Survives

variable {v : RTVehicleModel} {ts : ℤ}
  (hts : v.timeOfUpdate = ⟨719163 * dayMicros + ts * 1000000⟩) (now : DateTime)

include hts

theorem server_label_iff (server : UtcOffset) :
    v.minsAgoUpdated (server.localTime now) = ageLabel (trueAge ts now / 60000000) ↔
      (trueAge ts now < 60000000 ∧
          (trueAge ts now + server.minutes * 60000000) % dayMicros < 60000000) ∨
        (60000000 ≤ trueAge ts now ∧ trueAge ts now < dayMicros ∧ server.minutes = 0) := by
  have hage : (server.localTime now).sub v.timeOfUpdate =
      trueAge ts now + server.minutes * 60000000 := by
    rw [hts]
    simp only [UtcOffset.localTime, DateTime.addMinutes, DateTime.addSeconds, DateTime.addMicros,
      DateTime.sub, trueAge]
    ring
  have hlabel : v.minsAgoUpdated (server.localTime now) =
      ageLabel (timedeltaSeconds (trueAge ts now + server.minutes * 60000000) / 60) := by
    rw [RTVehicleModel.minsAgoUpdated, hage, ageLabel]
    have hnonneg : 0 ≤ timedeltaSeconds (trueAge ts now + server.minutes * 60000000) / 60 := by
      unfold timedeltaSeconds
      omega
    simp only [show ∀ n : ℤ, 0 ≤ n → (n = 0 ↔ n < 1) from fun n hn => by omega, hnonneg]
  rw [hlabel, ageLabel_eq_iff, timedeltaSeconds]
  have hbounds := server.bounds
  generalize trueAge ts now = age
  unfold dayMicros
  omega

theorem browser_age (browser : UtcOffset) :
    epochMillis now - epochMillis (browser.instant v.timeOfUpdate) =
      (trueAge ts now + browser.minutes * 60000000) / 1000 := by
  rw [hts]
  simp only [UtcOffset.instant, DateTime.addMinutes, DateTime.addSeconds, DateTime.addMicros,
    epochMillis, trueAge, dayMicros]
  omega

theorem browser_iff (browser : UtcOffset) :
    (formatRelativeFromIso browser now (some v.timeOfUpdate) =
        ageLabel (trueAge ts now / 60000000) ∧
      (vehiclePulseIsActive browser now (some v.timeOfUpdate) = true ↔
        trueAge ts now < 180000000)) ↔
      browser.minutes = 0 ∨ (trueAge ts now < 60000000 ∧
        trueAge ts now + browser.minutes * 60000000 < 60000000) := by
  have hlabel : formatRelativeFromIso browser now (some v.timeOfUpdate) =
      ageLabel ((trueAge ts now + browser.minutes * 60000000) / 1000 / 60000) := by
    rw [formatRelativeFromIso, browser_age hts]
    rfl
  have hpulse : vehiclePulseIsActive browser now (some v.timeOfUpdate) = true ↔
      (trueAge ts now + browser.minutes * 60000000) / 1000 < 180000 := by
    rw [vehiclePulseIsActive, browser_age hts, decide_eq_true_eq, vehiclePulseMaxAgeMs]
  rw [hlabel, hpulse, ageLabel_eq_iff]
  generalize trueAge ts now = age
  omega

theorem ageSurvives_iff (server browser : UtcOffset) :
    AgeSurvives v ts now server browser ↔ ClocksAgree (trueAge ts now) server browser := by
  rw [ClocksAgree, ← server_label_iff hts now server, ← browser_iff hts now browser]
  constructor
  · rintro ⟨hserver, hlabel, hpulse⟩
    exact ⟨hserver, hlabel, hpulse⟩
  · rintro ⟨hserver, hlabel, hpulse⟩
    exact ⟨hserver, hlabel, hpulse⟩

end Survives

def VehicleEntity.hasTimestamp (item : VehicleEntity) (ts : ℤ) : Prop :=
  ∃ u s, item.vehicle = some u ∧ u.timestamp = some s ∧ s.toInt = .ok ts

theorem vehicleRecordOf_timeOfUpdate {dataset : String}
    {tripDir : OrderedDict String (String × ℤ)} {createdAt : DateTime} {item : VehicleEntity}
    {r : RtVehicleRecord} (h : vehicleRecordOf dataset tripDir createdAt item = .ok (some r)) :
    ∃ ts, item.hasTimestamp ts ∧ r.timeOfUpdate = ⟨719163 * dayMicros + ts * 1000000⟩ := by
  unfold vehicleRecordOf at h
  split at h
  · cases h
  next u hu =>
    split at h
    · cases h
    · obtain ⟨vid, _, h⟩ := bind_eq_ok.1 h
      split at h
      next s _ _ _ hs _ _ _ =>
        obtain ⟨record, hrecord, h⟩ := bind_eq_ok.1 h
        obtain ⟨vehicleId, _, hrecord⟩ := bind_eq_ok.1 hrecord
        obtain ⟨timeOfUpdate, htime, hrecord⟩ := bind_eq_ok.1 hrecord
        obtain ⟨ts, hts, htime⟩ := bind_eq_ok.1 htime
        refine ⟨ts, ⟨u, _, hu, hs, hts⟩, ?_⟩
        rw [← Option.some.inj (Except.ok.inj h), ← Except.ok.inj hrecord]
        exact DateTime.fromTimestamp_ok htime
      · cases h

theorem exists_item_of_mem {dataset : String} {tripDir : OrderedDict String (String × ℤ)}
    {createdAt : DateTime} {data : List VehicleEntity} {records : List RtVehicleRecord}
    (h : buildRtVehicleRecords dataset tripDir createdAt data = .ok records)
    {r : RtVehicleRecord} (hr : r ∈ records) :
    ∃ item ∈ data, vehicleRecordOf dataset tripDir createdAt item = .ok (some r) := by
  obtain ⟨out, hout, h⟩ := bind_eq_ok.1 h
  obtain rfl := Except.ok.inj h
  obtain ⟨_, hmem, rfl⟩ := List.mem_filterMap.1 (OrderedDict.mem_of_mem_lastBy_values hr)
  exact exists_line_of_forall₂ (forall₂_of_mapM hout) (some r) hmem

/-- A record of the feed keeps its age under exactly the clocks that agree on it. -/
theorem vehicle_age_iff {dataset : String} {tripDir : OrderedDict String (String × ℤ)}
    {createdAt : DateTime} {data : List VehicleEntity} {records : List RtVehicleRecord}
    (h : buildRtVehicleRecords dataset tripDir createdAt data = .ok records)
    {r : RtVehicleRecord} (hr : r ∈ records) :
    ∃ item ∈ data, vehicleRecordOf dataset tripDir createdAt item = .ok (some r) ∧
      ∃ ts, item.hasTimestamp ts ∧ ∀ id now server browser,
        AgeSurvives (rtVehicleWithId id r).toRTVehicleModel ts now server browser ↔
          ClocksAgree (trueAge ts now) server browser := by
  obtain ⟨item, hitem, hrecord⟩ := exists_item_of_mem h hr
  obtain ⟨ts, hts, htime⟩ := vehicleRecordOf_timeOfUpdate hrecord
  refine ⟨item, hitem, hrecord, ts, hts, fun id now server browser => ?_⟩
  have hmodel : (rtVehicleWithId id r).toRTVehicleModel.timeOfUpdate =
    ⟨719163 * dayMicros + ts * 1000000⟩ := htime
  exact ageSurvives_iff hmodel now server browser

section Sample

def feedVehicle : VehicleEntity where
  vehicle := some {
    tripId := some "t1"
    vehicle := .value (some (.str "40"))
    timestamp := some (.str "1700000000")
    latitude := some (.float 53)
    longitude := some (.float (-6)) }

def feedTrips : OrderedDict String (String × ℤ) :=
  OrderedDict.lastBy (fun _ => "t1") [("r1", 0)]

def halfMinuteLater : DateTime := ⟨719163 * dayMicros + 1700000030 * 1000000⟩

def summerTime : UtcOffset := ⟨60, by decide⟩

theorem vehicle_age_fresh : ∃ r,
    buildRtVehicleRecords "TFI" feedTrips ⟨0⟩ [feedVehicle] = .ok [r] ∧
      AgeSurvives (rtVehicleWithId 1 r).toRTVehicleModel 1700000000 halfMinuteLater .utc .utc := by
  have hbuild : buildRtVehicleRecords "TFI" feedTrips ⟨0⟩ [feedVehicle] =
      .ok [⟨40, "t1", ⟨719163 * dayMicros + 1700000000 * 1000000⟩, .float 53, .float (-6), "TFI",
        ⟨0⟩⟩] := rfl
  obtain ⟨item, hitem, _, ts, ⟨u, s, hu, hs, hts⟩, hage⟩ :=
    vehicle_age_iff hbuild (List.mem_singleton.2 rfl)
  obtain rfl := List.mem_singleton.1 hitem
  obtain rfl := Option.some.inj hu
  obtain rfl := Option.some.inj hs
  obtain rfl : 1700000000 = ts := Except.ok.inj hts
  exact ⟨_, hbuild, (hage 1 halfMinuteLater .utc .utc).2
    ⟨Or.inl ⟨by decide, by decide⟩, Or.inl rfl⟩⟩

/-- In summer time a position of half a minute ago is an hour old. -/
theorem fresh_vehicle_an_hour_old : ∃ r,
    buildRtVehicleRecords "TFI" feedTrips ⟨0⟩ [feedVehicle] = .ok [r] ∧
      trueAge 1700000000 halfMinuteLater = 30000000 ∧
      (rtVehicleWithId 1 r).minsAgoUpdated (summerTime.localTime halfMinuteLater) =
        "60 mins ago" ∧
      formatRelativeFromIso summerTime halfMinuteLater (some r.timeOfUpdate) = "60 mins ago" ∧
      vehiclePulseIsActive summerTime halfMinuteLater (some r.timeOfUpdate) = false ∧
      ¬ AgeSurvives (rtVehicleWithId 1 r).toRTVehicleModel 1700000000 halfMinuteLater summerTime
        summerTime :=
  ⟨_, rfl, by decide, by decide, by decide, by decide,
    fun h => absurd h.server_label (by decide)⟩

end Sample

end SimplyTransport
