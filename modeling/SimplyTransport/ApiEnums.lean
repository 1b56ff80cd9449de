import SimplyTransport.CachedPages
import SimplyTransport.Enumerations
import SimplyTransport.RealtimeScheduleContracts

/-!
# The enumerations of the timetable

The domain's enumerations have numbers, or texts, and those of the responses have names. A field of a
response takes the name of the member that the column's value has, and rejects other values.
-/

namespace SimplyTransport

inductive RouteType
  | tram
  | subway
  | rail
  | bus
  | ferry
  | cableTram
  | aerialLift
  | funicular
  | trolleybus
  | monorail
  deriving DecidableEq

def RouteType.name : RouteType → String
  | .tram => "TRAM"
  | .subway => "SUBWAY"
  | .rail => "RAIL"
  | .bus => "BUS"
  | .ferry => "FERRY"
  | .cableTram => "CABLE_TRAM"
  | .aerialLift => "AERIAL_LIFT"
  | .funicular => "FUNICULAR"
  | .trolleybus => "TROLLEYBUS"
  | .monorail => "MONORAIL"

def RouteType.value : RouteType → ℤ
  | .tram => 0
  | .subway => 1
  | .rail => 2
  | .bus => 3
  | .ferry => 4
  | .cableTram => 5
  | .aerialLift => 6
  | .funicular => 7
  | .trolleybus => 11
  | .monorail => 12

def RouteType.enum : Enumeration RouteType ℤ where
  members := [.tram, .subway, .rail, .bus, .ferry, .cableTram, .aerialLift, .funicular,
    .trolleybus, .monorail]
  name := RouteType.name
  value := RouteType.value
  complete e := by cases e <;> decide
  names_nodup := by decide
  values_nodup := by decide

inductive LocationType
  | stop
  | station
  | entranceExit
  | genericNode
  | boardingArea
  deriving DecidableEq

def LocationType.name : LocationType → String
  | .stop => "STOP"
  | .station => "STATION"
  | .entranceExit => "ENTRANCE_EXIT"
  | .genericNode => "GENERIC_NODE"
  | .boardingArea => "BOARDING_AREA"

def LocationType.value : LocationType → ℤ
  | .stop => 0
  | .station => 1
  | .entranceExit => 2
  | .genericNode => 3
  | .boardingArea => 4

def LocationType.enum : Enumeration LocationType ℤ where
  members := [.stop, .station, .entranceExit, .genericNode, .boardingArea]
  name := LocationType.name
  value := LocationType.value
  complete e := by cases e <;> decide
  names_nodup := by decide
  values_nodup := by decide

inductive PickupType
  | regularlyScheduled
  | noPickup
  | mustPhoneAgency
  | mustCoordinateWithDriver
  deriving DecidableEq

def PickupType.name : PickupType → String
  | .regularlyScheduled => "REGULARLY_SCHEDULED"
  | .noPickup => "NO_PICKUP"
  | .mustPhoneAgency => "MUST_PHONE_AGENCY"
  | .mustCoordinateWithDriver => "MUST_COORDINATE_WITH_DRIVER"

def PickupType.value : PickupType → ℤ
  | .regularlyScheduled => 0
  | .noPickup => 1
  | .mustPhoneAgency => 2
  | .mustCoordinateWithDriver => 3

def PickupType.enum : Enumeration PickupType ℤ where
  members := [.regularlyScheduled, .noPickup, .mustPhoneAgency, .mustCoordinateWithDriver]
  name := PickupType.name
  value := PickupType.value
  complete e := by cases e <;> decide
  names_nodup := by decide
  values_nodup := by decide

inductive DropoffType
  | regularlyScheduled
  | noDropOff
  | mustPhoneAgency
  | mustCoordinateWithDriver
  deriving DecidableEq

def DropoffType.name : DropoffType → String
  | .regularlyScheduled => "REGULARLY_SCHEDULED"
  | .noDropOff => "NO_DROP_OFF"
  | .mustPhoneAgency => "MUST_PHONE_AGENCY"
  | .mustCoordinateWithDriver => "MUST_COORDINATE_WITH_DRIVER"

def DropoffType.value : DropoffType → ℤ
  | .regularlyScheduled => 0
  | .noDropOff => 1
  | .mustPhoneAgency => 2
  | .mustCoordinateWithDriver => 3

def DropoffType.enum : Enumeration DropoffType ℤ where
  members := [.regularlyScheduled, .noDropOff, .mustPhoneAgency, .mustCoordinateWithDriver]
  name := DropoffType.name
  value := DropoffType.value
  complete e := by cases e <;> decide
  names_nodup := by decide
  values_nodup := by decide

inductive Timepoint
  | approximate
  | exact
  deriving DecidableEq

def Timepoint.name : Timepoint → String
  | .approximate => "APPROXIMATE"
  | .exact => "EXACT"

def Timepoint.value : Timepoint → ℤ
  | .approximate => 0
  | .exact => 1

def Timepoint.enum : Enumeration Timepoint ℤ where
  members := [.approximate, .exact]
  name := Timepoint.name
  value := Timepoint.value
  complete e := by cases e <;> decide
  names_nodup := by decide
  values_nodup := by decide

def Direction.name : Direction → String
  | .outbound => "OUTBOUND"
  | .inbound => "INBOUND"

def Direction.enum : Enumeration Direction ℤ where
  members := [.outbound, .inbound]
  name := Direction.name
  value := Direction.value
  complete e := by cases e <;> decide
  names_nodup := by decide
  values_nodup := by decide

def ExceptionType.name : ExceptionType → String
  | .added => "ADDED"
  | .removed => "REMOVED"

def ExceptionType.value : ExceptionType → String
  | .added => "added"
  | .removed => "removed"

def ExceptionType.enum : Enumeration ExceptionType String where
  members := [.added, .removed]
  name := ExceptionType.name
  value := ExceptionType.value
  complete e := by cases e <;> decide
  names_nodup := by decide
  values_nodup := by decide

namespace ApiContracts

inductive RouteType
  | tram
  | subway
  | rail
  | bus
  | ferry
  | cableTram
  | aerialLift
  | funicular
  | trolleybus
  | monorail
  deriving DecidableEq

def RouteType.text : RouteType → String
  | .tram => "TRAM"
  | .subway => "SUBWAY"
  | .rail => "RAIL"
  | .bus => "BUS"
  | .ferry => "FERRY"
  | .cableTram => "CABLE_TRAM"
  | .aerialLift => "AERIAL_LIFT"
  | .funicular => "FUNICULAR"
  | .trolleybus => "TROLLEYBUS"
  | .monorail => "MONORAIL"

def RouteType.enum : Enumeration RouteType String where
  members := [.tram, .subway, .rail, .bus, .ferry, .cableTram, .aerialLift, .funicular,
    .trolleybus, .monorail]
  name := RouteType.text
  value := RouteType.text
  complete e := by cases e <;> decide
  names_nodup := by decide
  values_nodup := by decide

inductive LocationType
  | stop
  | station
  | entranceExit
  | genericNode
  | boardingArea
  deriving DecidableEq

def LocationType.text : LocationType → String
  | .stop => "STOP"
  | .station => "STATION"
  | .entranceExit => "ENTRANCE_EXIT"
  | .genericNode => "GENERIC_NODE"
  | .boardingArea => "BOARDING_AREA"

def LocationType.enum : Enumeration LocationType String where
  members := [.stop, .station, .entranceExit, .genericNode, .boardingArea]
  name := LocationType.text
  value := LocationType.text
  complete e := by cases e <;> decide
  names_nodup := by decide
  values_nodup := by decide

inductive PickupType
  | regularlyScheduled
  | noPickup
  | mustPhoneAgency
  | mustCoordinateWithDriver
  deriving DecidableEq

def PickupType.text : PickupType → String
  | .regularlyScheduled => "REGULARLY_SCHEDULED"
  | .noPickup => "NO_PICKUP"
  | .mustPhoneAgency => "MUST_PHONE_AGENCY"
  | .mustCoordinateWithDriver => "MUST_COORDINATE_WITH_DRIVER"

def PickupType.enum : Enumeration PickupType String where
  members := [.regularlyScheduled, .noPickup, .mustPhoneAgency, .mustCoordinateWithDriver]
  name := PickupType.text
  value := PickupType.text
  complete e := by cases e <;> decide
  names_nodup := by decide
  values_nodup := by decide

inductive DropoffType
  | regularlyScheduled
  | noDropOff
  | mustPhoneAgency
  | mustCoordinateWithDriver
  deriving DecidableEq

def DropoffType.text : DropoffType → String
  | .regularlyScheduled => "REGULARLY_SCHEDULED"
  | .noDropOff => "NO_DROP_OFF"
  | .mustPhoneAgency => "MUST_PHONE_AGENCY"
  | .mustCoordinateWithDriver => "MUST_COORDINATE_WITH_DRIVER"

def DropoffType.enum : Enumeration DropoffType String where
  members := [.regularlyScheduled, .noDropOff, .mustPhoneAgency, .mustCoordinateWithDriver]
  name := DropoffType.text
  value := DropoffType.text
  complete e := by cases e <;> decide
  names_nodup := by decide
  values_nodup := by decide

inductive Timepoint
  | approximate
  | exact
  deriving DecidableEq

def Timepoint.text : Timepoint → String
  | .approximate => "APPROXIMATE"
  | .exact => "EXACT"

def Timepoint.enum : Enumeration Timepoint String where
  members := [.approximate, .exact]
  name := Timepoint.text
  value := Timepoint.text
  complete e := by cases e <;> decide
  names_nodup := by decide
  values_nodup := by decide

inductive ExceptionType
  | added
  | removed
  deriving DecidableEq

def ExceptionType.text : ExceptionType → String
  | .added => "ADDED"
  | .removed => "REMOVED"

def ExceptionType.enum : Enumeration ExceptionType String where
  members := [.added, .removed]
  name := ExceptionType.text
  value := ExceptionType.text
  complete e := by cases e <;> decide
  names_nodup := by decide
  values_nodup := by decide

def Direction.text : Direction → String
  | .outbound => "OUTBOUND"
  | .inbound => "INBOUND"

def Direction.enum : Enumeration Direction String where
  members := [.outbound, .inbound]
  name := Direction.text
  value := Direction.text
  complete e := by cases e <;> decide
  names_nodup := by decide
  values_nodup := by decide

section Fields

variable {E A V : Type} [DecidableEq V]

def enumField (d : Enumeration E V) (a : Enumeration A String) (value : V) : Except PyError A :=
  match d.translate a value with
  | some x => .ok x
  | none => .error .valueError

def optionalEnumField (d : Enumeration E V) (a : Enumeration A String) :
    Option V → Except PyError (Option A)
  | none => .ok none
  | some value => do return some (← enumField d a value)

def toDomain (d : Enumeration E V) (a : Enumeration A String) (x : A) : Except PyError E :=
  match d.back a x with
  | some e => .ok e
  | none => .error .keyError

variable {d : Enumeration E V} {a : Enumeration A String} {x : A} {value value' : V}

theorem enumField_eq_ok : enumField d a value = .ok x ↔ d.translate a value = some x := by
  unfold enumField
  cases d.translate a value with
  | none => exact iff_of_false (fun h => by cases h) (fun h => by cases h)
  | some y =>
      constructor
      · intro h
        rw [Except.ok.inj h]
      · intro h
        rw [Option.some.inj h]

theorem accepted_enumField (h : d.Names a) :
    Accepted (enumField d a value) ↔ ∃ e, d.value e = value := by
  rw [← Enumeration.exists_translate_iff h]
  exact exists_congr (fun x => enumField_eq_ok)

theorem accepted_optionalEnumField (h : d.Names a) {value : Option V} :
    Accepted (optionalEnumField d a value) ↔ ∀ v ∈ value, ∃ e, d.value e = v := by
  cases value with
  | none => exact iff_of_true ⟨none, rfl⟩ (fun v hv => by cases hv)
  | some v =>
      have hfield : Accepted (optionalEnumField d a (some v)) ↔ Accepted (enumField d a v) := by
        constructor
        · rintro ⟨x, hx⟩
          obtain ⟨y, hy, -⟩ := bind_eq_ok.1 hx
          exact ⟨y, hy⟩
        · rintro ⟨y, hy⟩
          exact ⟨some y, bind_eq_ok.2 ⟨y, hy, rfl⟩⟩
      rw [hfield, accepted_enumField h]
      exact ⟨fun hv w hw => Option.some.inj hw ▸ hv, fun hv => hv v rfl⟩

/-- The member of a field's value has the number of the column. -/
theorem toDomain_enumField (h : d.Names a) (hx : enumField d a value = .ok x) :
    ∃ e, toDomain d a x = .ok e ∧ d.value e = value := by
  obtain ⟨e, hback, hvalue⟩ := Enumeration.back_of_translate h (enumField_eq_ok.1 hx)
  refine ⟨e, ?_, hvalue⟩
  rw [toDomain, hback]

theorem enumField_inj (h : d.Names a) (hx : enumField d a value = .ok x)
    (hx' : enumField d a value' = .ok x) : value = value' := by
  obtain ⟨e, he, rfl⟩ := toDomain_enumField h hx
  obtain ⟨e', he', rfl⟩ := toDomain_enumField h hx'
  rw [Except.ok.inj (he.symm.trans he')]

theorem optionalEnumField_inj (h : d.Names a) {value value' : Option V} {x : Option A}
    (hx : optionalEnumField d a value = .ok x) (hx' : optionalEnumField d a value' = .ok x) :
    value = value' := by
  cases value with
  | none =>
      obtain rfl := Except.ok.inj hx
      cases value' with
      | none => rfl
      | some v' =>
          obtain ⟨y, -, hy⟩ := bind_eq_ok.1 hx'
          cases hy
  | some v =>
      obtain ⟨y, hy, hxy⟩ := bind_eq_ok.1 hx
      obtain rfl := Except.ok.inj hxy
      cases value' with
      | none => cases hx'
      | some v' =>
          obtain ⟨y', hy', hxy'⟩ := bind_eq_ok.1 hx'
          obtain rfl := Option.some.inj (Except.ok.inj hxy')
          rw [enumField_inj h hy hy']

end Fields

section Names

theorem routeType_names : SimplyTransport.RouteType.enum.Names RouteType.enum :=
  ⟨by decide, fun _ => rfl⟩

theorem locationType_names : SimplyTransport.LocationType.enum.Names LocationType.enum :=
  ⟨by decide, fun _ => rfl⟩

theorem pickupType_names : SimplyTransport.PickupType.enum.Names PickupType.enum :=
  ⟨by decide, fun _ => rfl⟩

theorem dropoffType_names : SimplyTransport.DropoffType.enum.Names DropoffType.enum :=
  ⟨by decide, fun _ => rfl⟩

theorem timepoint_names : SimplyTransport.Timepoint.enum.Names Timepoint.enum :=
  ⟨by decide, fun _ => rfl⟩

theorem exceptionType_names : SimplyTransport.ExceptionType.enum.Names ExceptionType.enum :=
  ⟨by decide, fun _ => rfl⟩

theorem direction_names : SimplyTransport.Direction.enum.Names Direction.enum :=
  ⟨by decide, fun _ => rfl⟩

end Names

/-- The direction of a trip is a field like the others. -/
theorem directionField_eq (value : ℤ) : directionField value =
    enumField SimplyTransport.Direction.enum Direction.enum value := by
  unfold directionField
  split_ifs with hzero hone
  · rw [hzero]
    rfl
  · rw [hone]
    rfl
  · symm
    have hnone : ¬ Accepted (enumField SimplyTransport.Direction.enum Direction.enum value) := by
      rw [accepted_enumField direction_names]
      rintro ⟨e, rfl⟩
      cases e with
      | outbound => exact hzero rfl
      | inbound => exact hone rfl
    cases hfield : enumField SimplyTransport.Direction.enum Direction.enum value with
    | ok x => exact absurd ⟨x, hfield⟩ hnone
    | error e =>
        unfold enumField at hfield
        split at hfield
        · cases hfield
        · rw [Except.error.inj hfield]

end ApiContracts

end SimplyTransport
