import SimplyTransport.DelaysService

/-!
# Queries of the recorded delays

The statistics and the samples of a route, in a range of time, for a stop and a scheduled time
where these are given. A datetime of a request may carry an offset from UTC. Conditions whose range
is not empty are told apart by a row.
-/

namespace SimplyTransport

/-- A datetime of a request: what it shows, and its offset from UTC in microseconds. -/
structure OffsetDateTime where
  wall : DateTime
  offset : Option ℤ
  deriving DecidableEq

/-- The driver's refusal of a parameter. -/
inductive DataError
  | offsetAware
  deriving DecidableEq

/-- A parameter that is compared with the column of timestamps, which takes no offset. -/
def timestampParameter : Option OffsetDateTime → Except DataError (Option DateTime)
  | none => .ok none
  | some ⟨wall, none⟩ => .ok (some wall)
  | some ⟨_, some _⟩ => .error .offsetAware

/-- `a > b`, which raises where one of the two has no offset. -/
def OffsetDateTime.gt (a b : OffsetDateTime) : Except PyError Bool :=
  match a.offset, b.offset with
  | none, none => .ok (a.wall > b.wall)
  | some m, some n => .ok (a.wall.addMicros (-m) > b.wall.addMicros (-n))
  | _, _ => .error .typeError

structure TSStopTimeRow extends TSStopTimeModel where
  timestamp : DateTime
  deriving DecidableEq

/-- What the queries filter by; a condition that is not given is left out. -/
structure DelayConditions where
  routeCode : String
  stopId : Option String
  scheduledTime : Option Time
  startTime : Option DateTime
  endTime : Option DateTime
  deriving DecidableEq

def maximumLimit : ℕ := 180

def maximumTimestamp (now : DateTime) : DateTime := now.addSeconds (-(maximumLimit * 86400))

namespace DelayConditions

def hold (q : DelayConditions) (now : DateTime) (row : TSStopTimeRow) : Bool :=
  row.routeCode = q.routeCode ∧ row.timestamp > maximumTimestamp now ∧
    q.startTime.all (fun t => row.timestamp ≥ t) ∧ q.endTime.all (fun t => row.timestamp ≤ t) ∧
    (q.stopId.filter (fun id => id ≠ "")).all (fun id => row.stopId = id) ∧
    q.scheduledTime.all (fun t => row.scheduledTime = t)

def rangeEmpty (q : DelayConditions) : Bool :=
  match q.startTime, q.endTime with
  | some startTime, some endTime => endTime < startTime
  | _, _ => false

end DelayConditions

instance instNoMinOrderDateTime : NoMinOrder DateTime :=
  ⟨fun d => ⟨d.addMicros (-1), DateTime.lt_iff.2 (sub_one_lt d.micros)⟩⟩

instance instNoMaxOrderDateTime : NoMaxOrder DateTime :=
  ⟨fun d => ⟨d.addMicros 1, DateTime.lt_iff.2 (lt_add_one d.micros)⟩⟩

theorem option_eq_of_getD {α : Type} {o o' : Option α} {d : α} (hsome : o.isSome = o'.isSome)
    (h : ∀ a, o' = some a → o.getD d = a) : o = o' := by
  cases o with
  | none =>
      cases o' with
      | none => rfl
      | some b => cases hsome
  | some a =>
      cases o' with
      | none => cases hsome
      | some b => exact congrArg some (h b rfl)

/-- A bound that may be missing is determined by what it admits up to an element that it admits. -/
theorem optionBound_ext {α : Type} [LinearOrder α] [NoMinOrder α] {o o' : Option α} {t : α}
    (ht : ∀ a, o = some a → a ≤ t) (ht' : ∀ a, o' = some a → a ≤ t)
    (h : ∀ u ≤ t, (∀ a, o = some a → a ≤ u) ↔ ∀ a, o' = some a → a ≤ u) : o = o' := by
  cases o with
  | none =>
      cases o' with
      | none => rfl
      | some b =>
          obtain ⟨u, hu⟩ := exists_lt b
          exact absurd ((h u (hu.le.trans (ht' b rfl))).1 nofun b rfl) (not_le.2 hu)
  | some a =>
      cases o' with
      | none =>
          obtain ⟨u, hu⟩ := exists_lt a
          exact absurd ((h u (hu.le.trans (ht a rfl))).2 nofun a rfl) (not_le.2 hu)
      | some b =>
          have hab : a ≤ b := (h b (ht' b rfl)).2 (fun _ hb => (Option.some.inj hb).ge) a rfl
          have hba : b ≤ a := (h a (ht a rfl)).1 (fun _ ha => (Option.some.inj ha).ge) b rfl
          rw [le_antisymm hab hba]

section Queries

variable (rows : List TSStopTimeRow) (now : DateTime) (q : DelayConditions)

/-- The statistics, which the database computes from the delays, where there are any. -/
def getAggregatedDelay {α : Type} (aggregate : List ℤ → α) : Option α :=
  let delays := (rows.filter (q.hold now)).map (fun row => row.delayInSeconds)
  if delays.isEmpty then none else some (aggregate delays)

def newestRows (condition : TSStopTimeRow → Bool) : List TSStopTimeRow :=
  ((rows.filter condition).mergeSort (fun a b => a.timestamp ≥ b.timestamp)).take maximumLimit

def getDelay : List TSStopTimeRow := newestRows rows (q.hold now)

end Queries

namespace DelayConditions

variable {q q' : DelayConditions} {now : DateTime} {row : TSStopTimeRow}

theorem hold_iff : q.hold now row = true ↔
    row.routeCode = q.routeCode ∧ maximumTimestamp now < row.timestamp ∧
      (∀ t, q.startTime = some t → t ≤ row.timestamp) ∧
      (∀ t, q.endTime = some t → row.timestamp ≤ t) ∧
      (∀ id, q.stopId = some id → id ≠ "" → row.stopId = id) ∧
      ∀ t, q.scheduledTime = some t → row.scheduledTime = t := by
  simp only [hold, decide_eq_true_eq, Option.all_eq_true, Option.filter_eq_some_iff, gt_iff_lt,
    ge_iff_le, and_imp]

theorem rangeEmpty_iff : q.rangeEmpty = true ↔
    ∃ startTime endTime, q.startTime = some startTime ∧ q.endTime = some endTime ∧
      endTime < startTime := by
  unfold rangeEmpty
  split
  · next a b ha hb =>
    refine ⟨fun h => ⟨a, b, ha, hb, of_decide_eq_true h⟩, fun ⟨a', b', ha', hb', hlt⟩ => ?_⟩
    obtain rfl := Option.some.inj (ha.symm.trans ha')
    obtain rfl := Option.some.inj (hb.symm.trans hb')
    exact decide_eq_true hlt
  · next hnone =>
    refine ⟨nofun, fun ⟨a, b, ha, hb, _⟩ => absurd hb ?_⟩
    exact fun hb => hnone a b ha hb

theorem maximumTimestamp_lt (now : DateTime) : maximumTimestamp now < now := by
  simp only [maximumTimestamp, maximumLimit, DateTime.addSeconds, DateTime.addMicros,
    DateTime.lt_iff]
  omega

theorem not_hold_of_rangeEmpty (h : q.rangeEmpty = true) : q.hold now row = false := by
  obtain ⟨a, b, ha, hb, hlt⟩ := rangeEmpty_iff.1 h
  rw [Bool.eq_false_iff, Ne, hold_iff]
  intro hhold
  exact absurd hlt (not_lt.2 ((hhold.2.2.1 a ha).trans (hhold.2.2.2.1 b hb)))

def rowAt (q : DelayConditions) (timestamp : DateTime) : TSStopTimeRow :=
  ⟨⟨q.stopId.getD "", q.routeCode, q.scheduledTime.getD Time.midnight, 0⟩, timestamp⟩

def InRange (q : DelayConditions) (t : DateTime) : Prop :=
  (∀ a, q.startTime = some a → a ≤ t) ∧ ∀ b, q.endTime = some b → t ≤ b

theorem hold_rowAt {t : DateTime} : q.hold t (q.rowAt t) = true ↔ q.InRange t := by
  rw [hold_iff, InRange]
  constructor
  · exact fun h => ⟨h.2.2.1, h.2.2.2.1⟩
  · intro h
    refine ⟨rfl, maximumTimestamp_lt t, h.1, h.2, fun id hid _ => ?_, fun time htime => ?_⟩
    · rw [rowAt, hid, Option.getD_some]
    · rw [rowAt, htime, Option.getD_some]

theorem exists_inRange (h : q.rangeEmpty = false) : ∃ t, q.InRange t := by
  cases hstart : q.startTime with
  | some a =>
      refine ⟨a, fun a' ha' => (Option.some.inj (hstart.symm.trans ha')).ge, fun b hb => ?_⟩
      by_contra hlt
      rw [rangeEmpty_iff.2 ⟨a, b, hstart, hb, not_le.1 hlt⟩] at h
      cases h
  | none =>
      refine ⟨q.endTime.getD ⟨0⟩, fun a ha => ?_, fun b hb => ?_⟩
      · rw [hstart] at ha
        cases ha
      · rw [hb, Option.getD_some]

theorem range_ext {t : DateTime} (ht : q.InRange t) (h : ∀ u, q.InRange u ↔ q'.InRange u) :
    q.startTime = q'.startTime ∧ q.endTime = q'.endTime := by
  have ht' := (h t).1 ht
  constructor
  · refine optionBound_ext ht.1 ht'.1 (fun u hu => ?_)
    have hend : ∀ b, q.endTime = some b → u ≤ b := fun b hb => hu.trans (ht.2 b hb)
    have hend' : ∀ b, q'.endTime = some b → u ≤ b := fun b hb => hu.trans (ht'.2 b hb)
    exact ⟨fun hstart => ((h u).1 ⟨hstart, hend⟩).1, fun hstart => ((h u).2 ⟨hstart, hend'⟩).1⟩
  · refine @optionBound_ext DateTimeᵒᵈ _ _ _ _ t ht.2 ht'.2 (fun u hu => ?_)
    have hstart : ∀ a, q.startTime = some a → a ≤ u := fun a ha => (ht.1 a ha).trans hu
    have hstart' : ∀ a, q'.startTime = some a → a ≤ u := fun a ha => (ht'.1 a ha).trans hu
    exact ⟨fun hend => ((h u).1 ⟨hstart, hend⟩).2, fun hend => ((h u).2 ⟨hstart', hend⟩).2⟩

/-- The two ask for a stop and a scheduled time, or both do not. -/
structure Alike (q q' : DelayConditions) : Prop where
  stopId : q.stopId.isSome = q'.stopId.isSome
  stopId_ne : q.stopId ≠ some "" ∧ q'.stopId ≠ some ""
  scheduledTime : q.scheduledTime.isSome = q'.scheduledTime.isSome

/-- Where conditions admit the row that others have for a time, the two are the same but for the
range. -/
theorem Alike.eq_of_hold (h : Alike q q') {t : DateTime} (hhold : q'.hold t (q.rowAt t) = true) :
    q.routeCode = q'.routeCode ∧ q.stopId = q'.stopId ∧ q.scheduledTime = q'.scheduledTime := by
  obtain ⟨hroute, _, _, _, hstop, htime⟩ := hold_iff.1 hhold
  have hstop' : ∀ id, q'.stopId = some id → q.stopId.getD "" = id := fun id hid =>
    hstop id hid (fun hempty => h.stopId_ne.2 (hempty ▸ hid))
  exact ⟨hroute, option_eq_of_getD h.stopId hstop', option_eq_of_getD h.scheduledTime htime⟩

/-- Conditions that hold of the same rows are the same. -/
theorem Alike.eq (h : Alike q q') (hempty : q.rangeEmpty = false) (hempty' : q'.rangeEmpty = false)
    (hhold : ∀ now row, q.hold now row = q'.hold now row) : q = q' := by
  obtain ⟨t, ht⟩ := exists_inRange hempty
  obtain ⟨hroute, hstop, htime⟩ := h.eq_of_hold ((hhold t _).symm.trans (hold_rowAt.2 ht))
  have hrow : ∀ u, q.rowAt u = q'.rowAt u := fun u => by
    rw [rowAt, rowAt, hroute, hstop, htime]
  have hrange : ∀ u, q.InRange u ↔ q'.InRange u := fun u => by
    rw [← hold_rowAt, ← hold_rowAt, hhold, hrow]
  obtain ⟨hstart, hend⟩ := range_ext ht hrange
  cases q
  cases q'
  cases hroute
  cases hstop
  cases htime
  cases hstart
  cases hend
  rfl

end DelayConditions

end SimplyTransport
