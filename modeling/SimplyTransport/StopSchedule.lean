import SimplyTransport.CacheKeys
import SimplyTransport.RealtimeController
import SimplyTransport.StableSort
import SimplyTransport.TripInstance

/-!
# The cached schedule page of a stop

The page of a day shows the next date that is that day, and its entry lives for a whole day
under the stop and the day as the request gives it. Across midnight the entry is right only
where the two dates have the same page.
-/

namespace SimplyTransport

def DayOfWeek.capitalizedName : DayOfWeek → String
  | .monday => "Monday"
  | .tuesday => "Tuesday"
  | .wednesday => "Wednesday"
  | .thursday => "Thursday"
  | .friday => "Friday"
  | .saturday => "Saturday"
  | .sunday => "Sunday"

def getScheduleOnStopForDay (db : StaticDatabase) (stopId : String) (day : DayOfWeek) :
    List StaticScheduleModel :=
  getStaticSchedules db day ⟨some stopId, none, none, none⟩

structure StopSchedulePage where
  schedules : List StaticScheduleModel
  dayString : String
  hasExtraService : Bool
  deriving DecidableEq

def realtimeStopSchedule (db : StaticDatabase) (now : DateTime) (stopId : String)
    (day : Option DayOfWeek) : StopSchedulePage :=
  let day := day.getD (DayOfWeek.ofDate now.date)
  let onDate := nextDateForDay day.value now.date
  let schedules := getScheduleOnStopForDay db stopId day
  let schedules := removeExceptionsAndInactiveCalendars db schedules onDate
  let schedules := addInAddedExceptions db schedules onDate ⟨some stopId, none, none, none⟩
  { schedules := schedules
    dayString := day.capitalizedName
    hasExtraService := schedules.any (fun s => s.isAddedException) }

def stopScheduleRequest (stopId : String) (day : Option DayOfWeek) : Request where
  pathParams := [("stop_id", stopId)]
  queryParams := (day.map (fun d => ("day", toString d.value))).toList

def stopScheduleKey (request : Request) : Except PyError String :=
  CacheKeys.keyBuilderFromPathAndQuery CacheKeys.scheduleKeyTemplate ["stop_id"] ["day"] request

def serveStopSchedule (db : StaticDatabase) (store : ResponseStore StopSchedulePage)
    (now : DateTime) (stopId : String) (day : Option DayOfWeek) :
    Except PyError (StopSchedulePage × ResponseStore StopSchedulePage) := do
  let key ← stopScheduleKey (stopScheduleRequest stopId day)
  return store.serve key 86400 now (realtimeStopSchedule db now stopId day)

def StaticScheduleModel.ExtraOn (s : StaticScheduleModel) (db : StaticDatabase)
    (q : ScheduleConditions) (date : Date) : Prop :=
  s.calendar.AddedOn db date ∧ ∀ s', db.Joined s' → q.hold s' = true →
    s'.calendar.RegularOn db date → s'.key ≠ s.key

/-- The rows of the filters are regular service on both dates or on none, and so extra service. -/
def RunAlike (db : StaticDatabase) (q : ScheduleConditions) (date date' : Date) : Prop :=
  ∀ s, db.Joined s → q.hold s = true →
    (s.calendar.RegularOn db date ↔ s.calendar.RegularOn db date') ∧
    (s.ExtraOn db q date ↔ s.ExtraOn db q date')

section Passes

variable (db : StaticDatabase) (q : ScheduleConditions) (onDate : Date)

def matchingRows : List StaticScheduleModel := executeStaticSchedules db q.hold

def regularRows : List StaticScheduleModel :=
  (matchingRows db q).filter (fun s => s.calendar.isActiveOnDate onDate ∧
    s.calendar.id ∉ (getRemovedExceptionsOnDate db onDate).map (fun e => e.serviceId))

def extraRows : List StaticScheduleModel :=
  (matchingRows db q).filter (fun s =>
    s.calendar.id ∈ (getAddedExceptionsOnDate db onDate).map (fun e => e.serviceId) ∧
      ∀ r ∈ regularRows db q onDate, r.key ≠ s.key)

variable {db q onDate}

theorem mem_matchingRows {s : StaticScheduleModel} :
    s ∈ matchingRows db q ↔ db.Joined s ∧ q.hold s = true :=
  mem_executeStaticSchedules

theorem executeStaticSchedules_and (db : StaticDatabase) (q : ScheduleConditions)
    (c : StaticScheduleModel → Bool) :
    executeStaticSchedules db (fun s => c s ∧ q.hold s) = (matchingRows db q).filter c := by
  rw [matchingRows, executeStaticSchedules, executeStaticSchedules,
    StableSort.filter_mergeSort _ _ c, List.filter_filter]
  · simp only [Bool.decide_and, Bool.decide_eq_true]
  · intro a b c hab hbc
    rw [decide_eq_true_eq] at hab hbc ⊢
    exact le_trans hab hbc
  · intro a b
    rw [Bool.or_eq_true, decide_eq_true_eq, decide_eq_true_eq]
    exact le_total _ _

theorem removeExceptions_eq :
    removeExceptionsAndInactiveCalendars db (getStaticSchedules db (DayOfWeek.ofDate onDate) q)
      onDate = regularRows db q onDate := by
  rw [getStaticSchedules, removeExceptionsAndInactiveCalendars, regularRows]
  have hflag := executeStaticSchedules_and db q
    (fun s => s.calendar.flagOn (DayOfWeek.ofDate onDate) = 1)
  simp only [decide_eq_true_eq] at hflag
  rw [hflag, List.filter_filter]
  apply List.filter_congr
  intro s _
  -- A calendar that is active on the date has the flag of its weekday.
  have hactive := s.calendar.isActiveOnDate_iff onDate
  rw [← CalendarModel.flagOn_ofDate] at hactive
  rw [Bool.eq_iff_iff]
  simp only [Bool.and_eq_true, decide_eq_true_eq]
  constructor
  · exact fun h => h.1
  · exact fun h => ⟨h, (hactive.1 h.1).2⟩

/-- The passes split the rows of the filters. -/
theorem schedulesOnDate_eq :
    schedulesOnDate db (DayOfWeek.ofDate onDate) onDate q =
      regularRows db q onDate ++
        (extraRows db q onDate).map (fun s => { s with isAddedException := true }) := by
  rw [schedulesOnDate, removeExceptions_eq, addInAddedExceptions]
  split_ifs with hadded
  · rw [List.isEmpty_iff] at hadded
    simp [extraRows, hadded]
  · have hservice := executeStaticSchedules_and db q (fun s =>
      s.calendar.id ∈ (getAddedExceptionsOnDate db onDate).map (fun e => e.serviceId))
    simp only [decide_eq_true_eq] at hservice
    rw [getStaticSchedulesForServiceIds, if_neg hadded, hservice, extraRows]
    simp only [List.filter_filter, Bool.decide_and, Bool.and_comm, List.mem_map, not_exists,
      not_and]

theorem mem_regularRows {s : StaticScheduleModel} :
    s ∈ regularRows db q onDate ↔
      s ∈ matchingRows db q ∧ s.calendar.RegularOn db onDate := by
  rw [regularRows, List.mem_filter, decide_eq_true_eq, mem_removedExceptions,
    CalendarModel.RegularOn]

theorem mem_extraRows {s : StaticScheduleModel} :
    s ∈ extraRows db q onDate ↔ s ∈ matchingRows db q ∧ s.ExtraOn db q onDate := by
  rw [extraRows, List.mem_filter, decide_eq_true_eq, mem_addedExceptions,
    StaticScheduleModel.ExtraOn]
  refine and_congr_right fun _ => and_congr_right fun _ => ?_
  simp only [mem_regularRows, mem_matchingRows, and_imp]

theorem isAddedException_of_mem {s : StaticScheduleModel} (hs : s ∈ matchingRows db q) :
    s.isAddedException = false := (mem_matchingRows.1 hs).1.isAddedException

theorem StaticScheduleModel.eq_of_marked_eq {s s' : StaticScheduleModel}
    (hflag : s.isAddedException = s'.isAddedException)
    (h : { s with isAddedException := true } = { s' with isAddedException := true }) : s = s' := by
  cases s with
  | mk route stopTime calendar stop trip flag =>
      cases s' with
      | mk route' stopTime' calendar' stop' trip' flag' =>
          obtain ⟨rfl, rfl, rfl, rfl, rfl, _⟩ := StaticScheduleModel.mk.inj h
          exact congrArg _ hflag

/-- A row as regular service of the date, and as extra service of it. -/
theorem mem_schedulesOnDate_rows (onDate : Date) {s : StaticScheduleModel}
    (hs : s ∈ matchingRows db q) :
    (s ∈ schedulesOnDate db (DayOfWeek.ofDate onDate) onDate q ↔
      s.calendar.RegularOn db onDate) ∧
    ({ s with isAddedException := true } ∈
      schedulesOnDate db (DayOfWeek.ofDate onDate) onDate q ↔ s.ExtraOn db q onDate) := by
  have hflag := isAddedException_of_mem hs
  rw [schedulesOnDate_eq, List.mem_append, List.mem_append, List.mem_map, List.mem_map]
  constructor
  · constructor
    · rintro (h | ⟨s', _, rfl⟩)
      · exact (mem_regularRows.1 h).2
      · exact absurd hflag Bool.true_eq_false_eq_False
    · exact fun h => Or.inl (mem_regularRows.2 ⟨hs, h⟩)
  · constructor
    · rintro (h | ⟨s', hs', heq⟩)
      · exact absurd (isAddedException_of_mem (mem_regularRows.1 h).1).symm Bool.false_ne_true
      · have hflag' := isAddedException_of_mem (mem_extraRows.1 hs').1
        obtain rfl := StaticScheduleModel.eq_of_marked_eq (hflag'.trans hflag.symm) heq
        exact (mem_extraRows.1 hs').2
    · exact fun h => Or.inr ⟨s, mem_extraRows.2 ⟨hs, h⟩, rfl⟩

/-- Two dates have the same schedules exactly when the rows run alike on them. -/
theorem schedulesOnDate_eq_iff {date date' : Date} :
    schedulesOnDate db (DayOfWeek.ofDate date) date q =
      schedulesOnDate db (DayOfWeek.ofDate date') date' q ↔ RunAlike db q date date' := by
  constructor
  · intro h s hjoin hq
    have hs : s ∈ matchingRows db q := mem_matchingRows.2 ⟨hjoin, hq⟩
    obtain ⟨hregular, hextra⟩ := mem_schedulesOnDate_rows date hs
    obtain ⟨hregular', hextra'⟩ := mem_schedulesOnDate_rows date' hs
    rw [← hregular, ← hextra, h]
    exact ⟨hregular', hextra'⟩
  · intro h
    have hregular : regularRows db q date = regularRows db q date' := by
      apply List.filter_congr
      intro s hs
      obtain ⟨hjoin, hq⟩ := mem_matchingRows.1 hs
      have hiff := (h s hjoin hq).1
      simp only [CalendarModel.RegularOn, ← mem_removedExceptions] at hiff
      exact decide_eq_decide.2 hiff
    have hextra : extraRows db q date = extraRows db q date' := by
      unfold extraRows
      apply List.filter_congr
      intro s hs
      obtain ⟨hjoin, hq⟩ := mem_matchingRows.1 hs
      have hiff : s ∈ extraRows db q date ↔ s ∈ extraRows db q date' := by
        rw [mem_extraRows, mem_extraRows, (h s hjoin hq).2]
      rw [extraRows, extraRows, List.mem_filter, List.mem_filter, and_iff_right hs,
        and_iff_right hs, decide_eq_true_eq, decide_eq_true_eq] at hiff
      exact decide_eq_decide.2 hiff
    rw [schedulesOnDate_eq, schedulesOnDate_eq, hregular, hextra]

end Passes

section Page

variable {db : StaticDatabase} {stopId : String} {day : Option DayOfWeek} {t t' : DateTime}

theorem DayOfWeek.capitalizedName_injective {day day' : DayOfWeek}
    (h : day.capitalizedName = day'.capitalizedName) : day = day' := by
  revert h
  cases day <;> cases day' <;> decide

theorem realtimeStopSchedule_schedules (db : StaticDatabase) (now : DateTime) (stopId : String)
    (day : Option DayOfWeek) :
    (realtimeStopSchedule db now stopId day).schedules =
      let onDate := nextDateForDay (day.getD (DayOfWeek.ofDate now.date)).value now.date
      schedulesOnDate db (DayOfWeek.ofDate onDate) onDate ⟨some stopId, none, none, none⟩ := by
  dsimp only
  rw [← DayOfWeek.ofDate_nextDateForDay]
  rfl

/-- The page is that of the schedules of its date. -/
theorem realtimeStopSchedule_eq_iff (t t' : DateTime) :
    realtimeStopSchedule db t stopId day = realtimeStopSchedule db t' stopId day ↔
      day.getD (DayOfWeek.ofDate t.date) = day.getD (DayOfWeek.ofDate t'.date) ∧
      RunAlike db ⟨some stopId, none, none, none⟩
        (nextDateForDay (day.getD (DayOfWeek.ofDate t.date)).value t.date)
        (nextDateForDay (day.getD (DayOfWeek.ofDate t'.date)).value t'.date) := by
  have hpage := fun now => realtimeStopSchedule_schedules db now stopId day
  dsimp only at hpage
  rw [← schedulesOnDate_eq_iff]
  constructor
  · intro h
    refine ⟨DayOfWeek.capitalizedName_injective (congrArg StopSchedulePage.dayString h), ?_⟩
    have hsame := congrArg StopSchedulePage.schedules h
    rw [hpage, hpage] at hsame
    exact hsame
  · rintro ⟨hday, hsame⟩
    have hschedules : (realtimeStopSchedule db t stopId day).schedules =
        (realtimeStopSchedule db t' stopId day).schedules := by
      rw [hpage, hpage]
      exact hsame
    have hname : (realtimeStopSchedule db t stopId day).dayString =
        (realtimeStopSchedule db t' stopId day).dayString :=
      congrArg DayOfWeek.capitalizedName hday
    have hextra : (realtimeStopSchedule db t stopId day).hasExtraService =
        (realtimeStopSchedule db t' stopId day).hasExtraService :=
      congrArg (fun l => l.any (fun s => s.isAddedException)) hschedules
    cases hleft : realtimeStopSchedule db t stopId day
    cases hright : realtimeStopSchedule db t' stopId day
    rw [hleft, hright] at hschedules hname hextra
    rw [StopSchedulePage.mk.injEq]
    exact ⟨hschedules, hname, hextra⟩

theorem RunAlike.refl (db : StaticDatabase) (q : ScheduleConditions) (date : Date) :
    RunAlike db q date date := fun _ _ _ => ⟨Iff.rfl, Iff.rfl⟩

/-- Less than a day later it is the same date or the next one. -/
theorem date_within_day (hle : t ≤ t') (hlt : t' < t.addSeconds 86400) :
    t'.date = t.date ∨ t'.date = t.date.addDays 1 := by
  simp only [DateTime.le_iff, DateTime.lt_iff, DateTime.addSeconds, DateTime.addMicros] at hle hlt
  simp only [Date.ext_iff, DateTime.date, Date.addDays, dayMicros]
  omega

theorem ofDate_addDays_one_ne (d : Date) :
    DayOfWeek.ofDate d ≠ DayOfWeek.ofDate (d.addDays 1) := by
  intro h
  have hvalue := congrArg DayOfWeek.value h
  rw [DayOfWeek.value_ofDate, DayOfWeek.value_ofDate, Date.weekday_addDays] at hvalue
  have := d.weekday_lt
  omega

/-- Midnight moves the next date of a day by a week, when the day is just over. -/
theorem nextDateForDay_addDays_one (day : DayOfWeek) (d : Date) :
    nextDateForDay day.value (d.addDays 1) =
      if day = DayOfWeek.ofDate d then d.addDays 7 else nextDateForDay day.value d := by
  have hw := d.weekday_lt
  have hb := day.value_bounds
  have hiff : day = DayOfWeek.ofDate d ↔ day.value = d.weekday :=
    ⟨fun h => h ▸ DayOfWeek.value_ofDate d, fun h => DayOfWeek.eq_ofDate h.symm⟩
  rw [if_congr hiff rfl rfl]
  simp only [nextDateForDay, Date.weekday_addDays]
  simp only [Date.addDays]
  split_ifs with h
  · rw [Date.mk.injEq]
    omega
  · rw [Date.mk.injEq]
    omega

theorem nextDateForDay_self (d : Date) :
    nextDateForDay (DayOfWeek.ofDate d).value d = d := by
  simp [nextDateForDay, DayOfWeek.value_ofDate, Date.addDays]

/-- The date has not changed, or the day asked for is not the one that has just ended, or the
stop's rows run alike a week apart. -/
def StillShown (db : StaticDatabase) (stopId : String) (day : Option DayOfWeek)
    (t t' : DateTime) : Prop :=
  t'.date = t.date ∨ ∃ d ∈ day, d ≠ DayOfWeek.ofDate t.date ∨
    RunAlike db ⟨some stopId, none, none, none⟩ t.date (t.date.addDays 7)

theorem realtimeStopSchedule_within_day (hle : t ≤ t') (hlt : t' < t.addSeconds 86400) :
    realtimeStopSchedule db t stopId day = realtimeStopSchedule db t' stopId day ↔
      StillShown db stopId day t t' := by
  rw [realtimeStopSchedule_eq_iff, StillShown]
  rcases date_within_day hle hlt with hdate | hdate
  · rw [hdate]
    exact iff_of_true ⟨rfl, RunAlike.refl db _ _⟩ (Or.inl rfl)
  · have hne : t'.date ≠ t.date := by
      rw [hdate]
      exact fun h => ofDate_addDays_one_ne t.date (congrArg DayOfWeek.ofDate h.symm)
    rw [hdate] at hne ⊢
    rw [or_iff_right hne]
    cases day with
    | none =>
        refine iff_of_false (fun h => ofDate_addDays_one_ne t.date h.1) ?_
        rintro ⟨d, hd, _⟩
        exact Option.not_mem_none d hd
    | some d =>
        simp only [Option.getD_some, true_and, Option.mem_def, Option.some.injEq,
          exists_eq_left']
        rw [nextDateForDay_addDays_one]
        split_ifs with hd
        · subst hd
          rw [nextDateForDay_self]
          exact (or_iff_right (not_not_intro rfl)).symm
        · exact iff_of_true (RunAlike.refl db _ _) (Or.inl hd)

end Page

/-- The later request is served the page of the request that left the entry. -/
theorem serveStopSchedule_again {db : StaticDatabase} {store : ResponseStore StopSchedulePage}
    {stopId : String} {day : Option DayOfWeek} {t t' : DateTime} {page : StopSchedulePage}
    {store' : ResponseStore StopSchedulePage}
    (hfresh : ∀ key, stopScheduleKey (stopScheduleRequest stopId day) = .ok key →
      store.get key t = none)
    (hserve : serveStopSchedule db store t stopId day = .ok (page, store'))
    (hlt : t' < t.addSeconds 86400) :
    (serveStopSchedule db store' t' stopId day).map Prod.fst =
      .ok (realtimeStopSchedule db t stopId day) := by
  obtain ⟨key, hk, hpage⟩ := bind_eq_ok.1 hserve
  have hstore := congrArg Prod.snd (Except.ok.inj hpage)
  dsimp only at hstore
  have hagain : ((store.serve key 86400 t (realtimeStopSchedule db t stopId day)).2.serve key 86400
      t' (realtimeStopSchedule db t' stopId day)).1 = realtimeStopSchedule db t stopId day :=
    ResponseStore.serve_again (hfresh key hk) hlt
  rw [hstore] at hagain
  have hlater : (serveStopSchedule db store' t' stopId day).map Prod.fst =
      .ok (store'.serve key 86400 t' (realtimeStopSchedule db t' stopId day)).1 := by
    rw [serveStopSchedule, hk]
    rfl
  rw [hlater, hagain]

/-- Within its lifetime, the entry that a request leaves is the page of a later request exactly
when the page is still shown. -/
theorem stop_schedule_served_iff (db : StaticDatabase) (store : ResponseStore StopSchedulePage)
    (stopId : String) (day : Option DayOfWeek) (t t' : DateTime)
    (page : StopSchedulePage) (store' : ResponseStore StopSchedulePage)
    (hfresh : ∀ key, stopScheduleKey (stopScheduleRequest stopId day) = .ok key →
      store.get key t = none)
    (hserve : serveStopSchedule db store t stopId day = .ok (page, store'))
    (hle : t ≤ t') (hlt : t' < t.addSeconds 86400) :
    (serveStopSchedule db store' t' stopId day).map Prod.fst =
        .ok (realtimeStopSchedule db t' stopId day) ↔
      StillShown db stopId day t t' := by
  rw [serveStopSchedule_again hfresh hserve hlt, Except.ok.injEq]
  exact realtimeStopSchedule_within_day hle hlt

/-- The page of Tuesday, stored on Monday and served on Tuesday. -/
theorem stop_schedule_served_tuesday :
    ∃ page store', serveStopSchedule oneTripDatabase (fun _ => none) (mondayMidnight.addSeconds 1)
        "S" (some .tuesday) = .ok (page, store') ∧
      ((serveStopSchedule oneTripDatabase store' (mondayMidnight.addSeconds 86400) "S"
          (some .tuesday)).map Prod.fst =
        .ok (realtimeStopSchedule oneTripDatabase (mondayMidnight.addSeconds 86400) "S"
          (some .tuesday)) ↔
        StillShown oneTripDatabase "S" (some .tuesday) (mondayMidnight.addSeconds 1)
          (mondayMidnight.addSeconds 86400)) :=
  ⟨_, _, rfl, stop_schedule_served_iff oneTripDatabase (fun _ => none) "S" (some .tuesday) _ _ _ _
    (fun _ _ => rfl) rfl (by decide) (by decide)⟩

/-- Without a day, the page of Monday is served on Tuesday. -/
theorem stop_schedule_stale :
    ¬ ∀ (db : StaticDatabase) (store : ResponseStore StopSchedulePage) (stopId : String)
      (day : Option DayOfWeek) (t t' : DateTime) (page : StopSchedulePage)
      (store' : ResponseStore StopSchedulePage),
      (∀ key, stopScheduleKey (stopScheduleRequest stopId day) = .ok key →
        store.get key t = none) →
      serveStopSchedule db store t stopId day = .ok (page, store') →
      t ≤ t' → t' < t.addSeconds 86400 →
      (serveStopSchedule db store' t' stopId day).map Prod.fst =
        .ok (realtimeStopSchedule db t' stopId day) := by
  intro h
  obtain ⟨page, store', hserve⟩ : ∃ page store', serveStopSchedule oneTripDatabase (fun _ => none)
      (mondayMidnight.addSeconds 1) "S" none = .ok (page, store') := ⟨_, _, rfl⟩
  have hserved := h oneTripDatabase (fun _ => none) "S" none (mondayMidnight.addSeconds 1)
    (mondayMidnight.addSeconds 86400) page store' (fun _ _ => rfl) hserve (by decide) (by decide)
  rw [serveStopSchedule_again (fun _ _ => rfl) hserve (by decide), Except.ok.injEq] at hserved
  exact absurd (congrArg StopSchedulePage.dayString hserved) (by decide)

end SimplyTransport
