import SimplyTransport.ScheduleRepo
import SimplyTransport.TimeDateConversions
import Mathlib.Tactic.IntervalCases

/-!
# GTFS datasets

What the files of a dataset say, as far as a timetable needs it: calendars and their exceptions,
routes, stops, trips and stop times, with times of up to 48 hours after midnight of the service
day, and the texts in which dates, times and numbers are written.
-/

namespace SimplyTransport

def twoDigits (n : ℕ) : List Char := [(n / 10).digitChar, (n % 10).digitChar]

/-- A time of a service day, written `HH:MM:SS`. -/
structure GtfsTime where
  hour : ℕ
  minute : ℕ
  second : ℕ
  hour_lt : hour < 48
  minute_lt : minute < 60
  second_lt : second < 60

structure GtfsDate where
  year : ℕ
  month : ℕ
  day : ℕ
  year_bounds : 1 ≤ year ∧ year ≤ 9999
  month_bounds : 1 ≤ month ∧ month ≤ 12
  day_bounds : 1 ≤ day ∧ (day : ℤ) ≤ Date.daysInMonth year month

namespace GtfsTime

def text (t : GtfsTime) : String :=
  String.ofList (twoDigits t.hour ++ ':' :: (twoDigits t.minute ++ ':' :: twoDigits t.second))

def instant (t : GtfsTime) (d : Date) : DateTime :=
  (DateTime.combine d Time.midnight).addSeconds (t.hour * 3600 + t.minute * 60 + t.second)

def clock (t : GtfsTime) : Time :=
  ⟨((t.hour % 24) * 3600 + t.minute * 60 + t.second) * 1000000, by
    have hm := t.minute_lt
    have hs := t.second_lt
    unfold dayMicros
    omega⟩

end GtfsTime

namespace GtfsDate

def text (d : GtfsDate) : String :=
  String.ofList (twoDigits (d.year / 100) ++ twoDigits (d.year % 100) ++ twoDigits d.month ++
    twoDigits d.day)

def date (d : GtfsDate) : Date :=
  ⟨Date.daysBeforeYear d.year + Date.daysBeforeMonth d.year d.month + d.day⟩

end GtfsDate

structure CalendarLine where
  serviceId : String
  days : DayOfWeek → Bool
  startDate : GtfsDate
  endDate : GtfsDate

structure CalendarDateLine where
  serviceId : String
  date : GtfsDate
  exceptionType : ExceptionType

structure TripLine where
  tripId : String
  routeId : String
  serviceId : String

structure StopTimeLine where
  tripId : String
  arrival : GtfsTime
  stopId : String
  stopSequence : ℕ
  stopSequence_lt : stopSequence < 2 ^ 31

/-- A dataset: a trip has one stop time at most for each sequence number, and the files refer to
each other. A service may have no calendar, only exceptions. -/
structure GtfsDataset where
  calendars : List CalendarLine
  calendarDates : List CalendarDateLine
  routes : List String
  stops : List String
  trips : List TripLine
  stopTimes : List StopTimeLine
  stopTimes_nodup : (stopTimes.map (fun st => (st.tripId, st.stopSequence))).Nodup
  stop_ne_empty : "" ∉ stops
  route_mem : ∀ t ∈ trips, t.routeId ∈ routes
  stop_mem : ∀ st ∈ stopTimes, st.stopId ∈ stops

namespace GtfsDataset

def HasCalendar (g : GtfsDataset) (serviceId : String) : Prop :=
  ∃ c ∈ g.calendars, c.serviceId = serviceId

/-- The GTFS rule: a service runs on a date that its calendar covers on that weekday and no
exception removes, or that an exception adds. -/
def RunsOn (g : GtfsDataset) (serviceId : String) (date : Date) : Prop :=
  (∃ c ∈ g.calendars, c.serviceId = serviceId ∧
    (c.startDate.date ≤ date ∧ date ≤ c.endDate.date) ∧ c.days (DayOfWeek.ofDate date) = true ∧
    ∀ e ∈ g.calendarDates, e.serviceId = serviceId → e.date.date = date →
      e.exceptionType ≠ .removed) ∨
  ∃ e ∈ g.calendarDates, e.serviceId = serviceId ∧ e.date.date = date ∧ e.exceptionType = .added

end GtfsDataset

section Texts

theorem isDigit_digitChar {n : ℕ} (h : n < 10) : n.digitChar.isDigit = true := by
  interval_cases n <;> rfl

theorem digitValue_digitChar {n : ℕ} (h : n < 10) : digitValue n.digitChar = n := by
  interval_cases n <;> rfl

theorem decimal_of_isDigit {c : Char} (h : c.isDigit = true) : decimal c = some (digitValue c) := by
  have hbounds : 48 ≤ c.toNat ∧ c.toNat ≤ 57 := by
    simp only [Char.isDigit, Bool.and_eq_true, decide_eq_true_eq, UInt32.le_iff_toNat_le] at h
    exact h
  rw [decimal, decimalZeros, List.find?_cons_of_pos (by simpa using (by omega))]
  rfl

theorem decimal_digitChar {n : ℕ} (h : n < 10) : decimal n.digitChar = some n := by
  rw [decimal_of_isDigit (isDigit_digitChar h), digitValue_digitChar h]

theorem readDigits_of_isDigit {cs : List Char} (h : ∀ c ∈ cs, c.isDigit = true) (acc : ℕ) :
    readDigits acc cs = some (Nat.ofDigitChars 10 cs acc) := by
  induction cs generalizing acc with
  | nil => rfl
  | cons c cs ih =>
      have hc := h c List.mem_cons_self
      have hne : c ≠ '_' := by
        rintro rfl
        exact absurd hc (by decide)
      rw [readDigits.eq_def]
      split
      · next heq => cases heq
      · next heq =>
          obtain ⟨rfl, _⟩ := List.cons.inj heq
          exact absurd rfl hne
      · next heq =>
          obtain ⟨rfl, rfl⟩ := List.cons.inj heq
          rw [decimal_of_isDigit hc, Option.bind_some,
            ih (fun c' hc' => h c' (List.mem_cons_of_mem _ hc')), Nat.ofDigitChars_cons, mul_comm]
          rfl

theorem readNat_of_isDigit {cs : List Char} (hne : cs ≠ []) (h : ∀ c ∈ cs, c.isDigit = true) :
    readNat cs = some (Nat.ofDigitChars 10 cs 0) := by
  cases cs with
  | nil => exact absurd rfl hne
  | cons c cs =>
      have hc := h c List.mem_cons_self
      have hcs := readDigits_of_isDigit (fun c' hc' => h c' (List.mem_cons_of_mem _ hc'))
      rw [readNat, decimal_of_isDigit hc, Option.bind_some, hcs, Nat.ofDigitChars_cons, mul_zero,
        zero_add]
      rfl

theorem not_intWhitespace_of_isDigit {c : Char} (h : c.isDigit = true) :
    intWhitespace c = false := by
  have hbounds : 48 ≤ c.toNat ∧ c.toNat ≤ 57 := by
    simp only [Char.isDigit, Bool.and_eq_true, decide_eq_true_eq, UInt32.le_iff_toNat_le] at h
    exact h
  rw [intWhitespace, Bool.and_eq_false_iff]
  apply Or.inl
  unfold pyWhitespace
  rw [decide_eq_false_iff_not]
  intro hmem
  simp only [List.mem_cons, List.not_mem_nil, or_false] at hmem
  omega

theorem intStrip_of_isDigit {cs : List Char} (h : ∀ c ∈ cs, c.isDigit = true) :
    intStrip cs = cs := by
  have hdrop : cs.dropWhile intWhitespace = cs := by
    cases cs with
    | nil => rfl
    | cons c cs =>
        rw [List.dropWhile_cons, not_intWhitespace_of_isDigit (h c List.mem_cons_self)]
        rfl
  rw [intStrip, hdrop, List.rdropWhile_eq_self_iff]
  intro hne
  rw [not_intWhitespace_of_isDigit (h _ (List.getLast_mem hne))]
  exact Bool.false_ne_true

/-- A string of digits is read as the number that it writes. -/
theorem pyInt_of_isDigit {cs : List Char} (hne : cs ≠ []) (h : ∀ c ∈ cs, c.isDigit = true)
    (hlen : cs.length ≤ intMaxStrDigits) : pyInt cs = .ok (Nat.ofDigitChars 10 cs 0 : ℕ) := by
  have hfilter : cs.filter (fun c => (decimal c).isSome) = cs :=
    List.filter_eq_self.2 (fun c hc => by rw [decimal_of_isDigit (h c hc)]; rfl)
  rw [pyInt, hfilter, if_neg (not_lt.2 hlen), intStrip_of_isDigit h]
  cases cs with
  | nil => exact absurd rfl hne
  | cons c cs =>
      have hc := h c List.mem_cons_self
      have hminus : c ≠ '-' := by
        rintro rfl
        exact absurd hc (by decide)
      have hplus : c ≠ '+' := by
        rintro rfl
        exact absurd hc (by decide)
      split
      · next heq => exact absurd (List.cons.inj heq).1 hminus
      · next heq => exact absurd (List.cons.inj heq).1 hplus
      · rw [readNat_of_isDigit hne h]
        rfl

theorem twoDigits_isDigit {n : ℕ} (h : n < 100) : ∀ c ∈ twoDigits n, c.isDigit = true := by
  intro c hc
  simp only [twoDigits, List.mem_cons, List.not_mem_nil, or_false] at hc
  rcases hc with rfl | rfl <;> exact isDigit_digitChar (by omega)

theorem ofDigitChars_twoDigits {n : ℕ} (h : n < 100) (cs : List Char) (acc : ℕ) :
    Nat.ofDigitChars 10 (twoDigits n ++ cs) acc = Nat.ofDigitChars 10 cs (100 * acc + n) := by
  have hvalue : 10 * (10 * acc + n / 10) + n % 10 = 100 * acc + n := by omega
  rw [twoDigits, List.cons_append, List.cons_append, List.nil_append,
    Nat.ofDigitChars_cons_digitChar_of_lt_ten (by omega),
    Nat.ofDigitChars_cons_digitChar_of_lt_ten (by omega), hvalue]

theorem pyInt_twoDigits {n : ℕ} (h : n < 100) : pyInt (twoDigits n) = .ok (n : ℤ) := by
  rw [pyInt_of_isDigit (by simp [twoDigits]) (twoDigits_isDigit h)
    (by simp [twoDigits, intMaxStrDigits])]
  have hvalue := ofDigitChars_twoDigits h [] 0
  rw [List.append_nil, Nat.ofDigitChars_nil, mul_zero, zero_add] at hvalue
  rw [hvalue]

theorem pyInt_toString {n : ℕ} (h : n < 2 ^ 31) : pyInt (toString n).toList = .ok (n : ℤ) := by
  have htext : (toString n).toList = Nat.toDigits 10 n := Nat.toList_repr
  have hlen : (Nat.toDigits 10 n).length ≤ 10 :=
    (Nat.length_toDigits_le_iff (by decide) (by decide)).2 (by omega)
  rw [htext, pyInt_of_isDigit Nat.toDigits_ne_nil
    (fun c hc => Nat.isDigit_of_mem_toDigits (by decide) (by decide) hc)
    (hlen.trans (by decide)), Nat.ofDigitChars_ten_toDigits]

theorem colon_not_mem_twoDigits {n : ℕ} (h : n < 100) : ':' ∉ twoDigits n := fun hmem =>
  absurd (twoDigits_isDigit h ':' hmem) (by decide)

/-- The importer keeps the clock time of a stop time and drops the day. -/
theorem convert29HoursTo24Hours_text (t : GtfsTime) :
    convert29HoursTo24Hours t.text = .ok t.clock := by
  have hh : t.hour < 100 := t.hour_lt.trans (by decide)
  have hm : t.minute < 100 := t.minute_lt.trans (by decide)
  have hs : t.second < 100 := t.second_lt.trans (by decide)
  have hsplit : t.text.toList.splitOn ':' =
      [twoDigits t.hour, twoDigits t.minute, twoDigits t.second] := by
    rw [GtfsTime.text, String.toList_ofList, List.splitOn_append_cons_self,
      List.splitOn_append_cons_self, List.splitOn_eq_singleton (colon_not_mem_twoDigits hh),
      List.splitOn_eq_singleton (colon_not_mem_twoDigits hm),
      List.splitOn_eq_singleton (colon_not_mem_twoDigits hs)]
    rfl
  have hread : [twoDigits t.hour, twoDigits t.minute, twoDigits t.second].mapM pyInt =
      .ok [(t.hour : ℤ), (t.minute : ℤ), (t.second : ℤ)] := by
    simp only [List.mapM_cons, List.mapM_nil, pyInt_twoDigits hh, pyInt_twoDigits hm,
      pyInt_twoDigits hs]
    rfl
  rw [convert29HoursTo24Hours, hsplit, hread]
  change Time.ofHms _ _ _ = _
  have hhour := t.hour_lt
  have hminute := t.minute_lt
  have hsecond := t.second_lt
  rw [Time.ofHms, dif_pos (by split_ifs <;> omega)]
  refine congrArg Except.ok (Time.ext ?_)
  simp only [GtfsTime.clock]
  split_ifs <;> omega

theorem readMonth_twoDigits {m : ℕ} (h : 1 ≤ m ∧ m ≤ 12) (rest : List Char) :
    readMonth (twoDigits m ++ rest) = some ((m : ℤ), rest) := by
  obtain ⟨h₁, h₂⟩ := h
  interval_cases m <;> rfl

theorem readDay_twoDigits {d : ℕ} (h : 1 ≤ d ∧ d ≤ 31) :
    readDay (twoDigits d) = some ((d : ℤ), []) := by
  obtain ⟨h₁, h₂⟩ := h
  interval_cases d <;> rfl

theorem daysInMonth_le {y m : ℤ} (h : 1 ≤ m ∧ m ≤ 12) : Date.daysInMonth y m ≤ 31 := by
  obtain ⟨h₁, h₂⟩ := h
  unfold Date.daysInMonth
  split_ifs
  · decide
  · interval_cases m <;> decide

theorem readYear_twoDigits {y : ℕ} (h : y ≤ 9999) (rest : List Char) :
    readYear (twoDigits (y / 100) ++ (twoDigits (y % 100) ++ rest)) = some (y, rest) := by
  have hdigits : [(y % 100 % 10).digitChar, (y % 100 / 10).digitChar, (y / 100 % 10).digitChar,
      (y / 100 / 10).digitChar].mapM decimal =
      some [y % 100 % 10, y % 100 / 10, y / 100 % 10, y / 100 / 10] := by
    simp only [List.mapM_cons, List.mapM_nil, decimal_digitChar (show y % 100 % 10 < 10 by omega),
      decimal_digitChar (show y % 100 / 10 < 10 by omega),
      decimal_digitChar (show y / 100 % 10 < 10 by omega),
      decimal_digitChar (show y / 100 / 10 < 10 by omega)]
    rfl
  have hvalue : Nat.ofDigits 10 [y % 100 % 10, y % 100 / 10, y / 100 % 10, y / 100 / 10] = y := by
    simp only [Nat.ofDigits_cons, Nat.ofDigits_nil]
    omega
  change ([_, _, _, _].mapM decimal).map _ = _
  rw [hdigits, Option.map_some, hvalue]
  rfl

theorem convertJoinedDateToDate_text (d : GtfsDate) :
    convertJoinedDateToDate d.text = .ok d.date := by
  have hy := d.year_bounds
  have hm := d.month_bounds
  have hd : 1 ≤ d.day ∧ d.day ≤ 31 := by
    have hle := d.day_bounds.2.trans (daysInMonth_le (by omega))
    exact ⟨d.day_bounds.1, by omega⟩
  have hmonthDay : readMonthDay (twoDigits d.month ++ twoDigits d.day) =
      some ((d.month : ℤ), (d.day : ℤ), []) := by
    unfold readMonthDay
    simp only [readMonth_twoDigits hm, readDay_twoDigits hd]
  have htext : d.text.toList = twoDigits (d.year / 100) ++
      (twoDigits (d.year % 100) ++ (twoDigits d.month ++ twoDigits d.day)) := by
    rw [GtfsDate.text, String.toList_ofList]
    rfl
  rw [convertJoinedDateToDate, htext, readYear_twoDigits hy.2]
  simp only [hmonthDay]
  rw [Date.ofYmd, if_pos ⟨by omega, by omega, by omega, d.day_bounds.2⟩]
  rfl

end Texts

end SimplyTransport
