import SimplyTransport.CivilDate
import SimplyTransport.DelaysRepo

/-!
# ISO 8601 texts of datetimes

`isoformat` writes a datetime with its microseconds and offset where it has them.
`datetime.fromisoformat` reads it back, and reads many other texts: dates alone, dates and times
without separators, week dates, any character between date and time, times of hours or minutes,
`24:00` and `Z`.
-/

namespace SimplyTransport

section Write

def sixDigits (n : ℕ) : List Char :=
  twoDigits (n / 10000) ++ twoDigits (n / 100 % 100) ++ twoDigits (n % 100)

def isoFraction (micros : ℕ) : List Char :=
  if micros = 0 then [] else '.' :: sixDigits micros

def isoDate (d : Date) : List Char :=
  twoDigits (d.year.toNat / 100) ++ twoDigits (d.year.toNat % 100) ++ '-' ::
    (twoDigits d.month.toNat ++ '-' :: twoDigits d.day.toNat)

def isoMinutes (n : ℕ) : List Char :=
  twoDigits (n / 3600000000) ++ ':' :: twoDigits (n / 60000000 % 60)

def isoSeconds (n : ℕ) : List Char :=
  ':' :: (twoDigits (n / 1000000 % 60) ++ isoFraction (n % 1000000))

def isoOffset : Option ℤ → List Char
  | none => []
  | some offset =>
      (if offset < 0 then '-' else '+') :: (isoMinutes offset.natAbs ++
        if offset.natAbs % 60000000 = 0 then [] else isoSeconds offset.natAbs)

def OffsetDateTime.isoformat (d : OffsetDateTime) : List Char :=
  isoDate d.wall.date ++ 'T' ::
    (isoMinutes d.wall.time.micros ++ isoSeconds d.wall.time.micros ++ isoOffset d.offset)

end Write

section Read

def isoDigits (n : ℕ) (cs : List Char) : Option (ℕ × List Char) :=
  let digits := cs.take n
  if digits.length = n ∧ digits.all Char.isDigit then
    some (Nat.ofDigitChars 10 digits 0, cs.drop n)
  else none

def isoLiteral (c : Char) (cs : List Char) : Option (List Char) :=
  if cs.head? = some c then some cs.tail else none

def findIsoformatDatetimeSeparator (cs : List Char) : Option ℕ :=
  if cs.length = 7 then some 7
  else if cs[4]? = some '-' then
    if cs[5]? = some 'W' then
      if cs[8]? = some '-' then
        if cs.length = 9 then none
        else if (cs[10]?.any Char.isDigit) then some 8
        else some 10
      else some 8
    else some 10
  else if cs[4]? = some 'W' then
    let idx := 7 + ((cs.drop 7).takeWhile Char.isDigit).length
    if idx < 9 then some idx
    else if idx % 2 = 0 then some 7
    else some 8
  else some 8

def isoWeek1Monday (year : ℤ) : ℤ :=
  let firstDay := Date.daysBeforeYear year + 1
  let firstWeekday := (firstDay + 6) % 7
  let week1Monday := firstDay - firstWeekday
  if firstWeekday > 3 then week1Monday + 7 else week1Monday

/-- ISO years with 53 weeks start on a Thursday, or on a Wednesday in leap years. -/
def isoWeekToDate (year week day : ℤ) : Option Date :=
  let firstWeekday := (Date.daysBeforeYear year + 1 + 6) % 7
  let long : Bool := firstWeekday = 3 ∨ (firstWeekday = 2 ∧ Date.isLeap year)
  if (1 ≤ year ∧ year ≤ 9999) ∧ (1 ≤ week ∧ (week ≤ 52 ∨ week = 53 ∧ long)) ∧
      (1 ≤ day ∧ day ≤ 7) then
    some ⟨isoWeek1Monday year + (week - 1) * 7 + day - 1⟩
  else none

def parseIsoformatDate (cs : List Char) : Option Date := do
  let (year, cs) ← isoDigits 4 cs
  let hasSep : Bool := cs.head? = some '-'
  let cs := if hasSep then cs.tail else cs
  if cs.head? = some 'W' then
    let (week, cs) ← isoDigits 2 cs.tail
    if cs = [] then isoWeekToDate year week 1
    else
      let cs ← if hasSep then isoLiteral '-' cs else some cs
      let (day, _) ← isoDigits 1 cs
      isoWeekToDate year week day
  else
    let (month, cs) ← isoDigits 2 cs
    let cs ← if hasSep then isoLiteral '-' cs else some cs
    let (day, _) ← isoDigits 2 cs
    (Date.ofYmd year month day).toOption

/-- Microseconds of a fraction; digits after the sixth are dropped. -/
def parseFraction : List Char → Option ℕ
  | [] => some 0
  | c :: digits =>
      if (c = '.' ∨ c = ',') ∧ digits ≠ [] ∧ digits.all Char.isDigit then
        some (Nat.ofDigitChars 10 ((digits ++ List.replicate 6 '0').take 6) 0)
      else none

/-- `HH[:?MM[:?SS[.ffffff]]]` as hour, minute, second and microsecond. -/
def parseHhMmSsFf (cs : List Char) : Option (ℕ × ℕ × ℕ × ℕ) := do
  let (hour, cs) ← isoDigits 2 cs
  if cs = [] then return (hour, 0, 0, 0)
  else
    let hasSep : Bool := cs.head? = some ':'
    let cs ← if hasSep then isoLiteral ':' cs else some cs
    let (minute, cs) ← isoDigits 2 cs
    if cs = [] then return (hour, minute, 0, 0)
    else
      let cs ← if hasSep then isoLiteral ':' cs else some cs
      let (second, cs) ← isoDigits 2 cs
      let micros ← parseFraction cs
      return (hour, minute, second, micros)

def isZone (c : Char) : Bool := c = '+' ∨ c = '-' ∨ c = 'Z'

/-- The offset after the time, none where there is no zone. -/
def parseZone : List Char → Option (Option ℤ)
  | [] => some none
  | c :: cs =>
      if c = 'Z' then if cs = [] then some (some 0) else none
      else do
        let (hour, minute, second, micros) ← parseHhMmSsFf cs
        let time ← (Time.ofHms hour minute second).toOption
        let offset : ℤ := time.micros + micros
        return some (if c = '-' then -offset else offset)

/-- The instant that the texts of a date and of a time show; `24:00` is the next midnight. -/
def combineIso (date : Date) (hour minute second micros : ℕ) : Option DateTime :=
  if hour = 24 then
    if minute = 0 ∧ second = 0 ∧ micros = 0 then
      some (DateTime.combine (date.addDays 1) Time.midnight)
    else none
  else do
    let time ← (Time.ofHms hour minute second).toOption
    return (DateTime.combine date time).addMicros micros

def checkRange (wall : DateTime) : Option DateTime :=
  if 1 ≤ wall.date.ordinal ∧ wall.date.ordinal ≤ 3652059 then some wall else none

/-- `datetime.fromisoformat`, with no value where it raises `ValueError`. -/
def fromisoformat (cs : List Char) : Option OffsetDateTime := do
  if cs.length < 7 then none
  else
    let location ← findIsoformatDatetimeSeparator cs
    let date ← parseIsoformatDate (cs.take location)
    if cs.length ≤ location then
      let wall ← checkRange (DateTime.combine date Time.midnight)
      return ⟨wall, none⟩
    else
      let timeText := cs.drop (location + 1)
      let (hour, minute, second, micros) ← parseHhMmSsFf (timeText.takeWhile (fun c => ! isZone c))
      let offset ← parseZone (timeText.dropWhile (fun c => ! isZone c))
      let wall ← combineIso date hour minute second micros >>= checkRange
      return ⟨wall, offset⟩

end Read

section Digits

theorem isoDigits_twoDigits {n : ℕ} (h : n < 100) (rest : List Char) :
    isoDigits 2 (twoDigits n ++ rest) = some (n, rest) := by
  have hvalue : Nat.ofDigitChars 10 (twoDigits n) 0 = n := by
    have hdigits := ofDigitChars_twoDigits h [] 0
    rwa [List.append_nil, Nat.ofDigitChars_nil, mul_zero, zero_add] at hdigits
  have htake : (twoDigits n ++ rest).take 2 = twoDigits n := rfl
  have hdrop : (twoDigits n ++ rest).drop 2 = rest := rfl
  have hall : (twoDigits n).all Char.isDigit = true := List.all_eq_true.2 (twoDigits_isDigit h)
  rw [isoDigits, htake, hdrop]
  rw [if_pos ⟨rfl, hall⟩, hvalue]

theorem isoDigits_four {n : ℕ} (h : n < 10000) (rest : List Char) :
    isoDigits 4 (twoDigits (n / 100) ++ twoDigits (n % 100) ++ rest) = some (n, rest) := by
  have hhigh : n / 100 < 100 := by omega
  have hlow : n % 100 < 100 := by omega
  have hvalue : Nat.ofDigitChars 10 (twoDigits (n / 100) ++ twoDigits (n % 100)) 0 = n := by
    have hdigits := ofDigitChars_twoDigits hlow [] (n / 100)
    rw [List.append_nil, Nat.ofDigitChars_nil] at hdigits
    rw [ofDigitChars_twoDigits hhigh, mul_zero, zero_add, hdigits]
    omega
  have htake : (twoDigits (n / 100) ++ twoDigits (n % 100) ++ rest).take 4 =
      twoDigits (n / 100) ++ twoDigits (n % 100) := rfl
  have hdrop : (twoDigits (n / 100) ++ twoDigits (n % 100) ++ rest).drop 4 = rest := rfl
  have hall : (twoDigits (n / 100) ++ twoDigits (n % 100)).all Char.isDigit = true := by
    rw [List.all_append, List.all_eq_true.2 (twoDigits_isDigit hhigh),
      List.all_eq_true.2 (twoDigits_isDigit hlow)]
    rfl
  rw [isoDigits, htake, hdrop]
  rw [if_pos ⟨rfl, hall⟩, hvalue]

theorem sixDigits_isDigit {n : ℕ} (h : n < 1000000) : ∀ c ∈ sixDigits n, c.isDigit = true := by
  intro c hc
  rw [sixDigits, List.mem_append, List.mem_append] at hc
  rcases hc with (hc | hc) | hc
  · exact twoDigits_isDigit (by omega) c hc
  · exact twoDigits_isDigit (by omega) c hc
  · exact twoDigits_isDigit (by omega) c hc

theorem parseFraction_isoFraction {micros : ℕ} (h : micros < 1000000) :
    parseFraction (isoFraction micros) = some micros := by
  unfold isoFraction
  by_cases hzero : micros = 0
  · rw [if_pos hzero, hzero]
    rfl
  · rw [if_neg hzero]
    have hvalue : Nat.ofDigitChars 10 (sixDigits micros) 0 = micros := by
      have hhigh : micros / 10000 < 100 := by omega
      have hmiddle : micros / 100 % 100 < 100 := by omega
      have hlow : micros % 100 < 100 := by omega
      have hdigits := ofDigitChars_twoDigits hlow [] (100 * (micros / 10000) + micros / 100 % 100)
      rw [List.append_nil, Nat.ofDigitChars_nil] at hdigits
      rw [sixDigits, List.append_assoc, ofDigitChars_twoDigits hhigh, mul_zero, zero_add,
        ofDigitChars_twoDigits hmiddle, hdigits]
      omega
    have htake : (sixDigits micros ++ List.replicate 6 '0').take 6 = sixDigits micros := rfl
    have hall := List.all_eq_true.2 (sixDigits_isDigit h)
    have hne : sixDigits micros ≠ [] := by simp [sixDigits, twoDigits]
    rw [parseFraction, if_pos ⟨Or.inl rfl, hne, hall⟩, htake, hvalue]

end Digits

section Parts

theorem parseIsoformatDate_isoDate {d : Date} (h : d.InRange) :
    parseIsoformatDate (isoDate d) = some d := by
  obtain ⟨hyear, hmonth, hday⟩ := h.toNat_bounds
  obtain ⟨hyear', hmonth', hday'⟩ := h.toNat_cast
  have hdayLe : d.day.toNat < 100 := by
    have hle := h.day_toNat_le.trans (daysInMonth_le (by omega))
    omega
  have hyearRead := isoDigits_four (n := d.year.toNat) (by omega)
    ('-' :: (twoDigits d.month.toNat ++ '-' :: twoDigits d.day.toNat))
  have hmonthRead := isoDigits_twoDigits (n := d.month.toNat) (by omega)
    ('-' :: twoDigits d.day.toNat)
  have hdayRead := isoDigits_twoDigits hdayLe []
  rw [List.append_nil] at hdayRead
  have hweek : (twoDigits d.month.toNat ++ '-' :: twoDigits d.day.toNat).head? ≠ some 'W' := by
    intro hhead
    have hdigit := twoDigits_isDigit (n := d.month.toNat) (by omega) 'W'
      (List.mem_of_mem_head? hhead)
    exact absurd hdigit (by decide)
  have hdate : Date.ofYmd d.year.toNat d.month.toNat d.day.toNat = .ok d := by
    rw [hyear', hmonth', hday']
    exact Date.ofYmd_eq h
  unfold parseIsoformatDate isoDate
  rw [hyearRead]
  simp only [Option.bind_eq_bind, Option.bind_some, List.head?_cons, List.tail_cons, decide_true,
    if_true, hweek, if_false, hmonthRead, isoLiteral, hdayRead, hdate]
  rfl

def clockFields (n : ℕ) : ℕ × ℕ × ℕ × ℕ :=
  (n / 3600000000, n / 60000000 % 60, n / 1000000 % 60, n % 1000000)

theorem parseHhMmSsFf_seconds {n : ℕ} (h : n < dayMicros) :
    parseHhMmSsFf (isoMinutes n ++ isoSeconds n) = some (clockFields n) := by
  unfold dayMicros at h
  have hhour := isoDigits_twoDigits (n := n / 3600000000) (by omega) (':' ::
    (twoDigits (n / 60000000 % 60) ++ ':' ::
      (twoDigits (n / 1000000 % 60) ++ isoFraction (n % 1000000))))
  have hminute := isoDigits_twoDigits (n := n / 60000000 % 60) (by omega)
    (':' :: (twoDigits (n / 1000000 % 60) ++ isoFraction (n % 1000000)))
  have hsecond := isoDigits_twoDigits (n := n / 1000000 % 60) (by omega) (isoFraction (n % 1000000))
  have hmicros : n % 1000000 < 1000000 := by omega
  have hfraction := parseFraction_isoFraction hmicros
  unfold parseHhMmSsFf isoMinutes isoSeconds
  rw [List.append_assoc, List.cons_append, hhour]
  simp only [Option.bind_eq_bind, Option.bind_some, List.head?_cons, List.tail_cons, decide_true,
    if_true, reduceCtorEq, if_false, isoLiteral, hminute, hsecond, hfraction]
  rfl

theorem parseHhMmSsFf_minutes {n : ℕ} (h : n < dayMicros) (hn : n % 60000000 = 0) :
    parseHhMmSsFf (isoMinutes n) = some (clockFields n) := by
  unfold dayMicros at h
  have hhour := isoDigits_twoDigits (n := n / 3600000000) (by omega)
    (':' :: twoDigits (n / 60000000 % 60))
  have hminute := isoDigits_twoDigits (n := n / 60000000 % 60) (by omega) []
  rw [List.append_nil] at hminute
  have hfields : clockFields n = (n / 3600000000, n / 60000000 % 60, 0, 0) := by
    have hsecond : n / 1000000 % 60 = 0 := by omega
    have hmicros : n % 1000000 = 0 := by omega
    rw [clockFields, hsecond, hmicros]
  unfold parseHhMmSsFf isoMinutes
  rw [hhour, hfields]
  simp only [Option.bind_eq_bind, Option.bind_some, List.head?_cons, List.tail_cons, decide_true,
    if_true, reduceCtorEq, if_false, isoLiteral, hminute]
  rfl

theorem ofHms_clockFields {n : ℕ} (h : n < dayMicros) :
    ∃ time, Time.ofHms (n / 3600000000 : ℕ) (n / 60000000 % 60 : ℕ) (n / 1000000 % 60 : ℕ) =
      .ok time ∧ time.micros + n % 1000000 = n := by
  have hn := h
  unfold dayMicros at hn
  rw [Time.ofHms, dif_pos ⟨⟨by omega, by omega⟩, ⟨by omega, by omega⟩, by omega, by omega⟩]
  refine ⟨_, rfl, ?_⟩
  simp only
  omega

theorem not_isZone_of_isDigit {c : Char} (h : c.isDigit = true) : isZone c = false := by
  cases hzone : isZone c with
  | false => rfl
  | true =>
      simp only [isZone, decide_eq_true_eq] at hzone
      rcases hzone with rfl | rfl | rfl <;> exact absurd h (by decide)

theorem twoDigits_not_isZone {n : ℕ} (h : n < 100) : ∀ c ∈ twoDigits n, isZone c = false :=
  fun c hc => not_isZone_of_isDigit (twoDigits_isDigit h c hc)

theorem isoFraction_not_isZone {micros : ℕ} (h : micros < 1000000) :
    ∀ c ∈ isoFraction micros, isZone c = false := by
  intro c hc
  unfold isoFraction at hc
  split_ifs at hc
  · exact absurd hc List.not_mem_nil
  · rcases List.mem_cons.1 hc with rfl | hc
    · decide
    · exact not_isZone_of_isDigit (sixDigits_isDigit h c hc)

/-- The time of day has no character of a zone. -/
theorem isoTime_not_isZone {n : ℕ} (h : n < dayMicros) :
    ∀ c ∈ isoMinutes n ++ isoSeconds n, isZone c = false := by
  unfold dayMicros at h
  intro c hc
  simp only [isoMinutes, isoSeconds, List.mem_append, List.mem_cons] at hc
  rcases hc with (hc | rfl | hc) | rfl | hc | hc
  · exact twoDigits_not_isZone (by omega) c hc
  · decide
  · exact twoDigits_not_isZone (by omega) c hc
  · decide
  · exact twoDigits_not_isZone (by omega) c hc
  · exact isoFraction_not_isZone (by omega) c hc

theorem isoOffset_head (offset : Option ℤ) : ∀ c ∈ (isoOffset offset).head?, isZone c = true := by
  intro c hc
  cases offset with
  | none => exact absurd hc (by simp [isoOffset])
  | some offset =>
      simp only [isoOffset, List.head?_cons, Option.mem_def, Option.some.injEq] at hc
      subst hc
      split_ifs <;> decide

theorem split_zone {n : ℕ} (h : n < dayMicros) (offset : Option ℤ) :
    (isoMinutes n ++ isoSeconds n ++ isoOffset offset).takeWhile (fun c => ! isZone c) =
        isoMinutes n ++ isoSeconds n ∧
      (isoMinutes n ++ isoSeconds n ++ isoOffset offset).dropWhile (fun c => ! isZone c) =
        isoOffset offset := by
  have hall : ∀ c ∈ isoMinutes n ++ isoSeconds n, (! isZone c) = true := by
    intro c hc
    rw [isoTime_not_isZone h c hc]
    rfl
  rw [List.takeWhile_append_of_pos hall, List.dropWhile_append_of_pos hall]
  cases hoffset : isoOffset offset with
  | nil => simp
  | cons c rest =>
      have hc : isZone c = true := isoOffset_head offset c (by rw [hoffset]; rfl)
      simp [hc]

theorem parseZone_isoOffset {offset : Option ℤ} (h : ∀ o ∈ offset, o.natAbs < dayMicros) :
    parseZone (isoOffset offset) = some offset := by
  cases offset with
  | none => rfl
  | some o =>
      have ho : o.natAbs < dayMicros := h o rfl
      obtain ⟨time, htime, hmicros⟩ := ofHms_clockFields ho
      have hfields : parseHhMmSsFf (isoMinutes o.natAbs ++
          if o.natAbs % 60000000 = 0 then [] else isoSeconds o.natAbs) =
          some (clockFields o.natAbs) := by
        by_cases hwhole : o.natAbs % 60000000 = 0
        · rw [if_pos hwhole, List.append_nil]
          exact parseHhMmSsFf_minutes ho hwhole
        · rw [if_neg hwhole]
          exact parseHhMmSsFf_seconds ho
      have htext : isoOffset (some o) = (if o < 0 then '-' else '+') :: (isoMinutes o.natAbs ++
          if o.natAbs % 60000000 = 0 then [] else isoSeconds o.natAbs) := rfl
      rw [htext]
      by_cases hneg : o < 0
      · have hoffset : -((time.micros : ℤ) + (o.natAbs % 1000000 : ℕ)) = o := by omega
        rw [if_pos hneg, parseZone, if_neg (by decide), hfields]
        simp only [Option.bind_eq_bind, Option.bind_some, clockFields, htime, Except.toOption,
          if_true, hoffset]
        rfl
      · have hoffset : (time.micros : ℤ) + (o.natAbs % 1000000 : ℕ) = o := by omega
        rw [if_neg hneg, parseZone, if_neg (by decide), hfields]
        simp only [Option.bind_eq_bind, Option.bind_some, clockFields, htime, Except.toOption,
          hoffset]
        rfl

theorem combineIso_clockFields (d : DateTime) :
    combineIso d.date (d.time.micros / 3600000000) (d.time.micros / 60000000 % 60)
      (d.time.micros / 1000000 % 60) (d.time.micros % 1000000) = some d := by
  have hday := d.time.lt_day
  obtain ⟨time, htime, hmicros⟩ := ofHms_clockFields hday
  have hhour : d.time.micros / 3600000000 ≠ 24 := by
    unfold dayMicros at hday
    omega
  rw [combineIso, if_neg hhour, htime]
  simp only [Except.toOption, Option.bind_eq_bind, Option.bind_some]
  congr 1
  ext
  have htimeMicros := d.time_micros
  have hsplit := Int.ediv_mul_add_emod d.micros dayMicros
  simp only [DateTime.combine, DateTime.addMicros, DateTime.date]
  omega

end Parts

/-- A datetime of Python: its date is in range and its offset is less than a day. -/
structure OffsetDateTime.Valid (d : OffsetDateTime) : Prop where
  inRange : d.wall.date.InRange
  offset_lt : ∀ o ∈ d.offset, o.natAbs < dayMicros

/-- `fromisoformat` is an inverse of `isoformat`. -/
theorem fromisoformat_isoformat {d : OffsetDateTime} (h : d.Valid) :
    fromisoformat d.isoformat = some d := by
  have hday := d.wall.time.lt_day
  obtain ⟨hyear, hmonth, hdayOne⟩ := h.inRange.toNat_bounds
  have hlength : 11 < d.isoformat.length := by
    simp [OffsetDateTime.isoformat, isoDate, twoDigits, isoMinutes]
  have hseparator : findIsoformatDatetimeSeparator d.isoformat = some 10 := by
    have hfour : d.isoformat[4]? = some '-' := rfl
    have hfive : d.isoformat[5]? = some (d.wall.date.month.toNat / 10).digitChar := rfl
    rw [findIsoformatDatetimeSeparator, if_neg (by omega), if_pos hfour, hfive, if_neg (by simp)]
  have htake : d.isoformat.take 10 = isoDate d.wall.date := rfl
  have hdrop : d.isoformat.drop (10 + 1) = isoMinutes d.wall.time.micros ++
      isoSeconds d.wall.time.micros ++ isoOffset d.offset := rfl
  obtain ⟨htime, hzone⟩ := split_zone hday d.offset
  have hrange : checkRange d.wall = some d.wall := if_pos h.inRange
  unfold fromisoformat
  rw [if_neg (by omega), hseparator]
  simp only [Option.bind_eq_bind, Option.bind_some, htake, parseIsoformatDate_isoDate h.inRange]
  rw [if_neg (by omega)]
  simp only [hdrop, htime, hzone, parseHhMmSsFf_seconds hday, parseZone_isoOffset h.offset_lt,
    Option.bind_some, clockFields, combineIso_clockFields, hrange]
  rfl

end SimplyTransport
