import SimplyTransport.DateTime
import Mathlib.Data.List.DropRight
import Mathlib.Data.Nat.Digits.Defs
import Mathlib.Data.Rat.Defs

/-!
# Conversions of times and dates

The strings of GTFS files are read as Python reads them: `int` strips white space, takes a sign
and single underscores between digits, and `strptime` matches its pattern greedily. Both take the
decimal digits of all scripts, but `strptime` only where its pattern has `\d`.
-/

namespace SimplyTransport

def pyWhitespace (c : Char) : Bool :=
  c.toNat ∈ [9, 10, 11, 12, 13, 28, 29, 30, 31, 32, 0x85, 0xa0, 0x1680, 0x2000, 0x2001, 0x2002,
    0x2003, 0x2004, 0x2005, 0x2006, 0x2007, 0x2008, 0x2009, 0x200a, 0x2028, 0x2029, 0x202f, 0x205f,
    0x3000]

/-- The separators among the control characters are no white space to `int`. -/
def intWhitespace (c : Char) : Bool := pyWhitespace c && !decide (c.toNat ∈ [28, 29, 30, 31])

def intStrip (cs : List Char) : List Char :=
  (cs.dropWhile intWhitespace).rdropWhile intWhitespace

def digitValue (c : Char) : ℕ := c.toNat - 48

/-- The zeros of the decimal digits of Unicode 16, each of which the other nine follow. -/
def decimalZeros : List ℕ :=
  [0x30, 0x660, 0x6f0, 0x7c0, 0x966, 0x9e6, 0xa66, 0xae6, 0xb66, 0xbe6, 0xc66, 0xce6, 0xd66, 0xde6,
    0xe50, 0xed0, 0xf20, 0x1040, 0x1090, 0x17e0, 0x1810, 0x1946, 0x19d0, 0x1a80, 0x1a90, 0x1b50,
    0x1bb0, 0x1c40, 0x1c50, 0xa620, 0xa8d0, 0xa900, 0xa9d0, 0xa9f0, 0xaa50, 0xabf0, 0xff10, 0x104a0,
    0x10d30, 0x10d40, 0x11066, 0x110f0, 0x11136, 0x111d0, 0x112f0, 0x11450, 0x114d0, 0x11650,
    0x116c0, 0x116d0, 0x116da, 0x11730, 0x118e0, 0x11950, 0x11bf0, 0x11c50, 0x11d50, 0x11da0,
    0x11f50, 0x16130, 0x16a60, 0x16ac0, 0x16b50, 0x16d70, 0x1ccf0, 0x1d7ce, 0x1d7d8, 0x1d7e2,
    0x1d7ec, 0x1d7f6, 0x1e140, 0x1e2f0, 0x1e4f0, 0x1e5f1, 0x1e950, 0x1fbf0]

def decimal (c : Char) : Option ℕ :=
  (decimalZeros.find? (fun first => first ≤ c.toNat ∧ c.toNat < first + 10)).map
    (fun first => c.toNat - first)

def readDigits : ℕ → List Char → Option ℕ
  | acc, [] => some acc
  | acc, '_' :: c :: cs => (decimal c).bind (fun d => readDigits (acc * 10 + d) cs)
  | acc, c :: cs => (decimal c).bind (fun d => readDigits (acc * 10 + d) cs)

def readNat : List Char → Option ℕ
  | [] => none
  | c :: cs => (decimal c).bind (fun d => readDigits d cs)

/-- Python's default limit on the digits that `int` reads. -/
def intMaxStrDigits : ℕ := 4300

def pyInt (cs : List Char) : Except PyError ℤ :=
  if intMaxStrDigits < (cs.filter (fun c => (decimal c).isSome)).length then .error .valueError else
  let read : Option ℤ :=
    match intStrip cs with
    | '-' :: ds => (readNat ds).map (fun n : ℕ => -(n : ℤ))
    | '+' :: ds => (readNat ds).map (fun n : ℕ => (n : ℤ))
    | ds => (readNat ds).map (fun n : ℕ => (n : ℤ))
  match read with
  | some n => .ok n
  | none => .error .valueError

def truncate (q : ℚ) : ℤ := q.num.tdiv q.den

def convert29HoursTo24Hours (timeStr : String) : Except PyError Time := do
  match ← (timeStr.toList.splitOn ':').mapM pyInt with
  | [hours, minutes, seconds] =>
    Time.ofHms (if hours > 23 then hours - 24 else hours) minutes seconds
  | _ => .error .valueError

/-- The two-digit alternatives of `%m` come before the one-digit one. -/
def readMonth : List Char → Option (ℤ × List Char)
  | '1' :: c :: cs => if c ∈ ['0', '1', '2'] then some (10 + digitValue c, cs) else some (1, c :: cs)
  | '0' :: c :: cs => if c.isDigit ∧ c ≠ '0' then some (digitValue c, cs) else none
  | c :: cs => if c.isDigit ∧ c ≠ '0' then some (digitValue c, cs) else none
  | [] => none

def readDay : List Char → Option (ℤ × List Char)
  | '3' :: c :: cs => if c ∈ ['0', '1'] then some (30 + digitValue c, cs) else some (3, c :: cs)
  | '1' :: c :: cs =>
    match decimal c with
    | some d => some (10 + d, cs)
    | none => some (1, c :: cs)
  | '2' :: c :: cs =>
    match decimal c with
    | some d => some (20 + d, cs)
    | none => some (2, c :: cs)
  | '0' :: c :: cs => if c.isDigit ∧ c ≠ '0' then some (digitValue c, cs) else none
  | ' ' :: c :: cs => if c.isDigit ∧ c ≠ '0' then some (digitValue c, cs) else none
  | c :: cs => if c.isDigit ∧ c ≠ '0' then some (digitValue c, cs) else none
  | [] => none

/-- A month of one digit is tried again where `%m` has left nothing for `%d`. -/
def readMonthDay (cs : List Char) : Option (ℤ × ℤ × List Char) :=
  match readMonth cs with
  | none => none
  | some (m, rest) =>
    match readDay rest with
    | some (d, rest) => some (m, d, rest)
    | none =>
      match cs with
      | '1' :: c :: cs => (readDay (c :: cs)).map (fun p => (1, p.1, p.2))
      | _ => none

def readYear : List Char → Option (ℕ × List Char)
  | a :: b :: c :: d :: rest =>
    ([d, c, b, a].mapM decimal).map (fun digits => (Nat.ofDigits 10 digits, rest))
  | _ => none

def convertJoinedDateToDate (date : String) : Except PyError Date :=
  match readYear date.toList with
  | some (year, rest) =>
    match readMonthDay rest with
    | some (month, day, []) => Date.ofYmd year month day
    | _ => .error .valueError
  | none => .error .valueError

/-- The hours between two times of day, the shorter way round. -/
def returnTimeDifference (startTime endTime : Time) : ℤ :=
  if startTime = endTime then 0 else
  let difference := ((endTime.hour : ℤ) - startTime.hour) % 24
  if difference > 12 then 24 - difference else difference

/-- `from_date` when it is already `day`, otherwise the next matching weekday. -/
def nextDateForDay (day : ℤ) (start : Date) : Date :=
  let daysAhead := (day - start.weekday) % 7
  start.addDays daysAhead

theorem nextDateForDay_weekday {day : ℤ} (h : 0 ≤ day ∧ day < 7) (start : Date) :
    (nextDateForDay day start).weekday = day := by
  have hw := start.weekday_lt
  rw [nextDateForDay, Date.weekday_addDays]
  omega

end SimplyTransport
