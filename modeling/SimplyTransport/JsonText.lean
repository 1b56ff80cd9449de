import SimplyTransport.Documents
import Mathlib.Data.Nat.Digits.Defs
import Mathlib.Data.Fin.Basic
import Mathlib.Tactic.IntervalCases

/-!
# JSON texts

A document of nulls, booleans, integers and strings is written in ASCII: a character beyond it is
escaped by its UTF-16 units. A reader of the text joins two escaped surrogates to one character, so
that it gives back every document in which no low surrogate follows a high one. The digits of an
integer are limited. Numbers with a fraction or an exponent are no part of these documents.
-/

namespace JsonText

/-- A character of a string, which may be a surrogate alone. -/
abbrev CodePoint := Fin 0x110000

inductive Scalar
  | null
  | bool (b : Bool)
  | int (n : ℤ)
  | str (s : List CodePoint)
  deriving DecidableEq

abbrev Value := Document (List CodePoint) Scalar

section Layout

variable {κ α : Type} (key : κ → List Char) (leaf : α → List Char)

mutual

def layout : Document κ α → List Char
  | .leaf a => leaf a
  | .arr [] => ['[', ']']
  | .arr (v :: items) => '[' :: (layout v ++ layoutItems items)
  | .obj [] => ['\x7b', '\x7d']
  | .obj ((k, v) :: members) =>
      '\x7b' :: (key k ++ ':' :: ' ' :: (layout v ++ layoutMembers members))

def layoutItems : List (Document κ α) → List Char
  | [] => [']']
  | v :: items => ',' :: ' ' :: (layout v ++ layoutItems items)

def layoutMembers : List (κ × Document κ α) → List Char
  | [] => ['\x7d']
  | (k, v) :: members =>
      ',' :: ' ' :: (key k ++ ':' :: ' ' :: (layout v ++ layoutMembers members))

end

end Layout

section Write

def shortEscape (n : ℕ) : Option Char :=
  if n = 0x22 then some '"'
  else if n = 0x5C then some '\\'
  else if n = 0xA then some 'n'
  else if n = 0xD then some 'r'
  else if n = 0x9 then some 't'
  else if n = 0xC then some 'f'
  else if n = 0x8 then some 'b'
  else none

def escapeUnit (n : ℕ) : List Char :=
  ['\\', 'u', (n / 0x1000).digitChar, (n / 0x100 % 16).digitChar, (n / 16 % 16).digitChar,
    (n % 16).digitChar]

def units (c : CodePoint) : List CodePoint :=
  if c.val < 0x10000 then [c]
  else [Fin.ofNat 0x110000 (0xD800 + (c.val - 0x10000) / 0x400),
    Fin.ofNat 0x110000 (0xDC00 + (c.val - 0x10000) % 0x400)]

def writeChar (c : CodePoint) : List Char :=
  match shortEscape c.val with
  | some e => ['\\', e]
  | none =>
      if 0x20 ≤ c.val ∧ c.val ≤ 0x7E then [Char.ofNat c.val]
      else (units c).flatMap (fun u => escapeUnit u.val)

def writeString (s : List CodePoint) : List Char := '"' :: (s.flatMap writeChar ++ ['"'])

def writeInt (n : ℤ) : List Char :=
  if n < 0 then '-' :: Nat.toDigits 10 n.natAbs else Nat.toDigits 10 n.natAbs

def writeScalar : Scalar → List Char
  | .null => ['n', 'u', 'l', 'l']
  | .bool true => ['t', 'r', 'u', 'e']
  | .bool false => ['f', 'a', 'l', 's', 'e']
  | .int n => writeInt n
  | .str s => writeString s

def write : Value → List Char := layout writeString writeScalar

def writeItems : List Value → List Char := layoutItems writeString writeScalar

def writeMembers : List (List CodePoint × Value) → List Char := layoutMembers writeString writeScalar

theorem write_leaf (a : Scalar) : write (.leaf a) = writeScalar a := rfl

theorem write_arr (v : Value) (items : List Value) :
    write (.arr (v :: items)) = '[' :: (write v ++ writeItems items) := rfl

theorem writeItems_nil : writeItems [] = [']'] := rfl

theorem writeItems_cons (v : Value) (items : List Value) :
    writeItems (v :: items) = ',' :: ' ' :: (write v ++ writeItems items) := rfl

theorem write_obj (m : List CodePoint × Value) (members : List (List CodePoint × Value)) :
    write (.obj (m :: members)) =
      '\x7b' :: (writeString m.1 ++ ':' :: ' ' :: (write m.2 ++ writeMembers members)) := rfl

theorem writeMembers_nil : writeMembers [] = ['\x7d'] := rfl

theorem writeMembers_cons (m : List CodePoint × Value) (members : List (List CodePoint × Value)) :
    writeMembers (m :: members) =
      ',' :: ' ' :: (writeString m.1 ++ ':' :: ' ' :: (write m.2 ++ writeMembers members)) := rfl

end Write

section Read

def isSpace (c : Char) : Bool := c ∈ [' ', '\t', '\n', '\r']

def skipSpace (cs : List Char) : List Char := cs.dropWhile isSpace

def isHigh (c : CodePoint) : Bool := 0xD800 ≤ c.val ∧ c.val ≤ 0xDBFF

def isLow (c : CodePoint) : Bool := 0xDC00 ≤ c.val ∧ c.val ≤ 0xDFFF

def join (high low : CodePoint) : CodePoint :=
  Fin.ofNat 0x110000 (0x10000 + (high.val - 0xD800) * 0x400 + (low.val - 0xDC00))

/-- Each high surrogate with a low one after it becomes one character. -/
def joinPairs : List CodePoint → List CodePoint
  | [] => []
  | [c] => [c]
  | c :: d :: rest =>
      if isHigh c ∧ isLow d then join c d :: joinPairs rest else c :: joinPairs (d :: rest)

def hexValue (c : Char) : Option ℕ :=
  if c.isDigit then some (c.toNat - 48)
  else if 'a' ≤ c ∧ c ≤ 'f' then some (c.toNat - 87)
  else if 'A' ≤ c ∧ c ≤ 'F' then some (c.toNat - 55)
  else none

def readUnit (a b c d : Char) : Option CodePoint := do
  let a ← hexValue a
  let b ← hexValue b
  let c ← hexValue c
  let d ← hexValue d
  return Fin.ofNat 0x110000 (a * 0x1000 + b * 0x100 + c * 16 + d)

def unescape (c : Char) : Option CodePoint :=
  if c = '"' then some 0x22
  else if c = '\\' then some 0x5C
  else if c = '/' then some 0x2F
  else if c = 'n' then some 0xA
  else if c = 'r' then some 0xD
  else if c = 't' then some 0x9
  else if c = 'f' then some 0xC
  else if c = 'b' then some 0x8
  else none

def readUnits : List Char → Option (List CodePoint × List Char)
  | [] => none
  | c :: cs =>
      if c = '"' then some ([], cs)
      else if c = '\\' then
        match cs with
        | [] => none
        | e :: cs =>
            if e = 'u' then
              match cs with
              | h₁ :: h₂ :: h₃ :: h₄ :: cs =>
                  (readUnit h₁ h₂ h₃ h₄).bind (fun unit =>
                    (readUnits cs).map (fun p => (unit :: p.1, p.2)))
              | _ => none
            else
              (unescape e).bind (fun unit => (readUnits cs).map (fun p => (unit :: p.1, p.2)))
      else if c.toNat < 0x20 then none
      else (readUnits cs).map (fun p => (Fin.ofNat 0x110000 c.toNat :: p.1, p.2))

def readString (cs : List Char) : Option (List CodePoint × List Char) :=
  (readUnits cs).map (fun p => (joinPairs p.1, p.2))

def readKeyword (word : List Char) (v : Scalar) (cs : List Char) : Option (Value × List Char) :=
  if word <+: cs then some (.leaf v, cs.drop word.length) else none

variable (maxDigits : ℕ)

/-- A number has no digit after a leading zero. -/
def readNatural : List Char → Option (ℕ × List Char)
  | [] => none
  | c :: cs =>
      if c = '0' then some (0, cs)
      else if c.isDigit then
        let digits := c :: cs.takeWhile Char.isDigit
        if digits.length ≤ maxDigits then
          some (Nat.ofDigitChars 10 digits 0, cs.dropWhile Char.isDigit)
        else none
      else none

def readInt : List Char → Option (ℤ × List Char)
  | [] => none
  | c :: cs =>
      if c = '-' then (readNatural maxDigits cs).map (fun p => (-(p.1 : ℤ), p.2))
      else (readNatural maxDigits (c :: cs)).map (fun p => ((p.1 : ℤ), p.2))

mutual

def readValue : ℕ → List Char → Option (Value × List Char)
  | 0, _ => none
  | _ + 1, [] => none
  | fuel + 1, c :: cs =>
      if c = '"' then (readString cs).map (fun p => (.leaf (.str p.1), p.2))
      else if c = '\x7b' then
        let cs := skipSpace cs
        if cs.head? = some '\x7d' then some (.obj [], cs.tail)
        else (readMembers fuel cs).map (fun p => (.obj p.1, p.2))
      else if c = '[' then
        let cs := skipSpace cs
        if cs.head? = some ']' then some (.arr [], cs.tail)
        else (readItems fuel cs).map (fun p => (.arr p.1, p.2))
      else if c = 'n' then readKeyword ['u', 'l', 'l'] .null cs
      else if c = 't' then readKeyword ['r', 'u', 'e'] (.bool true) cs
      else if c = 'f' then readKeyword ['a', 'l', 's', 'e'] (.bool false) cs
      else (readInt maxDigits (c :: cs)).map (fun p => (.leaf (.int p.1), p.2))

def readItems : ℕ → List Char → Option (List Value × List Char)
  | 0, _ => none
  | fuel + 1, cs =>
      (readValue fuel cs).bind (fun p =>
        let cs := skipSpace p.2
        if cs.head? = some ',' then
          (readItems fuel (skipSpace cs.tail)).map (fun q => (p.1 :: q.1, q.2))
        else if cs.head? = some ']' then some ([p.1], cs.tail)
        else none)

def readMembers : ℕ → List Char → Option (List (List CodePoint × Value) × List Char)
  | 0, _ => none
  | fuel + 1, cs =>
      if cs.head? = some '"' then
        (readString cs.tail).bind (fun k =>
          let cs := skipSpace k.2
          if cs.head? = some ':' then
            (readValue fuel (skipSpace cs.tail)).bind (fun p =>
              let cs := skipSpace p.2
              if cs.head? = some ',' then
                (readMembers fuel (skipSpace cs.tail)).map (fun q => ((k.1, p.1) :: q.1, q.2))
              else if cs.head? = some '\x7d' then some ([(k.1, p.1)], cs.tail)
              else none)
          else none)
      else none

end

def read (text : List Char) : Option Value :=
  match readValue maxDigits (text.length + 1) (skipSpace text) with
  | some (v, rest) => if skipSpace rest = [] then some v else none
  | none => none

end Read

section Strings

theorem ofNat_val (n : ℕ) (h : n < 0x110000) : (Fin.ofNat 0x110000 n).val = n := Nat.mod_eq_of_lt h

theorem ofNat_val_self (c : CodePoint) : Fin.ofNat 0x110000 c.val = c :=
  Fin.ext (Nat.mod_eq_of_lt c.isLt)

theorem readUnits_short {n : ℕ} {e : Char} (h : shortEscape n = some e) (rest : List Char) :
    readUnits ('\\' :: e :: rest) =
      (readUnits rest).map (fun p => (Fin.ofNat 0x110000 n :: p.1, p.2)) := by
  have hback : e ≠ 'u' ∧ unescape e = some (Fin.ofNat 0x110000 n) := by
    unfold shortEscape at h
    split_ifs at h <;> subst_vars <;> obtain rfl := Option.some.inj h <;> decide
  conv_lhs => unfold readUnits
  rw [if_neg (by decide), if_pos rfl]
  simp only
  rw [if_neg hback.1, hback.2]
  rfl

theorem hexValue_digitChar : ∀ n < 16, hexValue n.digitChar = some n := by decide

theorem readUnits_unit (u : CodePoint) (hu : u.val < 0x10000) (rest : List Char) :
    readUnits (escapeUnit u.val ++ rest) = (readUnits rest).map (fun p => (u :: p.1, p.2)) := by
  have hread : readUnit (u.val / 0x1000).digitChar (u.val / 0x100 % 16).digitChar
      (u.val / 16 % 16).digitChar (u.val % 16).digitChar = some u := by
    have hvalue : u.val / 0x1000 * 0x1000 + u.val / 0x100 % 16 * 0x100 + u.val / 16 % 16 * 16 +
        u.val % 16 = u.val := by omega
    unfold readUnit
    rw [hexValue_digitChar _ (by omega), hexValue_digitChar _ (by omega),
      hexValue_digitChar _ (by omega), hexValue_digitChar _ (by omega)]
    exact congrArg some ((congrArg _ hvalue).trans (ofNat_val_self u))
  unfold escapeUnit
  conv_lhs => unfold readUnits
  simp only [List.cons_append, List.nil_append]
  rw [if_neg (by decide)]
  simp only [if_true, hread]
  rfl

theorem toNat_ofNat_plain {n : ℕ} (h : n ≤ 0x7E) : (Char.ofNat n).toNat = n := by
  have hall : ∀ n ≤ 0x7E, (Char.ofNat n).toNat = n := by decide
  exact hall n h

/-- A plain code point without a short escape is no character that has one. -/
theorem ofNat_ne_of_shortEscape {n : ℕ} (hshort : shortEscape n = none) (hn : n ≤ 0x7E) {a : Char}
    (ha : shortEscape a.toNat ≠ none) : Char.ofNat n ≠ a := by
  intro h
  have hnat := toNat_ofNat_plain hn
  rw [h] at hnat
  rw [← hnat] at hshort
  exact ha hshort

theorem readUnits_plain {c : CodePoint} (hshort : shortEscape c.val = none)
    (hc : 0x20 ≤ c.val ∧ c.val ≤ 0x7E) (rest : List Char) :
    readUnits (Char.ofNat c.val :: rest) = (readUnits rest).map (fun p => (c :: p.1, p.2)) := by
  have hnat := toNat_ofNat_plain hc.2
  have hquote : Char.ofNat c.val ≠ '"' := ofNat_ne_of_shortEscape hshort hc.2 (by decide)
  have hslash : Char.ofNat c.val ≠ '\\' := ofNat_ne_of_shortEscape hshort hc.2 (by decide)
  conv_lhs => unfold readUnits
  rw [if_neg hquote, if_neg hslash, hnat, if_neg (by omega), ofNat_val_self]

theorem units_lt (c : CodePoint) : ∀ u ∈ units c, u.val < 0x10000 := by
  intro u hu
  have hc := c.isLt
  unfold units at hu
  split_ifs at hu with hsmall
  · rw [List.mem_singleton.1 hu]
    exact hsmall
  · simp only [List.mem_cons, List.not_mem_nil, or_false] at hu
    rcases hu with rfl | rfl
    · rw [ofNat_val _ (by omega)]
      omega
    · rw [ofNat_val _ (by omega)]
      omega

theorem readUnits_units {us : List CodePoint} (h : ∀ u ∈ us, u.val < 0x10000) (rest : List Char) :
    readUnits (us.flatMap (fun u => escapeUnit u.val) ++ rest) =
      (readUnits rest).map (fun p => (us ++ p.1, p.2)) := by
  induction us with
  | nil => simp
  | cons u us ih =>
      rw [List.flatMap_cons, List.append_assoc, readUnits_unit u (h u List.mem_cons_self),
        ih fun x hx => h x (List.mem_cons_of_mem _ hx), Option.map_map]
      rfl

theorem units_of_lt {c : CodePoint} (h : c.val < 0x10000) : units c = [c] := if_pos h

theorem readUnits_writeChar (c : CodePoint) (rest : List Char) :
    readUnits (writeChar c ++ rest) =
      (readUnits rest).map (fun p => (units c ++ p.1, p.2)) := by
  unfold writeChar
  cases hshort : shortEscape c.val with
  | some e =>
      have hlt : c.val < 0x10000 := by
        unfold shortEscape at hshort
        split_ifs at hshort <;> omega
      simp only [List.cons_append, List.nil_append]
      rw [readUnits_short hshort, ofNat_val_self, units_of_lt hlt]
      rfl
  | none =>
      simp only
      by_cases hplain : 0x20 ≤ c.val ∧ c.val ≤ 0x7E
      · rw [if_pos hplain, List.singleton_append, readUnits_plain hshort hplain,
          units_of_lt (by omega)]
        rfl
      · rw [if_neg hplain]
        exact readUnits_units (units_lt c) rest

theorem readUnits_write (s : List CodePoint) (rest : List Char) :
    readUnits (s.flatMap writeChar ++ '"' :: rest) = some (s.flatMap units, rest) := by
  induction s with
  | nil =>
      rw [List.flatMap_nil, List.nil_append]
      unfold readUnits
      rfl
  | cons c s ih =>
      rw [List.flatMap_cons, List.append_assoc, readUnits_writeChar, ih, List.flatMap_cons]
      rfl

theorem joinPairs_cons {c d : CodePoint} {rest : List CodePoint} (h : ¬ (isHigh c ∧ isLow d)) :
    joinPairs (c :: d :: rest) = c :: joinPairs (d :: rest) := by
  rw [joinPairs, if_neg h]

/-- The first unit of a string is a low surrogate where its first character is one. -/
theorem flatMap_units_cons (d : CodePoint) (rest : List CodePoint) :
    ∃ u us, (d :: rest).flatMap units = u :: us ∧ isLow u = isLow d := by
  have hd := d.isLt
  rw [List.flatMap_cons, units]
  by_cases hsmall : d.val < 0x10000
  · rw [if_pos hsmall]
    exact ⟨d, _, rfl, rfl⟩
  · rw [if_neg hsmall]
    refine ⟨_, _, rfl, ?_⟩
    have hlow : isLow d = false := by
      simp only [isLow, decide_eq_false_iff_not]
      omega
    rw [hlow]
    simp only [isLow, decide_eq_false_iff_not]
    rw [ofNat_val _ (by omega)]
    omega

theorem joinPairs_units_append {c : CodePoint} (h : ¬ c.val < 0x10000) (us : List CodePoint) :
    joinPairs (units c ++ us) = c :: joinPairs us := by
  have hc := c.isLt
  rw [units, if_neg h, List.cons_append, List.singleton_append, joinPairs]
  have hhigh : (Fin.ofNat 0x110000 (0xD800 + (c.val - 0x10000) / 0x400)).val =
      0xD800 + (c.val - 0x10000) / 0x400 := ofNat_val _ (by omega)
  have hlow : (Fin.ofNat 0x110000 (0xDC00 + (c.val - 0x10000) % 0x400)).val =
      0xDC00 + (c.val - 0x10000) % 0x400 := ofNat_val _ (by omega)
  have hpair : isHigh (Fin.ofNat 0x110000 (0xD800 + (c.val - 0x10000) / 0x400)) = true ∧
      isLow (Fin.ofNat 0x110000 (0xDC00 + (c.val - 0x10000) % 0x400)) = true := by
    simp only [isHigh, isLow, hhigh, hlow, decide_eq_true_eq]
    omega
  have hjoin : join (Fin.ofNat 0x110000 (0xD800 + (c.val - 0x10000) / 0x400))
      (Fin.ofNat 0x110000 (0xDC00 + (c.val - 0x10000) % 0x400)) = c := by
    have hvalue : 0x10000 + (0xD800 + (c.val - 0x10000) / 0x400 - 0xD800) * 0x400 +
        (0xDC00 + (c.val - 0x10000) % 0x400 - 0xDC00) = c.val := by omega
    unfold join
    rw [hhigh, hlow, hvalue]
    exact ofNat_val_self c
  rw [if_pos hpair, hjoin]

/-- Joining the units of a string joins its surrogates. -/
theorem joinPairs_units (s : List CodePoint) : joinPairs (s.flatMap units) = joinPairs s := by
  induction s using joinPairs.induct with
  | case1 => rfl
  | case2 c =>
      by_cases hc : c.val < 0x10000
      · rw [List.flatMap_cons, units_of_lt hc]
        rfl
      · rw [List.flatMap_cons, joinPairs_units_append hc]
        rfl
  | case3 c d rest h ih =>
      have hc : c.val < 0x10000 := by
        have hhigh := h.1
        simp only [isHigh, decide_eq_true_eq] at hhigh
        omega
      have hd : d.val < 0x10000 := by
        have hlow := h.2
        simp only [isLow, decide_eq_true_eq] at hlow
        omega
      rw [List.flatMap_cons, List.flatMap_cons, units_of_lt hc, units_of_lt hd,
        List.singleton_append, List.singleton_append, joinPairs, if_pos h, joinPairs, if_pos h, ih]
  | case4 c d rest h ih =>
      rw [joinPairs_cons h, ← ih, List.flatMap_cons]
      by_cases hc : c.val < 0x10000
      · obtain ⟨u, us, hunits, hlow⟩ := flatMap_units_cons d rest
        rw [hunits, units_of_lt hc, List.singleton_append]
        apply joinPairs_cons
        rw [hlow]
        exact h
      · exact joinPairs_units_append hc _

theorem readString_write (s : List CodePoint) (rest : List Char) :
    readString (s.flatMap writeChar ++ '"' :: rest) = some (joinPairs s, rest) := by
  rw [readString, readUnits_write, Option.map_some, joinPairs_units]

end Strings

section Numbers

/-- What follows a value in a text: nothing, a comma or a bracket. -/
def Delimited (rest : List Char) : Prop := ∀ c ∈ rest.head?, c ∈ [',', ']', '\x7d']

theorem Delimited.not_isDigit {rest : List Char} (h : Delimited rest) :
    ∀ c ∈ rest.head?, c.isDigit = false := by
  intro c hc
  have hmem := h c hc
  simp only [List.mem_cons, List.not_mem_nil, or_false] at hmem
  rcases hmem with rfl | rfl | rfl <;> decide

theorem takeWhile_digits {ds rest : List Char} (hds : ∀ c ∈ ds, c.isDigit = true)
    (hrest : ∀ c ∈ rest.head?, c.isDigit = false) :
    (ds ++ rest).takeWhile Char.isDigit = ds ∧ (ds ++ rest).dropWhile Char.isDigit = rest := by
  rw [List.takeWhile_append_of_pos hds, List.dropWhile_append_of_pos hds]
  cases rest with
  | nil => simp
  | cons c rest =>
      have hc := hrest c rfl
      simp [hc]

theorem toDigits_head {n : ℕ} (h : 0 < n) :
    ∃ c ds, Nat.toDigits 10 n = c :: ds ∧ c ≠ '0' := by
  induction n using Nat.strong_induction_on with
  | h n ih =>
      rw [Nat.toDigits_eq_if (by decide)]
      by_cases hn : n < 10
      · rw [if_pos hn]
        have hall : ∀ m < 10, 0 < m → m.digitChar ≠ '0' := by decide
        exact ⟨_, [], rfl, hall n hn h⟩
      · rw [if_neg hn]
        obtain ⟨c, ds, hdigits, hc⟩ := ih (n / 10) (by omega) (by omega)
        rw [hdigits]
        exact ⟨c, _, rfl, hc⟩

theorem isDigit_toDigits (n : ℕ) : ∀ c ∈ Nat.toDigits 10 n, c.isDigit = true :=
  fun _ hc => Nat.isDigit_of_mem_toDigits (by decide) (by decide) hc

theorem readNatural_toDigits {maxDigits n : ℕ} (hn : (Nat.toDigits 10 n).length ≤ maxDigits)
    {rest : List Char} (hrest : Delimited rest) :
    readNatural maxDigits (Nat.toDigits 10 n ++ rest) = some (n, rest) := by
  rcases Nat.eq_zero_or_pos n with rfl | hpos
  · rfl
  · obtain ⟨c, ds, hdigits, hc⟩ := toDigits_head hpos
    have hall := isDigit_toDigits n
    have hvalue : Nat.ofDigitChars 10 (Nat.toDigits 10 n) 0 = n := Nat.ofDigitChars_ten_toDigits
    rw [hdigits] at hall hvalue hn
    obtain ⟨htake, hdrop⟩ := takeWhile_digits
      (fun x hx => hall x (List.mem_cons_of_mem _ hx)) hrest.not_isDigit
    rw [hdigits, List.cons_append, readNatural, if_neg hc, if_pos (hall c List.mem_cons_self)]
    simp only [htake, hdrop]
    rw [if_pos hn, hvalue]

theorem toDigits_cons (n : ℕ) : ∃ c ds, Nat.toDigits 10 n = c :: ds ∧ c.isDigit = true := by
  have hall := isDigit_toDigits n
  cases hdigits : Nat.toDigits 10 n with
  | nil => exact absurd hdigits Nat.toDigits_ne_nil
  | cons c ds =>
      rw [hdigits] at hall
      exact ⟨c, ds, rfl, hall c List.mem_cons_self⟩

theorem writeInt_cons (n : ℤ) :
    ∃ c cs, writeInt n = c :: cs ∧ (c = '-' ∨ c.isDigit = true) := by
  unfold writeInt
  by_cases hneg : n < 0
  · rw [if_pos hneg]
    exact ⟨'-', _, rfl, Or.inl rfl⟩
  · rw [if_neg hneg]
    obtain ⟨c, ds, hdigits, hc⟩ := toDigits_cons n.natAbs
    exact ⟨c, ds, hdigits, Or.inr hc⟩

theorem readInt_write {maxDigits : ℕ} {n : ℤ} (hn : (Nat.toDigits 10 n.natAbs).length ≤ maxDigits)
    {rest : List Char} (hrest : Delimited rest) :
    readInt maxDigits (writeInt n ++ rest) = some (n, rest) := by
  have hread := readNatural_toDigits hn hrest
  unfold writeInt
  by_cases hneg : n < 0
  · rw [if_pos hneg, List.cons_append, readInt, if_pos rfl, hread, Option.map_some]
    congr 2
    omega
  · obtain ⟨c, ds, hdigits, hc⟩ := toDigits_cons n.natAbs
    have hminus : c ≠ '-' := by
      rintro rfl
      exact absurd hc (by decide)
    rw [hdigits, List.cons_append] at hread
    rw [if_neg hneg, hdigits, List.cons_append, readInt, if_neg hminus, hread, Option.map_some]
    congr 2
    omega

end Numbers

section Values

def joinScalar : Scalar → Scalar
  | .str s => .str (joinPairs s)
  | .null => .null
  | .bool b => .bool b
  | .int n => .int n

def joined (inObj : Bool) : Value → Value :=
  Document.mapAt joinPairs (fun _ => joinScalar) id inObj

/-- No integer has more digits than the limit. -/
def Fits (maxDigits : ℕ) (v : Value) : Prop :=
  ∀ p ∈ v.leavesAt false, ∀ n, p.2 = .int n → (Nat.toDigits 10 n.natAbs).length ≤ maxDigits

theorem joined_flag (b : Bool) (v : Value) : joined b v = joined false v := by
  unfold joined
  cases v with
  | leaf a => rfl
  | arr items => rw [Document.mapAt_arr, Document.mapAt_arr]
  | obj members => rw [Document.mapAt_obj, Document.mapAt_obj]

theorem joined_arr (b : Bool) (items : List Value) :
    joined b (.arr items) = .arr (items.map (joined false)) :=
  Document.mapAt_arr _ _ _ _ _

theorem joined_obj (b : Bool) (members : List (List CodePoint × Value)) :
    joined b (.obj members) =
      .obj (members.map (fun m => (joinPairs m.1, joined false m.2))) := by
  unfold joined
  rw [Document.mapAt_obj]
  congr 1
  apply List.map_congr_left
  intro m _
  exact congrArg (Prod.mk _) (joined_flag true m.2)

theorem leaves_flag {p : Bool × Scalar} {v : Value} (b : Bool) (h : p ∈ v.leavesAt false) :
    ∃ b', (b', p.2) ∈ v.leavesAt b := by
  cases v with
  | leaf a =>
      simp only [Document.leavesAt, List.mem_singleton] at h
      exact ⟨b, by simp [Document.leavesAt, h]⟩
  | arr items => exact ⟨p.1, by rwa [Document.leavesAt_arr] at h ⊢⟩
  | obj members => exact ⟨p.1, by rwa [Document.leavesAt_obj] at h ⊢⟩

theorem fits_of_mem_arr {maxDigits : ℕ} {items : List Value}
    (h : Fits maxDigits (.arr items)) : ∀ v ∈ items, Fits maxDigits v := by
  intro v hv p hp
  apply h p
  rw [Document.leavesAt_arr]
  exact List.mem_flatMap.2 ⟨v, hv, hp⟩

theorem fits_of_mem_obj {maxDigits : ℕ} {members : List (List CodePoint × Value)}
    (h : Fits maxDigits (.obj members)) : ∀ m ∈ members, Fits maxDigits m.2 := by
  intro m hm p hp
  obtain ⟨b, hb⟩ := leaves_flag true hp
  apply h (b, p.2)
  rw [Document.leavesAt_obj]
  exact List.mem_flatMap.2 ⟨m, hm, hb⟩

/-- The first character of a value is no white space and no closing bracket. -/
def Opens (c : Char) : Prop := isSpace c = false ∧ c ≠ ']' ∧ c ≠ '\x7d'

instance (c : Char) : Decidable (Opens c) :=
  inferInstanceAs (Decidable (isSpace c = false ∧ c ≠ ']' ∧ c ≠ '\x7d'))

theorem opens_of_isDigit {c : Char} (h : c.isDigit = true) : Opens c := by
  refine ⟨?_, ?_, ?_⟩
  · cases hspace : isSpace c with
    | false => rfl
    | true =>
        simp only [isSpace, decide_eq_true_eq, List.mem_cons, List.not_mem_nil, or_false] at hspace
        rcases hspace with rfl | rfl | rfl | rfl <;> exact absurd h (by decide)
  · rintro rfl
    exact absurd h (by decide)
  · rintro rfl
    exact absurd h (by decide)

theorem write_opens (v : Value) : ∃ c cs, write v = c :: cs ∧ Opens c := by
  rcases v with a | items | members
  · rcases a with _ | b | n | s
    · exact ⟨'n', _, rfl, by decide⟩
    · cases b with
      | false => exact ⟨'f', _, rfl, by decide⟩
      | true => exact ⟨'t', _, rfl, by decide⟩
    · obtain ⟨c, cs, hwrite, rfl | hdigit⟩ := writeInt_cons n
      · exact ⟨'-', cs, hwrite, by decide⟩
      · exact ⟨c, cs, hwrite, opens_of_isDigit hdigit⟩
    · exact ⟨'"', _, rfl, by decide⟩
  · cases items with
    | nil => exact ⟨'[', _, rfl, by decide⟩
    | cons v items => exact ⟨'[', _, rfl, by decide⟩
  · cases members with
    | nil => exact ⟨'\x7b', _, rfl, by decide⟩
    | cons m members => exact ⟨'\x7b', _, rfl, by decide⟩

theorem skipSpace_cons {c : Char} (h : isSpace c = false) (cs : List Char) :
    skipSpace (c :: cs) = c :: cs := by
  rw [skipSpace, List.dropWhile_cons, h]
  rfl

theorem skipSpace_write (v : Value) (rest : List Char) :
    skipSpace (write v ++ rest) = write v ++ rest := by
  obtain ⟨c, cs, hwrite, hopens⟩ := write_opens v
  rw [hwrite, List.cons_append, skipSpace_cons hopens.1]

theorem skipSpace_space (cs : List Char) : skipSpace (' ' :: cs) = skipSpace cs := rfl

theorem delimited_items (items : List Value) (rest : List Char) :
    Delimited (writeItems items ++ rest) := by
  cases items <;> simp [writeItems_nil, writeItems_cons, Delimited]

theorem delimited_members (members : List (List CodePoint × Value)) (rest : List Char) :
    Delimited (writeMembers members ++ rest) := by
  cases members <;> simp [writeMembers_nil, writeMembers_cons, Delimited]

/-- A value is read back from its text, whatever follows. -/
def ReadsBack (maxDigits : ℕ) (v : Value) : Prop :=
  ∀ fuel rest, (write v).length ≤ fuel → Delimited rest → Fits maxDigits v →
    readValue maxDigits fuel (write v ++ rest) = some (joined false v, rest)

theorem readItems_write {maxDigits : ℕ} {v : Value} {items : List Value}
    (h : ∀ w ∈ v :: items, ReadsBack maxDigits w) (hfits : ∀ w ∈ v :: items, Fits maxDigits w)
    {fuel : ℕ} (hfuel : (write v ++ writeItems items).length ≤ fuel) (rest : List Char) :
    readItems maxDigits fuel (write v ++ writeItems items ++ rest) =
      some ((v :: items).map (joined false), rest) := by
  induction items generalizing v fuel with
  | nil =>
      simp only [writeItems_nil, List.length_append, List.length_cons, List.length_nil] at hfuel
      obtain ⟨fuel, rfl⟩ : ∃ f, fuel = f + 1 := ⟨fuel - 1, by omega⟩
      have hv := h v List.mem_cons_self fuel (']' :: rest) (by omega)
        (delimited_items [] rest) (hfits v List.mem_cons_self)
      rw [readItems, List.append_assoc]
      simp only [writeItems_nil, List.cons_append, List.nil_append, hv, Option.bind_some]
      rfl
  | cons w items ih =>
      simp only [writeItems_cons, List.length_append, List.length_cons] at hfuel
      obtain ⟨fuel, rfl⟩ : ∃ f, fuel = f + 1 := ⟨fuel - 1, by omega⟩
      have hv := h v List.mem_cons_self fuel (writeItems (w :: items) ++ rest) (by omega)
        (delimited_items _ rest) (hfits v List.mem_cons_self)
      have hlength : (write w ++ writeItems items).length ≤ fuel := by
        rw [List.length_append]
        omega
      have hrest := ih (fun x hx => h x (List.mem_cons_of_mem _ hx))
        (fun x hx => hfits x (List.mem_cons_of_mem _ hx)) hlength
      have hcomma : skipSpace (writeItems (w :: items) ++ rest) =
          ',' :: ' ' :: (write w ++ writeItems items ++ rest) := skipSpace_cons (by decide) _
      have hnext : skipSpace (' ' :: (write w ++ writeItems items ++ rest)) =
          write w ++ writeItems items ++ rest := by
        rw [skipSpace_space, List.append_assoc, skipSpace_write]
      rw [readItems, List.append_assoc]
      simp only [hv, Option.bind_some, hcomma, List.head?_cons, List.tail_cons, if_true, hnext,
        hrest]
      rfl

/-- A member is read up to what follows its value. -/
theorem readMembers_step {maxDigits : ℕ} {m : List CodePoint × Value}
    (h : ReadsBack maxDigits m.2) (hfits : Fits maxDigits m.2) {fuel : ℕ}
    (hfuel : (write m.2).length ≤ fuel) {rest cs : List Char} (hrest : Delimited rest)
    (hcs : skipSpace rest = cs) :
    readMembers maxDigits (fuel + 1) (writeString m.1 ++ ':' :: ' ' :: (write m.2 ++ rest)) =
      if cs.head? = some ',' then
        (readMembers maxDigits fuel (skipSpace cs.tail)).map
          (fun q => ((joinPairs m.1, joined false m.2) :: q.1, q.2))
      else if cs.head? = some '\x7d' then some ([(joinPairs m.1, joined false m.2)], cs.tail)
      else none := by
  have hkey := readString_write m.1 (':' :: ' ' :: (write m.2 ++ rest))
  have hcolon : skipSpace (':' :: ' ' :: (write m.2 ++ rest)) =
      ':' :: ' ' :: (write m.2 ++ rest) := skipSpace_cons (by decide) _
  have hvalue : skipSpace (' ' :: (write m.2 ++ rest)) = write m.2 ++ rest := by
    rw [skipSpace_space, skipSpace_write]
  rw [readMembers]
  simp only [writeString, List.cons_append, List.append_assoc, List.nil_append, List.head?_cons,
    List.tail_cons, if_true, hkey, Option.bind_some, hcolon, hvalue, h fuel rest hfuel hrest hfits,
    hcs]

theorem readMembers_write {maxDigits : ℕ} {m : List CodePoint × Value}
    {members : List (List CodePoint × Value)} (h : ∀ w ∈ m :: members, ReadsBack maxDigits w.2)
    (hfits : ∀ w ∈ m :: members, Fits maxDigits w.2) {fuel : ℕ}
    (hfuel : (writeString m.1 ++ ':' :: ' ' :: (write m.2 ++ writeMembers members)).length ≤ fuel)
    (rest : List Char) :
    readMembers maxDigits fuel
        (writeString m.1 ++ ':' :: ' ' :: (write m.2 ++ (writeMembers members ++ rest))) =
      some ((m :: members).map (fun w => (joinPairs w.1, joined false w.2)), rest) := by
  induction members generalizing m fuel with
  | nil =>
      simp only [writeString, List.length_append, List.length_cons] at hfuel
      obtain ⟨fuel, rfl⟩ : ∃ f, fuel = f + 1 := ⟨fuel - 1, by omega⟩
      rw [readMembers_step (h m List.mem_cons_self) (hfits m List.mem_cons_self) (by omega)
        (delimited_members [] rest) (skipSpace_cons (by decide) rest)]
      rfl
  | cons w members ih =>
      simp only [writeString, writeMembers_cons, List.length_append, List.length_cons] at hfuel
      obtain ⟨fuel, rfl⟩ : ∃ f, fuel = f + 1 := ⟨fuel - 1, by omega⟩
      have hlength : (writeString w.1 ++ ':' :: ' ' :: (write w.2 ++ writeMembers members)).length ≤
          fuel := by
        simp only [writeString, List.length_append, List.length_cons]
        omega
      have hrest := ih (fun x hx => h x (List.mem_cons_of_mem _ hx))
        (fun x hx => hfits x (List.mem_cons_of_mem _ hx)) hlength
      have hcomma : skipSpace (writeMembers (w :: members) ++ rest) = ',' :: ' ' ::
          (writeString w.1 ++ ':' :: ' ' :: (write w.2 ++ (writeMembers members ++ rest))) := by
        simp only [writeMembers_cons, List.cons_append, List.append_assoc]
        exact skipSpace_cons (by decide) _
      rw [readMembers_step (h m List.mem_cons_self) (hfits m List.mem_cons_self) (by omega)
        (delimited_members (w :: members) rest) hcomma, List.head?_cons, if_pos rfl, List.tail_cons,
        skipSpace_space]
      have hquote : skipSpace (writeString w.1 ++ ':' :: ' ' ::
          (write w.2 ++ (writeMembers members ++ rest))) =
          writeString w.1 ++ ':' :: ' ' :: (write w.2 ++ (writeMembers members ++ rest)) :=
        skipSpace_cons (by decide) _
      rw [hquote, hrest]
      rfl

/-- The first character of a number starts no other value. -/
theorem readValue_int {maxDigits fuel : ℕ} {n : ℤ}
    (hn : (Nat.toDigits 10 n.natAbs).length ≤ maxDigits) {rest : List Char}
    (hrest : Delimited rest) :
    readValue maxDigits (fuel + 1) (writeInt n ++ rest) = some (.leaf (.int n), rest) := by
  have hread := readInt_write hn hrest
  obtain ⟨c, cs, hwrite, hc⟩ := writeInt_cons n
  have hne : ∀ d ∈ ['"', '\x7b', '[', 'n', 't', 'f'], c ≠ d := by
    rintro d hd rfl
    simp only [List.mem_cons, List.not_mem_nil, or_false] at hd
    rcases hc with hc | hc <;> rcases hd with rfl | rfl | rfl | rfl | rfl | rfl <;>
      exact absurd hc (by decide)
  rw [hwrite, List.cons_append] at hread ⊢
  rw [readValue, if_neg (hne _ (by decide)), if_neg (hne _ (by decide)),
    if_neg (hne _ (by decide)), if_neg (hne _ (by decide)), if_neg (hne _ (by decide)),
    if_neg (hne _ (by decide)), hread]
  rfl

theorem readValue_arr {maxDigits fuel : ℕ} {cs : List Char} (h : skipSpace cs = cs)
    (hclose : cs.head? ≠ some ']') :
    readValue maxDigits (fuel + 1) ('[' :: cs) =
      (readItems maxDigits fuel cs).map (fun p => (.arr p.1, p.2)) := by
  rw [readValue, if_neg (by decide), if_neg (by decide), if_pos rfl]
  simp only [h]
  rw [if_neg hclose]

theorem readValue_obj {maxDigits fuel : ℕ} {cs : List Char} (h : skipSpace cs = cs)
    (hclose : cs.head? ≠ some '\x7d') :
    readValue maxDigits (fuel + 1) ('\x7b' :: cs) =
      (readMembers maxDigits fuel cs).map (fun p => (.obj p.1, p.2)) := by
  rw [readValue, if_neg (by decide), if_pos rfl]
  simp only [h]
  rw [if_neg hclose]

theorem readsBack_leaf (maxDigits : ℕ) (a : Scalar) : ReadsBack maxDigits (.leaf a) := by
  intro fuel rest hfuel hrest hfits
  obtain ⟨c, cs, hwrite, -⟩ := write_opens (.leaf a)
  rw [hwrite, List.length_cons] at hfuel
  obtain ⟨fuel, rfl⟩ : ∃ f, fuel = f + 1 := ⟨fuel - 1, by omega⟩
  rcases a with _ | b | n | s
  · simp [write_leaf, writeScalar, readValue, readKeyword, joined, joinScalar]
  · cases b <;> simp [write_leaf, writeScalar, readValue, readKeyword, joined, joinScalar]
  · have hn := hfits (false, .int n) (by simp [Document.leavesAt]) n rfl
    exact readValue_int hn hrest
  · have hstring := readString_write s rest
    rw [write_leaf, writeScalar, writeString, List.cons_append, List.append_assoc, readValue, if_pos rfl]
    simp only [List.cons_append, List.nil_append, hstring]
    rfl

/-- Every document is read back from its text. -/
theorem readValue_write (maxDigits : ℕ) (v : Value) : ReadsBack maxDigits v := by
  induction v using Document.induct with
  | leaf a => exact readsBack_leaf maxDigits a
  | arr items ih =>
      intro fuel rest hfuel hrest hfits
      rw [joined_arr]
      cases items with
      | nil =>
          have hpos : 2 ≤ fuel := hfuel
          obtain ⟨fuel, rfl⟩ : ∃ f, fuel = f + 1 := ⟨fuel - 1, by omega⟩
          rfl
      | cons v items =>
          rw [write_arr, List.length_cons] at hfuel
          obtain ⟨fuel, rfl⟩ : ∃ f, fuel = f + 1 := ⟨fuel - 1, by omega⟩
          have hlength : (write v ++ writeItems items).length ≤ fuel := by omega
          have hskip : skipSpace (write v ++ writeItems items ++ rest) =
              write v ++ writeItems items ++ rest := by
            rw [List.append_assoc, skipSpace_write]
          have hclose : (write v ++ writeItems items ++ rest).head? ≠ some ']' := by
            obtain ⟨c, cs, hwrite, hopens⟩ := write_opens v
            rw [hwrite]
            simpa using hopens.2.1
          rw [write_arr, List.cons_append, readValue_arr hskip hclose,
            readItems_write ih (fits_of_mem_arr hfits) hlength rest]
          rfl
  | obj members ih =>
      intro fuel rest hfuel hrest hfits
      rw [joined_obj]
      cases members with
      | nil =>
          have hpos : 2 ≤ fuel := hfuel
          obtain ⟨fuel, rfl⟩ : ∃ f, fuel = f + 1 := ⟨fuel - 1, by omega⟩
          rfl
      | cons m members =>
          rw [write_obj, List.length_cons] at hfuel
          obtain ⟨fuel, rfl⟩ : ∃ f, fuel = f + 1 := ⟨fuel - 1, by omega⟩
          have hlength : (writeString m.1 ++ ':' :: ' ' ::
              (write m.2 ++ writeMembers members)).length ≤ fuel := by omega
          have hmembers := readMembers_write ih (fits_of_mem_obj hfits) hlength rest
          have hskip : skipSpace (writeString m.1 ++ ':' :: ' ' ::
              (write m.2 ++ (writeMembers members ++ rest))) = writeString m.1 ++ ':' :: ' ' ::
              (write m.2 ++ (writeMembers members ++ rest)) := skipSpace_cons (by decide) _
          have hclose : (writeString m.1 ++ ':' :: ' ' ::
              (write m.2 ++ (writeMembers members ++ rest))).head? ≠ some '\x7d' := by
            simp [writeString]
          rw [write_obj, List.cons_append]
          simp only [List.append_assoc, List.cons_append]
          rw [readValue_obj hskip hclose, hmembers]
          rfl

/-- The text of a document whose integers are within the limit is read as the document with its
surrogates joined. -/
theorem read_write {maxDigits : ℕ} {v : Value} (h : Fits maxDigits v) :
    read maxDigits (write v) = some (joined false v) := by
  have hvalue := readValue_write maxDigits v ((write v).length + 1) [] (Nat.le_succ _)
    (fun c hc => absurd hc (by simp)) h
  have hskip := skipSpace_write v []
  rw [List.append_nil] at hvalue hskip
  rw [read, hskip, hvalue]
  rfl

end Values

section Surrogates

theorem length_joinPairs_le (s : List CodePoint) : (joinPairs s).length ≤ s.length := by
  induction s using joinPairs.induct with
  | case1 => exact Nat.le_refl 0
  | case2 c => exact Nat.le_refl 1
  | case3 c d rest h ih =>
      rw [joinPairs, if_pos h, List.length_cons, List.length_cons, List.length_cons]
      omega
  | case4 c d rest h ih =>
      rw [joinPairs_cons h, List.length_cons, List.length_cons]
      omega

def Unpaired (s : List CodePoint) : Prop := s.IsChain (fun c d => ¬ (isHigh c ∧ isLow d))

theorem unpaired_of_forall {s : List CodePoint} (h : ∀ c ∈ s, isHigh c = false) : Unpaired s := by
  induction s with
  | nil => exact .nil
  | cons c s ih =>
      rw [List.forall_mem_cons] at h
      cases s with
      | nil => exact .singleton c
      | cons d s => exact List.isChain_cons_cons.2 ⟨by simp [h.1], ih h.2⟩

theorem joinPairs_eq_self_iff (s : List CodePoint) : joinPairs s = s ↔ Unpaired s := by
  unfold Unpaired
  induction s using joinPairs.induct with
  | case1 => simp [joinPairs]
  | case2 c => simp [joinPairs]
  | case3 c d rest h ih =>
      rw [List.isChain_cons_cons]
      constructor
      · intro hself
        have hlength := congrArg List.length hself
        rw [joinPairs, if_pos h, List.length_cons, List.length_cons, List.length_cons] at hlength
        have hle := length_joinPairs_le rest
        omega
      · intro hchain
        exact absurd h hchain.1
  | case4 c d rest h ih =>
      rw [joinPairs_cons h, List.isChain_cons_cons, ← ih, List.cons.injEq]
      constructor
      · exact fun hself => ⟨h, hself.2⟩
      · exact fun hchain => ⟨rfl, hchain.2⟩

end Surrogates

end JsonText
