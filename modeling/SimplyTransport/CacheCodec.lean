import SimplyTransport.IsoFormat
import SimplyTransport.JsonText

/-!
# The texts of cached values

`serialize` writes a value as JSON, and a datetime as the string of its ISO text. `deserialize` reads
the text, and takes each string directly in a dictionary that reads as an ISO text for a datetime.
A value therefore comes back exactly where its datetimes, and none of its strings that read as one,
are directly in dictionaries, beside the limits of JSON texts: an integer has at most 4300 digits,
and a string has no low surrogate after a high one.
-/

namespace SimplyTransport

open JsonText (CodePoint Scalar Value Unpaired joinPairs joinScalar)

namespace RedisService

inductive PyScalar
  | none
  | bool (b : Bool)
  | int (n : ℤ)
  | str (s : List CodePoint)
  | datetime (d : OffsetDateTime)
  deriving DecidableEq

abbrev PyValue := Document (List CodePoint) PyScalar

/-- A value as Python builds it: no dictionary has a key twice, and its datetimes are datetimes. -/
structure CacheValue where
  value : PyValue
  distinct : value.Distinct
  datetimes : ∀ p ∈ value.leavesAt false, ∀ d, p.2 = .datetime d → d.Valid

theorem toNat_lt (c : Char) : c.toNat < 0x110000 := by
  have hvalid : c.toNat < 0xD800 ∨ 0xDFFF < c.toNat ∧ c.toNat < 0x110000 := c.valid
  omega

def codePoints (text : List Char) : List CodePoint := text.map (fun c => ⟨c.toNat, toNat_lt c⟩)

/-- The characters of a string; a surrogate is like no character of an ISO text. -/
def characters (s : List CodePoint) : List Char := s.map (fun c => Char.ofNat c.val)

section Codec

/-- `datetime_handler` is for what JSON has no text for. -/
def datetimeHandler (d : OffsetDateTime) : List CodePoint := codePoints d.isoformat

def toJson : PyScalar → Scalar
  | .none => .null
  | .bool b => .bool b
  | .int n => .int n
  | .str s => .str s
  | .datetime d => .str (datetimeHandler d)

def exceedsDigits : Scalar → Bool
  | .int n => intMaxStrDigits < (Nat.toDigits 10 n.natAbs).length
  | _ => false

def serialize (data : PyValue) : Except PyError (List Char) :=
  let v : Value := data.mapAt id (fun _ => toJson) id false
  if (v.leavesAt false).any (fun p => exceedsDigits p.2) then .error .valueError
  else .ok (JsonText.write v)

def fromJson : Scalar → PyScalar
  | .null => .none
  | .bool b => .bool b
  | .int n => .int n
  | .str s => .str s

def parseDatetime : PyScalar → PyScalar
  | .str s =>
      match fromisoformat (characters s) with
      | some d => .datetime d
      | none => .str s
  | .none => .none
  | .bool b => .bool b
  | .int n => .int n
  | .datetime d => .datetime d

def datetimeParser (dct : List (List CodePoint × PyValue)) : List (List CodePoint × PyValue) :=
  dct.map (fun m => (m.1, m.2.onLeaf parseDatetime))

/-- The hook is called with each dictionary, the inner ones first. -/
def deserialize (data : List Char) : Except PyError PyValue :=
  match JsonText.read intMaxStrDigits data with
  | none => .error .valueError
  | some v => .ok (v.mapAt id (fun _ => fromJson)
      (fun pairs => datetimeParser (OrderedDict.ofEntries pairs).entries) false)

end Codec

section Texts

theorem characters_codePoints (text : List Char) : characters (codePoints text) = text := by
  rw [characters, codePoints, List.map_map]
  apply Document.map_eq_self_iff.2
  intro c _
  exact Char.ofNat_toNat c

/-- A character is no surrogate. -/
theorem isHigh_toNat (c : Char) : JsonText.isHigh ⟨c.toNat, toNat_lt c⟩ = false := by
  have hvalid : c.toNat < 0xD800 ∨ 0xDFFF < c.toNat ∧ c.toNat < 0x110000 := c.valid
  rw [JsonText.isHigh, decide_eq_false_iff_not]
  simp only
  omega

theorem unpaired_codePoints (text : List Char) : Unpaired (codePoints text) := by
  apply JsonText.unpaired_of_forall
  intro c hc
  obtain ⟨c, _, rfl⟩ := List.mem_map.1 hc
  exact isHigh_toNat c

theorem parseDatetime_datetimeHandler {d : OffsetDateTime} (h : d.Valid) :
    parseDatetime (.str (datetimeHandler d)) = .datetime d := by
  rw [parseDatetime, datetimeHandler, characters_codePoints, fromisoformat_isoformat h]

end Texts

section RoundTrip

def recoded (inDict : Bool) (a : PyScalar) : PyScalar :=
  if inDict then parseDatetime (fromJson (joinScalar (toJson a)))
  else fromJson (joinScalar (toJson a))

/-- A value whose integers are within the limit is read back with each scalar recoded. -/
theorem deserialize_serialize {x : PyValue}
    (h : ∀ p ∈ x.leavesAt false, exceedsDigits (toJson p.2) = false) :
    (serialize x >>= deserialize) =
      .ok (x.mapAt joinPairs recoded (fun l => (OrderedDict.ofEntries l).entries) false) := by
  have hleaves := Document.leavesAt_mapAt id (fun _ => toJson) false x
  have hdigits : ((x.mapAt id (fun _ => toJson) id false).leavesAt false).any
      (fun p => exceedsDigits p.2) = false := by
    rw [hleaves, List.any_eq_false]
    intro p hp
    obtain ⟨q, hq, rfl⟩ := List.mem_map.1 hp
    rw [h q hq]
    exact Bool.false_ne_true
  have hfits : JsonText.Fits intMaxStrDigits (x.mapAt id (fun _ => toJson) id false) := by
    intro p hp n hn
    have hp := List.any_eq_false.1 hdigits p hp
    rw [hn, exceedsDigits, decide_eq_true_eq] at hp
    exact Nat.le_of_not_lt hp
  have hserialize : serialize x = .ok (JsonText.write (x.mapAt id (fun _ => toJson) id false)) := by
    rw [serialize, hdigits]
    rfl
  have hhook := Document.mapAt_onLeaf id fromJson parseDatetime
    (fun l => (OrderedDict.ofEntries l).entries)
    (fun l => OrderedDict.entries_ofEntries_map (Document.onLeaf parseDatetime) l)
    (JsonText.joined false (x.mapAt id (fun _ => toJson) id false))
  rw [hserialize]
  change deserialize (JsonText.write _) = _
  rw [deserialize, JsonText.read_write hfits]
  change Except.ok _ = Except.ok _
  unfold datetimeParser
  rw [hhook.1 false, JsonText.joined, Document.mapAt_mapAt, Document.mapAt_mapAt]
  rfl

def ComesBack (inDict : Bool) : PyScalar → Prop
  | .none => True
  | .bool _ => True
  | .int n => (Nat.toDigits 10 n.natAbs).length ≤ intMaxStrDigits
  | .str s => Unpaired s ∧ (inDict = true → fromisoformat (characters s) = none)
  | .datetime _ => inDict = true

theorem exceedsDigits_eq_false {inDict : Bool} {a : PyScalar} (h : ComesBack inDict a) :
    exceedsDigits (toJson a) = false := by
  cases a with
  | int n => exact decide_eq_false (Nat.not_lt.2 h)
  | none => rfl
  | bool b => rfl
  | str s => rfl
  | datetime d => rfl

theorem recoded_str_iff (inDict : Bool) (s : List CodePoint) :
    recoded inDict (.str s) = .str s ↔ ComesBack inDict (.str s) := by
  rw [ComesBack, ← JsonText.joinPairs_eq_self_iff]
  cases inDict with
  | false =>
      change PyScalar.str (joinPairs s) = .str s ↔ _
      rw [PyScalar.str.injEq]
      exact ⟨fun h => ⟨h, nofun⟩, And.left⟩
  | true =>
      change parseDatetime (.str (joinPairs s)) = .str s ↔ _
      rw [parseDatetime]
      cases hread : fromisoformat (characters (joinPairs s)) with
      | none =>
          constructor
          · intro h
            have hself : joinPairs s = s := PyScalar.str.inj h
            rw [hself] at hread
            exact ⟨hself, fun _ => hread⟩
          · intro h
            exact congrArg PyScalar.str h.1
      | some d =>
          constructor
          · intro h
            exact absurd h (by simp)
          · intro h
            rw [h.1, h.2 rfl] at hread
            exact absurd hread (by simp)

theorem recoded_datetime_iff (inDict : Bool) {d : OffsetDateTime} (h : d.Valid) :
    recoded inDict (.datetime d) = .datetime d ↔ ComesBack inDict (.datetime d) := by
  have hjoin : joinPairs (datetimeHandler d) = datetimeHandler d :=
    (JsonText.joinPairs_eq_self_iff _).2 (unpaired_codePoints d.isoformat)
  rw [ComesBack]
  cases inDict with
  | false =>
      change PyScalar.str (joinPairs (datetimeHandler d)) = .datetime d ↔ _
      simp
  | true =>
      change parseDatetime (.str (joinPairs (datetimeHandler d))) = .datetime d ↔ _
      rw [hjoin, parseDatetime_datetimeHandler h]
      simp

theorem recoded_iff (inDict : Bool) {a : PyScalar} (hvalid : ∀ d, a = .datetime d → d.Valid)
    (hdigits : exceedsDigits (toJson a) = false) : recoded inDict a = a ↔ ComesBack inDict a := by
  cases a with
  | none => cases inDict <;> simp [recoded, toJson, joinScalar, fromJson, parseDatetime, ComesBack]
  | bool b => cases inDict <;> simp [recoded, toJson, joinScalar, fromJson, parseDatetime, ComesBack]
  | int n =>
      have hn : ComesBack inDict (.int n) := Nat.le_of_not_lt (of_decide_eq_false hdigits)
      exact ⟨fun _ => hn, fun _ => by cases inDict <;> rfl⟩
  | str s => exact recoded_str_iff inDict s
  | datetime d => exact recoded_datetime_iff inDict (hvalid d rfl)

/-- A value comes back exactly where each of its scalars does, and no low surrogate follows a high
one in its keys. -/
theorem deserialize_serialize_eq_iff (x : CacheValue) :
    (serialize x.value >>= deserialize) = .ok x.value ↔
      (∀ p ∈ x.value.leavesAt false, ComesBack p.1 p.2) ∧ ∀ k ∈ x.value.keys, Unpaired k := by
  by_cases hdigits : ∀ p ∈ x.value.leavesAt false, exceedsDigits (toJson p.2) = false
  · have hkeys : (∀ k ∈ x.value.keys, joinPairs k = k) ↔ ∀ k ∈ x.value.keys, Unpaired k :=
      forall₂_congr (fun k _ => JsonText.joinPairs_eq_self_iff k)
    have hscalars : (∀ p ∈ x.value.leavesAt false, recoded p.1 p.2 = p.2) ↔
        ∀ p ∈ x.value.leavesAt false, ComesBack p.1 p.2 :=
      forall₂_congr (fun p hp => recoded_iff p.1 (x.datetimes p hp) (hdigits p hp))
    rw [deserialize_serialize hdigits, Except.ok.injEq,
      Document.mapAt_eq_self_iff (fun _ => OrderedDict.entries_ofEntries_of_length)
        (fun _ => OrderedDict.entries_ofEntries_of_nodup) x.distinct, hscalars, hkeys]
  · have hserialize : serialize x.value = .error .valueError := by
      push Not at hdigits
      obtain ⟨p, hp, hexceeds⟩ := hdigits
      rw [serialize, if_pos]
      rw [Document.leavesAt_mapAt, List.any_map, List.any_eq_true]
      exact ⟨p, hp, by simpa using hexceeds⟩
    rw [hserialize]
    constructor
    · intro h
      exact absurd h (by simp [bind, Except.bind])
    · intro h
      exact absurd (fun p hp => exceedsDigits_eq_false (h.1 p hp)) hdigits

/-- What JSON texts and the reading of ISO texts ask of the scalars that are no datetimes. -/
def Plain (inDict : Bool) : PyScalar → Prop
  | .none => True
  | .bool _ => True
  | .int n => (Nat.toDigits 10 n.natAbs).length ≤ intMaxStrDigits
  | .str s => Unpaired s ∧ (inDict = true → fromisoformat (characters s) = none)
  | .datetime _ => True

/-- A value whose datetimes are directly in dictionaries comes back exactly where its integers have
at most 4300 digits, no low surrogate follows a high one, and no string directly in a dictionary
reads as an ISO text. -/
theorem codec_round_trip_iff (x : CacheValue)
    (hdicts : ∀ p ∈ x.value.leavesAt false, ∀ d, p.2 = .datetime d → p.1 = true) :
    (serialize x.value >>= deserialize) = .ok x.value ↔
      (∀ p ∈ x.value.leavesAt false, Plain p.1 p.2) ∧ ∀ k ∈ x.value.keys, Unpaired k := by
  rw [deserialize_serialize_eq_iff]
  apply and_congr_left'
  apply forall₂_congr
  rintro ⟨inDict, a⟩ hp
  cases a with
  | datetime d => exact iff_of_true (hdicts _ hp d rfl) trivial
  | none => exact Iff.rfl
  | bool b => exact Iff.rfl
  | int n => exact Iff.rfl
  | str s => exact Iff.rfl

end RoundTrip

section Samples

def dated (a : PyScalar) : PyValue := .obj [(codePoints "date".toList, .leaf a)]

theorem distinct_dated (a : PyScalar) : (dated a).Distinct := by
  rw [dated, Document.distinct_obj]
  refine ⟨List.nodup_singleton _, ?_⟩
  intro m hm
  rw [List.mem_singleton.1 hm]
  trivial

theorem leavesAt_dated (a : PyScalar) : (dated a).leavesAt false = [(true, a)] := by
  rw [dated, Document.leavesAt_obj]
  rfl

theorem keys_dated (a : PyScalar) : (dated a).keys = [codePoints "date".toList] := by
  rw [dated, Document.keys_obj]
  rfl

def noon : OffsetDateTime := ⟨DateTime.combine ⟨738886⟩ ⟨43200000000, by decide⟩, none⟩

theorem noon_valid : noon.Valid where
  inRange := by
    unfold Date.InRange
    decide
  offset_lt := fun _ h => absurd h (by simp [noon])

def datedNoon : CacheValue where
  value := dated (.datetime noon)
  distinct := distinct_dated _
  datetimes := by
    intro p hp d hd
    rw [leavesAt_dated, List.mem_singleton] at hp
    rw [hp] at hd
    rw [← PyScalar.datetime.inj hd]
    exact noon_valid

theorem codec_round_trip_iff_noon :
    (serialize datedNoon.value >>= deserialize) = .ok datedNoon.value := by
  have hleaves : datedNoon.value.leavesAt false = [(true, .datetime noon)] := leavesAt_dated _
  apply (codec_round_trip_iff datedNoon ?_).2
  · constructor
    · intro p hp
      rw [hleaves, List.mem_singleton] at hp
      rw [hp]
      trivial
    · intro k hk
      have hkeys : datedNoon.value.keys = [codePoints "date".toList] := keys_dated _
      rw [hkeys, List.mem_singleton] at hk
      rw [hk]
      exact unpaired_codePoints _
  · intro p hp d _
    rw [hleaves, List.mem_singleton] at hp
    rw [hp]

def noonText : List CodePoint := codePoints "2024-01-01T12:00:00".toList

def datedText : CacheValue where
  value := dated (.str noonText)
  distinct := distinct_dated _
  datetimes := by
    intro p hp d hd
    rw [leavesAt_dated, List.mem_singleton] at hp
    rw [hp] at hd
    exact absurd hd (by simp)

/-- A string that reads as an ISO text becomes a datetime. -/
theorem iso_string_becomes_datetime :
    (serialize datedText.value >>= deserialize) = .ok datedNoon.value ∧
      ¬ ∀ x : CacheValue, (serialize x.value >>= deserialize) = .ok x.value := by
  have hresult : (serialize datedText.value >>= deserialize) = .ok datedNoon.value := by
    have hleaves : datedText.value.leavesAt false = [(true, .str noonText)] := leavesAt_dated _
    have hread : recoded true (.str noonText) = .datetime noon := by decide +kernel
    have hvalue : datedText.value = .obj [(codePoints "date".toList, .leaf (.str noonText))] := rfl
    rw [deserialize_serialize (by simp [hleaves, toJson, exceedsDigits]), hvalue,
      Document.mapAt_obj, List.map_singleton, Document.mapAt_leaf, hread]
    rfl
  refine ⟨hresult, ?_⟩
  intro h
  have hself := h datedText
  rw [hresult] at hself
  exact absurd hself (by simp [datedText, datedNoon, dated])

end Samples

end RedisService

end SimplyTransport
