import SimplyTransport.DateTime
import SimplyTransport.QuotedWords
import SimplyTransport.Traversal

/-!
# The cleaning of the stop feature files

The coordinates of each feature become floats, and booleans in quotes are replaced in the text of
the whole file. A property that is one of the two words is a boolean afterwards and every other
value stays, exactly as long as no key is one of the words and no string ends with a quote and one.
-/

namespace SimplyTransport.GeojsonCleaner

open JsonText

/-- Python's floats: `float` of a text and of an integer, and `float.__repr__`. -/
structure Floats (F : Type) where
  ofStr : List CodePoint → Option F
  ofInt : ℤ → Option F
  repr : F → List Char
  repr_plain : ∀ x, '"' ∉ repr x

inductive Leaf (F : Type)
  | scalar (a : Scalar)
  | float (x : F)

abbrev Data (F : Type) := Document (List CodePoint) (Leaf F)

section Model

variable {F : Type} (floats : Floats F)

def Data.str (s : List CodePoint) : Data F := .leaf (.scalar (.str s))

def Leaf.string : Leaf F → Option (List CodePoint)
  | .scalar (.str s) => some s
  | _ => none

def Leaf.other : Leaf F → List Char
  | .scalar a => writeScalar a
  | .float x => floats.repr x

def dumps (data : Data F) : List Char :=
  layout writeString (leafText Leaf.string (Leaf.other floats) []) data

def float : Data F → Except PyError F
  | .leaf (.float x) => .ok x
  | .leaf (.scalar (.str s)) =>
      match floats.ofStr s with
      | some x => .ok x
      | none => .error .valueError
  | .leaf (.scalar (.int n)) =>
      match floats.ofInt n with
      | some x => .ok x
      | none => .error .overflowError
  | .leaf (.scalar (.bool b)) =>
      match floats.ofInt (if b then 1 else 0) with
      | some x => .ok x
      | none => .error .overflowError
  | _ => .error .typeError

/-- What a loop over a value goes through: items, keys or characters. -/
def iterate : Data F → Except PyError (List (Data F))
  | .arr items => .ok items
  | .obj members => .ok (members.map (fun m => Data.str m.1))
  | .leaf (.scalar (.str s)) => .ok (s.map (fun c => Data.str [c]))
  | .leaf _ => .error .typeError

def getItem (key : List CodePoint) : Data F → Except PyError (Data F)
  | .obj members =>
      match members.find? (fun m => m.1 = key) with
      | some m => .ok m.2
      | none => .error .keyError
  | _ => .error .typeError

/-- `value[key] = item`, of a key that the value has. -/
def setItem (key : List CodePoint) (item : Data F) : Data F → Data F
  | .obj members => .obj (members.map (fun m => if m.1 = key then (m.1, item) else m))
  | value => value

def featuresKey : List CodePoint := codePoints "features".toList

def geometryKey : List CodePoint := codePoints "geometry".toList

def coordinatesKey : List CodePoint := codePoints "coordinates".toList

def propertiesKey : List CodePoint := codePoints "properties".toList

def convertFeature (feature : Data F) : Except PyError (Data F) := do
  let geometry ← getItem geometryKey feature
  let coordinates ← getItem coordinatesKey geometry
  let numbers ← (← iterate coordinates).mapM (float floats)
  return setItem geometryKey
    (setItem coordinatesKey (.arr (numbers.map (fun x => .leaf (.float x)))) geometry) feature

def convertFeatures : Data F → Except PyError (Data F)
  | .arr items => do return .arr (← items.mapM (convertFeature floats))
  | features => do
      let _ ← (← iterate features).mapM (convertFeature floats)
      return features

/-- The file with its coordinates as floats. -/
def convert (data : Data F) : Except PyError (Data F) := do
  let features ← getItem featuresKey data
  return setItem featuresKey (← convertFeatures floats features) data

def booleans : List (List Char × List Char) :=
  [("False".toList, "false".toList), ("True".toList, "true".toList)]

/-- The text that is given to `geojson.loads`. -/
def geojsonCleaner (data : Data F) : Except PyError (List Char) := do
  return replaceWords booleans (dumps floats (← convert floats data))

end Model

section Meaning

variable {F : Type}

def booleanOf (s : List CodePoint) : Option Bool :=
  if s = codePoints "False".toList then some false
  else if s = codePoints "True".toList then some true
  else none

def Leaf.unquoted : Leaf F → Leaf F
  | .scalar (.str s) =>
      match booleanOf s with
      | some b => .scalar (.bool b)
      | none => .scalar (.str s)
  | a => a

/-- A document in which each string that is one of the two words is a boolean. -/
def unquoted (data : Data F) : Data F := Document.mapAt id (fun _ => Leaf.unquoted) id false data

def property (index : ℕ) (name : List CodePoint) (data : Data F) : Option (Data F) := do
  let features ← (getItem featuresKey data).toOption
  let feature ← match features with
    | .arr items => items[index]?
    | _ => none
  let properties ← (getItem propertiesKey feature).toOption
  (getItem name properties).toOption

end Meaning

section Texts

variable {F : Type} {floats : Floats F}

theorem quote_notMem_writeInt (n : ℤ) : '"' ∉ writeInt n := by
  have hdigits : '"' ∉ Nat.toDigits 10 n.natAbs :=
    fun h => absurd (isDigit_toDigits n.natAbs '"' h) (by decide)
  unfold writeInt
  split_ifs
  · simpa using hdigits
  · exact hdigits

theorem other_plain (a : Leaf F) (h : a.string = none) : '"' ∉ a.other floats := by
  cases a with
  | float x => exact floats.repr_plain x
  | scalar a =>
      cases a with
      | null =>
          change '"' ∉ writeScalar .null
          decide
      | bool b =>
          change '"' ∉ writeScalar (.bool b)
          cases b <;> decide
      | int n => exact quote_notMem_writeInt n
      | str s => cases h

theorem booleans_words : Words booleans := by
  constructor <;> decide

theorem booleans_shorter : Shorter booleans := by
  unfold Shorter
  decide

/-- In the text of the file each string is treated alone. -/
theorem replaceWords_dumps (data : Data F) :
    replaceWords booleans (dumps floats data) =
      layout (literal booleans) (leafText Leaf.string (Leaf.other floats) booleans) data :=
  replaceWords_layout other_plain booleans_words data

theorem lookup_booleans (s : List CodePoint) :
    lookup booleans s = (booleanOf s).map (fun b => writeScalar (.bool b)) := by
  by_cases hfalse : s = codePoints "False".toList
  · rw [hfalse]
    decide
  · by_cases htrue : s = codePoints "True".toList
    · rw [htrue]
      decide
    · unfold lookup booleans booleanOf
      rw [if_neg hfalse, if_neg htrue]
      simp only [List.find?, decide_eq_false (Ne.symm hfalse), decide_eq_false (Ne.symm htrue),
        Option.map_none]

theorem booleanOf_eq_none_iff {s : List CodePoint} :
    booleanOf s = none ↔ ¬ IsWord booleans s := by
  rw [← lookup_eq_none_iff, lookup_booleans, Option.map_eq_none_iff]

/-- A word does not end with a quote and a word. -/
theorem not_endsWithWord_of_isWord {s : List CodePoint} (h : IsWord booleans s) :
    ¬ EndsWithWord booleans s := by
  have hquote : codePoint '"' ∉ s := by
    obtain ⟨entry, hentry, rfl⟩ := h
    simp only [booleans, List.mem_cons, List.not_mem_nil, or_false] at hentry
    rcases hentry with rfl | rfl <;> decide
  rintro ⟨entry, -, hsuffix⟩
  exact hquote (hsuffix.mem List.mem_cons_self)

def leafTextUnquoted (floats : Floats F) (a : Leaf F) : List Char :=
  leafText Leaf.string (Leaf.other floats) [] a.unquoted

theorem dumps_unquoted (data : Data F) :
    dumps floats (unquoted data) = layout writeString (leafTextUnquoted floats) data :=
  layout_mapAt data false

/-- A leaf that is cleaned is its text, or a shorter one where it ends with a quote and a word. -/
theorem leafText_booleans (a : Leaf F) :
    ((∀ s, a.string = some s → ¬ EndsWithWord booleans s) →
      leafText Leaf.string (Leaf.other floats) booleans a = leafTextUnquoted floats a) ∧
    ((∃ s, a.string = some s ∧ EndsWithWord booleans s) →
      (leafText Leaf.string (Leaf.other floats) booleans a).length <
        (leafTextUnquoted floats a).length) := by
  cases a with
  | float x => exact ⟨fun _ => rfl, fun ⟨s, h, _⟩ => by cases h⟩
  | scalar a =>
      cases a with
      | null => exact ⟨fun _ => rfl, fun ⟨s, h, _⟩ => by cases h⟩
      | bool b => exact ⟨fun _ => rfl, fun ⟨s, h, _⟩ => by cases h⟩
      | int n => exact ⟨fun _ => rfl, fun ⟨s, h, _⟩ => by cases h⟩
      | str s =>
          have hleaf : leafText Leaf.string (Leaf.other floats) booleans (.scalar (.str s)) =
              literal booleans s := rfl
          cases hboolean : booleanOf s with
          | some b =>
              have hword : IsWord booleans s := by
                by_contra hnot
                rw [booleanOf_eq_none_iff.2 hnot] at hboolean
                cases hboolean
              have hends := not_endsWithWord_of_isWord hword
              constructor
              · intro _
                rw [hleaf, literal, lookup_booleans, hboolean, leafTextUnquoted, Leaf.unquoted,
                  hboolean]
                rfl
              · rintro ⟨s', hs', hends'⟩
                cases hs'
                exact absurd hends' hends
          | none =>
              have hword := booleanOf_eq_none_iff.1 hboolean
              have htext : leafTextUnquoted floats (.scalar (.str s)) = writeString s := by
                rw [leafTextUnquoted, Leaf.unquoted, hboolean]
                exact literal_nil s
              rw [hleaf, htext]
              constructor
              · intro h
                exact literal_eq_writeString booleans_words booleans_shorter hword (h s rfl)
              · rintro ⟨s', hs', hends⟩
                cases hs'
                exact length_literal_of_ends booleans_words booleans_shorter hword hends

/-- No key is one of the words, and no string ends with a quote and one. -/
structure Cleanable (data : Data F) : Prop where
  keys : ∀ k ∈ data.keys, ¬ IsWord booleans k ∧ ¬ EndsWithWord booleans k
  strings : ∀ p ∈ data.leavesAt false, ∀ s, p.2.string = some s → ¬ EndsWithWord booleans s

theorem key_booleans (k : List CodePoint) :
    (¬ IsWord booleans k ∧ ¬ EndsWithWord booleans k → literal booleans k = writeString k) ∧
      (¬ (¬ IsWord booleans k ∧ ¬ EndsWithWord booleans k) →
        (literal booleans k).length < (writeString k).length) := by
  refine ⟨fun h => literal_eq_writeString booleans_words booleans_shorter h.1 h.2, fun h => ?_⟩
  by_cases hword : IsWord booleans k
  · rw [← literal_nil]
    exact length_literal_of_isWord booleans_words booleans_shorter hword
  · apply length_literal_of_ends booleans_words booleans_shorter hword
    by_contra hends
    exact h ⟨hword, hends⟩

/-- The replacements are the cleaning of each value, for these documents and no other. -/
theorem replaceWords_dumps_iff (data : Data F) :
    replaceWords booleans (dumps floats data) = dumps floats (unquoted data) ↔ Cleanable data := by
  rw [replaceWords_dumps, dumps_unquoted]
  constructor
  · intro heq
    obtain ⟨hkeys, hleaves⟩ := lengths_of_layout_eq
      (fun k _ => by
        by_cases h : ¬ IsWord booleans k ∧ ¬ EndsWithWord booleans k
        · rw [(key_booleans k).1 h]
        · exact ((key_booleans k).2 h).le)
      (fun p _ => by
        by_cases h : ∃ s, p.2.string = some s ∧ EndsWithWord booleans s
        · exact ((leafText_booleans p.2).2 h).le
        · push Not at h
          rw [(leafText_booleans p.2).1 h]) heq
    constructor
    · intro k hk
      by_contra h
      exact absurd (hkeys k hk) ((key_booleans k).2 h).ne
    · intro p hp s hs hends
      exact absurd (hleaves p hp) ((leafText_booleans p.2).2 ⟨s, hs, hends⟩).ne
  · intro h
    apply layout_congr
    exact ⟨fun k hk => (key_booleans k).1 (h.keys k hk),
      fun p hp => (leafText_booleans p.2).1 (h.strings p hp)⟩

end Texts

section Properties

variable {F : Type} {floats : Floats F} {data data' feature feature' : Data F}

theorem mapAt_eq_unquoted (b : Bool) (data : Data F) :
    Document.mapAt id (fun _ => Leaf.unquoted) id b data = unquoted data := by
  unfold unquoted
  cases data with
  | leaf a => rfl
  | arr items => rw [Document.mapAt_arr, Document.mapAt_arr]
  | obj members => rw [Document.mapAt_obj, Document.mapAt_obj]

theorem unquoted_arr (items : List (Data F)) :
    unquoted (.arr items) = .arr (items.map unquoted) := Document.mapAt_arr _ _ _ _ _

theorem unquoted_obj (members : List (List CodePoint × Data F)) :
    unquoted (.obj members) = .obj (members.map (fun m => (m.1, unquoted m.2))) := by
  have hmembers : members.map (fun m => (id m.1,
      Document.mapAt id (fun _ => Leaf.unquoted) id true m.2)) =
      members.map (fun m => (m.1, unquoted m.2)) :=
    List.map_congr_left fun m _ => congrArg (Prod.mk m.1) (mapAt_eq_unquoted true m.2)
  unfold unquoted
  rw [Document.mapAt_obj, id_eq]
  exact congrArg _ hmembers

/-- The values of members may be changed where they are. -/
theorem getItem_map {f : List CodePoint × Data F → List CodePoint × Data F}
    (hf : ∀ m, (f m).1 = m.1) (key : List CodePoint) (members : List (List CodePoint × Data F)) :
    getItem key (.obj (members.map f)) =
      match members.find? (fun m => m.1 = key) with
      | some m => .ok (f m).2
      | none => .error .keyError := by
  have hkey : (fun m => decide (m.1 = key)) ∘ f = fun m => decide (m.1 = key) := by
    funext m
    rw [Function.comp_apply, hf]
  rw [getItem, List.find?_map, hkey]
  cases members.find? (fun m => decide (m.1 = key)) <;> rfl

/-- What is found under a key is cleaned as the whole is. -/
theorem getItem_unquoted (key : List CodePoint) (data : Data F) :
    getItem key (unquoted data) = (getItem key data).map unquoted := by
  cases data with
  | leaf a => cases a <;> rfl
  | arr items =>
      rw [unquoted_arr]
      rfl
  | obj members =>
      rw [unquoted_obj, getItem_map (f := fun m => (m.1, unquoted m.2)) (fun _ => rfl), getItem]
      cases members.find? (fun m => decide (m.1 = key)) <;> rfl

theorem getItem_setItem {key : List CodePoint} {value : Data F} (h : getItem key data = .ok value)
    (key' : List CodePoint) (item : Data F) :
    getItem key (setItem key' item data) = .ok (if key = key' then item else value) := by
  cases data with
  | leaf a => cases h
  | arr items => cases h
  | obj members =>
      have hf : ∀ m : List CodePoint × Data F, (if m.1 = key' then (m.1, item) else m).1 = m.1 := by
        intro m
        split_ifs <;> rfl
      rw [getItem] at h
      rw [setItem, getItem_map hf]
      cases hfind : members.find? (fun m => decide (m.1 = key)) with
      | none =>
          rw [hfind] at h
          cases h
      | some m =>
          rw [hfind] at h
          have hkey : m.1 = key := by simpa using List.find?_some hfind
          have hvalue : m.2 = value := Except.ok.inj h
          simp only [hkey]
          split_ifs
          · rfl
          · rw [hvalue]

theorem getItem_setItem_error {key : List CodePoint} {e : PyError}
    (h : getItem key data = .error e) (key' : List CodePoint) (item : Data F) :
    getItem key (setItem key' item data) = .error e := by
  cases data with
  | leaf a => exact h
  | arr items => exact h
  | obj members =>
      have hf : ∀ m : List CodePoint × Data F, (if m.1 = key' then (m.1, item) else m).1 = m.1 := by
        intro m
        split_ifs <;> rfl
      rw [getItem] at h
      rw [setItem, getItem_map hf]
      cases hfind : members.find? (fun m => decide (m.1 = key)) with
      | none => rwa [hfind] at h
      | some m =>
          rw [hfind] at h
          cases h

/-- What is not set stays. -/
theorem getItem_setItem_of_ne {key key' : List CodePoint} (h : key ≠ key') (item data : Data F) :
    getItem key (setItem key' item data) = getItem key data := by
  cases hitem : getItem key data with
  | error e => exact getItem_setItem_error hitem key' item
  | ok value => rw [getItem_setItem hitem, if_neg h]

theorem properties_convertFeature (h : convertFeature floats feature = .ok feature') :
    getItem propertiesKey feature' = getItem propertiesKey feature := by
  unfold convertFeature at h
  obtain ⟨geometry, -, h⟩ := bind_eq_ok.1 h
  obtain ⟨coordinates, -, h⟩ := bind_eq_ok.1 h
  obtain ⟨values, -, h⟩ := bind_eq_ok.1 h
  obtain ⟨numbers, -, h⟩ := bind_eq_ok.1 h
  rw [← Except.ok.inj h]
  exact getItem_setItem_of_ne (by decide) _ _

/-- The properties of a feature, of the value under `features`. -/
def propertyOf (index : ℕ) (name : List CodePoint) : Data F → Option (Data F)
  | .arr items => ((items.map (getItem propertiesKey))[index]?).bind
      (fun properties => (properties >>= getItem name).toOption)
  | _ => none

theorem property_eq {features : Data F} (h : getItem featuresKey data = .ok features) (index : ℕ)
    (name : List CodePoint) : property index name data = propertyOf index name features := by
  rw [property, h]
  cases features with
  | leaf a => rfl
  | obj members => rfl
  | arr items =>
      rw [propertyOf, List.getElem?_map]
      cases hitem : items[index]? with
      | none => simp [Except.toOption, hitem]
      | some feature =>
          cases hproperties : getItem propertiesKey feature <;>
            simp [Except.toOption, hitem, hproperties, bind, Except.bind]

theorem propertyOf_convertFeatures {features features' : Data F}
    (h : convertFeatures floats features = .ok features') (index : ℕ) (name : List CodePoint) :
    propertyOf index name features' = propertyOf index name features := by
  cases features with
  | leaf a =>
      obtain ⟨values, -, h⟩ := bind_eq_ok.1 h
      obtain ⟨-, -, h⟩ := bind_eq_ok.1 h
      rw [← Except.ok.inj h]
  | obj members =>
      obtain ⟨values, -, h⟩ := bind_eq_ok.1 h
      obtain ⟨-, -, h⟩ := bind_eq_ok.1 h
      rw [← Except.ok.inj h]
  | arr items =>
      obtain ⟨items', hitems, h⟩ := bind_eq_ok.1 h
      have hproperties : items.map (getItem propertiesKey) = items'.map (getItem propertiesKey) :=
        map_eq_of_forall₂ (fun _ _ h => (properties_convertFeature h).symm)
          (forall₂_of_mapM hitems)
      rw [← Except.ok.inj h, propertyOf, propertyOf, hproperties]

/-- Coordinates are converted, and no property of a feature changes. -/
theorem property_convert (h : convert floats data = .ok data') (index : ℕ)
    (name : List CodePoint) : property index name data' = property index name data := by
  unfold convert at h
  obtain ⟨features, hfeatures, h⟩ := bind_eq_ok.1 h
  obtain ⟨features', hconvert, h⟩ := bind_eq_ok.1 h
  have hset := getItem_setItem hfeatures featuresKey features'
  rw [if_pos rfl, Except.ok.inj h] at hset
  rw [property_eq hset, property_eq hfeatures, propertyOf_convertFeatures hconvert]

theorem property_unquoted (index : ℕ) (name : List CodePoint) (data : Data F) :
    property index name (unquoted data) = (property index name data).map unquoted := by
  cases hfeatures : getItem featuresKey data with
  | error e =>
      rw [property, property, getItem_unquoted, hfeatures]
      rfl
  | ok features =>
      have hclean : getItem featuresKey (unquoted data) = .ok (unquoted features) := by
        rw [getItem_unquoted, hfeatures]
        rfl
      rw [property_eq hclean, property_eq hfeatures]
      cases features with
      | leaf a => rfl
      | obj members =>
          rw [unquoted_obj]
          rfl
      | arr items =>
          rw [unquoted_arr, propertyOf, propertyOf, List.map_map, List.getElem?_map,
            List.getElem?_map]
          cases items[index]? with
          | none => rfl
          | some feature =>
              rw [Option.map_some, Option.map_some, Function.comp_apply, getItem_unquoted]
              cases getItem propertiesKey feature with
              | error e => rfl
              | ok properties =>
                  change (getItem name (unquoted properties)).toOption =
                    (getItem name properties).toOption.map unquoted
                  rw [getItem_unquoted]
                  cases getItem name properties <;> rfl

end Properties

section Statement

variable {F : Type}

/-- What `geojson.loads` is given: the file with each string treated alone, which is the text of the
cleaned file exactly where that can be cleaned, and in it each property of a feature is cleaned. -/
structure Cleaned (floats : Floats F) (data : Data F) (text : List Char) (data' : Data F) :
    Prop where
  converted : convert floats data = .ok data'
  literals : text = layout (literal booleans)
    (leafText Leaf.string (Leaf.other floats) booleans) data'
  cleaned : text = dumps floats (unquoted data') ↔ Cleanable data'
  properties : ∀ index name,
    property index name (unquoted data') = (property index name data).map unquoted

theorem geojsonCleaner_cleans (floats : Floats F) (data : Data F) (text : List Char)
    (h : geojsonCleaner floats data = .ok text) : ∃ data', Cleaned floats data text data' := by
  obtain ⟨data', hconvert, htext⟩ := bind_eq_ok.1 h
  obtain rfl := Except.ok.inj htext
  refine ⟨data', hconvert, replaceWords_dumps data', replaceWords_dumps_iff data',
    fun index name => ?_⟩
  rw [property_unquoted, property_convert hconvert]

end Statement

section Sample

def textFloats : Floats {text : List Char // '"' ∉ text} where
  ofStr s :=
    let text := s.map (fun c => Char.ofNat c.val)
    if h : '"' ∉ text then some ⟨text, h⟩ else none
  ofInt _ := none
  repr := Subtype.val
  repr_plain := Subtype.property

def textValue (s : String) : Data {text : List Char // '"' ∉ text} := Data.str (codePoints s.toList)

def samplePoles : Data {text : List Char // '"' ∉ text} :=
  .obj [(featuresKey, .arr [.obj
    [(geometryKey, .obj [(coordinatesKey, .arr [textValue "-6.2", textValue "53.3"])]),
      (propertiesKey, .obj [(codePoints "Bin".toList, textValue "True"),
        (codePoints "Name".toList, textValue "a \"False\" pole")])]])]

def sampleText : List Char :=
  ("\x7b\"features\": [\x7b\"geometry\": \x7b\"coordinates\": [-6.2, 53.3]\x7d, " ++
    "\"properties\": \x7b\"Bin\": true, \"Name\": \"a \\\"False\\\" pole\"\x7d\x7d]\x7d").toList

theorem geojsonCleaner_samplePoles : geojsonCleaner textFloats samplePoles = .ok sampleText := by
  decide +kernel

theorem geojsonCleaner_cleans_sample :
    ∃ data', Cleaned textFloats samplePoles sampleText data' :=
  geojsonCleaner_cleans textFloats samplePoles sampleText geojsonCleaner_samplePoles

end Sample

end SimplyTransport.GeojsonCleaner
