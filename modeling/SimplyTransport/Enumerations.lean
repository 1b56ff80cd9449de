import Mathlib.Data.List.Nodup

/-!
# Enumerations with names

The members of an enumeration have names and values. A value of one enumeration is translated to a
value of another through the name of its member. Where each name of the one is a value of the other,
exactly the values of members are translated, and a member of the second whose name is its value
leads back to the member of the first.
-/

structure Enumeration (E V : Type) where
  members : List E
  name : E → String
  value : E → V
  complete : ∀ e, e ∈ members
  names_nodup : (members.map name).Nodup
  values_nodup : (members.map value).Nodup

namespace Enumeration

variable {E V A : Type}

def ofValue [DecidableEq V] (d : Enumeration E V) (v : V) : Option E :=
  d.members.find? (fun e => d.value e = v)

def ofName (d : Enumeration E V) (name : String) : Option E :=
  d.members.find? (fun e => d.name e = name)

/-- The member of `a` whose value is the name of the member of `d` with the value. -/
def translate [DecidableEq V] (d : Enumeration E V) (a : Enumeration A String) (v : V) : Option A :=
  (d.ofValue v).bind (fun e => a.ofValue (d.name e))

def back (d : Enumeration E V) (a : Enumeration A String) (x : A) : Option E := d.ofName (a.name x)

/-- Each name of `d` is a value of `a`, and a member of `a` is named by its value. -/
structure Names (d : Enumeration E V) (a : Enumeration A String) : Prop where
  values : ∀ name ∈ d.members.map d.name, name ∈ a.members.map a.value
  name : ∀ x, a.name x = a.value x

section Lookups

variable {d : Enumeration E V} {e : E} {v : V}

/-- The member that is found by what no two members share. -/
theorem find?_eq_some_iff {β : Type} [DecidableEq β] {f : E → β} {b : β}
    (hf : (d.members.map f).Nodup) : d.members.find? (fun e => f e = b) = some e ↔ f e = b := by
  constructor
  · intro h
    have hfound := List.find?_some h
    exact of_decide_eq_true hfound
  · rintro rfl
    cases hfind : d.members.find? (fun e' => f e' = f e) with
    | none => exact absurd (decide_eq_true rfl) (List.find?_eq_none.1 hfind e (d.complete e))
    | some e' =>
        have hfound := List.find?_some hfind
        rw [List.inj_on_of_nodup_map hf (d.complete e') (d.complete e) (of_decide_eq_true hfound)]

theorem ofValue_eq_some_iff [DecidableEq V] : d.ofValue v = some e ↔ d.value e = v :=
  find?_eq_some_iff d.values_nodup

theorem ofName_eq_some_iff {name : String} : d.ofName name = some e ↔ d.name e = name :=
  find?_eq_some_iff d.names_nodup

end Lookups

section Translation

variable [DecidableEq V] {d : Enumeration E V} {a : Enumeration A String} {x : A} {v : V}

theorem translate_eq_some_iff :
    d.translate a v = some x ↔ ∃ e, d.value e = v ∧ a.value x = d.name e := by
  rw [translate, Option.bind_eq_some_iff]
  simp only [ofValue_eq_some_iff]

/-- Exactly the values of members are translated. -/
theorem exists_translate_iff (h : d.Names a) :
    (∃ x, d.translate a v = some x) ↔ ∃ e, d.value e = v := by
  constructor
  · rintro ⟨x, hx⟩
    obtain ⟨e, he, -⟩ := translate_eq_some_iff.1 hx
    exact ⟨e, he⟩
  · rintro ⟨e, he⟩
    have hname := h.values (d.name e) (List.mem_map_of_mem (d.complete e))
    obtain ⟨x, -, hx⟩ := List.mem_map.1 hname
    exact ⟨x, translate_eq_some_iff.2 ⟨e, he, hx⟩⟩

/-- What a value is translated to leads back to its member. -/
theorem back_of_translate (h : d.Names a) (hx : d.translate a v = some x) :
    ∃ e, d.back a x = some e ∧ d.value e = v := by
  obtain ⟨e, he, hname⟩ := translate_eq_some_iff.1 hx
  refine ⟨e, ?_, he⟩
  rw [back, ofName_eq_some_iff, h.name, hname]

end Translation

end Enumeration
