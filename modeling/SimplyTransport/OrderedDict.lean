import Mathlib.Data.List.Forall2
import Mathlib.Data.List.MinMax
import Mathlib.Data.List.Nodup
import Mathlib.Tactic.Common

/-!
# Dictionaries that keep the order of insertion

A key keeps the place of its first assignment; a later assignment replaces the value there. The
loops below build a dictionary from a list: with the last record of each key, with the first
newest record of each key, with the records of each key in their order, or with a value computed
for each key.
-/

structure OrderedDict (κ ν : Type*) where
  entries : List (κ × ν)
  nodup : (entries.map Prod.fst).Nodup

namespace OrderedDict

variable {κ ν α β : Type*} [DecidableEq κ]

def empty : OrderedDict κ ν := ⟨[], List.nodup_nil⟩

def get? (d : OrderedDict κ ν) (k : κ) : Option ν :=
  (d.entries.find? (fun e => e.1 = k)).map Prod.snd

def getD (d : OrderedDict κ ν) (k : κ) (v : ν) : ν := (d.get? k).getD v

def values (d : OrderedDict κ ν) : List ν := d.entries.map Prod.snd

def setEntries (k : κ) (v : ν) : List (κ × ν) → List (κ × ν)
  | [] => [(k, v)]
  | e :: es => if e.1 = k then (k, v) :: es else e :: setEntries k v es

theorem mem_keys_setEntries {k k' : κ} {v : ν} {es : List (κ × ν)}
    (h : k' ∈ (setEntries k v es).map Prod.fst) : k' = k ∨ k' ∈ es.map Prod.fst := by
  induction es with
  | nil => exact Or.inl (List.mem_singleton.1 h)
  | cons e es ih =>
      simp only [setEntries] at h
      split_ifs at h
      · rcases List.mem_cons.1 h with h | h
        · exact Or.inl h
        · exact Or.inr (List.mem_cons_of_mem _ h)
      · rcases List.mem_cons.1 h with h | h
        · rw [h]
          exact Or.inr List.mem_cons_self
        · exact (ih h).imp id (List.mem_cons_of_mem _)

theorem nodup_setEntries {es : List (κ × ν)} (h : (es.map Prod.fst).Nodup) (k : κ) (v : ν) :
    ((setEntries k v es).map Prod.fst).Nodup := by
  induction es with
  | nil => exact List.nodup_singleton k
  | cons e es ih =>
      rw [List.map_cons, List.nodup_cons] at h
      simp only [setEntries]
      split_ifs with he
      · rw [List.map_cons, List.nodup_cons, ← he]
        exact h
      · rw [List.map_cons, List.nodup_cons]
        refine ⟨fun hmem => ?_, ih h.2⟩
        rcases mem_keys_setEntries hmem with hk | hk
        · exact he hk
        · exact h.1 hk

theorem find?_setEntries (es : List (κ × ν)) (k k' : κ) (v : ν) :
    ((setEntries k v es).find? (fun e => e.1 = k')).map Prod.snd =
      if k' = k then some v else (es.find? (fun e => e.1 = k')).map Prod.snd := by
  induction es with
  | nil =>
      by_cases hk : k' = k
      · simp [setEntries, hk]
      · simp [setEntries, hk, Ne.symm hk]
  | cons e es ih =>
      simp only [setEntries]
      by_cases he : e.1 = k
      · rw [if_pos he, List.find?_cons, List.find?_cons, he]
        by_cases hk : k' = k
        · simp [hk]
        · simp [hk, Ne.symm hk]
      · rw [if_neg he, List.find?_cons, List.find?_cons]
        by_cases hek : e.1 = k'
        · have hk : k' ≠ k := fun hk => he (hek.trans hk)
          simp [hek, hk]
        · simp only [hek, decide_false]
          exact ih

def set (d : OrderedDict κ ν) (k : κ) (v : ν) : OrderedDict κ ν :=
  ⟨setEntries k v d.entries, nodup_setEntries d.nodup k v⟩

theorem get?_set (d : OrderedDict κ ν) (k k' : κ) (v : ν) :
    (d.set k v).get? k' = if k' = k then some v else d.get? k' :=
  find?_setEntries d.entries k k' v

theorem mem_entries_iff {d : OrderedDict κ ν} {k : κ} {v : ν} :
    (k, v) ∈ d.entries ↔ d.get? k = some v := by
  obtain ⟨es, hes⟩ := d
  simp only [get?]
  induction es with
  | nil => simp
  | cons e es ih =>
      rw [List.map_cons, List.nodup_cons] at hes
      rw [List.find?_cons, List.mem_cons]
      by_cases he : e.1 = k
      · have hnot : (k, v) ∉ es := by
          intro hmem
          apply hes.1
          rw [he]
          exact List.mem_map_of_mem (f := Prod.fst) hmem
        simp only [he, decide_true, Option.map_some, Option.some.injEq, hnot, or_false]
        constructor
        · rintro rfl; rfl
        · rintro rfl; rw [← he]
      · have hne : (k, v) ≠ e := by
          rintro rfl
          exact he rfl
        simp only [he, decide_false, hne, false_or]
        exact ih hes.2

theorem mem_values {d : OrderedDict κ ν} {v : ν} : v ∈ d.values ↔ ∃ k, d.get? k = some v := by
  simp only [values, List.mem_map, ← mem_entries_iff]
  constructor
  · rintro ⟨⟨k, w⟩, hmem, rfl⟩
    exact ⟨k, hmem⟩
  · rintro ⟨k, hmem⟩
    exact ⟨(k, v), hmem, rfl⟩

theorem length_setEntries (k : κ) (v : ν) (es : List (κ × ν)) :
    (setEntries k v es).length = if k ∈ es.map Prod.fst then es.length else es.length + 1 := by
  induction es with
  | nil => rfl
  | cons e es ih =>
      rw [setEntries, List.map_cons]
      by_cases he : e.1 = k
      · rw [if_pos he, if_pos (List.mem_cons.2 (Or.inl he.symm)), List.length_cons, List.length_cons]
      · have hmem : k ∈ e.1 :: es.map Prod.fst ↔ k ∈ es.map Prod.fst := by
          simp [Ne.symm he]
        rw [if_neg he, List.length_cons, ih]
        by_cases hk : k ∈ es.map Prod.fst
        · rw [if_pos hk, if_pos (hmem.2 hk), List.length_cons]
        · rw [if_neg hk, if_neg (fun h => hk (hmem.1 h)), List.length_cons]

theorem setEntries_of_notMem {k : κ} {es : List (κ × ν)} (h : k ∉ es.map Prod.fst) (v : ν) :
    setEntries k v es = es ++ [(k, v)] := by
  induction es with
  | nil => rfl
  | cons e es ih =>
      rw [List.map_cons, List.mem_cons, not_or] at h
      rw [setEntries, if_neg (Ne.symm h.1), ih h.2, List.cons_append]

theorem setEntries_map {ν' : Type*} (f : ν → ν') (k : κ) (v : ν) (es : List (κ × ν)) :
    setEntries k (f v) (es.map (fun e => (e.1, f e.2))) =
      (setEntries k v es).map (fun e => (e.1, f e.2)) := by
  induction es with
  | nil => rfl
  | cons e es ih =>
      rw [List.map_cons, setEntries, setEntries, ih]
      split_ifs
      · rfl
      · rfl

def ofEntries (es : List (κ × ν)) : OrderedDict κ ν :=
  es.foldl (fun d e => d.set e.1 e.2) empty

theorem entries_ofEntries_concat (es : List (κ × ν)) (e : κ × ν) :
    (ofEntries (es ++ [e])).entries = setEntries e.1 e.2 (ofEntries es).entries := by
  rw [ofEntries, List.foldl_append]
  rfl

theorem entries_ofEntries_of_nodup {es : List (κ × ν)} (h : (es.map Prod.fst).Nodup) :
    (ofEntries es).entries = es := by
  induction es using List.reverseRecOn with
  | nil => rfl
  | append_singleton es e ih =>
      rw [List.map_append, List.nodup_append] at h
      have hnew : e.1 ∉ es.map Prod.fst := fun hmem =>
        h.2.2 e.1 hmem e.1 (List.mem_singleton.2 rfl) rfl
      rw [entries_ofEntries_concat, ih h.1, setEntries_of_notMem hnew]

theorem length_ofEntries_le (es : List (κ × ν)) : (ofEntries es).entries.length ≤ es.length := by
  induction es using List.reverseRecOn with
  | nil => exact Nat.le_refl 0
  | append_singleton es e ih =>
      rw [entries_ofEntries_concat, length_setEntries, List.length_append, List.length_singleton]
      split_ifs
      · omega
      · omega

/-- A dictionary with as many entries as there are pairs has the pairs. -/
theorem entries_ofEntries_of_length {es : List (κ × ν)}
    (h : (ofEntries es).entries.length = es.length) : (ofEntries es).entries = es := by
  induction es using List.reverseRecOn with
  | nil => rfl
  | append_singleton es e ih =>
      have hle := length_ofEntries_le es
      rw [entries_ofEntries_concat] at h ⊢
      rw [length_setEntries, List.length_append, List.length_singleton] at h
      split_ifs at h with hmem
      · omega
      · rw [setEntries_of_notMem hmem, ih (by omega)]

theorem entries_ofEntries_map {ν' : Type*} (f : ν → ν') (es : List (κ × ν)) :
    (ofEntries (es.map (fun e => (e.1, f e.2)))).entries =
      (ofEntries es).entries.map (fun e => (e.1, f e.2)) := by
  induction es using List.reverseRecOn with
  | nil => rfl
  | append_singleton es e ih =>
      rw [List.map_append, List.map_singleton, entries_ofEntries_concat, entries_ofEntries_concat,
        ih]
      exact setEntries_map f e.1 e.2 _

/-- Each record under its key: the later of two records with one key stays. -/
def lastBy (key : α → κ) (l : List α) : OrderedDict κ α :=
  l.foldl (fun d a => d.set (key a) a) empty

/-- Each record under its key, unless the record there is at least as new. -/
def newestBy [LinearOrder β] (key : α → κ) (age : α → β) (l : List α) : OrderedDict κ α :=
  l.foldl (fun d a =>
    match d.get? (key a) with
    | none => d.set (key a) a
    | some b => if age b < age a then d.set (key a) a else d) empty

def groupBy (key : α → κ) (l : List α) : OrderedDict κ (List α) :=
  l.foldl (fun d a => d.set (key a) (d.getD (key a) [] ++ [a])) empty

def collect (key : α → κ) (f : α → Option ν) (l : List α) : OrderedDict κ ν :=
  l.foldl (fun d a =>
    match f a with
    | none => d
    | some v => d.set (key a) v) empty

theorem filter_concat_key (key : α → κ) (l : List α) (a : α) (k : κ) :
    (l ++ [a]).filter (fun b => key b = k) =
      if k = key a then l.filter (fun b => key b = k) ++ [a]
      else l.filter (fun b => key b = k) := by
  by_cases hk : k = key a
  · simp [List.filter_append, hk]
  · simp [List.filter_append, hk, Ne.symm hk]

theorem get?_lastBy (key : α → κ) (l : List α) (k : κ) :
    (lastBy key l).get? k = (l.filter (fun a => key a = k)).getLast? := by
  induction l using List.reverseRecOn with
  | nil => rfl
  | append_singleton l a ih =>
      rw [lastBy, List.foldl_concat, get?_set, filter_concat_key]
      split_ifs with hk
      · rw [List.getLast?_concat]
      · exact ih

theorem mem_lastBy_values {key : α → κ} {l : List α} {a : α} :
    a ∈ (lastBy key l).values ↔ (l.filter (fun b => key b = key a)).getLast? = some a := by
  rw [mem_values]
  constructor
  · rintro ⟨k, hk⟩
    rw [get?_lastBy] at hk
    have ha := List.mem_of_getLast? hk
    rw [List.mem_filter, decide_eq_true_eq] at ha
    rw [ha.2]
    exact hk
  · intro ha
    exact ⟨key a, by rw [get?_lastBy]; exact ha⟩

theorem getLast?_filter_eq_some {p : α → Bool} {l : List α} {a : α} :
    (l.filter p).getLast? = some a ↔ p a ∧ ∃ l₁ l₂, l = l₁ ++ a :: l₂ ∧ ∀ b ∈ l₂, ¬ p b := by
  rw [List.getLast?_eq_head?_reverse, ← List.filter_reverse, List.head?_filter,
    List.find?_eq_some_iff_append]
  refine and_congr_right (fun _ => ⟨?_, ?_⟩)
  · rintro ⟨as, bs, h, hnot⟩
    refine ⟨bs.reverse, as.reverse, ?_, fun b hb => ?_⟩
    · rw [List.reverse_eq_iff.1 h, List.reverse_append, List.reverse_cons, List.append_assoc,
        List.singleton_append]
    · simpa using hnot b (List.mem_reverse.1 hb)
  · rintro ⟨l₁, l₂, rfl, hnot⟩
    refine ⟨l₂.reverse, l₁.reverse, ?_, fun b hb => ?_⟩
    · rw [List.reverse_append, List.reverse_cons, List.append_assoc, List.singleton_append]
    · simpa using hnot b (List.mem_reverse.1 hb)

/-- The kept records are those that no record of their key follows. -/
theorem mem_lastBy_values_iff_append {key : α → κ} {l : List α} {a : α} :
    a ∈ (lastBy key l).values ↔ ∃ l₁ l₂, l = l₁ ++ a :: l₂ ∧ ∀ b ∈ l₂, key b ≠ key a := by
  rw [mem_lastBy_values, getLast?_filter_eq_some]
  simp only [decide_true, true_and, decide_eq_true_eq, ne_eq]

/-- The last record of some key of `l` is kept. -/
theorem exists_mem_lastBy_values (key : α → κ) {l : List α} {a : α} (ha : a ∈ l) :
    ∃ b ∈ (lastBy key l).values, key b = key a := by
  have hne : l.filter (fun b => key b = key a) ≠ [] :=
    List.ne_nil_of_mem (List.mem_filter.2 ⟨ha, decide_eq_true rfl⟩)
  obtain ⟨b, hb⟩ := Option.ne_none_iff_exists'.1 (mt List.getLast?_eq_none_iff.1 hne)
  have hkey := (List.mem_filter.1 (List.mem_of_getLast? hb)).2
  rw [decide_eq_true_eq] at hkey
  refine ⟨b, mem_lastBy_values.2 ?_, hkey⟩
  rw [hkey]
  exact hb

theorem mem_of_mem_lastBy_values {key : α → κ} {l : List α} {a : α}
    (h : a ∈ (lastBy key l).values) : a ∈ l :=
  List.mem_of_mem_filter (List.mem_of_getLast? (mem_lastBy_values.1 h))

theorem mem_map_lastBy_values {key : α → κ} {l : List α} {k : κ} :
    k ∈ (lastBy key l).values.map key ↔ k ∈ l.map key := by
  simp only [List.mem_map]
  constructor
  · rintro ⟨a, ha, rfl⟩
    exact ⟨a, mem_of_mem_lastBy_values ha, rfl⟩
  · rintro ⟨a, ha, rfl⟩
    exact exists_mem_lastBy_values key ha

theorem forall₂_setEntries {R : ν → ν → Prop} {es es' : List (κ × ν)}
    (h : List.Forall₂ (fun e e' => e.1 = e'.1 ∧ R e.2 e'.2) es es') (k : κ) {v v' : ν}
    (hv : R v v') :
    List.Forall₂ (fun e e' => e.1 = e'.1 ∧ R e.2 e'.2) (setEntries k v es)
      (setEntries k v' es') := by
  induction h with
  | nil => exact .cons ⟨rfl, hv⟩ .nil
  | @cons e e' es es' he hes ih =>
      simp only [setEntries, he.1]
      split_ifs
      · exact .cons ⟨rfl, hv⟩ hes
      · exact .cons he ih

/-- Records that correspond in turn and have the same keys leave corresponding records. -/
theorem forall₂_lastBy_values {R : α → α → Prop} {key : α → κ} {l l' : List α}
    (hkey : ∀ a a', R a a' → key a = key a') (h : List.Forall₂ R l l') :
    List.Forall₂ R (lastBy key l).values (lastBy key l').values := by
  have hentries : ∀ d d' : OrderedDict κ α,
      List.Forall₂ (fun e e' => e.1 = e'.1 ∧ R e.2 e'.2) d.entries d'.entries →
      List.Forall₂ (fun e e' => e.1 = e'.1 ∧ R e.2 e'.2)
        (l.foldl (fun d a => d.set (key a) a) d).entries
        (l'.foldl (fun d a => d.set (key a) a) d').entries := by
    induction h with
    | nil => exact fun _ _ hd => hd
    | @cons a a' _ _ ha _ ih =>
        intro d d' hd
        apply ih
        simp only [set, ← hkey a a' ha]
        exact forall₂_setEntries hd (key a) ha
  rw [values, values, List.forall₂_map_left_iff, List.forall₂_map_right_iff]
  exact (hentries empty empty .nil).imp (fun _ _ he => he.2)

theorem nodup_lastBy_values (key : α → κ) (l : List α) :
    ((lastBy key l).values.map key).Nodup := by
  have hkeys : (lastBy key l).values.map key = (lastBy key l).entries.map Prod.fst := by
    rw [values, List.map_map]
    apply List.map_congr_left
    rintro ⟨k, a⟩ hmem
    have hget := mem_entries_iff.1 hmem
    rw [get?_lastBy] at hget
    have hkey := (List.mem_filter.1 (List.mem_of_getLast? hget)).2
    exact of_decide_eq_true hkey
  rw [hkeys]
  exact (lastBy key l).nodup

theorem get?_newestBy [LinearOrder β] (key : α → κ) (age : α → β) (l : List α) (k : κ) :
    (newestBy key age l).get? k = (l.filter (fun a => key a = k)).argmax age := by
  induction l using List.reverseRecOn with
  | nil => rfl
  | append_singleton l a ih =>
      rw [filter_concat_key]
      by_cases hk : k = key a
      · rw [if_pos hk, List.argmax_concat, ← ih, newestBy, List.foldl_concat, ← newestBy, ← hk]
        cases hget : (newestBy key age l).get? k with
        | none => simp only [get?_set, if_pos]
        | some b =>
            simp only
            split_ifs
            · rw [get?_set, if_pos rfl]
            · exact hget
      · rw [if_neg hk, ← ih, newestBy, List.foldl_concat, ← newestBy]
        cases (newestBy key age l).get? (key a) with
        | none => rw [get?_set, if_neg hk]
        | some b =>
            simp only
            split_ifs
            · rw [get?_set, if_neg hk]
            · rfl

theorem getD_groupBy (key : α → κ) (l : List α) (k : κ) :
    (groupBy key l).getD k [] = l.filter (fun a => key a = k) := by
  induction l using List.reverseRecOn with
  | nil => rfl
  | append_singleton l a ih =>
      rw [groupBy, List.foldl_concat, ← groupBy, getD, get?_set, filter_concat_key]
      split_ifs with hk
      · rw [Option.getD_some, ← hk, ih]
      · exact ih

theorem mem_keys_groupBy {key : α → κ} {l : List α} {a : α} (ha : a ∈ l) :
    key a ∈ (groupBy key l).entries.map Prod.fst := by
  have hget : ((groupBy key l).get? (key a)).getD [] = l.filter (fun b => key b = key a) :=
    getD_groupBy key l (key a)
  cases hk : (groupBy key l).get? (key a) with
  | none =>
      have hmem : a ∈ l.filter (fun b => key b = key a) :=
        List.mem_filter.2 ⟨ha, decide_eq_true rfl⟩
      rw [hk, Option.getD_none] at hget
      rw [← hget] at hmem
      cases hmem
  | some group => exact List.mem_map_of_mem (f := Prod.fst) (mem_entries_iff.2 hk)

theorem eq_filter_of_mem_groupBy {key : α → κ} {l : List α} {e : κ × List α}
    (he : e ∈ (groupBy key l).entries) : e.2 = l.filter (fun a => key a = e.1) := by
  rw [← getD_groupBy, getD, mem_entries_iff.1 he, Option.getD_some]

theorem flatMap_filter_key_perm (key : α → κ) (l : List α) {keys : List κ} (h : keys.Nodup) :
    (keys.flatMap (fun k => l.filter (fun a => key a = k))).Perm
      (l.filter (fun a => key a ∈ keys)) := by
  induction keys with
  | nil => simp
  | cons k keys ih =>
      rw [List.nodup_cons] at h
      have hsplit := List.filter_append_perm (fun a => decide (key a = k))
        (l.filter (fun a => key a ∈ k :: keys))
      have hhead : (l.filter (fun a => key a ∈ k :: keys)).filter (fun a => key a = k) =
          l.filter (fun a => key a = k) := by
        rw [List.filter_filter]
        refine List.filter_congr (fun a _ => ?_)
        by_cases hk : key a = k <;> simp [hk]
      have htail : (l.filter (fun a => key a ∈ k :: keys)).filter
          (fun a => !decide (key a = k)) = l.filter (fun a => key a ∈ keys) := by
        rw [List.filter_filter]
        refine List.filter_congr (fun a _ => ?_)
        by_cases hk : key a = k
        · simp [hk, h.1]
        · simp [hk]
      rw [hhead, htail] at hsplit
      rw [List.flatMap_cons]
      exact ((ih h.2).append_left _).trans hsplit

/-- The groups together have every element as often as the list. -/
theorem groupBy_perm (key : α → κ) (l : List α) :
    ((groupBy key l).entries.flatMap (fun e => e.2)).Perm l := by
  have hgroups : (groupBy key l).entries.flatMap (fun e => e.2) =
      ((groupBy key l).entries.map Prod.fst).flatMap
        (fun k => l.filter (fun a => key a = k)) := by
    rw [List.flatMap_map]
    exact List.flatMap_congr (fun e he => eq_filter_of_mem_groupBy he)
  have hall : l.filter (fun a => key a ∈ (groupBy key l).entries.map Prod.fst) = l :=
    List.filter_eq_self.2 (fun a ha => decide_eq_true (mem_keys_groupBy ha))
  rw [hgroups]
  exact (flatMap_filter_key_perm key l (groupBy key l).nodup).trans (List.Perm.of_eq hall)

/-- Elements with other keys do not matter to a key. -/
theorem get?_collect_filter {p : κ → Bool} {k : κ} (hk : p k = true) (key : α → κ)
    (f : α → Option ν) (l : List α) :
    (collect key f (l.filter (fun a => p (key a)))).get? k = (collect key f l).get? k := by
  induction l using List.reverseRecOn with
  | nil => rfl
  | append_singleton l a ih =>
      rw [collect, collect, List.foldl_concat, List.filter_append, List.foldl_append, ← collect,
        ← collect]
      by_cases hp : p (key a) = true
      · have hone : [a].filter (fun a => p (key a)) = [a] := List.filter_cons_of_pos hp
        rw [hone, List.foldl_cons, List.foldl_nil]
        cases f a with
        | none => exact ih
        | some v => rw [get?_set, get?_set, ih]
      · have hne : k ≠ key a := fun h => hp (h ▸ hk)
        have hnone : [a].filter (fun a => p (key a)) = [] := List.filter_cons_of_neg hp
        rw [hnone, List.foldl_nil, ih]
        cases f a with
        | none => rfl
        | some v => rw [get?_set, if_neg hne]

/-- When the value of an element depends on its key only, so does the dictionary. -/
theorem get?_collect {key : α → κ} {f : α → Option ν} {g : κ → Option ν} {l : List α}
    (hf : ∀ a ∈ l, f a = g (key a)) (k : κ) (v : ν) :
    (collect key f l).get? k = some v ↔ (∃ a ∈ l, key a = k) ∧ g k = some v := by
  induction l using List.reverseRecOn with
  | nil => simp [collect, empty, get?]
  | append_singleton l a ih =>
      have ih := ih (fun b hb => hf b (List.mem_append_left _ hb))
      have ha := hf a (List.mem_append_right _ List.mem_cons_self)
      have hmem : (∃ b ∈ l ++ [a], key b = k) ↔ (∃ b ∈ l, key b = k) ∨ key a = k := by
        simp only [List.mem_append, List.mem_singleton, or_and_right, exists_or, exists_eq_left]
      rw [collect, List.foldl_concat, ← collect, hmem]
      by_cases hk : key a = k
      · subst hk
        simp only [or_true, true_and, ← ha]
        cases hfa : f a with
        | none => simp [hfa, ih, ← ha]
        | some w => simp only [get?_set, if_pos]
      · simp only [hk, or_false, ← ih]
        cases f a with
        | none => rfl
        | some w => rw [get?_set, if_neg (Ne.symm hk)]

theorem collect_concat (key : α → κ) (f : α → Option ν) (l : List α) {a : α} {v : ν}
    (hf : f a = some v) : collect key f (l ++ [a]) = (collect key f l).set (key a) v := by
  rw [collect, List.foldl_concat, hf, collect]

/-- Keys that come once have the value of their element. -/
theorem get?_collect_of_nodup {key : α → κ} {f : α → Option ν} {l : List α}
    (h : (l.map key).Nodup) (k : κ) (v : ν) :
    (collect key f l).get? k = some v ↔ ∃ a ∈ l, key a = k ∧ f a = some v := by
  have hf : ∀ a ∈ l, f a = (l.find? (fun b => key b = key a)).bind f := fun a ha => by
    cases hfind : l.find? (fun b => key b = key a) with
    | none => exact absurd (decide_eq_true rfl) (List.find?_eq_none.1 hfind a ha)
    | some b =>
        have hkey := List.find?_some hfind
        rw [decide_eq_true_eq] at hkey
        rw [List.inj_on_of_nodup_map h (List.mem_of_find?_eq_some hfind) ha hkey, Option.bind_some]
  rw [get?_collect (g := fun k => (l.find? (fun b => key b = k)).bind f) hf]
  constructor
  · rintro ⟨⟨a, ha, rfl⟩, hv⟩
    exact ⟨a, ha, rfl, (hf a ha).trans hv⟩
  · rintro ⟨a, ha, rfl, hv⟩
    exact ⟨⟨a, ha, rfl⟩, (hf a ha).symm.trans hv⟩

end OrderedDict
