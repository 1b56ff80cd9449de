import SimplyTransport.Transition
import Mathlib.Algebra.Ring.Parity
import Mathlib.Data.List.Forall2

/-!
# Sorting the tables of the statistics page

The statistics page loads its four parts as they are revealed, and their answers come in any order.
The script of each part adds a listener to the headers of all tables that are there, and each
listener sorts the other way than the table is sorted then. A click therefore runs as many sorts as
parts were loaded since the table came, its own among them: with an odd number it turns the order
round, with an even number no click makes an order ascending that was not.
-/

namespace SimplyTransport.TableSorting

open Transition

inductive Part
  | staticData
  | operatorData
  | stopFeaturesData
  | delaysData
  deriving DecidableEq

abbrev Row := List String

/-- A table; its headers have the same number of listeners. `sorted` is the column whose header has
`th-sort-asc` or `th-sort-desc`, and whether it is the first. -/
structure Table where
  part : Part
  rows : List Row
  listeners : ℕ
  sorted : Option (ℕ × Bool)
  deriving DecidableEq

structure Page where
  loaded : List Part
  tables : List Table
  deriving DecidableEq

inductive Event
  | load (part : Part)
  | click (table column : ℕ)
  deriving DecidableEq

def columns : ℕ := 3

section Model

-- the rows of the tables of a part, and what `rows.sort` makes of rows
variable (content : Part → List (List Row)) (sort : ℕ → Bool → List Row → List Row)

def sortTableByColumn (table : Table) (column : ℕ) (asc : Bool) : Table :=
  { table with rows := sort column asc table.rows, sorted := some (column, asc) }

def listener (column : ℕ) (table : Table) : Table :=
  let currentIsAscending := decide (table.sorted = some (column, true))
  sortTableByColumn sort table column (!currentIsAscending)

def fire (column : ℕ) : ℕ → Table → Table
  | 0, table => table
  | n + 1, table => fire column n (listener sort column table)

def Table.click (table : Table) (column : ℕ) : Table := fire sort column table.listeners table

/-- `document.querySelectorAll(".table-sortable th")`, by the script of a part. -/
def Table.attach (table : Table) : Table := { table with listeners := table.listeners + 1 }

def start : Page := ⟨[], []⟩

def next (s : Page) : Event → Option Page
  | .load part =>
      if part ∈ s.loaded then none
      else some {
        loaded := s.loaded ++ [part]
        tables := (s.tables ++ (content part).map (fun rows => (⟨part, rows, 0, none⟩ : Table))).map
          Table.attach }
  | .click i column =>
      match s.tables[i]? with
      | some table =>
          if column < columns then some { s with tables := s.tables.set i (table.click sort column) }
          else none
      | none => none

def sortedBy (sorts : List (ℕ × Bool)) (rows : List Row) : List Row :=
  sorts.foldl (fun rows s => sort s.1 s.2 rows) rows

/-- The rows of the table are what sorts made of the loaded ones, and its header shows the last of
these sorts, or none where there was none. -/
def SortedFrom (rows : List Row) (table : Table) : Prop :=
  ∃ sorts, table.rows = sortedBy sort sorts rows ∧ table.sorted = sorts.getLast?

/-- Clicks on headers of any tables, and no more parts, can bring the table to this order. -/
def CanSort (s : Page) (i column : ℕ) (asc : Bool) : Prop :=
  ∃ s', RunWhile (next content sort) (fun _ e => ∃ i column, e = .click i column) s s' ∧
    ∃ table, s'.tables[i]? = some table ∧ table.sorted = some (column, asc)

end Model

section Clicks

variable {content : Part → List (List Row)} {sort : ℕ → Bool → List Row → List Row}
variable {table : Table} {column : ℕ}

@[simp] theorem fire_part (n : ℕ) (table : Table) : (fire sort column n table).part = table.part := by
  induction n generalizing table with
  | zero => rfl
  | succ n ih => exact ih _

@[simp] theorem fire_listeners (n : ℕ) (table : Table) :
    (fire sort column n table).listeners = table.listeners := by
  induction n generalizing table with
  | zero => rfl
  | succ n ih => exact ih _

/-- An odd number of sorts turns the order round, an even number leaves it but for a first one. -/
theorem fire_sorted (n : ℕ) (table : Table) : (fire sort column (n + 1) table).sorted =
    some (column, if Even n then !decide (table.sorted = some (column, true))
      else decide (table.sorted = some (column, true))) := by
  induction n generalizing table with
  | zero => rfl
  | succ n ih =>
      change (fire sort column (n + 1) (listener sort column table)).sorted = _
      have hlistener : (listener sort column table).sorted =
          some (column, !decide (table.sorted = some (column, true))) := rfl
      rw [ih, hlistener]
      by_cases hsorted : table.sorted = some (column, true)
      · by_cases hn : Even n
        · simp [hsorted, hn, Nat.even_add_one]
        · simp [hsorted, hn, Nat.even_add_one]
      · by_cases hn : Even n
        · simp [hsorted, hn, Nat.even_add_one]
        · simp [hsorted, hn, Nat.even_add_one]

theorem click_sorted (h : 0 < table.listeners) : (table.click sort column).sorted =
    some (column, if Odd table.listeners then !decide (table.sorted = some (column, true))
      else decide (table.sorted = some (column, true))) := by
  obtain ⟨n, hn⟩ : ∃ n, table.listeners = n + 1 := ⟨table.listeners - 1, by omega⟩
  rw [Table.click, hn, fire_sorted]
  simp only [Nat.odd_add_one, Nat.not_odd_iff_even]

theorem SortedFrom.fire {rows : List Row} (n : ℕ) (h : SortedFrom sort rows table) :
    SortedFrom sort rows (fire sort column n table) := by
  induction n generalizing table with
  | zero => exact h
  | succ n ih =>
      obtain ⟨sorts, hrows, -⟩ := h
      refine ih ⟨sorts ++ [(column, !decide (table.sorted = some (column, true)))], ?_, ?_⟩
      · rw [sortedBy, List.foldl_append]
        change sort column _ table.rows = sort column _ (sortedBy sort sorts rows)
        rw [hrows]
      · rw [List.getLast?_concat]
        rfl

end Clicks

section Runs

variable {content : Part → List (List Row)} {sort : ℕ → Bool → List Row → List Row}
variable {s s' : Page} {table : Table} {i column : ℕ}

/-- A table has a listener of its part and of each part that was loaded later. -/
structure Attached (loaded : List Part) (table : Table) : Prop where
  mem : table.part ∈ loaded
  listeners : table.listeners + loaded.idxOf table.part = loaded.length

theorem Attached.pos (h : Attached s.loaded table) : 0 < table.listeners := by
  have hlt := List.idxOf_lt_length_of_mem h.mem
  have hlisteners := h.listeners
  omega

theorem Attached.click (h : Attached s.loaded table) (column : ℕ) :
    Attached s.loaded (table.click sort column) where
  mem := by
    rw [Table.click, fire_part]
    exact h.mem
  listeners := by
    rw [Table.click, fire_part, fire_listeners]
    exact h.listeners

theorem next_click (h : next content sort s (.click i column) = some s') :
    ∃ table, s.tables[i]? = some table ∧ column < columns ∧
      s' = { s with tables := s.tables.set i (table.click sort column) } := by
  simp only [next] at h
  split at h
  · rename_i table htable
    split at h
    · rename_i hcolumn
      exact ⟨table, htable, hcolumn, (Option.some.inj h).symm⟩
    · cases h
  · cases h

theorem next_load {part : Part} (h : next content sort s (.load part) = some s') :
    part ∉ s.loaded ∧ s' = {
      loaded := s.loaded ++ [part]
      tables := (s.tables ++ (content part).map (fun rows => (⟨part, rows, 0, none⟩ : Table))).map
        Table.attach } := by
  simp only [next] at h
  split at h
  · cases h
  · rename_i hnew
    exact ⟨hnew, (Option.some.inj h).symm⟩

theorem attached_step (hs : ∀ table ∈ s.tables, Attached s.loaded table) (e : Event)
    (h : next content sort s e = some s') : ∀ table ∈ s'.tables, Attached s'.loaded table := by
  cases e with
  | load part =>
      obtain ⟨hnew, rfl⟩ := next_load h
      intro table htable
      obtain ⟨before, hbefore, rfl⟩ := List.mem_map.1 htable
      rcases List.mem_append.1 hbefore with hold | hpart
      · obtain ⟨hmem, hlisteners⟩ := hs before hold
        refine ⟨List.mem_append_left _ hmem, ?_⟩
        change before.listeners + 1 + (s.loaded ++ [part]).idxOf before.part = _
        rw [List.idxOf_append_of_mem hmem, List.length_append, List.length_singleton]
        omega
      · obtain ⟨rows, -, rfl⟩ := List.mem_map.1 hpart
        refine ⟨List.mem_append_right _ (List.mem_singleton.2 rfl), ?_⟩
        change 0 + 1 + (s.loaded ++ [part]).idxOf part = _
        rw [List.idxOf_append_of_notMem hnew, List.idxOf_cons_self, List.length_append,
          List.length_singleton]
        omega
  | click i column =>
      obtain ⟨table, htable, -, rfl⟩ := next_click h
      intro other hother
      rcases List.mem_or_eq_of_mem_set hother with hmem | rfl
      · exact hs other hmem
      · exact (hs table (List.mem_of_getElem? htable)).click column

theorem attached_run (h : Run (next content sort) start s) :
    ∀ table ∈ s.tables, Attached s.loaded table :=
  h.invariant (fun _ ht => absurd ht List.not_mem_nil) (fun _ e _ hs he => attached_step hs e he)

def SortedTables (content : Part → List (List Row)) (sort : ℕ → Bool → List Row → List Row)
    (s : Page) : Prop :=
  List.Forall₂ (SortedFrom sort) (s.loaded.flatMap content) s.tables

theorem exists_of_forall₂_getElem? {α β : Type} {R : α → β → Prop} {l : List α} {l' : List β}
    (h : List.Forall₂ R l l') {i : ℕ} {b : β} (hb : l'[i]? = some b) :
    ∃ a, l[i]? = some a ∧ R a b := by
  induction h generalizing i with
  | nil => cases hb
  | cons hab _ ih =>
      cases i with
      | zero =>
          obtain rfl := Option.some.inj hb
          exact ⟨_, rfl, hab⟩
      | succ i => exact ih hb

theorem forall₂_set {α β : Type} {R : α → β → Prop} {l : List α} {l' : List β}
    (h : List.Forall₂ R l l') {i : ℕ} {b b' : β} (hb : l'[i]? = some b)
    (hstep : ∀ a, R a b → R a b') : List.Forall₂ R l (l'.set i b') := by
  induction h generalizing i with
  | nil => cases hb
  | cons hab htail ih =>
      cases i with
      | zero =>
          obtain rfl := Option.some.inj hb
          exact .cons (hstep _ hab) htail
      | succ i => exact .cons hab (ih hb)

theorem sortedTables_step (hs : SortedTables content sort s) (e : Event)
    (h : next content sort s e = some s') : SortedTables content sort s' := by
  cases e with
  | load part =>
      obtain ⟨-, rfl⟩ := next_load h
      rw [SortedTables, List.flatMap_append, List.flatMap_singleton, List.map_append]
      refine List.rel_append ?_ ?_
      · exact List.forall₂_map_right_iff.2 hs
      · rw [List.map_map, List.forall₂_map_right_iff, List.forall₂_same]
        exact fun rows _ => ⟨[], rfl, rfl⟩
  | click i column =>
      obtain ⟨table, htable, -, rfl⟩ := next_click h
      exact forall₂_set hs htable (fun rows hrows => hrows.fire _)

theorem sortedTables_run (h : Run (next content sort) start s) : SortedTables content sort s :=
  h.invariant (I := SortedTables content sort) .nil (fun _ e _ hs he => sortedTables_step hs e he)

theorem canSort_of_sorted {asc : Bool} (htable : s.tables[i]? = some table)
    (hsorted : table.sorted = some (column, asc)) : CanSort content sort s i column asc :=
  ⟨s, RunWhile.refl s, table, htable, hsorted⟩

/-- What the table can be brought to after a click, it can be brought to. -/
theorem canSort_of_click {asc : Bool} {clicked : ℕ} (htable : s.tables[i]? = some table)
    (hclicked : clicked < columns)
    (h : CanSort content sort { s with tables := s.tables.set i (table.click sort clicked) } i column
      asc) : CanSort content sort s i column asc := by
  obtain ⟨s', hrun, hend⟩ := h
  have hnext : next content sort s (.click i clicked) =
      some { s with tables := s.tables.set i (table.click sort clicked) } := by
    simp only [next]
    rw [htable]
    exact if_pos hclicked
  exact ⟨s', (RunWhile.tail (RunWhile.refl s) ⟨i, clicked, rfl⟩ hnext).trans hrun, hend⟩

variable (sort) in
theorem getElem?_click {tables : List Table} (htable : tables[i]? = some table) (clicked : ℕ) :
    (tables.set i (table.click sort clicked))[i]? = some (table.click sort clicked) := by
  obtain ⟨hlt, -⟩ := List.getElem?_eq_some_iff.1 htable
  exact List.getElem?_set_self hlt

@[simp] theorem click_listeners (clicked : ℕ) :
    (table.click sort clicked).listeners = table.listeners := fire_listeners _ _

/-- A click on another header, then one on this: with an odd number of sorts the order is ascending
then, with an even number descending. -/
theorem sorted_after_other (hpos : 0 < table.listeners) {other : ℕ} (hne : other ≠ column) :
    ((table.click sort other).click sort column).sorted =
      some (column, decide (Odd table.listeners)) := by
  have hfirst : (table.click sort other).sorted ≠ some (column, true) := by
    rw [click_sorted hpos]
    intro heq
    exact hne (Prod.mk.inj (Option.some.inj heq)).1
  rw [click_sorted (by rwa [click_listeners]), decide_eq_false hfirst, click_listeners]
  by_cases hodd : Odd table.listeners
  · rw [if_pos hodd, decide_eq_true hodd]
    rfl
  · rw [if_neg hodd, decide_eq_false hodd]

theorem exists_other_column (column : ℕ) : ∃ other < columns, other ≠ column := by
  by_cases hzero : column = 0
  · exact ⟨1, by decide, by omega⟩
  · exact ⟨0, by decide, by omega⟩

theorem canSort_parity (htable : s.tables[i]? = some table) (hpos : 0 < table.listeners)
    (hcolumn : column < columns) :
    CanSort content sort s i column (decide (Odd table.listeners)) := by
  obtain ⟨other, hother, hne⟩ := exists_other_column column
  have hsecond := getElem?_click sort htable other
  refine canSort_of_click htable hother (canSort_of_click hsecond hcolumn ?_)
  exact canSort_of_sorted (getElem?_click sort hsecond column) (sorted_after_other hpos hne)

theorem canSort_descending (htable : s.tables[i]? = some table) (hpos : 0 < table.listeners)
    (hcolumn : column < columns) : CanSort content sort s i column false := by
  by_cases hodd : Odd table.listeners
  · obtain ⟨other, hother, hne⟩ := exists_other_column column
    have hsorted : (((table.click sort other).click sort column).click sort column).sorted =
        some (column, false) := by
      rw [click_sorted (by rwa [click_listeners, click_listeners]), sorted_after_other hpos hne,
        click_listeners, click_listeners, if_pos hodd, decide_eq_true hodd, decide_eq_true rfl]
      rfl
    have hsecond := getElem?_click sort htable other
    have hthird := getElem?_click sort hsecond column
    refine canSort_of_click htable hother (canSort_of_click hsecond hcolumn
      (canSort_of_click hthird hcolumn ?_))
    exact canSort_of_sorted (getElem?_click sort hthird column) hsorted
  · have hparity : CanSort content sort s i column (decide (Odd table.listeners)) :=
      canSort_parity htable hpos hcolumn
    rwa [decide_eq_false hodd] at hparity

/-- With an even number of sorts no click makes an order ascending that was not. -/
theorem not_ascending_click (hpos : 0 < table.listeners) (heven : ¬ Odd table.listeners)
    (hsorted : table.sorted ≠ some (column, true)) (clicked : ℕ) :
    (table.click sort clicked).sorted ≠ some (column, true) := by
  rw [click_sorted hpos, if_neg heven]
  intro heq
  obtain ⟨rfl, htrue⟩ := Prod.mk.inj (Option.some.inj heq)
  exact hsorted (of_decide_eq_true htrue)

theorem not_canSort_ascending (htable : s.tables[i]? = some table) (hpos : 0 < table.listeners)
    (heven : ¬ Odd table.listeners) (hsorted : table.sorted ≠ some (column, true)) :
    ¬ CanSort content sort s i column true := by
  rintro ⟨s', hrun, table', htable', hascending⟩
  have hinv : ∃ t, s'.tables[i]? = some t ∧ 0 < t.listeners ∧ ¬ Odd t.listeners ∧
      t.sorted ≠ some (column, true) := by
    refine hrun.invariant (I := fun u => ∃ t, u.tables[i]? = some t ∧ 0 < t.listeners ∧
      ¬ Odd t.listeners ∧ t.sorted ≠ some (column, true)) ⟨table, htable, hpos, heven, hsorted⟩ ?_
    rintro u e u' ⟨t, ht, htpos, hteven, htsorted⟩ ⟨j, clicked, rfl⟩ hnext
    obtain ⟨other, hother, -, rfl⟩ := next_click hnext
    by_cases hij : j = i
    · subst hij
      obtain rfl := Option.some.inj (ht.symm.trans hother)
      refine ⟨t.click sort clicked, getElem?_click sort ht clicked, ?_, ?_, ?_⟩
      · rwa [click_listeners]
      · rwa [click_listeners]
      · exact not_ascending_click htpos hteven htsorted clicked
    · refine ⟨t, ?_, htpos, hteven, htsorted⟩
      change (u.tables.set j (other.click sort clicked))[i]? = some t
      rw [List.getElem?_set_ne hij, ht]
  obtain ⟨t, ht, -, -, htsorted⟩ := hinv
  obtain rfl := Option.some.inj (htable'.symm.trans ht)
  exact htsorted hascending

end Runs

/-- In whatever order the parts of the page are loaded and headers are clicked: a table has a listener
of its part and of each part loaded later, and its rows are what sorts made of the loaded ones, the
last of them as its header shows. Clicks on its headers can always make each column descending. They
can make it ascending exactly where it is already, or an even number of parts was loaded after the
table. -/
theorem statistics_tables_sort (content : Part → List (List Row))
    (sort : ℕ → Bool → List Row → List Row) (s : Page) (h : Run (next content sort) start s) (i : ℕ)
    (table : Table) (htable : s.tables[i]? = some table) :
    table.listeners + s.loaded.idxOf table.part = s.loaded.length ∧
      (∃ rows, (s.loaded.flatMap content)[i]? = some rows ∧ SortedFrom sort rows table) ∧
      ∀ column < columns, CanSort content sort s i column false ∧
        (CanSort content sort s i column true ↔
          table.sorted = some (column, true) ∨ Odd table.listeners) := by
  have hattached := attached_run h table (List.mem_of_getElem? htable)
  have hpos := hattached.pos
  refine ⟨hattached.listeners, exists_of_forall₂_getElem? (sortedTables_run h) htable,
    fun column hcolumn => ⟨canSort_descending htable hpos hcolumn, ?_, ?_⟩⟩
  · intro hcan
    by_contra hnot
    obtain ⟨hsorted, heven⟩ := not_or.1 hnot
    exact not_canSort_ascending htable hpos heven hsorted hcan
  · intro hcond
    rcases hcond with hsorted | hodd
    · exact canSort_of_sorted htable hsorted
    · have hparity : CanSort content sort s i column (decide (Odd table.listeners)) :=
        canSort_parity htable hpos hcolumn
      rwa [decide_eq_true hodd] at hparity

section Sample

def sampleContent : Part → List (List Row)
  | .operatorData => [[["Dublin Bus", "7", "70.0%"]], [["Go-Ahead Ireland", "3", "30.0%"]]]
  | _ => [[["Routes", "9", "69.2%"], ["Stops", "4", "30.8%"]]]

def sampleSort (_ : ℕ) (asc : Bool) (rows : List Row) : List Row :=
  if asc then rows else rows.reverse

def twoParts : Page where
  loaded := [.staticData, .operatorData]
  tables := [⟨.staticData, [["Stops", "4", "30.8%"], ["Routes", "9", "69.2%"]], 2,
      some (1, false)⟩,
    ⟨.operatorData, [["Dublin Bus", "7", "70.0%"]], 1, none⟩,
    ⟨.operatorData, [["Go-Ahead Ireland", "3", "30.0%"]], 1, none⟩]

theorem twoParts_exec : exec (next sampleContent sampleSort) start
    [.load .staticData, .load .operatorData, .click 0 1] = some twoParts := by decide

/-- The tables of the second part can be sorted either way, that of the first only from its last
row on, as it is now. -/
theorem statistics_tables_sort_sample :
    SortedFrom sampleSort [["Routes", "9", "69.2%"], ["Stops", "4", "30.8%"]]
        ⟨.staticData, [["Stops", "4", "30.8%"], ["Routes", "9", "69.2%"]], 2, some (1, false)⟩ ∧
      ¬ CanSort sampleContent sampleSort twoParts 0 1 true ∧
      CanSort sampleContent sampleSort twoParts 1 1 true := by
  have hrun := run_of_exec twoParts_exec
  obtain ⟨-, ⟨rows, hrows, hsorted⟩, hfirst⟩ :=
    statistics_tables_sort sampleContent sampleSort twoParts hrun 0 _ rfl
  obtain ⟨-, -, hsecond⟩ := statistics_tables_sort sampleContent sampleSort twoParts hrun 1 _ rfl
  obtain rfl := Option.some.inj hrows
  refine ⟨hsorted, ?_, ?_⟩
  · rw [(hfirst 1 (by decide)).2]
    decide
  · rw [(hsecond 1 (by decide)).2]
    decide

end Sample

end SimplyTransport.TableSorting
