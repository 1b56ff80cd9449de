import SimplyTransport.StableSort
import Mathlib.Data.List.Count
import Mathlib.Data.List.Sort
import Mathlib.Tactic.Common

/-!
# Pages of sorted rows

Each page is cut from an ordering of its own: the rows are sorted by a key, and rows of one key
come in any order. The pages together have every row once, whatever the orderings, exactly where
the rows of one key lie on one page.
-/

namespace Paging

variable {α κ : Type*} [LinearOrder κ]

def page (size i : ℕ) (l : List α) : List α := (l.drop (size * i)).take size

def pageCount (size n : ℕ) : ℕ := (n + size - 1) / size

structure SortedBy (key : α → κ) (rows order : List α) : Prop where
  perm : order.Perm rows
  sorted : order.Pairwise (fun a b => key a ≤ key b)

def below (key : α → κ) (rows : List α) (a : α) : ℕ := rows.countP (fun b => key b < key a)

def upTo (key : α → κ) (rows : List α) (a : α) : ℕ := rows.countP (fun b => key b ≤ key a)

/-- The rows of one key begin and end on one page. -/
def TiesShareAPage (key : α → κ) (rows : List α) (size : ℕ) : Prop :=
  ∀ a ∈ rows, below key rows a / size = (upTo key rows a - 1) / size

section Pages

variable {l : List α} {size : ℕ}

theorem mem_page (hsize : 0 < size) {i j : ℕ} {a : α} (hj : l[j]? = some a) (hi : j / size = i) :
    a ∈ page size i l := by
  have hle : size * i ≤ j := hi ▸ Nat.mul_div_le j size
  have hlt : j < size * i + size := by
    rw [← hi, ← Nat.mul_succ]
    exact Nat.lt_mul_div_succ j hsize
  refine List.mem_of_getElem? (i := j - size * i) ?_
  rw [page, List.getElem?_take_of_lt (by omega), List.getElem?_drop, Nat.add_sub_cancel' hle, hj]

/-- A page is what a function selects that tells the page of every position. -/
theorem page_eq_filter {f : α → ℕ} (hsize : 0 < size)
    (h : ∀ j (hj : j < l.length), f l[j] = j / size) (i : ℕ) :
    page size i l = l.filter (fun a => f a = i) := by
  have hsplit : l.take (size * i) ++ (page size i l ++ l.drop (size * i + size)) = l := by
    rw [page, ← List.drop_drop, List.take_append_drop, List.take_append_drop]
  have hbefore : (l.take (size * i)).filter (fun a => f a = i) = [] := by
    refine List.filter_eq_nil_iff.2 (fun a ha => ?_)
    obtain ⟨j, hj, rfl⟩ := List.mem_take_iff_getElem.1 ha
    rw [decide_eq_true_eq, h j (by omega)]
    exact (Nat.div_lt_of_lt_mul (by omega)).ne
  have hpage : (page size i l).filter (fun a => f a = i) = page size i l := by
    refine List.filter_eq_self.2 (fun a ha => ?_)
    obtain ⟨j, hj, rfl⟩ := List.mem_take_iff_getElem.1 ha
    rw [List.length_drop] at hj
    rw [decide_eq_true_eq, List.getElem_drop, h _ (by omega),
      Nat.mul_add_div hsize, Nat.div_eq_of_lt (by omega), Nat.add_zero]
  have hafter : (l.drop (size * i + size)).filter (fun a => f a = i) = [] := by
    refine List.filter_eq_nil_iff.2 (fun a ha => ?_)
    obtain ⟨j, hj, rfl⟩ := List.mem_drop_iff_getElem.1 ha
    have hle : i + 1 ≤ (size * i + size + j) / size :=
      (Nat.le_div_iff_mul_le hsize).2 (by rw [Nat.mul_comm, Nat.mul_succ]; omega)
    rw [decide_eq_true_eq, h _ (by omega)]
    omega
  calc page size i l = (page size i l).filter (fun a => f a = i) := hpage.symm
    _ = (l.take (size * i) ++ (page size i l ++ l.drop (size * i + size))).filter
          (fun a => f a = i) := by
        rw [List.filter_append, List.filter_append, hbefore, hafter, List.append_nil,
          List.nil_append]
    _ = l.filter (fun a => f a = i) := by rw [hsplit]

/-- The pages of one ordering are the ordering. -/
theorem flatMap_page (l : List α) (size n : ℕ) :
    (List.range n).flatMap (fun i => page size i l) = l.take (size * n) := by
  induction n with
  | zero => simp
  | succ n ih =>
      rw [List.range_succ, List.flatMap_append, ih, List.flatMap_singleton, page, Nat.mul_succ,
        List.take_add]

theorem length_le_pageCount (hsize : 0 < size) (n : ℕ) : n ≤ size * pageCount size n := by
  have h := Nat.lt_mul_div_succ (n + size - 1) hsize
  rw [Nat.mul_succ] at h
  unfold pageCount
  omega

theorem div_lt_pageCount (hsize : 0 < size) {j n : ℕ} (h : j < n) :
    j / size < pageCount size n := by
  rw [pageCount, Nat.lt_iff_add_one_le, Nat.le_div_iff_mul_le hsize, Nat.succ_mul]
  have hle := Nat.div_mul_le_self j size
  omega

theorem flatMap_page_eq (hsize : 0 < size) (l : List α) :
    (List.range (pageCount size l.length)).flatMap (fun i => page size i l) = l := by
  rw [flatMap_page, List.take_of_length_le (length_le_pageCount hsize l.length)]

end Pages

section Positions

variable {key : α → κ} {rows order : List α}

/-- In a list where a property only ever ends, it holds at the positions below its count. -/
theorem getElem_iff_lt_countP {p : α → Bool} {l : List α}
    (hl : l.Pairwise (fun a b => p b = true → p a = true)) (j : ℕ) (hj : j < l.length) :
    p l[j] = true ↔ j < l.countP p := by
  induction l generalizing j with
  | nil => cases hj
  | cons a l ih =>
      obtain ⟨hhead, htail⟩ := List.pairwise_cons.1 hl
      cases hp : p a with
      | true =>
          rw [List.countP_cons_of_pos hp]
          cases j with
          | zero => simp [hp]
          | succ j =>
              rw [List.getElem_cons_succ, ih htail j (Nat.lt_of_succ_lt_succ hj)]
              omega
      | false =>
          have hnone : ∀ b ∈ l, p b = false := fun b hb => by
            cases hb' : p b with
            | false => rfl
            | true => exact (hhead b hb hb').symm.trans hp
          have hcount : (a :: l).countP p = 0 := by
            rw [List.countP_eq_zero]
            intro b hb
            rcases List.mem_cons.1 hb with rfl | hb
            · simp [hp]
            · simp [hnone b hb]
          rw [hcount]
          refine ⟨fun h => ?_, nofun⟩
          rcases List.mem_cons.1 (List.getElem_mem hj) with heq | hmem
          · rw [heq, hp] at h
            cases h
          · rw [hnone _ hmem] at h
            cases h

theorem SortedBy.lt_below_iff (h : SortedBy key rows order) (a : α) (j : ℕ)
    (hj : j < order.length) : key order[j] < key a ↔ j < below key rows a := by
  rw [below, ← h.perm.countP_eq, ← getElem_iff_lt_countP (p := fun b => key b < key a) _ j hj,
    decide_eq_true_eq]
  refine h.sorted.imp (fun {b c} hbc hc => ?_)
  exact decide_eq_true (hbc.trans_lt (of_decide_eq_true hc))

theorem SortedBy.le_upTo_iff (h : SortedBy key rows order) (a : α) (j : ℕ)
    (hj : j < order.length) : key order[j] ≤ key a ↔ j < upTo key rows a := by
  rw [upTo, ← h.perm.countP_eq, ← getElem_iff_lt_countP (p := fun b => key b ≤ key a) _ j hj,
    decide_eq_true_eq]
  refine h.sorted.imp (fun {b c} hbc hc => ?_)
  exact decide_eq_true (hbc.trans (of_decide_eq_true hc))

/-- A row stands after those of smaller keys, with those of its key. -/
theorem SortedBy.position (h : SortedBy key rows order) (j : ℕ) (hj : j < order.length) :
    below key rows order[j] ≤ j ∧ j < upTo key rows order[j] :=
  ⟨not_lt.1 (fun hlt => lt_irrefl _ ((h.lt_below_iff order[j] j hj).2 hlt)),
    (h.le_upTo_iff order[j] j hj).1 le_rfl⟩

/-- Where ties share a page, the page of a row is that of its key. -/
theorem SortedBy.below_div (h : SortedBy key rows order) {size : ℕ}
    (hties : TiesShareAPage key rows size) (j : ℕ) (hj : j < order.length) :
    below key rows order[j] / size = j / size := by
  obtain ⟨hle, hlt⟩ := h.position j hj
  have hpage := hties order[j] (h.perm.mem_iff.1 (List.getElem_mem hj))
  have hlo : below key rows order[j] / size ≤ j / size := Nat.div_le_div_right hle
  have hhi : j / size ≤ (upTo key rows order[j] - 1) / size := Nat.div_le_div_right (by omega)
  omega

theorem exists_sortedBy (key : α → κ) (rows : List α) : ∃ order, SortedBy key rows order :=
  ⟨_, List.mergeSort_perm _ _, StableSort.sorted_mergeSort key rows⟩

end Positions

section Partition

variable {key : α → κ} {rows : List α} {size : ℕ}

/-- What a function selects value by value is what it selects below a bound. -/
theorem flatMap_filter_perm {f : α → ℕ} {orders : ℕ → List α}
    (horders : ∀ i, (orders i).Perm rows) (n : ℕ) :
    ((List.range n).flatMap (fun i => (orders i).filter (fun a => f a = i))).Perm
      (rows.filter (fun a => f a < n)) := by
  induction n with
  | zero => simp
  | succ n ih =>
      have hsplit := List.filter_append_perm (fun a => decide (f a < n))
        (rows.filter (fun a => f a < n + 1))
      have hlt : (rows.filter (fun a => f a < n + 1)).filter (fun a => f a < n) =
          rows.filter (fun a => f a < n) := by
        rw [List.filter_filter]
        refine List.filter_congr (fun a _ => ?_)
        rw [← Bool.decide_and, decide_eq_decide]
        omega
      have heq : (rows.filter (fun a => f a < n + 1)).filter (fun a => !decide (f a < n)) =
          rows.filter (fun a => f a = n) := by
        rw [List.filter_filter]
        refine List.filter_congr (fun a _ => ?_)
        rw [← decide_not, ← Bool.decide_and, decide_eq_decide]
        omega
      rw [hlt, heq] at hsplit
      rw [List.range_succ, List.flatMap_append, List.flatMap_singleton]
      exact (ih.append ((horders n).filter _)).trans hsplit

theorem pages_perm_of_ties (hsize : 0 < size) (hties : TiesShareAPage key rows size)
    {orders : ℕ → List α} (horders : ∀ i, SortedBy key rows (orders i)) :
    ((List.range (pageCount size rows.length)).flatMap
      (fun i => page size i (orders i))).Perm rows := by
  have hpages : ∀ i, page size i (orders i) =
      (orders i).filter (fun a => below key rows a / size = i) := fun i =>
    page_eq_filter hsize ((horders i).below_div hties) i
  have hall : rows.filter (fun a => below key rows a / size < pageCount size rows.length) =
      rows := by
    refine List.filter_eq_self.2 (fun a ha => decide_eq_true (div_lt_pageCount hsize ?_))
    exact List.countP_lt_length_iff.2 ⟨a, ha, decide_eq_false (lt_irrefl _)⟩
  simp only [hpages]
  have hperm := flatMap_filter_perm (f := fun a => below key rows a / size)
    (fun i => (horders i).perm) (pageCount size rows.length)
  rwa [hall] at hperm

/-- Two neighbours of one key can change places. -/
theorem SortedBy.swap {before after : List α} {a b : α}
    (h : SortedBy key rows (before ++ a :: b :: after)) (hkey : key a = key b) :
    SortedBy key rows (before ++ b :: a :: after) := by
  refine ⟨((List.Perm.swap a b after).append_left before).trans h.perm, ?_⟩
  have hsorted := h.sorted
  simp only [List.pairwise_append, List.pairwise_cons, List.mem_cons, forall_eq_or_imp] at hsorted ⊢
  obtain ⟨hbefore, ⟨⟨hab, ha⟩, hb, hafter⟩, hcross⟩ := hsorted
  exact ⟨hbefore, ⟨⟨hkey.ge, hb⟩, ha, hafter⟩,
    fun c hc => ⟨(hcross c hc).2.1, (hcross c hc).1, (hcross c hc).2.2⟩⟩

/-- Rows of one key on two pages: an ordering has two neighbours of that key at the end of a page
and at the beginning of the next. -/
theorem exists_neighbours (hsize : 0 < size) (hties : ¬ TiesShareAPage key rows size) :
    ∃ (before after : List α) (a b : α) (q : ℕ), before.length + 1 = size * (q + 1) ∧
      key a = key b ∧ SortedBy key rows (before ++ a :: b :: after) := by
  obtain ⟨order, horder⟩ := exists_sortedBy key rows
  unfold TiesShareAPage at hties
  push Not at hties
  obtain ⟨c, hc, hne⟩ := hties
  obtain ⟨j, hj, rfl⟩ := List.mem_iff_getElem.1 (horder.perm.mem_iff.2 hc)
  obtain ⟨hbelow, hupTo⟩ := horder.position j hj
  obtain ⟨q, hq⟩ : ∃ q, q = below key rows order[j] / size := ⟨_, rfl⟩
  have hlt : q < (upTo key rows order[j] - 1) / size := by
    have hle : below key rows order[j] / size ≤ (upTo key rows order[j] - 1) / size :=
      Nat.div_le_div_right (by omega)
    omega
  -- the first position of the page after that on which the key begins
  obtain ⟨p, hp⟩ : ∃ p, p + 1 = size * (q + 1) :=
    ⟨size * (q + 1) - 1, Nat.sub_add_cancel (Nat.mul_pos hsize (Nat.succ_pos q))⟩
  have hbelow' : below key rows order[j] ≤ p := by
    have h := Nat.lt_mul_div_succ (below key rows order[j]) hsize
    rw [← hq] at h
    omega
  have hupTo' : p + 1 < upTo key rows order[j] := by
    have h : (q + 1) * size ≤ upTo key rows order[j] - 1 := (Nat.le_div_iff_mul_le hsize).1 hlt
    rw [Nat.mul_comm] at h
    omega
  have hlength : p + 1 < order.length := by
    refine hupTo'.trans_le ?_
    rw [upTo, horder.perm.length_eq]
    exact List.countP_le_length
  have hkey : ∀ i (hi : i < order.length), p ≤ i → i ≤ p + 1 → key order[i] = key order[j] :=
    fun i hi hlo hhi => le_antisymm ((horder.le_upTo_iff order[j] i hi).2 (by omega))
      (not_lt.1 (fun h => by
        have hi' := (horder.lt_below_iff order[j] i hi).1 h
        omega))
  refine ⟨order.take p, order.drop (p + 2), order[p], order[p + 1], q, ?_, ?_, ?_⟩
  · rw [List.length_take_of_le (by omega), hp]
  · rw [hkey p (by omega) le_rfl (by omega), hkey (p + 1) hlength (by omega) le_rfl]
  · rw [List.getElem_cons_drop, List.getElem_cons_drop, List.take_append_drop]
    exact horder

/-- Rows that are alone on their page in every ordering leave no ties across pages. -/
theorem ties_of_pages_perm (hsize : 0 < size) (hrows : rows.Nodup)
    (h : ∀ orders : ℕ → List α, (∀ i, SortedBy key rows (orders i)) →
      ((List.range (pageCount size rows.length)).flatMap
        (fun i => page size i (orders i))).Perm rows) : TiesShareAPage key rows size := by
  by_contra hties
  obtain ⟨before, after, a, b, q, hlength, hkey, horder⟩ := exists_neighbours hsize hties
  -- the page after `q` sees the two neighbours in the other order, and so `a` again
  have hpages := h (fun i => if i = q then before ++ a :: b :: after
    else before ++ b :: a :: after) (fun i => by
      split_ifs
      · exact horder
      · exact horder.swap hkey)
  have hdisjoint := (List.nodup_flatMap.1 (hpages.nodup_iff.2 hrows)).2
  have hrow : before.length + 2 ≤ rows.length := by
    rw [← horder.perm.length_eq, List.length_append, List.length_cons, List.length_cons]
    omega
  have hq : before.length / size = q := by
    rw [Nat.div_eq_iff hsize]
    rw [Nat.mul_succ] at hlength
    rw [Nat.mul_comm]
    omega
  have hq' : (before.length + 1) / size = q + 1 := by
    rw [hlength, Nat.mul_div_cancel_left _ hsize]
  have hcount : q + 1 < pageCount size rows.length := hq' ▸ div_lt_pageCount hsize (by omega)
  have hdisj := List.pairwise_iff_getElem.1 hdisjoint q (q + 1)
    (by rw [List.length_range]; omega) (by rw [List.length_range]; exact hcount) (Nat.lt_succ_self q)
  rw [List.getElem_range, List.getElem_range] at hdisj
  refine @hdisj a ?_ ?_
  · beta_reduce
    rw [if_pos rfl]
    refine mem_page hsize ?_ hq
    rw [List.getElem?_append_right le_rfl, Nat.sub_self, List.getElem?_cons_zero]
  · beta_reduce
    rw [if_neg (Nat.succ_ne_self q)]
    refine mem_page hsize ?_ hq'
    rw [List.getElem?_append_right (Nat.le_add_right _ 1), Nat.add_sub_cancel_left,
      List.getElem?_cons_succ, List.getElem?_cons_zero]

end Partition

end Paging
