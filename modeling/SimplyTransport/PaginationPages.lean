import SimplyTransport.BinaryRounding
import SimplyTransport.DateTime
import SimplyTransport.SearchPages
import Mathlib.Data.List.Dedup

/-!
# The strip of page numbers under a search

Of more than five pages the strip has the first, the last and the current one with its neighbours,
and at either end it is filled up to five. The handlers of the search divide the total by the page
size as floating-point numbers, so from some total on the last page that is listed can be empty.
-/

namespace SimplyTransport

section Strip

def sortedSet (pages : List ℤ) : List ℤ := pages.dedup.mergeSort

/-- The first page, the last page, the current page and its neighbours, within the range. -/
def intermediatePages (currentPage totalPages : ℤ) : List ℤ :=
  (sortedSet [1, currentPage - 1, currentPage, currentPage + 1, totalPages]).filter
    (fun page => 1 ≤ page ∧ page ≤ totalPages)

/-- At the first and the last page, two more pages towards the middle. -/
def extendAtEnd (currentPage totalPages : ℤ) (pages : List ℤ) : List ℤ :=
  if pages.length < 4 then
    if currentPage = 1 then pages ++ [currentPage + 2, currentPage + 3]
    else if currentPage = totalPages then pages ++ [currentPage - 2, currentPage - 3]
    else pages
  else pages

/-- At the second page and the last but one, another page towards the middle. -/
def extendNearEnd (currentPage totalPages : ℤ) (pages : List ℤ) : List ℤ :=
  if pages.length < 5 then
    if currentPage = 2 then pages ++ [currentPage + 2]
    else if currentPage = totalPages - 1 then pages ++ [currentPage - 2]
    else pages
  else pages

def generatePaginationPages (currentPage totalPages : ℤ) : List ℤ :=
  if totalPages ≤ 5 then (List.range totalPages.toNat).map (fun i : ℕ => (i : ℤ) + 1)
  else
    sortedSet (extendNearEnd currentPage totalPages
      (extendAtEnd currentPage totalPages (intermediatePages currentPage totalPages)))

end Strip

section Handler

/-- `n / d`, the quotient rounded to a double; `d` is not zero. -/
def trueDivide (n d : ℕ) : Except PyError ℚ :=
  let q := BinaryRounding.round 53 (-1074) (n / d)
  if 2 ^ 1024 ≤ q then .error .overflowError else .ok q

structure SearchContext (α : Type) where
  rows : List α
  total : ℕ
  search : String
  limit : ℕ
  currentPage : ℤ
  totalPages : ℤ
  pages : List ℤ

def searchContext {α : Type} (listed : Except NotFoundError (List α × ℕ)) (search : String)
    (limitOffset : LimitOffset) : Except PyError (SearchContext α) := do
  let (rows, total) := match listed with
    | .ok found => found
    | .error _ => ([], 0)
  let currentPage := (limitOffset.offset / limitOffset.limit : ℕ) + 1
  let quotient ← trueDivide total limitOffset.limit
  return {
    rows
    total
    search
    limit := limitOffset.limit
    currentPage
    totalPages := ⌈quotient⌉
    pages := generatePaginationPages currentPage ⌈quotient⌉ }

/-- The rows that match: none where the list function raises. -/
def listedTotal {α : Type} : Except NotFoundError (List α × ℕ) → ℕ
  | .ok found => found.2
  | .error _ => 0

end Handler

section Pages

variable {currentPage totalPages : ℤ} {pages pages' : List ℤ}

theorem mem_sortedSet {p : ℤ} : p ∈ sortedSet pages ↔ p ∈ pages := by
  rw [sortedSet, List.mem_mergeSort, List.mem_dedup]

theorem pairwise_sortedSet (pages : List ℤ) : (sortedSet pages).Pairwise (· < ·) := by
  have hsorted : (sortedSet pages).Pairwise (· ≤ ·) := StableSort.sorted_mergeSort id pages.dedup
  have hnodup : (sortedSet pages).Nodup :=
    (List.mergeSort_perm pages.dedup _).nodup_iff.2 (List.nodup_dedup pages)
  exact (hsorted.and hnodup).imp (fun h => lt_of_le_of_ne h.1 h.2)

/-- Increasing lists of the same pages are equal. -/
theorem eq_of_mem_iff (h : pages.Pairwise (· < ·)) (h' : pages'.Pairwise (· < ·))
    (hmem : ∀ p, p ∈ pages ↔ p ∈ pages') : pages = pages' := by
  have hperm : pages.Perm pages' :=
    (List.perm_ext_iff_of_nodup (h.imp ne_of_lt) (h'.imp ne_of_lt)).2 hmem
  exact hperm.eq_of_pairwise (fun a b _ _ hab hba => absurd hab hba.asymm) h h'

theorem sortedSet_eq (h' : pages'.Pairwise (· < ·)) (hmem : ∀ p, p ∈ pages ↔ p ∈ pages') :
    sortedSet pages = pages' :=
  eq_of_mem_iff (pairwise_sortedSet pages) h' (fun p => mem_sortedSet.trans (hmem p))

theorem mem_intermediatePages {p : ℤ} : p ∈ intermediatePages currentPage totalPages ↔
    (p = 1 ∨ p = currentPage - 1 ∨ p = currentPage ∨ p = currentPage + 1 ∨ p = totalPages) ∧
      1 ≤ p ∧ p ≤ totalPages := by
  simp only [intermediatePages, List.mem_filter, mem_sortedSet, List.mem_cons, List.not_mem_nil,
    or_false, decide_eq_true_eq]

theorem intermediatePages_eq (h' : pages'.Pairwise (· < ·))
    (hmem : ∀ p, p ∈ pages' ↔
      (p = 1 ∨ p = currentPage - 1 ∨ p = currentPage ∨ p = currentPage + 1 ∨ p = totalPages) ∧
        1 ≤ p ∧ p ≤ totalPages) : intermediatePages currentPage totalPages = pages' :=
  eq_of_mem_iff ((pairwise_sortedSet _).filter _) h'
    (fun p => mem_intermediatePages.trans (hmem p).symm)

theorem generatePaginationPages_few (h : totalPages ≤ 5) :
    generatePaginationPages currentPage totalPages =
      (List.range totalPages.toNat).map (fun i : ℕ => (i : ℤ) + 1) :=
  if_pos h

theorem generatePaginationPages_many (h : 5 < totalPages)
    (hpages : intermediatePages currentPage totalPages = pages) :
    generatePaginationPages currentPage totalPages =
      sortedSet (extendNearEnd currentPage totalPages
        (extendAtEnd currentPage totalPages pages)) := by
  rw [generatePaginationPages, if_neg (not_le.2 h), hpages]

/-- The strip around a page of more than five: that page moved to the third from either end. -/
def stripAround (currentPage totalPages : ℤ) : List ℤ :=
  let middle := max 3 (min currentPage (totalPages - 2))
  [1, middle - 1, middle, middle + 1, totalPages]

theorem generatePaginationPages_strip (h : 5 < totalPages)
    (hpages : intermediatePages currentPage totalPages = pages)
    (hmem : ∀ p, p ∈ extendNearEnd currentPage totalPages
      (extendAtEnd currentPage totalPages pages) ↔ p ∈ stripAround currentPage totalPages) :
    generatePaginationPages currentPage totalPages = stripAround currentPage totalPages := by
  have hincreasing : (stripAround currentPage totalPages).Pairwise (· < ·) := by
    simp [stripAround]
    omega
  rw [generatePaginationPages_many h hpages]
  exact sortedSet_eq hincreasing hmem

theorem generatePaginationPages_eq (h : 5 < totalPages) (hfirst : 1 ≤ currentPage)
    (hlast : currentPage ≤ totalPages) :
    generatePaginationPages currentPage totalPages = stripAround currentPage totalPages := by
  -- the pages are filled up at either end only, so that the current page decides the branches
  by_cases h1 : currentPage = 1
  · subst h1
    have hpages : intermediatePages 1 totalPages = [1, 2, totalPages] :=
      intermediatePages_eq (by simp; omega) (fun p => by simp; omega)
    exact generatePaginationPages_strip h hpages
      (fun p => by simp [stripAround, extendAtEnd, extendNearEnd]; omega)
  by_cases h2 : currentPage = 2
  · subst h2
    have hpages : intermediatePages 2 totalPages = [1, 2, 3, totalPages] :=
      intermediatePages_eq (by simp; omega) (fun p => by simp; omega)
    exact generatePaginationPages_strip h hpages
      (fun p => by simp [stripAround, extendAtEnd, extendNearEnd]; omega)
  by_cases h3 : currentPage = totalPages
  · subst h3
    have hpages : intermediatePages currentPage currentPage =
        [1, currentPage - 1, currentPage] :=
      intermediatePages_eq (by simp; omega) (fun p => by simp; omega)
    exact generatePaginationPages_strip h hpages
      (fun p => by simp [stripAround, extendAtEnd, extendNearEnd, h1]; omega)
  by_cases h4 : currentPage = totalPages - 1
  · subst h4
    have hpages : intermediatePages (totalPages - 1) totalPages =
        [1, totalPages - 2, totalPages - 1, totalPages] :=
      intermediatePages_eq (by simp; omega) (fun p => by simp; omega)
    exact generatePaginationPages_strip h hpages
      (fun p => by simp [stripAround, extendAtEnd, extendNearEnd, h2]; omega)
  · have hpages : intermediatePages currentPage totalPages =
        [1, currentPage - 1, currentPage, currentPage + 1, totalPages] :=
      intermediatePages_eq (by simp; omega) (fun p => by simp; omega)
    exact generatePaginationPages_strip h hpages
      (fun p => by simp [stripAround, extendAtEnd, extendNearEnd]; omega)

/-- Past the last page there are the first and the last one. -/
theorem generatePaginationPages_past (h : 5 < totalPages) (hpast : totalPages < currentPage) :
    generatePaginationPages currentPage totalPages = [1, totalPages] := by
  have hpages : intermediatePages currentPage totalPages = [1, totalPages] :=
    intermediatePages_eq (by simp; omega) (fun p => by simp; omega)
  have hne1 : currentPage ≠ 1 := by omega
  have hne2 : currentPage ≠ 2 := by omega
  have hne3 : currentPage ≠ totalPages := by omega
  have hne4 : currentPage ≠ totalPages - 1 := by omega
  rw [generatePaginationPages_many h hpages]
  exact sortedSet_eq (by simp; omega)
    (fun p => by simp [extendAtEnd, extendNearEnd, hne1, hne2, hne3, hne4])

structure StripInRange (totalPages : ℤ) (pages : List ℤ) : Prop where
  increasing : pages.Pairwise (· < ·)
  within : ∀ p ∈ pages, 1 ≤ p ∧ p ≤ totalPages

structure StripComplete (currentPage totalPages : ℤ) (pages : List ℤ) : Prop where
  length : (pages.length : ℤ) = min 5 totalPages
  first : 1 ∈ pages
  last : totalPages ∈ pages
  current : currentPage ∈ pages
  before : 1 ≤ currentPage - 1 → currentPage - 1 ∈ pages
  after : currentPage + 1 ≤ totalPages → currentPage + 1 ∈ pages

theorem mem_range_map {p : ℤ} :
    p ∈ (List.range totalPages.toNat).map (fun i : ℕ => (i : ℤ) + 1) ↔ 1 ≤ p ∧ p ≤ totalPages := by
  simp only [List.mem_map, List.mem_range]
  constructor
  · rintro ⟨i, hi, rfl⟩
    omega
  · rintro ⟨hlow, hhigh⟩
    exact ⟨(p - 1).toNat, by omega, by omega⟩

theorem stripInRange (h : 1 ≤ currentPage) :
    StripInRange totalPages (generatePaginationPages currentPage totalPages) := by
  by_cases hfew : totalPages ≤ 5
  · rw [generatePaginationPages_few hfew]
    refine ⟨?_, fun p hp => mem_range_map.1 hp⟩
    rw [List.pairwise_map]
    exact List.pairwise_lt_range.imp (fun hij => by omega)
  · have hmany : 5 < totalPages := not_le.1 hfew
    by_cases hlast : currentPage ≤ totalPages
    · rw [generatePaginationPages_eq hmany h hlast]
      constructor
      · simp [stripAround]
        omega
      · intro p hp
        simp [stripAround] at hp
        omega
    · rw [generatePaginationPages_past hmany (not_le.1 hlast)]
      constructor
      · simp
        omega
      · intro p hp
        simp at hp
        omega

theorem stripComplete (h : 1 ≤ currentPage) (hlast : currentPage ≤ totalPages) :
    StripComplete currentPage totalPages (generatePaginationPages currentPage totalPages) := by
  by_cases hfew : totalPages ≤ 5
  · rw [generatePaginationPages_few hfew]
    constructor
    · rw [List.length_map, List.length_range]
      omega
    all_goals
      simp only [mem_range_map]
      omega
  · have hmany : 5 < totalPages := not_le.1 hfew
    rw [generatePaginationPages_eq hmany h hlast]
    constructor
    · simp only [stripAround, List.length_cons, List.length_nil]
      omega
    all_goals
      simp only [stripAround, List.mem_cons, List.not_mem_nil, or_false]
      grind

end Pages

section Totals

variable {n d : ℕ}

theorem trueDivide_zero (d : ℕ) : trueDivide 0 d = .ok 0 := by
  have hround : BinaryRounding.round 53 (-1074) 0 = 0 := by
    rw [BinaryRounding.round, zero_div]
    exact mul_eq_zero_of_left (by exact_mod_cast BinaryRounding.roundHalfEven_intCast 0) _
  simp only [trueDivide, Nat.cast_zero, zero_div, hround]
  exact if_neg (by norm_num)

/-- Up to `2 ^ 53` the quotient is not rounded past the next whole number. -/
theorem trueDivide_le (hd : 0 < d) (hn : n ≤ 2 ^ 53) :
    ∃ q, trueDivide n d = .ok q ∧ ⌈q⌉ ≤ ⌈(n / d : ℚ)⌉ := by
  rcases n.eq_zero_or_pos with rfl | hpos
  · refine ⟨0, trueDivide_zero d, ?_⟩
    rw [Nat.cast_zero, zero_div]
  · have hd' : (1 : ℚ) ≤ d := by exact_mod_cast hd
    have hx : (0 : ℚ) < n / d := div_pos (by exact_mod_cast hpos) (by linarith)
    have hbound : ⌈(n / d : ℚ)⌉ ≤ (2 ^ 53 : ℤ) := by
      rw [Int.ceil_le]
      exact (div_le_self n.cast_nonneg hd').trans (by exact_mod_cast hn)
    have hround : BinaryRounding.round 53 (-1074) (n / d) ≤ ⌈(n / d : ℚ)⌉ :=
      BinaryRounding.round_le hx (Int.le_ceil _) (by exact_mod_cast hbound) (by norm_num)
        (by norm_num)
    refine ⟨_, if_neg (not_le.2 (hround.trans_lt ?_)), Int.ceil_le.2 hround⟩
    have hbound' : ((⌈(n / d : ℚ)⌉ : ℤ) : ℚ) ≤ 2 ^ 53 := by exact_mod_cast hbound
    exact hbound'.trans_lt (pow_lt_pow_right₀ one_lt_two (by norm_num))

end Totals

section Search

variable {α : Type}

/-- The handler finds the page that was asked for, and every page of the strip has rows. -/
def ListsFilledPages (listed : Except NotFoundError (List α × ℕ)) (search : String)
    (page size : ℕ) : Prop :=
  ∃ context, searchContext listed search (provideLimitOffsetPagination page size) = .ok context ∧
    context.currentPage = page ∧ ∀ p ∈ context.pages, (p - 1) * context.limit < context.total

theorem searchContext_eq {listed : Except NotFoundError (List α × ℕ)} (limitOffset : LimitOffset)
    {q : ℚ} (hq : trueDivide (listedTotal listed) limitOffset.limit = .ok q) (search : String) :
    ∃ context, searchContext listed search limitOffset = .ok context ∧
      context.total = listedTotal listed ∧ context.limit = limitOffset.limit ∧
      context.currentPage = (limitOffset.offset / limitOffset.limit : ℕ) + 1 ∧
      context.totalPages = ⌈q⌉ ∧
      context.pages = generatePaginationPages context.currentPage context.totalPages := by
  unfold searchContext
  cases listed with
  | error e =>
      simp only [listedTotal] at hq
      simp only [hq]
      exact ⟨_, rfl, rfl, rfl, rfl, rfl, rfl⟩
  | ok found =>
      simp only [listedTotal] at hq
      simp only [hq]
      exact ⟨_, rfl, rfl, rfl, rfl, rfl, rfl⟩

theorem provideLimitOffsetPagination_page {page size : ℕ} (hpage : 1 ≤ page) (hsize : 1 ≤ size) :
    (provideLimitOffsetPagination page size).offset /
      (provideLimitOffsetPagination page size).limit + 1 = page := by
  simp only [provideLimitOffsetPagination, Nat.mul_div_cancel_left _ hsize]
  omega

theorem listsFilledPages {listed : Except NotFoundError (List α × ℕ)} {page size : ℕ}
    (hpage : 1 ≤ page) (hsize : 1 ≤ size) (htotal : listedTotal listed ≤ 2 ^ 53)
    (search : String) : ListsFilledPages listed search page size := by
  obtain ⟨q, hq, hle⟩ := trueDivide_le hsize htotal
  obtain ⟨context, hcontext, htotal, hlimit, hcurrent, hpages, hstrip⟩ :=
    searchContext_eq (provideLimitOffsetPagination page size) hq search
  have hcurrent' : context.currentPage = page := by
    rw [hcurrent]
    exact_mod_cast provideLimitOffsetPagination_page hpage hsize
  refine ⟨context, hcontext, hcurrent', fun p hp => ?_⟩
  rw [hstrip, hcurrent'] at hp
  have hlast := ((stripInRange (by omega)).within p hp).2
  rw [hpages] at hlast
  have hd : (0 : ℚ) < size := by exact_mod_cast hsize
  have hbelow : (p - 1 : ℚ) < listedTotal listed / size := by
    have h := Int.ceil_lt_add_one (listedTotal listed / size : ℚ)
    have hp' : (p : ℚ) ≤ ⌈(listedTotal listed / size : ℚ)⌉ := by exact_mod_cast hlast.trans hle
    linarith
  rw [lt_div_iff₀ hd] at hbelow
  rw [htotal, hlimit]
  exact_mod_cast hbelow

theorem trueDivide_two_pow : trueDivide (2 ^ 53 + 3) 1 = .ok (2 ^ 53 + 4) := by
  have hlog : Int.log 2 ((2 ^ 53 + 3 : ℕ) : ℚ) = 53 := by
    have hnat : Nat.log 2 (2 ^ 53 + 3) = 53 :=
      Nat.log_eq_of_pow_le_of_lt_pow (by norm_num) (by norm_num)
    rw [Int.log_natCast, hnat]
    rfl
  have hexp : BinaryRounding.lastExponent 53 (-1074) ((2 ^ 53 + 3 : ℕ) : ℚ) = 1 := by
    rw [BinaryRounding.lastExponent, hlog]
    rfl
  have hfloor : ⌊((2 ^ 53 + 3 : ℕ) / 2 : ℚ)⌋ = 2 ^ 52 + 1 := by
    rw [Int.floor_eq_iff]
    norm_num
  have hodd : ¬ Even (2 ^ 52 + 1 : ℤ) := by decide
  have hwhole : BinaryRounding.roundHalfEven ((2 ^ 53 + 3 : ℕ) / 2 : ℚ) = 2 ^ 52 + 2 := by
    rw [BinaryRounding.roundHalfEven, hfloor, if_neg (by norm_num), if_neg (by norm_num),
      if_neg hodd]
    rfl
  have hround : BinaryRounding.round 53 (-1074) ((2 ^ 53 + 3 : ℕ) / (1 : ℕ)) = 2 ^ 53 + 4 := by
    rw [Nat.cast_one, div_one, BinaryRounding.round, hexp, zpow_one, hwhole]
    norm_num
  simp only [trueDivide, hround]
  exact if_neg (not_le.2 (by
    rw [show (2 ^ 53 + 4 : ℚ) = 9007199254740996 by norm_num]
    exact lt_of_lt_of_le (by norm_num) (pow_le_pow_right₀ one_le_two (by norm_num : 54 ≤ 1024))))

/-- `2 ^ 53 + 3` rows in pages of one: a double counts one page more, and the strip lists it. -/
theorem listed_page_can_be_empty :
    ¬ ((∀ currentPage totalPages : ℤ, 1 ≤ currentPage → 0 ≤ totalPages →
        StripInRange totalPages (generatePaginationPages currentPage totalPages) ∧
          (currentPage ≤ totalPages → StripComplete currentPage totalPages
            (generatePaginationPages currentPage totalPages))) ∧
      ∀ (α : Type) (listed : Except NotFoundError (List α × ℕ)) (search : String)
        (page size : ℕ), 1 ≤ page → 1 ≤ size → size ≤ 100 →
          ListsFilledPages listed search page size) := by
  rintro ⟨-, hall⟩
  have hceil : ⌈(2 ^ 53 + 4 : ℚ)⌉ = 2 ^ 53 + 4 := by
    rw [Int.ceil_eq_iff]
    norm_num
  let listed : Except NotFoundError (List Unit × ℕ) := .ok ([()], 2 ^ 53 + 3)
  have hq : trueDivide (listedTotal listed) (provideLimitOffsetPagination 1 1).limit =
      .ok (2 ^ 53 + 4) := trueDivide_two_pow
  obtain ⟨context, hcontext, hcurrent, hfilled⟩ :=
    hall Unit listed "" 1 1 le_rfl le_rfl (by norm_num)
  obtain ⟨context', hcontext', htotal, hlimit, -, hpages, hstrip⟩ := searchContext_eq _ hq ""
  obtain rfl := Except.ok.inj (hcontext.symm.trans hcontext')
  rw [hcurrent, hpages, hceil] at hstrip
  have hlast : (2 ^ 53 + 4 : ℤ) ∈ context.pages := by
    rw [hstrip]
    exact (stripComplete (by norm_num) (by norm_num)).last
  have hempty := hfilled _ hlast
  rw [htotal, hlimit] at hempty
  simp only [listed, listedTotal, provideLimitOffsetPagination] at hempty
  norm_num at hempty

/-- The strip is right for every page and total. Up to `2 ^ 53` rows the handlers of the search
find the page that was asked for, and list only pages that have rows. -/
theorem pagination_strip_correct :
    (∀ currentPage totalPages : ℤ, 1 ≤ currentPage → 0 ≤ totalPages →
      StripInRange totalPages (generatePaginationPages currentPage totalPages) ∧
        (currentPage ≤ totalPages → StripComplete currentPage totalPages
          (generatePaginationPages currentPage totalPages))) ∧
    ∀ (α : Type) (listed : Except NotFoundError (List α × ℕ)) (search : String) (page size : ℕ),
      1 ≤ page → 1 ≤ size → size ≤ 100 → listedTotal listed ≤ 2 ^ 53 →
        ListsFilledPages listed search page size :=
  ⟨fun _ _ hfirst _ => ⟨stripInRange hfirst, stripComplete hfirst⟩,
    fun _ _ search _ _ hpage hsize _ htotal => listsFilledPages hpage hsize htotal search⟩

theorem pagination_strip_correct_ten :
    StripInRange 10 (generatePaginationPages 3 10) ∧
      StripComplete 3 10 (generatePaginationPages 3 10) ∧
      ListsFilledPages (.ok ([()], 45)) "Main" 2 20 :=
  ⟨(pagination_strip_correct.1 3 10 (by norm_num) (by norm_num)).1,
    (pagination_strip_correct.1 3 10 (by norm_num) (by norm_num)).2 (by norm_num),
    pagination_strip_correct.2 Unit (.ok ([()], 45)) "Main" 2 20 (by norm_num) (by norm_num)
      (by norm_num) (by simp only [listedTotal]; norm_num)⟩

end Search

end SimplyTransport
