import SimplyTransport.LikePattern
import SimplyTransport.Paging
import SimplyTransport.StaticTables
import Mathlib.Order.WithBot

/-!
# Pages of a search

Stops are searched by name or code and routes by short or long name, page after page, each page by
a query of its own. The pattern of a search is its text with `%` after it, and rows that tie under
`ORDER BY` come in any order, another for each query.
-/

namespace SimplyTransport

open Paging LikePattern

structure SearchedStop where
  id : String
  code : Option String
  name : String
  deriving DecidableEq

structure IdTable {α : Type} (id : α → String) where
  rows : List α
  ids_nodup : (rows.map id).Nodup

theorem IdTable.rows_nodup {α : Type} {id : α → String} (table : IdTable id) : table.rows.Nodup :=
  table.ids_nodup.of_map id

structure PageSize where
  size : ℕ
  pos : 1 ≤ size
  le_hundred : size ≤ 100

structure LimitOffset where
  limit : ℕ
  offset : ℕ

def provideLimitOffsetPagination (currentPage pageSize : ℕ) : LimitOffset :=
  ⟨pageSize, pageSize * (currentPage - 1)⟩

section Patterns

variable (lower : Char → Char)

/-- `column.istartswith(search)`; a null is no match. -/
def istartswith (column : Option String) (search : String) : Bool :=
  column.any (fun text =>
    like ((search.toList ++ [anyText]).map lower) (text.toList.map lower))

def startsWith (column : Option String) (search : String) : Bool :=
  column.any (fun text => (search.toList.map lower).isPrefixOf (text.toList.map lower))

end Patterns

structure SearchColumns (α : Type) where
  compared : α → List (Option String)
  orderBy : α → Option String

def stopColumns : SearchColumns SearchedStop :=
  ⟨fun stop => [some stop.name, stop.code], fun stop => stop.code⟩

def routeColumns : SearchColumns RouteModel :=
  ⟨fun route => [some route.shortName, some route.longName], fun route => some route.shortName⟩

section Queries

variable {α κ : Type} [LinearOrder κ] (collate : String → κ) (lower : Char → Char)
variable (columns : SearchColumns α)

/-- Nulls come last. -/
def sortKey (row : α) : WithTop κ := (columns.orderBy row).elim ⊤ (fun text => collate text)

def selected (rows : List α) (search : String) : List α :=
  rows.filter (fun row => (columns.compared row).any (fun text => istartswith lower text search))

def found (rows : List α) (search : String) : List α :=
  rows.filter (fun row => (columns.compared row).any (fun text => startsWith lower text search))

/-- An order in which the database can return the rows of the query. -/
def Answers (rows : List α) (search : String) (answer : List α) : Prop :=
  SortedBy (sortKey collate columns) (selected lower columns rows search) answer

/-- The count is read from the first row of the page. -/
def getManyAndCount (answer : List α) (limitOffset : LimitOffset) : List α × ℕ :=
  let results := (answer.drop limitOffset.offset).take limitOffset.limit
  (results, if results.isEmpty then 0 else answer.length)

inductive NotFoundError
  | notFound

def listPage (answer : List α) (limitOffset : LimitOffset) : Except NotFoundError (List α × ℕ) :=
  let (results, total) := getManyAndCount answer limitOffset
  if total = 0 then .error .notFound else .ok (results, total)

structure SearchResult (α : Type) where
  rows : List α
  total : ℕ
  totalPages : ℕ

def searchResult (answer : List α) (limitOffset : LimitOffset) : SearchResult α :=
  match listPage answer limitOffset with
  | .error _ => ⟨[], 0, pageCount limitOffset.limit 0⟩
  | .ok (results, total) => ⟨results, total, pageCount limitOffset.limit total⟩

/-- The rows of the pages, of which the first says how many there are. -/
def fetchedRows (answers : ℕ → List α) (pageSize : ℕ) : List α :=
  let totalPages := (searchResult (answers 1) (provideLimitOffsetPagination 1 pageSize)).totalPages
  (List.range totalPages).flatMap (fun i =>
    (searchResult (answers (i + 1)) (provideLimitOffsetPagination (i + 1) pageSize)).rows)

/-- In whatever order the queries return ties, the pages have every row that the search is for
exactly once, and no other. -/
def PagesPartition (rows : List α) (search : String) (pageSize : ℕ) : Prop :=
  ∀ answers : ℕ → List α, (∀ i, Answers collate lower columns rows search (answers i)) →
    (fetchedRows answers pageSize).Perm (found lower columns rows search)

/-- No row tells the search as a pattern from the search as a text. -/
def ReadLiterally (rows : List α) (search : String) : Prop :=
  ∀ row ∈ rows, (columns.compared row).any (fun text => istartswith lower text search) =
    (columns.compared row).any (fun text => startsWith lower text search)

end Queries

section Pages

variable {α : Type}

theorem searchResult_rows (answer : List α) (limitOffset : LimitOffset) :
    (searchResult answer limitOffset).rows =
      (answer.drop limitOffset.offset).take limitOffset.limit := by
  simp only [searchResult, listPage, getManyAndCount]
  split_ifs with hempty hlength <;> simp_all

theorem searchResult_totalPages (answer : List α) {pageSize : ℕ} (hsize : 0 < pageSize) :
    (searchResult answer (provideLimitOffsetPagination 1 pageSize)).totalPages =
      pageCount pageSize answer.length := by
  simp only [searchResult, listPage, getManyAndCount, provideLimitOffsetPagination]
  cases answer with
  | nil => simp
  | cons a answer =>
      obtain ⟨n, rfl⟩ := Nat.exists_eq_succ_of_ne_zero hsize.ne'
      simp

/-- The pages are those of the orders of the queries. -/
theorem fetchedRows_eq (answers : ℕ → List α) {pageSize : ℕ} (hsize : 0 < pageSize) :
    fetchedRows answers pageSize =
      (List.range (pageCount pageSize (answers 1).length)).flatMap
        (fun i => page pageSize i (answers (i + 1))) := by
  have hpages := searchResult_totalPages (answers 1) hsize
  simp only [fetchedRows, hpages, searchResult_rows]
  simp only [provideLimitOffsetPagination, Nat.add_sub_cancel, page]

end Pages

section Partition

variable {α κ : Type} [LinearOrder κ] {collate : String → κ} {lower : Char → Char}
variable {columns : SearchColumns α} {rows : List α} {search : String} {pageSize : ℕ}

theorem selected_eq_found (h : ReadLiterally lower columns rows search) :
    selected lower columns rows search = found lower columns rows search :=
  List.filter_congr h

theorem readLiterally_of_perm
    (h : (selected lower columns rows search).Perm (found lower columns rows search)) :
    ReadLiterally lower columns rows search := by
  intro row hrow
  have hmem := @h.mem_iff _ row
  simp only [selected, found, List.mem_filter, hrow, true_and] at hmem
  exact Bool.eq_iff_iff.2 hmem

theorem pagesPartition_iff (hrows : rows.Nodup) (hsize : 0 < pageSize) :
    PagesPartition collate lower columns rows search pageSize ↔
      ReadLiterally lower columns rows search ∧
        TiesShareAPage (sortKey collate columns) (found lower columns rows search) pageSize := by
  have hlength : ∀ {answer : List α}, Answers collate lower columns rows search answer →
      answer.length = (selected lower columns rows search).length := fun h => h.perm.length_eq
  constructor
  · intro h
    obtain ⟨answer, hanswer⟩ :=
      exists_sortedBy (sortKey collate columns) (selected lower columns rows search)
    have hall := h (fun _ => answer) (fun _ => hanswer)
    rw [fetchedRows_eq _ hsize, flatMap_page_eq hsize] at hall
    have hliteral := readLiterally_of_perm (hanswer.perm.symm.trans hall)
    refine ⟨hliteral, ?_⟩
    rw [← selected_eq_found hliteral]
    refine ties_of_pages_perm hsize (hrows.filter _) (fun orders horders => ?_)
    have hpages := h (fun i => orders (i - 1)) (fun i => horders (i - 1))
    rw [fetchedRows_eq _ hsize, hlength (horders (1 - 1)), ← selected_eq_found hliteral] at hpages
    exact hpages
  · rintro ⟨hliteral, hties⟩ answers hanswers
    rw [fetchedRows_eq _ hsize, hlength (hanswers 1), ← selected_eq_found hliteral]
    rw [← selected_eq_found hliteral] at hties
    exact pages_perm_of_ties hsize hties (fun i => hanswers (i + 1))

/-- A search without the characters of patterns is read literally. -/
theorem readLiterally_of_plain (h : ∀ c ∈ search.toList, IsPlain (lower c))
    (hany : lower anyText = anyText) : ReadLiterally lower columns rows search := by
  intro row _
  have hplain : ∀ c ∈ search.toList.map lower, IsPlain c := fun c hc => by
    obtain ⟨d, hd, rfl⟩ := List.mem_map.1 hc
    exact h d hd
  simp only [istartswith, startsWith, List.map_append, List.map_singleton, hany,
    like_prefix hplain]

end Partition

/-- The pages of a search together have every row that it is for once, and no other row, exactly
where no row tells its pattern from its text and the rows of one sort key lie on one page. -/
theorem search_pages_partition_iff {κ : Type} [LinearOrder κ] (collate : String → κ)
    (lower : Char → Char) :
    (∀ (stops : IdTable SearchedStop.id) (search : String) (pageSize : PageSize),
      PagesPartition collate lower stopColumns stops.rows search pageSize.size ↔
        ReadLiterally lower stopColumns stops.rows search ∧
          TiesShareAPage (sortKey collate stopColumns)
            (found lower stopColumns stops.rows search) pageSize.size) ∧
      ∀ (routes : IdTable RouteModel.id) (search : String) (pageSize : PageSize),
        PagesPartition collate lower routeColumns routes.rows search pageSize.size ↔
          ReadLiterally lower routeColumns routes.rows search ∧
            TiesShareAPage (sortKey collate routeColumns)
              (found lower routeColumns routes.rows search) pageSize.size :=
  ⟨fun stops _ pageSize => pagesPartition_iff stops.rows_nodup pageSize.pos,
    fun routes _ pageSize => pagesPartition_iff routes.rows_nodup pageSize.pos⟩

section Examples

def twinStops : List SearchedStop := [⟨"1", some "", "Main Street"⟩, ⟨"2", some "", "Main Street"⟩]

def route39 : RouteModel :=
  ⟨"3-39", "1", "39", "Burlington Road - Ongar", "", 3, "", "", "", "TFI"⟩

/-- Two stops without a code can show one of them on both pages, and a search for `_` shows a
route that does not start with it. -/
theorem search_pages_can_fail :
    ¬ PagesPartition String.length Char.toLower stopColumns twinStops "main" 1 ∧
      ¬ PagesPartition String.length Char.toLower routeColumns [route39] "_" 20 := by
  constructor
  · rw [pagesPartition_iff (by decide) (by decide)]
    rintro ⟨-, hties⟩
    have htwin := hties ⟨"1", some "", "Main Street"⟩ (by decide)
    revert htwin
    decide
  · rw [pagesPartition_iff (by decide) (by decide)]
    rintro ⟨hliteral, -⟩
    have hroute := hliteral route39 (by decide)
    revert hroute
    decide

def mainRows : List SearchedStop :=
  [⟨"3", none, "Main Square"⟩, ⟨"1", some "", "Main Street"⟩, ⟨"4", some "7", "Mill Lane"⟩,
    ⟨"5", some "12", "main road"⟩, ⟨"2", some "", "Main Street"⟩]

theorem mainRows_nodup : (mainRows.map SearchedStop.id).Nodup := by decide

def mainStops : IdTable SearchedStop.id := ⟨mainRows, mainRows_nodup⟩

theorem twoByTwo_pos : 1 ≤ 2 := by decide

theorem twoByTwo_le : 2 ≤ 100 := by decide

def twoByTwo : PageSize := ⟨2, twoByTwo_pos, twoByTwo_le⟩

theorem main_plain : ∀ c ∈ "main".toList, IsPlain c.toLower := by
  intro c hc
  have hmain : c ∈ ['m', 'a', 'i', 'n'] := hc
  simp only [List.mem_cons, List.not_mem_nil, or_false] at hmain
  unfold IsPlain
  rcases hmain with rfl | rfl | rfl | rfl <;> decide

/-- The two stops without a code are both on the first page. -/
theorem search_pages_partition_main :
    PagesPartition String.length Char.toLower stopColumns mainStops.rows "main" twoByTwo.size :=
  ((search_pages_partition_iff String.length Char.toLower).1 mainStops "main" twoByTwo).2
    ⟨readLiterally_of_plain main_plain rfl, by unfold TiesShareAPage; decide⟩

end Examples

end SimplyTransport
