import SimplyTransport.CsvColumns
import SimplyTransport.CsvReader

/-!
# What the layout of a file does to its records

The same content may have its columns in another order, more columns than an importer reads, or a
byte order mark before the header. The order and the columns that are not read make no difference.
The mark does: `DictReader` takes it for a part of the first name, and before a quoted name it
makes the quotes a part of the name too, which `csv_column_indexes` leaves.
-/

namespace SimplyTransport

def csvLines (text : String) : List (List String) :=
  (CsvReader.records (CsvReader.universalNewlines text.toList)).map
    (fun line => line.map String.ofList)

/-- The file that a text is, where it has a header and rows of its length. -/
def csvFileOf (text : String) : Option CsvFile :=
  match csvLines text with
  | [] => none
  | header :: rows =>
    if h : header ≠ [] ∧ ∀ row ∈ rows, row.length = header.length then some ⟨header, rows, h.2⟩
    else none

def withMark (text : String) : String := "\ufeff" ++ text

def columns (order : List ℕ) (row : List String) : List String :=
  order.map (fun i => row.getD i "")

/-- The columns of `file` are in `file'`, in some order, and the others there are unknown. -/
def Rearranges (t : StaticTable) (file file' : CsvFile) : Prop :=
  ∃ order : List ℕ, order.Nodup ∧ (∀ i ∈ order, i < file'.header.length) ∧
    file.header = columns order file'.header ∧ file.rows = file'.rows.map (columns order) ∧
    ∀ i name, file'.header[i]? = some name → i ∉ order → lstripBom name ∉ t.csvFields

section Import

variable {φ : Type} (pyFloat : String → Except PyError φ) (dataset : String) (t : StaticTable)

def imported (text : String) : Option (Except PyError (List (ℤ → t.Row φ))) :=
  (csvFileOf text).map (fun file => (importer pyFloat dataset t).records file)

/-- A text that can be imported, with distinct names; the first of them needs no quotes. -/
structure ValidText (text : String) (file : CsvFile) : Prop where
  read : csvFileOf text = some file
  distinct : file.header.Nodup
  plain : ∀ first ∈ file.header.head?, ∀ c ∈ first.toList, CsvReader.Plain c
  unmarked : ∀ name ∈ file.header, name.toList.head? ≠ some '\ufeff'
  imports : ∃ records, (importer pyFloat dataset t).records file = .ok records

structure LayoutIgnored (text : String) (file : CsvFile) : Prop where
  mark : imported pyFloat dataset t (withMark text) = imported pyFloat dataset t text
  rearranged : ∀ text' file', csvFileOf text' = some file' → Rearranges t file file' →
    imported pyFloat dataset t text' = imported pyFloat dataset t text

end Import

/-- The first column is not read; or `csv_column_indexes` strips the mark from an unquoted name;
or there is no row to look the name up in. -/
def MarkIgnored (t : StaticTable) (text : String) (file : CsvFile) : Prop :=
  (∀ first ∈ file.header.head?, first ∉ t.csvFields) ∨
    if t.copies then text.toList.head? ≠ some '"' else file.rows = []

section Text

variable {text : String} {file : CsvFile}

theorem csvFileOf_eq_some :
    csvFileOf text = some file ↔ csvLines text = file.header :: file.rows ∧ file.header ≠ [] := by
  unfold csvFileOf
  cases csvLines text with
  | nil => exact ⟨nofun, nofun⟩
  | cons header rows =>
      dsimp only
      constructor
      · intro h
        split_ifs at h with hfull
        obtain rfl := Option.some.inj h
        exact ⟨rfl, hfull.1⟩
      · rintro ⟨hlines, hne⟩
        obtain ⟨rfl, rfl⟩ := List.cons.inj hlines
        rw [dif_pos ⟨hne, file.full⟩]

theorem set_full (file : CsvFile) (name : String) :
    ∀ row ∈ file.rows, row.length = (file.header.set 0 name).length := by
  intro row hrow
  rw [List.length_set, file.full row hrow]

def CsvFile.renameFirst (file : CsvFile) (name : String) : CsvFile :=
  ⟨file.header.set 0 name, file.rows, set_full file name⟩

theorem renameFirst_header (file : CsvFile) (name : String) :
    (file.renameFirst name).header = file.header.set 0 name := rfl

theorem withMark_toList : (withMark text).toList = '\ufeff' :: text.toList := by
  rw [withMark, String.toList_append]
  rfl

theorem csvLines_withMark (text : String) : csvLines (withMark text) =
    (CsvReader.records ('\ufeff' :: CsvReader.universalNewlines text.toList)).map
      (fun line => line.map String.ofList) := by
  rw [csvLines, withMark_toList, CsvReader.universalNewlines_cons (by decide)]

structure Marked (text : String) (first name : String) : Prop where
  quoted : text.toList.head? = some '"' → ∃ raw, name.toList = '\ufeff' :: '"' :: raw
  unquoted : text.toList.head? ≠ some '"' → name.toList = '\ufeff' :: first.toList

/-- A mark changes the first name only. -/
theorem csvFileOf_withMark (h : csvFileOf text = some file)
    (hplain : ∀ first ∈ file.header.head?, ∀ c ∈ first.toList, CsvReader.Plain c) :
    ∃ first names name, file.header = first :: names ∧ Marked text first name ∧
      csvFileOf (withMark text) = some (file.renameFirst name) := by
  obtain ⟨hlines, hne⟩ := csvFileOf_eq_some.1 h
  have hmark : CsvReader.Plain '\ufeff' := by decide
  have hhead := CsvReader.head?_universalNewlines (c := '"') (by decide) (by decide) text.toList
  have hmarked := csvLines_withMark text
  rw [csvLines] at hlines
  generalize CsvReader.universalNewlines text.toList = cs at hlines hhead hmarked
  have hfile : ∀ name marked : List Char, ∀ names rest,
      CsvReader.records cs = (name :: names) :: rest →
      CsvReader.records ('\ufeff' :: cs) = (marked :: names) :: rest →
      file.header = String.ofList name :: names.map String.ofList ∧
        csvFileOf (withMark text) = some (file.renameFirst (String.ofList marked)) := by
    intro name marked names rest hrecords hrecords'
    rw [hrecords] at hlines
    obtain ⟨hheader, hrows⟩ := List.cons.inj hlines
    refine ⟨hheader.symm, csvFileOf_eq_some.2 ?_⟩
    rw [hmarked, hrecords']
    simp only [CsvFile.renameFirst, ← hheader, ← hrows, List.map_cons, List.set_cons_zero, ne_eq,
      reduceCtorEq, not_false_eq_true, and_self]
  cases cs with
  | nil => cases hlines
  | cons c cs =>
      by_cases hquote : c = '"'
      · subst hquote
        rcases hrecords : CsvReader.records ('"' :: cs) with _ | ⟨_ | ⟨name, names⟩, rest⟩
        · rw [hrecords] at hlines
          cases hlines
        · rw [hrecords] at hlines
          exact absurd (List.cons.inj hlines).1.symm hne
        · have hname : ∀ c ∈ name, CsvReader.Plain c := by
            rw [hrecords] at hlines
            have hmem : String.ofList name ∈ file.header.head? := by
              rw [← (List.cons.inj hlines).1]
              rfl
            simpa only [String.toList_ofList] using hplain _ hmem
          obtain ⟨raw, hraw⟩ := CsvReader.records_mark_quoted hmark hrecords hname
          obtain ⟨hheader, hfile⟩ := hfile _ _ _ _ hrecords hraw
          refine ⟨_, _, _, hheader, ⟨fun _ => ⟨raw, String.toList_ofList⟩, fun hnot => ?_⟩, hfile⟩
          exact absurd (hhead.1 rfl) hnot
      · have hbreak : c ≠ '\n' := by
          rintro rfl
          exact hne (List.cons.inj hlines).1.symm
        obtain ⟨name, names, rest, hrecords, hrecords'⟩ :=
          CsvReader.records_mark hmark hquote hbreak cs
        obtain ⟨hheader, hfile⟩ := hfile _ _ _ _ hrecords hrecords'
        refine ⟨_, _, _, hheader, ⟨fun hhead' => ?_, fun _ => ?_⟩, hfile⟩
        · exact absurd (Option.some.inj (hhead.2 hhead')) hquote
        · rw [String.toList_ofList, String.toList_ofList]

end Text

section Names

variable {t : StaticTable} {name : String}

/-- The names that importers read begin with a letter. -/
theorem csvFields_head (h : name ∈ t.csvFields) :
    ∃ c cs, name.toList = c :: cs ∧ c ≠ '\ufeff' ∧ c ≠ '"' := by
  have hall : t.csvFields.all (fun name =>
      name.toList.head?.any (fun c => c ≠ '\ufeff' ∧ c ≠ '"')) = true := by
    cases t <;> decide
  have hname := List.all_eq_true.1 hall name h
  cases hlist : name.toList with
  | nil =>
      rw [hlist] at hname
      cases hname
  | cons c cs =>
      rw [hlist] at hname
      exact ⟨c, cs, rfl, of_decide_eq_true hname⟩

theorem lstripBom_eq_self (h : name.toList.head? ≠ some '\ufeff') : lstripBom name = name := by
  have hdrop : name.toList.dropWhile (fun c => c = '\ufeff') = name.toList := by
    cases hlist : name.toList with
    | nil => rfl
    | cons c cs =>
        rw [hlist, List.head?_cons, ne_eq, Option.some.injEq] at h
        simp [h]
  rw [lstripBom, hdrop, String.ofList_toList]

theorem lstripBom_field (h : name ∈ t.csvFields) : lstripBom name = name := by
  obtain ⟨c, cs, hlist, hmark, _⟩ := csvFields_head h
  apply lstripBom_eq_self
  rw [hlist]
  exact fun hhead => hmark (Option.some.inj hhead)

theorem Marked.notMem {text first : String} (h : Marked text first name) :
    name ∉ t.csvFields := by
  intro hmem
  obtain ⟨c, cs, hlist, hmark, _⟩ := csvFields_head hmem
  by_cases hquote : text.toList.head? = some '"'
  · obtain ⟨raw, hraw⟩ := h.quoted hquote
    rw [hraw] at hlist
    exact hmark (List.cons.inj hlist).1.symm
  · rw [h.unquoted hquote] at hlist
    exact hmark (List.cons.inj hlist).1.symm

theorem Marked.lstripBom_unquoted {text first : String} (h : Marked text first name)
    (hquote : text.toList.head? ≠ some '"') (hfirst : first.toList.head? ≠ some '\ufeff') :
    lstripBom name = first := by
  have hdrop := lstripBom_eq_self hfirst
  rw [lstripBom] at hdrop ⊢
  rw [h.unquoted hquote]
  exact hdrop

theorem Marked.lstripBom_quoted {text first : String} (h : Marked text first name)
    (hquote : text.toList.head? = some '"') : lstripBom name ∉ t.csvFields := by
  obtain ⟨raw, hraw⟩ := h.quoted hquote
  intro hmem
  obtain ⟨c, cs, hlist, _, hc⟩ := csvFields_head hmem
  rw [lstripBom, hraw, String.toList_ofList] at hlist
  exact hc (List.cons.inj hlist).1.symm

end Names

section Rearranged

variable {t : StaticTable} {file file' : CsvFile}

theorem columns_getElem? {order : List ℕ} {row : List String} (h : ∀ i ∈ order, i < row.length)
    (j : ℕ) (value : String) :
    (columns order row)[j]? = some value ↔ ∃ i, order[j]? = some i ∧ row[i]? = some value := by
  rw [columns, List.getElem?_map, Option.map_eq_some_iff]
  refine exists_congr (fun i => and_congr_right (fun hi => ?_))
  have hlt := h i (List.mem_of_getElem? hi)
  rw [List.getD_eq_getElem?_getD, List.getElem?_eq_getElem hlt, Option.getD_some,
    Option.some.injEq]

theorem Rearranges.sameFields (h : Rearranges t file file') (hnodup : file.header.Nodup) :
    SameFields t.csvFields file.header file.rows file'.header file'.rows := by
  obtain ⟨order, horder, hlt, hheader, hrows, hunknown⟩ := h
  have hknown : ∀ name ∈ t.csvFields, ∀ i : ℕ, file'.header[i]? = some name →
      ∃ j : ℕ, order[j]? = some i ∧ file.header[j]? = some name := by
    intro name hname i hi
    have hmem : i ∈ order := by
      by_contra hnot
      have hstrip := hunknown i name hi hnot
      rw [lstripBom_field hname] at hstrip
      exact hstrip hname
    obtain ⟨j, hj⟩ := List.mem_iff_getElem?.1 hmem
    refine ⟨j, hj, ?_⟩
    rw [hheader, columns_getElem? hlt]
    exact ⟨i, hj, hi⟩
  have hshows : ∀ row : List String, row.length = file'.header.length → ∀ name ∈ t.csvFields,
      ∀ value, Shows file.header (columns order row) name value ↔
        Shows file'.header row name value := by
    intro row hrow name hname value
    have hlt' : ∀ i ∈ order, i < row.length := fun i hi => hrow ▸ hlt i hi
    constructor
    · rintro ⟨j, hj, hvalue⟩
      rw [hheader, columns_getElem? hlt] at hj
      obtain ⟨i, hij, hi⟩ := hj
      obtain ⟨i', hij', hvalue⟩ := (columns_getElem? hlt' j value).1 hvalue
      obtain rfl := Option.some.inj (hij.symm.trans hij')
      exact ⟨i, hi, hvalue⟩
    · rintro ⟨i, hi, hvalue⟩
      obtain ⟨j, hj, hname⟩ := hknown name hname i hi
      exact ⟨j, hname, (columns_getElem? hlt' j value).2 ⟨i, hj, hvalue⟩⟩
  refine ⟨fun name _ => once_of_nodup hnodup name, fun name hname i i' hi hi' => ?_,
    fun name hname => ?_, ?_⟩
  · obtain ⟨j, hj, hjname⟩ := hknown name hname i hi
    obtain ⟨j', hj', hjname'⟩ := hknown name hname i' hi'
    obtain rfl := once_of_nodup hnodup name j j' hjname hjname'
    exact Option.some.inj (hj.symm.trans hj')
  · rw [mem_iff_shows, mem_iff_shows, ← hshows _ rfl name hname, ← hheader]
  · rw [hrows, List.forall₂_map_left_iff, List.forall₂_same]
    exact fun row hrow => hshows row (file'.full row hrow)

/-- Where a mark that is stripped makes no name known, the header is read as it is. -/
theorem agree_readHeader {header : List String}
    (hfirst : ∀ first ∈ header.head?, lstripBom first = first ∨ lstripBom first ∉ t.csvFields) :
    Agree t.csvFields header (t.readHeader header) := by
  unfold StaticTable.readHeader
  split_ifs
  · cases header with
    | nil => exact agree_refl _ _
    | cons first names =>
        intro name hname i
        cases i with
        | succ i => exact Iff.rfl
        | zero =>
            simp only [resolvedHeader, List.getElem?_cons_zero, Option.some.injEq]
            rcases hfirst first rfl with hsame | hunknown
            · rw [hsame]
            · refine iff_of_false ?_ ?_
              · rintro rfl
                rw [lstripBom_field hname] at hunknown
                exact hunknown hname
              · rintro rfl
                exact hunknown hname
  · exact agree_refl _ _

end Rearranged

section Layouts

variable {φ : Type} {pyFloat : String → Except PyError φ} {dataset : String} {t : StaticTable}
  {text : String} {file file' : CsvFile}

theorem imported_eq (h : csvFileOf text = some file) :
    imported pyFloat dataset t text = some ((importer pyFloat dataset t).records file) := by
  rw [imported, h, Option.map_some]

theorem ValidText.agree (h : ValidText pyFloat dataset t text file) :
    Agree t.csvFields file.header (t.readHeader file.header) :=
  agree_readHeader (fun _ hfirst =>
    .inl (lstripBom_eq_self (h.unmarked _ (List.mem_of_mem_head? hfirst))))

/-- The order of the columns and further columns make no difference. -/
theorem ValidText.rearranged (h : ValidText pyFloat dataset t text file)
    (hfile : Rearranges t file file') :
    (importer pyFloat dataset t).records file' = (importer pyFloat dataset t).records file := by
  have hheader : ∀ first ∈ file'.header.head?,
      lstripBom first = first ∨ lstripBom first ∉ t.csvFields := by
    obtain ⟨order, _, hlt, hcolumns, _, hunknown⟩ := hfile
    intro first hfirst
    rw [Option.mem_def, List.head?_eq_getElem?] at hfirst
    by_cases hmem : 0 ∈ order
    · obtain ⟨j, hj⟩ := List.mem_iff_getElem?.1 hmem
      have hget : file.header[j]? = some first := by
        rw [hcolumns, columns_getElem? hlt]
        exact ⟨0, hj, hfirst⟩
      exact .inl (lstripBom_eq_self (h.unmarked _ (List.mem_of_getElem? hget)))
    · exact .inr (hunknown 0 first hfirst hmem)
  exact (records_congr t ((hfile.sameFields h.distinct).agree h.agree
    (agree_readHeader hheader))).symm

section Mark

variable {first name : String} {names : List String}

/-- The names that are left to find when the first one has a mark. -/
theorem readHeader_renameFirst (hheader : file.header = first :: names) :
    t.readHeader (file.renameFirst name).header =
      (if t.copies then lstripBom name else name) :: names := by
  have hset : (file.renameFirst name).header = name :: names := by
    rw [renameFirst_header, hheader, List.set_cons_zero]
  unfold StaticTable.readHeader
  rw [hset]
  split_ifs
  · rfl
  · rfl

theorem ValidText.mark_ignored (h : ValidText pyFloat dataset t text file)
    (hheader : file.header = first :: names) (hname : Marked text first name)
    (hignored : MarkIgnored t text file) :
    (importer pyFloat dataset t).records (file.renameFirst name) =
      (importer pyFloat dataset t).records file := by
  have hsame : SameFields t.csvFields file.header file.rows file.header
      (file.renameFirst name).rows := sameFields_refl h.distinct file.rows
  have hfirst : first.toList.head? ≠ some '\ufeff' :=
    h.unmarked first (by rw [hheader]; exact List.mem_cons_self)
  have hagree : Agree t.csvFields file.header (t.readHeader (file.renameFirst name).header) →
      (importer pyFloat dataset t).records (file.renameFirst name) =
        (importer pyFloat dataset t).records file :=
    fun hag => (records_congr t (hsame.agree h.agree hag)).symm
  rw [readHeader_renameFirst hheader] at hagree
  by_cases hread : first ∈ t.csvFields
  · have hcond := hignored.resolve_left (fun hnot => hnot first (by rw [hheader]; rfl) hread)
    cases hcopies : t.copies with
    | true =>
        rw [if_pos hcopies] at hcond
        rw [if_pos hcopies, hname.lstripBom_unquoted hcond hfirst, ← hheader] at hagree
        exact hagree (agree_refl _ _)
    | false =>
        rw [if_neg (by simp [hcopies])] at hcond
        rw [records_orm hcopies, records_orm hcopies, ormImport, ormImport]
        have hrows : (file.renameFirst name).rows = [] := hcond
        rw [hcond, hrows]
        rfl
  · have hset : ∀ name', name' ∉ t.csvFields → Agree t.csvFields file.header (name' :: names) := by
      intro name' hname'
      rw [hheader]
      refine agree_set (fun first' hfirst' => ?_) hname'
      obtain rfl := Option.some.inj hfirst'
      exact hread
    refine hagree (hset _ ?_)
    split_ifs
    · by_cases hquote : text.toList.head? = some '"'
      · exact hname.lstripBom_quoted hquote
      · rwa [hname.lstripBom_unquoted hquote hfirst]
    · exact hname.notMem

/-- Where the mark is not ignored, the first name is not found. -/
theorem ValidText.mark_fails (h : ValidText pyFloat dataset t text file)
    (hheader : file.header = first :: names) (hname : Marked text first name)
    (hignored : ¬ MarkIgnored t text file) (records : List (ℤ → t.Row φ)) :
    (importer pyFloat dataset t).records (file.renameFirst name) ≠ .ok records := by
  obtain ⟨hread, hcond⟩ := not_or.1 hignored
  have hread : first ∈ t.csvFields := by
    by_contra hnot
    refine hread (fun first' hfirst' => ?_)
    rw [hheader] at hfirst'
    obtain rfl := Option.some.inj hfirst'
    exact hnot
  have hnames : first ∉ names := by
    have hdistinct := h.distinct
    rw [hheader, List.nodup_cons] at hdistinct
    exact hdistinct.1
  have hset : (file.renameFirst name).header = name :: names := by
    rw [renameFirst_header, hheader, List.set_cons_zero]
  cases hcopies : t.copies with
  | true =>
      rw [if_pos hcopies, not_not] at hcond
      have hmissing : ¬ ∀ field ∈ t.csvFields,
          field ∈ resolvedHeader (file.renameFirst name).header := by
        intro hall
        rw [hset, resolvedHeader] at hall
        rcases List.mem_cons.1 (hall first hread) with hfirst | hfirst
        · exact hname.lstripBom_quoted hcond (hfirst ▸ hread)
        · exact hnames hfirst
      rw [records_copy hcopies, copyImport, csvColumnIndexes_missing hmissing]
      exact nofun
  | false =>
      rw [if_neg (by simp [hcopies])] at hcond
      rw [records_orm hcopies, ormImport]
      intro himport
      obtain ⟨row, hrow⟩ := List.exists_mem_of_ne_nil _ hcond
      obtain ⟨record, hrecord⟩ := exists_mapM_iff.1 ⟨records, himport⟩ row hrow
      obtain ⟨value, hvalue⟩ := build_reads t hrecord first hread
      rcases dictRow_cases (file.renameFirst name).header row first with
        ⟨_, _, i, hi, _⟩ | ⟨hnone, _⟩
      · rw [hset] at hi
        rcases List.mem_cons.1 (List.mem_of_getElem? hi) with hfirst | hfirst
        · exact hname.notMem (hfirst ▸ hread)
        · exact hnames hfirst
      · rw [hnone] at hvalue
        cases hvalue

end Mark

def agencyText : String :=
  "agency_id,agency_name,agency_url,agency_timezone\n7,Dublin Bus,www.dublinbus.ie,Europe/Dublin\n"

def agencyHeader : List String := ["agency_id", "agency_name", "agency_url", "agency_timezone"]

def agencyLine : List String := ["7", "Dublin Bus", "www.dublinbus.ie", "Europe/Dublin"]

theorem agencyLine_full : ∀ row ∈ [agencyLine], row.length = agencyHeader.length := by decide

def agencyFile : CsvFile := ⟨agencyHeader, [agencyLine], agencyLine_full⟩

theorem agencyText_valid (pyFloat : String → Except PyError φ) (dataset : String) :
    ValidText pyFloat dataset .agency agencyText agencyFile where
  read := csvFileOf_eq_some.2 (by decide)
  distinct := by decide
  plain := by
    intro first hfirst c hc
    obtain rfl := Option.some.inj hfirst
    have hall : "agency_id".toList.all (fun c => decide (CsvReader.Plain c)) = true := by decide
    exact of_decide_eq_true (List.all_eq_true.1 hall c hc)
  unmarked := by decide
  imports := ⟨_, rfl⟩

theorem agencyText_mark : ¬ MarkIgnored .agency agencyText agencyFile := by
  rintro (hfirst | hrows)
  · exact hfirst "agency_id" rfl (by decide)
  · cases hrows

/-- `agency.txt` with a byte order mark: every row lacks its `agency_id`. -/
theorem marked_agency_file_fails :
    ¬ ∀ (pyFloat : String → Except PyError ℤ) (dataset : String) (t : StaticTable)
      (text : String) (file : CsvFile), ValidText pyFloat dataset t text file →
        LayoutIgnored pyFloat dataset t text file := by
  intro hall
  have hvalid := agencyText_valid (fun _ => (.error .valueError : Except PyError ℤ)) "TFI"
  obtain ⟨first, names, name, hheader, hname, hmarked⟩ := csvFileOf_withMark hvalid.read hvalid.plain
  obtain ⟨records, hrecords⟩ := hvalid.imports
  have hmark := (hall _ _ _ _ _ hvalid).mark
  rw [imported_eq hmarked, imported_eq hvalid.read, hrecords] at hmark
  exact hvalid.mark_fails hheader hname agencyText_mark records (Option.some.inj hmark)

/-- The layout of valid content makes no difference to its records exactly where the byte order
mark makes none: the first column is not read, or it is looked up by an importer that strips the
mark and its name is not quoted, or no row is looked up. -/
theorem csv_layout_ignored_iff (pyFloat : String → Except PyError φ) (dataset : String)
    (t : StaticTable) (text : String) (file : CsvFile)
    (h : ValidText pyFloat dataset t text file) :
    LayoutIgnored pyFloat dataset t text file ↔ MarkIgnored t text file := by
  obtain ⟨first, names, name, hheader, hname, hmarked⟩ := csvFileOf_withMark h.read h.plain
  obtain ⟨records, hrecords⟩ := h.imports
  constructor
  · intro hlayout
    by_contra hignored
    have hmark := hlayout.mark
    rw [imported_eq hmarked, imported_eq h.read, hrecords] at hmark
    exact h.mark_fails hheader hname hignored records (Option.some.inj hmark)
  · intro hignored
    constructor
    · rw [imported_eq hmarked, imported_eq h.read, h.mark_ignored hheader hname hignored]
    · intro text' file' hread hfile
      rw [imported_eq hread, imported_eq h.read, h.rearranged hfile]

theorem csv_layout_ignored_iff_agency :
    LayoutIgnored (fun _ => (.error .valueError : Except PyError ℤ)) "TFI" .agency agencyText
        agencyFile ↔
      MarkIgnored .agency agencyText agencyFile :=
  csv_layout_ignored_iff _ _ _ _ _ (agencyText_valid _ _)

end Layouts

end SimplyTransport
