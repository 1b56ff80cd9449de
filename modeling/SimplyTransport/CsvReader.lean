import Mathlib.Tactic.Common

/-!
# A reader of comma-separated values

The automaton that splits a text into records and a record into fields: a comma ends a field and a
line break a record; inside quotes both are text, and two quotes are one. A quote that does not
start a field is text too. `universalNewlines` makes every line break one character beforehand.
-/

namespace CsvReader

inductive State
  | startRecord
  | startField
  | inField
  | inQuotedField
  | quoteInQuotedField
  deriving DecidableEq

inductive Action
  | drop (next : State)
  | add (next : State)
  | saveField
  | saveRecord
  | blankRecord

def startOfField (c : Char) : Action :=
  if c = '\n' then .saveRecord
  else if c = '"' then .drop .inQuotedField
  else if c = ',' then .saveField
  else .add .inField

def process : State → Char → Action
  | .startRecord, c => if c = '\n' then .blankRecord else startOfField c
  | .startField, c => startOfField c
  | .inField, c =>
    if c = '\n' then .saveRecord
    else if c = ',' then .saveField
    else .add .inField
  | .inQuotedField, c => if c = '"' then .drop .quoteInQuotedField else .add .inQuotedField
  | .quoteInQuotedField, c =>
    if c = '"' then .add .inQuotedField
    else if c = ',' then .saveField
    else if c = '\n' then .saveRecord
    else .add .inField

/-- The records of the text that remains, where `field` and `fields` are read already. -/
def read (state : State) (field : List Char) (fields : List (List Char)) :
    List Char → List (List (List Char))
  | [] => if state = .startRecord then [] else [fields ++ [field]]
  | c :: cs =>
    match process state c with
    | .drop next => read next field fields cs
    | .add next => read next (field ++ [c]) fields cs
    | .saveField => read .startField [] (fields ++ [field]) cs
    | .saveRecord => (fields ++ [field]) :: read .startRecord [] [] cs
    | .blankRecord => [] :: read .startRecord [] [] cs

def records (text : List Char) : List (List (List Char)) := read .startRecord [] [] text

def universalNewlines : List Char → List Char
  | [] => []
  | '\r' :: '\n' :: cs => '\n' :: universalNewlines cs
  | '\r' :: cs => '\n' :: universalNewlines cs
  | c :: cs => c :: universalNewlines cs

theorem universalNewlines_cons {c : Char} (hc : c ≠ '\r') (cs : List Char) :
    universalNewlines (c :: cs) = c :: universalNewlines cs := by
  rw [universalNewlines]
  · rintro _ rfl
    exact absurd rfl hc
  · rintro rfl
    exact absurd rfl hc

theorem head?_universalNewlines {c : Char} (hc : c ≠ '\r') (hbreak : c ≠ '\n') (cs : List Char) :
    (universalNewlines cs).head? = some c ↔ cs.head? = some c := by
  unfold universalNewlines
  split
  · exact Iff.rfl
  · exact iff_of_false (fun h => hbreak (Option.some.inj h).symm)
      (fun h => hc (Option.some.inj h).symm)
  · exact iff_of_false (fun h => hbreak (Option.some.inj h).symm)
      (fun h => hc (Option.some.inj h).symm)
  · exact Iff.rfl

def Plain (c : Char) : Prop := c ≠ '\n' ∧ c ≠ '"' ∧ c ≠ ','

instance (c : Char) : Decidable (Plain c) := inferInstanceAs (Decidable (_ ∧ _))

/-- From an open field with that `suffix`, a record with these `names` after it and the records
`rest` are read. -/
def Reads (state : State) (cs suffix : List Char) (names : List (List Char))
    (rest : List (List (List Char))) : Prop :=
  ∀ field fields, read state field fields cs = (fields ++ (field ++ suffix) :: names) :: rest

theorem process_open {state : State} (hopen : state ≠ .startRecord) (c : Char) :
    (∃ next, next ≠ .startRecord ∧ process state c = .drop next) ∨
    (∃ next, next ≠ .startRecord ∧ process state c = .add next) ∨
    process state c = .saveField ∨ process state c = .saveRecord := by
  cases state with
  | startRecord => exact absurd rfl hopen
  | startField =>
      simp only [process, startOfField]
      split_ifs <;> simp
  | inField =>
      simp only [process]
      split_ifs <;> simp
  | inQuotedField =>
      simp only [process]
      split_ifs <;> simp
  | quoteInQuotedField =>
      simp only [process]
      split_ifs <;> simp

section Cons

variable {state next : State} {c : Char} {cs suffix : List Char} {names : List (List Char)}
  {rest : List (List (List Char))}

theorem reads_nil (hopen : state ≠ .startRecord) : Reads state [] [] [] [] := by
  intro field fields
  rw [read, if_neg hopen, List.append_nil]

theorem reads_drop (hc : process state c = .drop next) :
    Reads state (c :: cs) suffix names rest ↔ Reads next cs suffix names rest := by
  simp only [Reads, read, hc]

theorem reads_add (hc : process state c = .add next) (h : Reads next cs suffix names rest) :
    Reads state (c :: cs) (c :: suffix) names rest := by
  intro field fields
  have hrest := h (field ++ [c]) fields
  rw [List.append_assoc, List.singleton_append] at hrest
  simp only [read, hc, hrest]

theorem reads_saveField (hc : process state c = .saveField)
    (h : Reads .startField cs suffix names rest) :
    Reads state (c :: cs) [] (suffix :: names) rest := by
  intro field fields
  have hrest := h [] (fields ++ [field])
  rw [List.append_assoc, List.singleton_append, List.nil_append] at hrest
  simp only [read, hc, hrest, List.append_nil]

theorem reads_saveRecord (hc : process state c = .saveRecord) :
    Reads state (c :: cs) [] [] (records cs) := by
  intro field fields
  simp only [read, hc, List.append_nil, records]

end Cons

/-- What is read after an open field does not depend on what was read before. -/
theorem exists_reads (state : State) (hopen : state ≠ .startRecord) (cs : List Char) :
    ∃ suffix names rest, Reads state cs suffix names rest := by
  induction cs generalizing state with
  | nil => exact ⟨[], [], [], reads_nil hopen⟩
  | cons c cs ih =>
      rcases process_open hopen c with ⟨next, hnext, hc⟩ | ⟨next, hnext, hc⟩ | hc | hc
      · obtain ⟨suffix, names, rest, h⟩ := ih next hnext
        exact ⟨suffix, names, rest, (reads_drop hc).2 h⟩
      · obtain ⟨suffix, names, rest, h⟩ := ih next hnext
        exact ⟨c :: suffix, names, rest, reads_add hc h⟩
      · obtain ⟨suffix, names, rest, h⟩ := ih .startField (by decide)
        exact ⟨[], suffix :: names, rest, reads_saveField hc h⟩
      · exact ⟨[], [], records cs, reads_saveRecord hc⟩

theorem Reads.unique {state : State} {cs suffix suffix' : List Char} {names names' : List (List Char)}
    {rest rest' : List (List (List Char))} (h : Reads state cs suffix names rest)
    (h' : Reads state cs suffix' names' rest') :
    suffix = suffix' ∧ names = names' ∧ rest = rest' := by
  have heq := (h [] []).symm.trans (h' [] [])
  simp only [List.nil_append, List.cons.injEq] at heq
  exact ⟨heq.1.1, heq.1.2, heq.2⟩

theorem Reads.records {cs suffix : List Char} {names : List (List Char)}
    {rest : List (List (List Char))} (h : Reads .startRecord cs suffix names rest) :
    records cs = (suffix :: names) :: rest := h [] []

section Mark

variable {b c : Char}

theorem process_plain (state : State) (hstate : state ≠ .inQuotedField) (hc : Plain c) :
    process state c = .add .inField := by
  obtain ⟨hbreak, hquote, hcomma⟩ := hc
  cases state with
  | inQuotedField => exact absurd rfl hstate
  | startRecord => simp only [process, startOfField, hbreak, hquote, hcomma, if_false]
  | startField => simp only [process, startOfField, hbreak, hquote, hcomma, if_false]
  | inField => simp only [process, hbreak, hcomma, if_false]
  | quoteInQuotedField => simp only [process, hbreak, hquote, hcomma, if_false]

/-- A plain character before a text that starts with an unquoted field becomes part of it. -/
theorem records_mark (hb : Plain b) (hquote : c ≠ '"') (hbreak : c ≠ '\n') (cs : List Char) :
    ∃ name names rest, records (c :: cs) = (name :: names) :: rest ∧
      records (b :: c :: cs) = ((b :: name) :: names) :: rest := by
  have hmark := process_plain .startRecord (by decide) hb
  by_cases hcomma : c = ','
  · subst hcomma
    obtain ⟨suffix, names, rest, h⟩ := exists_reads .startField (by decide) cs
    exact ⟨[], suffix :: names, rest, (reads_saveField rfl h).records,
      (reads_add hmark (reads_saveField rfl h)).records⟩
  · have hc : Plain c := ⟨hbreak, hquote, hcomma⟩
    obtain ⟨suffix, names, rest, h⟩ := exists_reads .inField (by decide) cs
    have hstart := process_plain .startRecord (by decide) hc
    have hfield := process_plain .inField (by decide) hc
    exact ⟨c :: suffix, names, rest, (reads_add hstart h).records,
      (reads_add hmark (reads_add hfield h)).records⟩

/-- A field of plain characters that is read inside quotes ends where it ends without them. -/
theorem Reads.unquote {state : State} {cs suffix : List Char} {names : List (List Char)}
    {rest : List (List (List Char))} (h : Reads state cs suffix names rest)
    (hstate : state = .inQuotedField ∨ state = .quoteInQuotedField)
    (hplain : ∀ c ∈ suffix, Plain c) : ∃ raw, Reads .inField cs raw names rest := by
  induction cs generalizing state suffix with
  | nil =>
      have hopen : state ≠ .startRecord := by rcases hstate with rfl | rfl <;> decide
      obtain ⟨rfl, rfl, rfl⟩ := h.unique (reads_nil hopen)
      exact ⟨[], reads_nil (by decide)⟩
  | cons c cs ih =>
      have hadd : ∀ next, next ≠ .startRecord → process state c = .add next →
          ∃ suffix', Reads next cs suffix' names rest ∧ suffix = c :: suffix' := by
        intro next hopen hc
        obtain ⟨suffix', names', rest', hnext⟩ := exists_reads next hopen cs
        obtain ⟨rfl, rfl, rfl⟩ := h.unique (reads_add hc hnext)
        exact ⟨suffix', hnext, rfl⟩
      rcases hstate with rfl | rfl
      · by_cases hquote : c = '"'
        · subst hquote
          obtain ⟨raw, hraw⟩ := ih ((reads_drop rfl).1 h) (.inr rfl) hplain
          exact ⟨'"' :: raw, reads_add rfl hraw⟩
        · obtain ⟨suffix', hnext, rfl⟩ := hadd .inQuotedField (by decide) (if_neg hquote)
          rw [List.forall_mem_cons] at hplain
          obtain ⟨raw, hraw⟩ := ih hnext (.inl rfl) hplain.2
          exact ⟨c :: raw, reads_add (process_plain .inField (by decide) hplain.1) hraw⟩
      · by_cases hquote : c = '"'
        · subst hquote
          obtain ⟨suffix', -, rfl⟩ := hadd .inQuotedField (by decide) rfl
          exact absurd rfl (hplain _ List.mem_cons_self).2.1
        by_cases hcomma : c = ','
        · subst hcomma
          obtain ⟨suffix', names', rest', hnext⟩ := exists_reads .startField (by decide) cs
          obtain ⟨rfl, rfl, rfl⟩ := h.unique (reads_saveField rfl hnext)
          exact ⟨[], reads_saveField rfl hnext⟩
        by_cases hbreak : c = '\n'
        · subst hbreak
          obtain ⟨rfl, rfl, rfl⟩ := h.unique (reads_saveRecord rfl)
          exact ⟨[], reads_saveRecord rfl⟩
        · have hc : Plain c := ⟨hbreak, hquote, hcomma⟩
          obtain ⟨suffix', hnext, rfl⟩ :=
            hadd .inField (by decide) (process_plain .quoteInQuotedField (by decide) hc)
          exact ⟨c :: suffix', reads_add (process_plain .inField (by decide) hc) hnext⟩

/-- Before a quoted field it keeps the quotes from being read as such. -/
theorem records_mark_quoted (hb : Plain b) {cs name : List Char} {names : List (List Char)}
    {rest : List (List (List Char))} (h : records ('"' :: cs) = (name :: names) :: rest)
    (hplain : ∀ c ∈ name, Plain c) :
    ∃ raw, records (b :: '"' :: cs) = ((b :: '"' :: raw) :: names) :: rest := by
  obtain ⟨suffix, names', rest', hquoted⟩ := exists_reads .inQuotedField (by decide) cs
  have hstart : Reads .startRecord ('"' :: cs) suffix names' rest' := (reads_drop rfl).2 hquoted
  have heq := h.symm.trans hstart.records
  simp only [List.cons.injEq] at heq
  obtain ⟨⟨rfl, rfl⟩, rfl⟩ := heq
  obtain ⟨raw, hraw⟩ := hquoted.unquote (.inl rfl) hplain
  have hmark := process_plain .startRecord (by decide) hb
  exact ⟨raw, (reads_add hmark (reads_add rfl hraw)).records⟩

end Mark

end CsvReader
