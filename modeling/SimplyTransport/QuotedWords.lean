import SimplyTransport.JsonLayout
import SimplyTransport.SeparatedText
import Mathlib

/-!
# Words in quotes in a JSON text

When words of letters are replaced with their quotes, one after the other in the whole text of a
document, each of its strings is treated alone: a word becomes its text, and a string that ends with
a quote and a word loses its end.
-/

namespace JsonText

open SeparatedText

section Words

theorem toNat_lt_codePoints (c : Char) : c.toNat < 0x110000 := by
  have hvalid : c.toNat < 0xD800 ∨ 0xDFFF < c.toNat ∧ c.toNat < 0x110000 := c.valid
  omega

def codePoint (c : Char) : CodePoint := ⟨c.toNat, toNat_lt_codePoints c⟩

def codePoints (text : List Char) : List CodePoint := text.map codePoint

def lookup (table : List (List Char × List Char)) (s : List CodePoint) : Option (List Char) :=
  (table.find? (fun entry => codePoints entry.1 = s)).map Prod.snd

/-- The rest of a string after one of its quotes, up to the last. -/
def afterQuote (table : List (List Char × List Char)) : List CodePoint → List Char
  | [] => ['"']
  | c :: s =>
      if c = codePoint '"' then '\\' :: (lookup table s).getD ('"' :: afterQuote table s)
      else writeChar c ++ afterQuote table s

def literal (table : List (List Char × List Char)) (s : List CodePoint) : List Char :=
  (lookup table s).getD ('"' :: afterQuote table s)

def quoted (word : List Char) : List Char := '"' :: (word ++ ['"'])

def replaceWords (table : List (List Char × List Char)) (text : List Char) : List Char :=
  table.foldl (fun text entry => replace (quoted entry.1) entry.2 text) text

/-- Words are of letters, and have no quote in their texts. -/
structure Words (table : List (List Char × List Char)) : Prop where
  letters : ∀ entry ∈ table, entry.1.all Char.isAlpha = true
  plain : ∀ entry ∈ table, '"' ∉ entry.2

section Characters

theorem toNat_of_isAlpha {a : Char} (h : a.isAlpha = true) :
    65 ≤ a.toNat ∧ a.toNat ≤ 122 ∧ a.toNat ≠ 92 := by
  simp only [Char.isAlpha, Char.isUpper, Char.isLower, Bool.or_eq_true, Bool.and_eq_true,
    decide_eq_true_eq, ge_iff_le, UInt32.le_iff_toNat_le] at h
  change (65 ≤ a.toNat ∧ a.toNat ≤ 90) ∨ 97 ≤ a.toNat ∧ a.toNat ≤ 122 at h
  omega

theorem writeChar_letter {a : Char} (h : a.isAlpha = true) :
    writeChar (codePoint a) = [a] := by
  obtain ⟨hlow, hhigh, hslash⟩ := toNat_of_isAlpha h
  have hval : (codePoint a).val = a.toNat := rfl
  have hshort : shortEscape a.toNat = none := by
    unfold shortEscape
    rw [if_neg (by omega), if_neg (by omega), if_neg (by omega), if_neg (by omega),
      if_neg (by omega), if_neg (by omega), if_neg (by omega)]
  rw [writeChar, hval, hshort]
  simp only
  rw [if_pos (by omega), Char.ofNat_toNat]

theorem units_ne_nil (c : CodePoint) : units c ≠ [] := by
  unfold units
  split_ifs <;> exact List.cons_ne_nil _ _

/-- A character is not written from a quote on, and from a letter only where it is the letter. -/
theorem writeChar_cons (c : CodePoint) : ∃ a text, writeChar c = a :: text ∧ a ≠ '"' ∧
    (a.isAlpha = true → c = codePoint a) := by
  unfold writeChar
  cases hshort : shortEscape c.val with
  | some e => exact ⟨'\\', [e], rfl, by decide, fun h => absurd h (by decide)⟩
  | none =>
      by_cases hplain : 0x20 ≤ c.val ∧ c.val ≤ 0x7E
      · refine ⟨Char.ofNat c.val, [], if_pos hplain, ?_, fun _ => ?_⟩
        · exact ofNat_ne_of_shortEscape hshort hplain.2 (by decide)
        · exact Fin.ext (toNat_ofNat_plain hplain.2).symm
      · obtain ⟨u, us, hunits⟩ := List.exists_cons_of_ne_nil (units_ne_nil c)
        have hwrite : ∃ text, (units c).flatMap (fun u => escapeUnit u.val) = '\\' :: text := by
          rw [hunits, List.flatMap_cons, escapeUnit, List.cons_append]
          exact ⟨_, rfl⟩
        obtain ⟨text, htext⟩ := hwrite
        exact ⟨'\\', text, (if_neg hplain).trans htext, by decide, fun h => absurd h (by decide)⟩

theorem quote_notMem_escapeUnit {n : ℕ} (h : n < 0x10000) : '"' ∉ escapeUnit n := by
  have hall : ∀ n < 16, '"' ≠ n.digitChar := by decide
  simp only [escapeUnit, List.mem_cons, List.not_mem_nil, or_false, not_or]
  exact ⟨by decide, by decide, hall _ (by omega), hall _ (by omega), hall _ (by omega),
    hall _ (by omega)⟩

theorem quote_notMem_writeChar {c : CodePoint} (hc : c ≠ codePoint '"') : '"' ∉ writeChar c := by
  have hval : c.val ≠ 0x22 := fun h => hc (Fin.ext h)
  unfold writeChar
  cases hshort : shortEscape c.val with
  | some e =>
      have he : e ≠ '"' := by
        unfold shortEscape at hshort
        rw [if_neg hval] at hshort
        split_ifs at hshort <;> obtain rfl := Option.some.inj hshort <;> decide
      simp [he.symm]
  | none =>
      by_cases hplain : 0x20 ≤ c.val ∧ c.val ≤ 0x7E
      · simp only
        rw [if_pos hplain, List.mem_singleton]
        exact (ofNat_ne_of_shortEscape hshort hplain.2 (by decide)).symm
      · simp only
        rw [if_neg hplain]
        intro hmem
        obtain ⟨u, hunit, hu⟩ := List.mem_flatMap.1 hmem
        exact quote_notMem_escapeUnit (units_lt c u hunit) hu

end Characters

section Literals

variable {table : List (List Char × List Char)} {entry : List Char × List Char}
  {word rest : List Char} {s : List CodePoint} {c : CodePoint}

theorem afterQuote_quote :
    afterQuote table (codePoint '"' :: s) = '\\' :: literal table s := by
  rw [afterQuote, if_pos rfl, literal]

theorem afterQuote_of_ne (hc : c ≠ codePoint '"') :
    afterQuote table (c :: s) = writeChar c ++ afterQuote table s := by
  rw [afterQuote, if_neg hc]

theorem letter_ne_quote {a : Char} (h : a.isAlpha = true) : codePoint a ≠ codePoint '"' := by
  obtain ⟨hlow, hhigh, -⟩ := toNat_of_isAlpha h
  intro hquote
  have hval : a.toNat = 34 := congrArg Fin.val hquote
  omega

theorem afterQuote_letter {a : Char} (h : a.isAlpha = true) :
    afterQuote table (codePoint a :: s) = a :: afterQuote table s := by
  rw [afterQuote_of_ne (letter_ne_quote h), writeChar_letter h, List.singleton_append]

/-- The rest of a string starts with no quote before its end, and with a letter only where the
string does. -/
theorem afterQuote_cons : ∃ a text, afterQuote table (c :: s) = a :: text ∧ a ≠ '"' ∧
    (a.isAlpha = true → c = codePoint a) := by
  by_cases hc : c = codePoint '"'
  · rw [hc, afterQuote_quote]
    exact ⟨'\\', _, rfl, by decide, fun h => absurd h (by decide)⟩
  · obtain ⟨a, text, hwrite, ha⟩ := writeChar_cons c
    rw [afterQuote_of_ne hc, hwrite, List.cons_append]
    exact ⟨a, _, rfl, ha⟩

/-- Up to its last quote the rest of a string is a word only where the string is. -/
theorem word_prefix_iff (hword : word.all Char.isAlpha = true) :
    word ++ ['"'] <+: afterQuote table s ++ rest ↔ s = codePoints word := by
  induction word generalizing s with
  | nil =>
      cases s with
      | nil => exact ⟨fun _ => rfl, fun _ => ⟨rest, rfl⟩⟩
      | cons c s =>
          obtain ⟨a, text, heq, ha, -⟩ := @afterQuote_cons table s c
          rw [heq]
          constructor
          · intro h
            exact absurd (List.cons_prefix_cons.1 h).1.symm ha
          · intro h
            cases h
  | cons b word ih =>
      rw [List.all_cons, Bool.and_eq_true] at hword
      rw [List.cons_append, codePoints, List.map_cons]
      cases s with
      | nil =>
          constructor
          · intro h
            have hb := (List.cons_prefix_cons.1 h).1
            rw [hb] at hword
            exact absurd hword.1 (by decide)
          · intro h
            cases h
      | cons c s =>
          by_cases hc : c = codePoint b
          · rw [hc, afterQuote_letter hword.1, List.cons_append, List.cons_prefix_cons,
              ih hword.2, List.cons.injEq]
            exact and_congr_left' (iff_of_true rfl rfl)
          · obtain ⟨a, text, heq, -, ha⟩ := @afterQuote_cons table s c
            rw [heq]
            constructor
            · intro h
              have hb := (List.cons_prefix_cons.1 h).1
              rw [hb] at hword
              exact absurd (ha hword.1) (hb ▸ hc)
            · intro h
              exact absurd (List.cons.inj h).1 hc

theorem afterQuote_word (hword : word.all Char.isAlpha = true) :
    afterQuote table (codePoints word) = word ++ ['"'] := by
  induction word with
  | nil => rfl
  | cons b word ih =>
      rw [List.all_cons, Bool.and_eq_true] at hword
      rw [codePoints, List.map_cons, afterQuote_letter hword.1]
      exact congrArg _ (ih hword.2)

theorem lookup_append (entry : List Char × List Char) :
    lookup (table ++ [entry]) s =
      (lookup table s).or (if s = codePoints entry.1 then some entry.2 else none) := by
  unfold lookup
  rw [List.find?_append]
  cases table.find? (fun entry => codePoints entry.1 = s) with
  | some found => rfl
  | none =>
      by_cases h : s = codePoints entry.1
      · simp [h]
      · simp [h, Ne.symm h]

theorem plain_of_lookup (htable : Words table) {text : List Char} (h : lookup table s = some text) :
    '"' ∉ text := by
  obtain ⟨found, hfound, rfl⟩ := Option.map_eq_some_iff.1 h
  exact htable.plain found (List.mem_of_find?_eq_some hfound)

/-- A word does not start where a string has ended. -/
theorem word_not_follows (hword : word.all Char.isAlpha = true) (hrest : Follows rest) :
    ¬ quoted word <+: '"' :: rest := by
  intro h
  have hprefix := (List.cons_prefix_cons.1 h).2
  cases word with
  | nil =>
      obtain ⟨tail, rfl⟩ := hprefix
      exact absurd (hrest '"' rfl) (by decide)
  | cons b word =>
      obtain ⟨tail, rfl⟩ := hprefix
      rw [List.all_cons, Bool.and_eq_true] at hword
      have hfollow := hrest b rfl
      simp only [List.mem_cons, List.not_mem_nil, or_false] at hfollow
      rcases hfollow with rfl | rfl | rfl | rfl <;> exact absurd hword.1 (by decide)

/-- A replacement of one more word, of a string whose rest is treated. -/
theorem replace_literal_of (htable : Words table) (hword : entry.1.all Char.isAlpha = true)
    (h : replace (quoted entry.1) entry.2 (afterQuote table s ++ rest) =
      afterQuote (table ++ [entry]) s ++ replace (quoted entry.1) entry.2 rest) :
    replace (quoted entry.1) entry.2 (literal table s ++ rest) =
      literal (table ++ [entry]) s ++ replace (quoted entry.1) entry.2 rest := by
  rw [literal, literal, lookup_append]
  cases hlookup : lookup table s with
  | some text => exact replace_part (plain_of_lookup htable hlookup)
  | none =>
      rw [Option.none_or, Option.getD_none]
      by_cases hs : s = codePoints entry.1
      · rw [if_pos hs, Option.getD_some, hs, afterQuote_word hword]
        exact replace_append (List.cons_ne_nil _ _)
      · have hread : ¬ quoted entry.1 <+: '"' :: (afterQuote table s ++ rest) := by
          intro hprefix
          exact hs ((word_prefix_iff hword).1 (List.cons_prefix_cons.1 hprefix).2)
        rw [if_neg hs, Option.getD_none, List.cons_append, replace_cons hread, h]
        rfl

theorem replace_afterQuote (htable : Words table) (hword : entry.1.all Char.isAlpha = true)
    (hrest : Follows rest) (s : List CodePoint) :
    replace (quoted entry.1) entry.2 (afterQuote table s ++ rest) =
      afterQuote (table ++ [entry]) s ++ replace (quoted entry.1) entry.2 rest := by
  induction s with
  | nil =>
      rw [afterQuote, afterQuote, List.singleton_append,
        replace_cons (word_not_follows hword hrest)]
      rfl
  | cons c s ih =>
      by_cases hc : c = codePoint '"'
      · have hslash : ¬ quoted entry.1 <+: '\\' :: (literal table s ++ rest) := by
          intro hprefix
          exact absurd (List.cons_prefix_cons.1 hprefix).1 (by decide)
        rw [hc, afterQuote_quote, afterQuote_quote, List.cons_append, replace_cons hslash,
          replace_literal_of htable hword ih]
        rfl
      · rw [afterQuote_of_ne hc, afterQuote_of_ne hc, List.append_assoc, List.append_assoc, ← ih]
        exact replace_part (quote_notMem_writeChar hc)

/-- One more word is replaced. -/
theorem replace_literal (htable : Words table) (hword : entry.1.all Char.isAlpha = true)
    (hrest : Follows rest) (s : List CodePoint) :
    replace (quoted entry.1) entry.2 (literal table s ++ rest) =
      literal (table ++ [entry]) s ++ replace (quoted entry.1) entry.2 rest :=
  replace_literal_of htable hword (replace_afterQuote htable hword hrest s)

theorem literal_nil (s : List CodePoint) : literal [] s = writeString s := by
  change '"' :: afterQuote [] s = '"' :: (s.flatMap writeChar ++ ['"'])
  congr 1
  induction s with
  | nil => rfl
  | cons c s ih =>
      by_cases hc : c = codePoint '"'
      · subst hc
        rw [afterQuote_quote, List.flatMap_cons, List.append_assoc, ← ih]
        rfl
      · rw [afterQuote_of_ne hc, List.flatMap_cons, List.append_assoc, ih]

end Literals

section Documents

variable {α : Type} {table : List (List Char × List Char)} {string : α → Option (List CodePoint)}
  {other : α → List Char}

def leafText (string : α → Option (List CodePoint)) (other : α → List Char)
    (table : List (List Char × List Char)) (a : α) : List Char :=
  match string a with
  | some s => literal table s
  | none => other a

theorem replace_leafText (hother : ∀ a, string a = none → '"' ∉ other a) (htable : Words table)
    {entry : List Char × List Char} (hword : entry.1.all Char.isAlpha = true) {rest : List Char}
    (hrest : Follows rest) (a : α) :
    replace (quoted entry.1) entry.2 (leafText string other table a ++ rest) =
      leafText string other (table ++ [entry]) a ++ replace (quoted entry.1) entry.2 rest := by
  unfold leafText
  cases hstring : string a with
  | some s => exact replace_literal htable hword hrest s
  | none => exact replace_part (hother a hstring)

theorem Words.of_append_left {later : List (List Char × List Char)}
    (h : Words (table ++ later)) : Words table :=
  ⟨fun e he => h.letters e (List.mem_append_left _ he),
    fun e he => h.plain e (List.mem_append_left _ he)⟩

/-- One more word is replaced in the text of a document. -/
theorem replace_layout (hother : ∀ a, string a = none → '"' ∉ other a) (htable : Words table)
    {entry : List Char × List Char} (hword : entry.1.all Char.isAlpha = true)
    (d : Document (List CodePoint) α) :
    replace (quoted entry.1) entry.2 (layout (literal table) (leafText string other table) d) =
      layout (literal (table ++ [entry])) (leafText string other (table ++ [entry])) d := by
  have hplain : ∀ c rest, c ≠ '"' → replace (quoted entry.1) entry.2 (c :: rest) =
      c :: replace (quoted entry.1) entry.2 rest := by
    intro c rest hc
    apply replace_cons
    intro hprefix
    exact hc (List.cons_prefix_cons.1 hprefix).1.symm
  have hstep := translates hplain
    (fun k _ hrest => replace_literal htable hword hrest k)
    (fun a _ hrest => replace_leafText hother htable hword hrest a) d [] follows_nil
  rwa [List.append_nil, replace_nil, List.append_nil] at hstep

theorem replaceWords_layout_append (hother : ∀ a, string a = none → '"' ∉ other a)
    (d : Document (List CodePoint) α) (later : List (List Char × List Char))
    (hwords : Words (table ++ later)) :
    replaceWords later (layout (literal table) (leafText string other table) d) =
      layout (literal (table ++ later)) (leafText string other (table ++ later)) d := by
  induction later generalizing table with
  | nil =>
      rw [List.append_nil]
      rfl
  | cons entry later ih =>
      have hentry := hwords.letters entry (List.mem_append_right _ List.mem_cons_self)
      have hstep := replace_layout hother hwords.of_append_left hentry d
      rw [List.append_cons] at hwords ⊢
      rw [← ih hwords, ← hstep]
      rfl

/-- In the text of a document each string is treated alone. -/
theorem replaceWords_layout (hother : ∀ a, string a = none → '"' ∉ other a)
    (htable : Words table) (d : Document (List CodePoint) α) :
    replaceWords table (layout writeString (leafText string other []) d) =
      layout (literal table) (leafText string other table) d := by
  have h := @replaceWords_layout_append α [] string other hother d table htable
  rwa [List.nil_append, funext literal_nil] at h

end Documents

section Changed

variable {table : List (List Char × List Char)} {s : List CodePoint}

def IsWord (table : List (List Char × List Char)) (s : List CodePoint) : Prop :=
  ∃ entry ∈ table, s = codePoints entry.1

def EndsWithWord (table : List (List Char × List Char)) (s : List CodePoint) : Prop :=
  ∃ entry ∈ table, codePoint '"' :: codePoints entry.1 <:+ s

theorem lookup_eq_none_iff : lookup table s = none ↔ ¬ IsWord table s := by
  rw [lookup, Option.map_eq_none_iff, List.find?_eq_none]
  simp only [IsWord, decide_eq_true_eq, not_exists, not_and, @eq_comm _ s]

theorem literal_of_not_isWord (h : ¬ IsWord table s) :
    literal table s = '"' :: afterQuote table s := by
  rw [literal, lookup_eq_none_iff.2 h, Option.getD_none]

theorem not_isWord_nil : ¬ IsWord [] s := by simp [IsWord]

theorem endsWithWord_cons (c : CodePoint) :
    EndsWithWord table (c :: s) ↔ c = codePoint '"' ∧ IsWord table s ∨ EndsWithWord table s := by
  simp only [EndsWithWord, IsWord, List.suffix_cons_iff, List.cons.injEq, eq_comm]
  constructor
  · rintro ⟨entry, hentry, ⟨hc, hs⟩ | hsuffix⟩
    · exact Or.inl ⟨hc, entry, hentry, hs⟩
    · exact Or.inr ⟨entry, hentry, hsuffix⟩
  · rintro (⟨hc, entry, hentry, hs⟩ | ⟨entry, hentry, hsuffix⟩)
    · exact ⟨entry, hentry, Or.inl ⟨hc, hs⟩⟩
    · exact ⟨entry, hentry, Or.inr hsuffix⟩

def Shorter (table : List (List Char × List Char)) : Prop :=
  ∀ entry ∈ table, entry.2.length < (quoted entry.1).length

theorem length_literal_of_isWord (htable : Words table) (hshorter : Shorter table)
    (hs : IsWord table s) : (literal table s).length < (literal [] s).length := by
  cases hlookup : lookup table s with
  | none => exact absurd hs (lookup_eq_none_iff.1 hlookup)
  | some text =>
      obtain ⟨found, hfound, rfl⟩ := Option.map_eq_some_iff.1 hlookup
      have hmem := List.mem_of_find?_eq_some hfound
      have hword : codePoints found.1 = s := by simpa using List.find?_some hfound
      have hself : literal [] s = quoted found.1 := by
        rw [← hword]
        exact congrArg (List.cons '"') (afterQuote_word (htable.letters found hmem))
      rw [hself, literal, hlookup]
      exact hshorter found hmem

/-- The rest of a string is shorter where it ends with a quote and a word. -/
theorem afterQuote_changed (htable : Words table) (hshorter : Shorter table)
    (s : List CodePoint) :
    (EndsWithWord table s → (afterQuote table s).length < (afterQuote [] s).length) ∧
      (¬ EndsWithWord table s → afterQuote table s = afterQuote [] s) := by
  induction s with
  | nil =>
      constructor
      · rintro ⟨entry, -, hsuffix⟩
        exact absurd (List.suffix_nil.1 hsuffix) (List.cons_ne_nil _ _)
      · exact fun _ => rfl
  | cons c s ih =>
      rw [endsWithWord_cons]
      by_cases hc : c = codePoint '"'
      · subst hc
        rw [afterQuote_quote, afterQuote_quote, List.length_cons, List.length_cons]
        by_cases hword : IsWord table s
        · have hlt := length_literal_of_isWord htable hshorter hword
          exact ⟨fun _ => by omega, fun h => absurd (Or.inl ⟨rfl, hword⟩) h⟩
        · rw [literal_of_not_isWord hword, literal_of_not_isWord not_isWord_nil]
          constructor
          · rintro (⟨-, h⟩ | h)
            · exact absurd h hword
            · have hlt := ih.1 h
              simp only [List.length_cons]
              omega
          · intro h
            rw [ih.2 fun hends => h (Or.inr hends)]
      · rw [afterQuote_of_ne hc, afterQuote_of_ne hc, List.length_append, List.length_append]
        constructor
        · rintro (⟨h, -⟩ | h)
          · exact absurd h hc
          · have hlt := ih.1 h
            omega
        · intro h
          rw [ih.2 fun hends => h (Or.inr hends)]

theorem literal_eq_writeString (htable : Words table) (hshorter : Shorter table)
    (hword : ¬ IsWord table s) (hends : ¬ EndsWithWord table s) :
    literal table s = writeString s := by
  rw [← literal_nil, literal_of_not_isWord hword, literal_of_not_isWord not_isWord_nil,
    (afterQuote_changed htable hshorter s).2 hends]

theorem length_literal_of_ends (htable : Words table) (hshorter : Shorter table)
    (hword : ¬ IsWord table s) (hends : EndsWithWord table s) :
    (literal table s).length < (writeString s).length := by
  have hlt := (afterQuote_changed htable hshorter s).1 hends
  rw [← literal_nil, literal_of_not_isWord hword, literal_of_not_isWord not_isWord_nil,
    List.length_cons, List.length_cons]
  omega

end Changed

end Words

end JsonText
