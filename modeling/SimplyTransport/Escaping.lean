import Mathlib.Data.List.Basic
import Mathlib.Data.List.Infix

/-!
# Escaping and templates

Texts over any alphabet. A table of replacements is applied one entry after the other, each to the
whole text, or in one pass over the characters. The two agree where no text of the table contains
the character of a later entry, and the one pass is undone by reading the texts back where each
starts with an encoded character and none is the start of another. A template is a text in which the
parts of the template and the values put into it are told apart.
-/

namespace Escaping

variable {α : Type*}

section Tables

variable [DecidableEq α]

def replaceAll (c : α) (text : List α) (s : List α) : List α :=
  s.flatMap (fun x => if x = c then text else [x])

def replaceEach (table : List (α × List α)) (s : List α) : List α :=
  table.foldl (fun s entry => replaceAll entry.1 entry.2 s) s

/-- What one character becomes in one pass: the text of its first entry. -/
def encodeChar (table : List (α × List α)) (c : α) : List α :=
  match table.find? (fun entry => entry.1 = c) with
  | some entry => entry.2
  | none => [c]

def encode (table : List (α × List α)) (s : List α) : List α := s.flatMap (encodeChar table)

/-- `skip` characters belong to a text that has been read. -/
def decodeFrom (table : List (α × List α)) : ℕ → List α → List α
  | _, [] => []
  | skip + 1, _ :: rest => decodeFrom table skip rest
  | 0, c :: rest =>
      match table.find? (fun entry => entry.2 <+: c :: rest) with
      | some entry => entry.1 :: decodeFrom table (entry.2.length - 1) rest
      | none => c :: decodeFrom table 0 rest

def decode (table : List (α × List α)) (s : List α) : List α := decodeFrom table 0 s

structure Readable (table : List (α × List α)) : Prop where
  starts : ∀ entry ∈ table, ∃ c ∈ table.map Prod.fst, entry.2.head? = some c
  prefix_free : ∀ entry ∈ table, ∀ other ∈ table, other.2 <+: entry.2 → other = entry

theorem encodeChar_cases (table : List (α × List α)) (c : α) :
    (∃ text, (c, text) ∈ table ∧ encodeChar table c = text) ∨
      (c ∉ table.map Prod.fst ∧ encodeChar table c = [c]) := by
  unfold encodeChar
  cases hfind : table.find? (fun entry => entry.1 = c) with
  | some entry =>
      have hkey : entry.1 = c := by simpa using List.find?_some hfind
      have hmem := List.mem_of_find?_eq_some hfind
      subst hkey
      exact Or.inl ⟨entry.2, hmem, rfl⟩
  | none =>
      apply Or.inr
      constructor
      · intro hc
        obtain ⟨entry, hentry, hkey⟩ := List.mem_map.1 hc
        have hne := List.find?_eq_none.1 hfind entry hentry
        exact hne (decide_eq_true hkey)
      · rfl

theorem encodeChar_cons_self (c : α) (text : List α) (table : List (α × List α)) :
    encodeChar ((c, text) :: table) c = text := by
  simp [encodeChar]

theorem encodeChar_cons_ne {c x : α} (h : x ≠ c) (text : List α) (table : List (α × List α)) :
    encodeChar ((c, text) :: table) x = encodeChar table x := by
  simp [encodeChar, Ne.symm h]

/-- A text without the characters of a table is not changed by it. -/
theorem encode_eq_self {table : List (α × List α)} {s : List α}
    (h : ∀ c ∈ s, c ∉ table.map Prod.fst) : encode table s = s := by
  induction s with
  | nil => rfl
  | cons c s ih =>
      have hc : encodeChar table c = [c] := by
        rcases encodeChar_cases table c with ⟨text, hmem, -⟩ | ⟨-, hself⟩
        · exact absurd (List.mem_map_of_mem hmem) (h c List.mem_cons_self)
        · exact hself
      rw [encode, List.flatMap_cons, hc]
      exact congrArg (c :: ·) (ih fun x hx => h x (List.mem_cons_of_mem _ hx))

/-- The successive replacements are the one pass. -/
theorem replaceEach_eq_encode {table : List (α × List α)}
    (h : table.Pairwise (fun earlier later => later.1 ∉ earlier.2)) (s : List α) :
    replaceEach table s = encode table s := by
  induction table generalizing s with
  | nil => exact (encode_eq_self (by simp)).symm
  | cons entry table ih =>
      obtain ⟨hentry, htable⟩ := List.pairwise_cons.1 h
      have hrest : replaceEach (entry :: table) s = replaceEach table (replaceAll entry.1 entry.2 s) :=
        rfl
      rw [hrest, ih htable, encode, encode, replaceAll, List.flatMap_assoc]
      congr 1
      funext c
      by_cases hc : c = entry.1
      · subst hc
        rw [if_pos rfl, encodeChar_cons_self]
        apply encode_eq_self
        intro x hx hkey
        obtain ⟨later, hlater, rfl⟩ := List.mem_map.1 hkey
        exact hentry later hlater hx
      · rw [if_neg hc, encodeChar_cons_ne hc, List.flatMap_singleton]

/-- No text of the table contains a character that the table encodes: it occurs nowhere. -/
theorem not_mem_encode {table : List (α × List α)} {c : α} (hkey : c ∈ table.map Prod.fst)
    (htexts : ∀ entry ∈ table, c ∉ entry.2) (s : List α) : c ∉ encode table s := by
  intro hc
  obtain ⟨x, -, hx⟩ := List.mem_flatMap.1 hc
  rcases encodeChar_cases table x with ⟨text, hmem, htext⟩ | ⟨hnot, hself⟩
  · rw [htext] at hx
    exact htexts _ hmem hx
  · rw [hself, List.mem_singleton] at hx
    rw [hx] at hkey
    exact hnot hkey

omit [DecidableEq α] in
theorem Readable.exists_cons {table : List (α × List α)} (h : Readable table)
    {entry : α × List α} (hentry : entry ∈ table) :
    ∃ c ∈ table.map Prod.fst, ∃ rest, entry.2 = c :: rest := by
  obtain ⟨c, hc, hhead⟩ := h.starts entry hentry
  exact ⟨c, hc, List.head?_eq_some_iff.1 hhead⟩

theorem decodeFrom_drop (table : List (α × List α)) (text rest : List α) :
    decodeFrom table text.length (text ++ rest) = decodeFrom table 0 rest := by
  induction text with
  | nil => rfl
  | cons c text ih => exact ih

/-- A text at the start is read back. -/
theorem decode_text {table : List (α × List α)} (h : Readable table) {c : α} {text : List α}
    (hmem : (c, text) ∈ table) (rest : List α) :
    decode table (text ++ rest) = c :: decode table rest := by
  obtain ⟨first, -, tail, hstart⟩ := h.exists_cons hmem
  simp only at hstart
  subst hstart
  have hfind : table.find? (fun entry => entry.2 <+: first :: (tail ++ rest)) =
      some (c, first :: tail) := by
    have hself : (first :: tail) <+: first :: (tail ++ rest) := ⟨rest, rfl⟩
    cases hfound : table.find? (fun entry => entry.2 <+: first :: (tail ++ rest)) with
    | none =>
        have hnone := List.find?_eq_none.1 hfound _ hmem
        exact absurd (decide_eq_true hself) hnone
    | some entry =>
        have hentry := List.mem_of_find?_eq_some hfound
        have hbefore : entry.2 <+: first :: (tail ++ rest) := by
          simpa using List.find?_some hfound
        rcases List.prefix_or_prefix_of_prefix hbefore hself with hle | hle
        · rw [h.prefix_free _ hmem _ hentry hle]
        · rw [h.prefix_free _ hentry _ hmem hle]
  rw [decode, List.cons_append, decodeFrom, hfind]
  exact congrArg (c :: ·) (decodeFrom_drop table tail rest)

/-- A character that starts no text is read as itself. -/
theorem decode_char {table : List (α × List α)} (h : Readable table) {c : α}
    (hc : c ∉ table.map Prod.fst) (rest : List α) :
    decode table (c :: rest) = c :: decode table rest := by
  have hfind : table.find? (fun entry => entry.2 <+: c :: rest) = none := by
    apply List.find?_eq_none.2
    intro entry hentry hbefore
    obtain ⟨first, hfirst, tail, hstart⟩ := h.exists_cons hentry
    rw [decide_eq_true_eq, hstart, List.cons_prefix_cons] at hbefore
    exact hc (hbefore.1 ▸ hfirst)
  rw [decode, decodeFrom, hfind]
  rfl

theorem decode_encode {table : List (α × List α)} (h : Readable table) (s : List α) :
    decode table (encode table s) = s := by
  induction s with
  | nil => rfl
  | cons c s ih =>
      rw [encode, List.flatMap_cons]
      rcases encodeChar_cases table c with ⟨text, hmem, htext⟩ | ⟨hnot, hself⟩
      · rw [htext, decode_text h hmem]
        exact congrArg (c :: ·) ih
      · rw [hself, List.singleton_append, decode_char h hnot]
        exact congrArg (c :: ·) ih

end Tables

/-- A part of a text: the template's own, or a value put into it. -/
inductive Piece (α : Type*)
  | own (text : List α)
  | value (text : List α)
  deriving DecidableEq

def Piece.text : Piece α → List α
  | .own text => text
  | .value text => text

def render (parts : List (Piece α)) : List α := parts.flatMap Piece.text

def ownParts (parts : List (Piece α)) : List α :=
  parts.flatMap (fun part => match part with
    | .own text => text
    | .value _ => [])

def CleanOf (special : α → Prop) (parts : List (Piece α)) : Prop :=
  ∀ text, Piece.value text ∈ parts → ∀ c ∈ text, ¬ special c

section Clean

variable {special : α → Prop}

@[simp] theorem cleanOf_nil : CleanOf special ([] : List (Piece α)) := by
  intro text h
  exact absurd h List.not_mem_nil

@[simp] theorem cleanOf_own (text : List α) (parts : List (Piece α)) :
    CleanOf special (.own text :: parts) ↔ CleanOf special parts := by
  simp [CleanOf]

@[simp] theorem cleanOf_value (text : List α) (parts : List (Piece α)) :
    CleanOf special (.value text :: parts) ↔ (∀ c ∈ text, ¬ special c) ∧ CleanOf special parts := by
  simp [CleanOf]

@[simp] theorem cleanOf_append (left right : List (Piece α)) :
    CleanOf special (left ++ right) ↔ CleanOf special left ∧ CleanOf special right := by
  simp only [CleanOf, List.mem_append]
  constructor
  · intro h
    exact ⟨fun text ht => h text (Or.inl ht), fun text ht => h text (Or.inr ht)⟩
  · rintro ⟨hleft, hright⟩ text (ht | ht)
    · exact hleft text ht
    · exact hright text ht

theorem cleanOf_intercalate {separator : List (Piece α)} (hsep : CleanOf special separator)
    {items : List (List (Piece α))} (h : ∀ item ∈ items, CleanOf special item) :
    CleanOf special (separator.intercalate items) := by
  induction items with
  | nil => simp
  | cons item items ih =>
      cases items with
      | nil => simpa using h item List.mem_cons_self
      | cons next items =>
          rw [List.intercalate_cons_cons, cleanOf_append, cleanOf_append]
          refine ⟨⟨h item List.mem_cons_self, hsep⟩, ?_⟩
          exact ih fun x hx => h x (List.mem_cons_of_mem _ hx)

/-- With clean values the special characters of the text are those of the template. -/
theorem filter_render [DecidablePred special] {parts : List (Piece α)}
    (h : CleanOf special parts) :
    (render parts).filter special = (ownParts parts).filter special := by
  induction parts with
  | nil => rfl
  | cons part parts ih =>
      rw [render, ownParts, List.flatMap_cons, List.flatMap_cons, List.filter_append,
        List.filter_append]
      cases part with
      | own text => exact congrArg _ (ih ((cleanOf_own _ _).1 h))
      | value text =>
          obtain ⟨htext, hparts⟩ := (cleanOf_value _ _).1 h
          have hnone : text.filter (fun c => decide (special c)) = [] := by
            apply List.filter_eq_nil_iff.2
            intro c hc
            simpa using htext c hc
          exact (congrArg (· ++ _) hnone).trans (ih hparts)

end Clean

end Escaping
