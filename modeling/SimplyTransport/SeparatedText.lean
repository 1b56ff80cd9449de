import Mathlib.Data.List.Basic
import Mathlib.Data.List.Infix

/-!
# Texts with a separator

Parts joined by a separator are the parts again when the text is split, provided that none of them
contains the first character of the separator. A text is replaced by another one between the parts.
-/

namespace SeparatedText

variable {α : Type*} [DecidableEq α]

/-- `skip` characters belong to a separator that has been read. -/
def splitFrom (separator : List α) : ℕ → List α → List (List α)
  | _, [] => [[]]
  | skip + 1, _ :: rest => splitFrom separator skip rest
  | 0, c :: rest =>
      if separator <+: c :: rest then [] :: splitFrom separator (separator.length - 1) rest
      else (splitFrom separator 0 rest).modifyHead (fun part => c :: part)

/-- The parts of a text between the places of a separator that is not empty. -/
def split (separator text : List α) : List (List α) := splitFrom separator 0 text

variable {separator : List α}

theorem splitFrom_drop (separator read rest : List α) :
    splitFrom separator read.length (read ++ rest) = splitFrom separator 0 rest := by
  induction read with
  | nil => rfl
  | cons c read ih => exact ih

theorem splitFrom_separator (c : α) (tail rest : List α) :
    splitFrom (c :: tail) 0 (c :: tail ++ rest) = [] :: splitFrom (c :: tail) 0 rest := by
  have hread : c :: tail <+: c :: (tail ++ rest) := ⟨rest, rfl⟩
  rw [List.cons_append, splitFrom, if_pos hread, List.length_cons, Nat.add_sub_cancel,
    splitFrom_drop]

/-- Before the first separator nothing is split. -/
theorem splitFrom_append {c : α} {tail part : List α} (hpart : c ∉ part) (rest : List α) :
    splitFrom (c :: tail) 0 (part ++ rest) =
      (splitFrom (c :: tail) 0 rest).modifyHead (fun text => part ++ text) := by
  induction part with
  | nil => exact (congrFun List.modifyHead_id _).symm
  | cons d part ih =>
      rw [List.mem_cons, not_or] at hpart
      have hread : ¬ c :: tail <+: d :: (part ++ rest) := by
        intro h
        exact hpart.1 (List.cons_prefix_cons.1 h).1
      rw [List.cons_append, splitFrom, if_neg hread, ih hpart.2, List.modifyHead_modifyHead]
      rfl

theorem split_part {c : α} {tail part : List α} (hpart : c ∉ part) :
    split (c :: tail) part = [part] := by
  have h := @splitFrom_append _ _ c tail part hpart []
  rw [List.append_nil] at h
  rw [split, h, splitFrom, List.modifyHead_cons, List.append_nil]

/-- The first part and the rest of a text. -/
theorem split_append_separator {c : α} {tail part : List α} (hpart : c ∉ part) (rest : List α) :
    split (c :: tail) (part ++ (c :: tail) ++ rest) = part :: split (c :: tail) rest := by
  rw [split, List.append_assoc, splitFrom_append hpart, splitFrom_separator,
    List.modifyHead_cons, List.append_nil, split]

theorem split_intercalate {c : α} {tail : List α} {parts : List (List α)}
    (hparts : ∀ part ∈ parts, c ∉ part) (hne : parts ≠ []) :
    split (c :: tail) ((c :: tail).intercalate parts) = parts := by
  induction parts with
  | nil => exact absurd rfl hne
  | cons part rest ih =>
      have hpart := hparts part List.mem_cons_self
      cases rest with
      | nil =>
          rw [List.intercalate_singleton]
          exact split_part hpart
      | cons next rest =>
          have hrest := ih (fun p hp => hparts p (List.mem_cons_of_mem _ hp)) (List.cons_ne_nil _ _)
          rw [List.intercalate_cons_cons, split_append_separator hpart, hrest]

section Replace

def replace (old new text : List α) : List α := new.intercalate (split old text)

variable {new rest : List α} {c : α} {old : List α}

theorem splitFrom_ne_nil (old : List α) (skip : ℕ) (text : List α) :
    splitFrom old skip text ≠ [] := by
  induction text generalizing skip with
  | nil => cases skip <;> exact List.cons_ne_nil _ _
  | cons c rest ih =>
      cases skip with
      | succ skip => exact ih skip
      | zero =>
          rw [splitFrom]
          split_ifs
          · exact List.cons_ne_nil _ _
          · intro h
            rw [List.modifyHead_eq_nil_iff] at h
            exact ih 0 h

theorem replace_nil : replace old new [] = [] := rfl

/-- A place where nothing is replaced. -/
theorem replace_cons (h : ¬ old <+: c :: rest) :
    replace old new (c :: rest) = c :: replace old new rest := by
  unfold replace split
  rw [splitFrom, if_neg h]
  obtain ⟨part, parts, hparts⟩ := List.exists_cons_of_ne_nil (splitFrom_ne_nil old 0 rest)
  rw [hparts, List.modifyHead_cons]
  cases parts with
  | nil => rw [List.intercalate_singleton, List.intercalate_singleton]
  | cons next parts =>
      rw [List.intercalate_cons_cons, List.intercalate_cons_cons]
      rfl

theorem replace_append (h : old ≠ []) :
    replace old new (old ++ rest) = new ++ replace old new rest := by
  obtain ⟨c, tail, rfl⟩ := List.exists_cons_of_ne_nil h
  unfold replace split
  rw [splitFrom_separator]
  obtain ⟨part, parts, hparts⟩ := List.exists_cons_of_ne_nil (splitFrom_ne_nil (c :: tail) 0 rest)
  rw [hparts, List.intercalate_cons_cons, List.nil_append]

/-- A part without the first character of what is replaced. -/
theorem replace_part {part : List α} (h : c ∉ part) :
    replace (c :: old) new (part ++ rest) = part ++ replace (c :: old) new rest := by
  induction part with
  | nil => rfl
  | cons d part ih =>
      rw [List.mem_cons, not_or] at h
      have hread : ¬ c :: old <+: d :: (part ++ rest) := by
        intro hprefix
        exact h.1 (List.cons_prefix_cons.1 hprefix).1
      rw [List.cons_append, replace_cons hread, ih h.2]
      rfl

end Replace

end SeparatedText
