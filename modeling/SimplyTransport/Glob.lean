import Mathlib.Data.List.Infix
import Mathlib.Tactic.Common

/-!
# Glob patterns

Matching of a text against a pattern in which `*` stands for any text and every other character
for itself. A pattern that begins and ends with `*` and has no other matches the texts that
contain what is between. A text with a separator contains it on one side of the separator.
-/

namespace Glob

def wildcard : Char := '*'

def glob : List Char → List Char → Bool
  | [], text => text.isEmpty
  | c :: pattern, text =>
    if c = wildcard then text.tails.any (fun rest => glob pattern rest)
    else text.head? = some c && glob pattern text.tail

def globMatches (pattern text : String) : Bool := glob pattern.toList text.toList

theorem glob_wildcard {pattern text : List Char} :
    glob (wildcard :: pattern) text = true ↔ ∃ rest, rest <:+ text ∧ glob pattern rest = true := by
  rw [glob, if_pos rfl, List.any_eq_true]
  simp only [List.mem_tails]

theorem glob_cons {c : Char} (hc : c ≠ wildcard) {pattern text : List Char} :
    glob (c :: pattern) text = true ↔ ∃ rest, text = c :: rest ∧ glob pattern rest = true := by
  rw [glob, if_neg hc, Bool.and_eq_true, decide_eq_true_eq]
  constructor
  · rintro ⟨hhead, hrest⟩
    exact ⟨text.tail, (List.cons_head?_tail hhead).symm, hrest⟩
  · rintro ⟨rest, rfl, hrest⟩
    exact ⟨rfl, hrest⟩

theorem glob_literal {literal pattern text : List Char} (h : wildcard ∉ literal) :
    glob (literal ++ pattern) text = true ↔
      ∃ rest, text = literal ++ rest ∧ glob pattern rest = true := by
  induction literal generalizing text with
  | nil => exact ⟨fun hg => ⟨text, rfl, hg⟩, fun ⟨_, htext, hg⟩ => htext ▸ hg⟩
  | cons c literal ih =>
      have hc : c ≠ wildcard := fun hc => h (hc ▸ List.mem_cons_self)
      rw [List.cons_append, glob_cons hc]
      simp only [ih (fun hmem => h (List.mem_cons_of_mem c hmem))]
      constructor
      · rintro ⟨_, rfl, rest, rfl, hg⟩
        exact ⟨rest, rfl, hg⟩
      · rintro ⟨rest, rfl, hg⟩
        exact ⟨literal ++ rest, rfl, rest, rfl, hg⟩

theorem glob_all (text : List Char) : glob [wildcard] text = true :=
  glob_wildcard.2 ⟨[], List.nil_suffix, rfl⟩

/-- `*literal*` -/
theorem glob_contains {literal text : List Char} (h : wildcard ∉ literal) :
    glob (wildcard :: (literal ++ [wildcard])) text = true ↔ literal <:+: text := by
  rw [glob_wildcard]
  simp only [glob_literal h, glob_all, and_true]
  constructor
  · rintro ⟨_, ⟨before, rfl⟩, after, rfl⟩
    exact ⟨before, after, List.append_assoc _ _ _⟩
  · rintro ⟨before, after, rfl⟩
    exact ⟨literal ++ after, ⟨before, (List.append_assoc _ _ _).symm⟩, after, rfl⟩

theorem globMatches_contains {pattern literal text : String} (h : wildcard ∉ literal.toList)
    (hpattern : pattern = "*" ++ literal ++ "*") :
    globMatches pattern text = true ↔ literal.toList <:+: text.toList := by
  rw [globMatches, hpattern, String.toList_append, String.toList_append]
  exact glob_contains h

section Occurrence

variable {α : Type*} {c : α} {literal before after cut : List α}

/-- What ends in a character that comes no more occurs before there. -/
theorem infix_of_infix_append (hlast : literal.getLast? = some c) (hc : c ∉ after)
    (h : literal <:+: before ++ after) : literal <:+: before := by
  obtain ⟨left, right, h⟩ := h
  rcases List.append_eq_append_iff.1 h with ⟨rest, hbefore, _⟩ | ⟨rest, hleft, hafter⟩
  · exact ⟨left, rest, hbefore.symm⟩
  · rcases List.eq_nil_or_concat rest with rfl | ⟨rest, d, rfl⟩
    · exact ⟨left, [], by rw [List.append_nil, hleft, List.append_nil]⟩
    · have hd := congrArg List.getLast? hleft
      rw [List.getLast?_append, hlast, List.concat_eq_append, ← List.append_assoc,
        List.getLast?_concat] at hd
      obtain rfl := Option.some.inj hd
      refine absurd ?_ hc
      rw [hafter, List.concat_eq_append]
      simp only [List.mem_append, List.mem_singleton, or_true, true_or]

theorem not_infix_of_not_mem (hlast : literal.getLast? = some c) (hc : c ∉ after) :
    ¬ literal <:+: after := by
  intro h
  have hoccurs : literal <:+: [] ++ after := h
  rw [List.infix_nil.1 (infix_of_infix_append hlast hc hoccurs)] at hlast
  cases hlast

/-- The same with the character before the last one, which must not end what comes before. -/
theorem infix_of_infix_append_dropLast (hlast : literal.dropLast.getLast? = some c)
    (hc : c ∉ after) (hbefore : before.getLast? ≠ some c) (h : literal <:+: before ++ after) :
    literal <:+: before := by
  have hne : literal ≠ [] := by
    rintro rfl
    cases hlast
  obtain ⟨left, right, h⟩ := h
  rcases List.append_eq_append_iff.1 h with ⟨rest, hend, _⟩ | ⟨rest, hleft, hafter⟩
  · exact ⟨left, rest, hend.symm⟩
  · rcases List.eq_nil_or_concat rest with rfl | ⟨rest, d, rfl⟩
    · exact ⟨left, [], by rw [List.append_nil, hleft, List.append_nil]⟩
    · have hdrop := congrArg (fun l => l.dropLast.getLast?) hleft
      simp only [List.dropLast_append_of_ne_nil hne, List.getLast?_append, hlast,
        List.concat_eq_append, ← List.append_assoc, List.dropLast_concat] at hdrop
      rcases List.eq_nil_or_concat rest with rfl | ⟨rest, e, rfl⟩
      · exact absurd hdrop.symm hbefore
      · rw [List.concat_eq_append, List.getLast?_concat] at hdrop
        obtain rfl := Option.some.inj hdrop
        refine absurd ?_ hc
        rw [hafter, List.concat_eq_append, List.concat_eq_append]
        simp only [List.mem_append, List.mem_singleton, or_true, true_or]

/-- What begins with another character occurs after it. -/
theorem infix_of_infix_cons (hhead : literal.head? ≠ some c) (hne : literal ≠ [])
    (h : literal <:+: c :: after) : literal <:+: after := by
  rcases List.infix_cons_iff.1 h with ⟨rest, hstart⟩ | h
  · cases literal with
    | nil => exact absurd rfl hne
    | cons d literal =>
        obtain ⟨rfl, _⟩ := List.cons.inj hstart
        exact absurd rfl hhead
  · exact h

theorem prefix_before_cut (hcut : ¬ cut <:+: literal)
    (h : literal <+: before ++ (cut ++ after)) : literal <+: before ++ cut.dropLast := by
  have hne : cut ≠ [] := fun hnil => hcut (hnil ▸ List.nil_infix)
  obtain ⟨right, h⟩ := h
  rw [← List.append_assoc] at h
  rcases List.append_eq_append_iff.1 h with ⟨rest, hcuts, _⟩ | ⟨rest, hliteral, _⟩
  · rcases List.eq_nil_or_concat rest with rfl | ⟨rest, d, rfl⟩
    · rw [List.append_nil] at hcuts
      exact absurd ⟨before, [], by rw [List.append_nil, hcuts]⟩ hcut
    · have hdrop := congrArg List.dropLast hcuts
      rw [List.dropLast_append_of_ne_nil hne, List.concat_eq_append, ← List.append_assoc,
        List.dropLast_concat] at hdrop
      exact ⟨rest, hdrop.symm⟩
  · exact absurd ⟨before, rest, hliteral.symm⟩ hcut

/-- What does not contain the cut occurs on one side of it. -/
theorem infix_before_or_after (hcut : ¬ cut <:+: literal)
    (h : literal <:+: before ++ (cut ++ after)) :
    literal <:+: before ++ cut.dropLast ∨ literal <:+: cut.tail ++ after := by
  obtain ⟨left, right, h⟩ := h
  rw [List.append_assoc] at h
  rcases List.append_eq_append_iff.1 h with ⟨rest, rfl, hrest⟩ | ⟨rest, _, hrest⟩
  · obtain ⟨right', h⟩ := prefix_before_cut hcut ⟨right, hrest⟩
    exact Or.inl ⟨left, right', by rw [List.append_assoc, List.append_assoc, h]⟩
  · cases rest with
    | nil =>
        have hstart : literal <+: [] ++ (cut ++ after) := ⟨right, hrest.symm⟩
        obtain ⟨right', h⟩ := prefix_before_cut hcut hstart
        exact Or.inl ⟨before, right', by rw [List.append_assoc, h, List.nil_append]⟩
    | cons d rest =>
        cases cut with
        | nil => exact absurd List.nil_infix hcut
        | cons e cut =>
            obtain ⟨_, hrest⟩ := List.cons.inj hrest
            exact Or.inr ⟨rest, right, by rw [List.append_assoc]; exact hrest.symm⟩

end Occurrence
end Glob
