import Mathlib.Data.List.Infix
import Mathlib.Tactic.Common

/-!
# Patterns of SQL's `LIKE`

Matching of a text against a pattern in which `%` stands for any text, `_` for any character and
`\` for the character after it. A text without these, followed by `%`, matches what begins with it.
-/

namespace LikePattern

def anyText : Char := '%'

def anyChar : Char := '_'

def escape : Char := '\\'

/-- A pattern that ends in the escape character is none, and matches nothing. -/
def like : List Char → List Char → Bool
  | [], text => text.isEmpty
  | c :: pattern, text =>
    if c = anyText then text.tails.any (fun rest => like pattern rest)
    else if c = anyChar then !text.isEmpty && like pattern text.tail
    else if c = escape then
      match pattern with
      | [] => false
      | d :: pattern => text.head? = some d && like pattern text.tail
    else text.head? = some c && like pattern text.tail

/-- The character stands for itself in a pattern. -/
def IsPlain (c : Char) : Prop := c ≠ anyText ∧ c ≠ anyChar ∧ c ≠ escape

theorem like_anyText (text : List Char) : like [anyText] text = true := by
  rw [like.eq_def]
  simp only [if_pos, List.any_eq_true]
  exact ⟨[], (List.mem_tails [] text).2 List.nil_suffix, rfl⟩

theorem like_cons_plain {c : Char} (hc : IsPlain c) (pattern text : List Char) :
    like (c :: pattern) text = (text.head? = some c && like pattern text.tail) := by
  rw [like.eq_def]
  simp only [if_neg hc.1, if_neg hc.2.1, if_neg hc.2.2]

theorem like_prefix {literal : List Char} (h : ∀ c ∈ literal, IsPlain c) (text : List Char) :
    like (literal ++ [anyText]) text = literal.isPrefixOf text := by
  induction literal generalizing text with
  | nil => rw [List.nil_append, like_anyText, List.isPrefixOf_nil_left]
  | cons c literal ih =>
      have hrest := ih (fun d hd => h d (List.mem_cons_of_mem c hd))
      rw [List.cons_append, like_cons_plain (h c List.mem_cons_self)]
      cases text with
      | nil => rfl
      | cons d text =>
          rw [List.head?_cons, List.tail_cons, hrest, List.isPrefixOf_cons_cons]
          by_cases heq : d = c
          · simp [heq]
          · simp [heq, Ne.symm heq]

end LikePattern
