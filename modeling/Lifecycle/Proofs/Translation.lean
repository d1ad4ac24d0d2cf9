import Lifecycle.Line
import Mathlib.Data.List.Infix

/-! # Which lines are translated

A line is translated exactly if the separator occurs in it somewhere, and each line that is
translated gives one description. -/

namespace Lifecycle.Line

/-- What stands between the time of a line and its text. -/
def separator : List Char := [' ', '-', ' ']

def hasSeparator (line : String) : Bool := decide (separator <:+: line.toList)

theorem afterSeparator_isSome_iff (text : List Char) :
    (afterSeparator text).isSome = true ↔ separator <:+: text := by
  fun_induction afterSeparator text with
  | case1 => simp [separator]
  | case2 rest =>
    simp only [Option.isSome_some, true_iff]
    exact (List.prefix_append separator rest).isInfix
  | case3 c rest hother ih =>
    rw [ih, List.infix_cons_iff]
    constructor
    · exact Or.inr
    · rintro (⟨t, ht⟩ | h)
      · simp only [separator, List.cons_append, List.nil_append, List.cons.injEq] at ht
        exact absurd ht.2.symm (hother t ht.1.symm)
      · exact h

theorem translate_of_hasSeparator {line : String} (h : hasSeparator line = true) (host : Host) :
    ∃ description, translate line host = .ok description := by
  have hsome := (afterSeparator_isSome_iff line.toList).2 (of_decide_eq_true h)
  obtain ⟨text, htext⟩ := Option.isSome_iff_exists.1 hsome
  exact ⟨describe host (dropName text), by rw [translate, htext]⟩

theorem translate_of_not_hasSeparator {line : String} (h : hasSeparator line = false)
    (host : Host) : translate line host = .error ⟨line⟩ := by
  rw [translate_eq_error_iff]
  refine ⟨?_, rfl⟩
  rw [← Option.not_isSome_iff_eq_none, afterSeparator_isSome_iff]
  exact of_decide_eq_false h

/-- The descriptions of the lines that can be translated, in order. -/
def descriptions (host : Host) (lines : List String) : List String :=
  lines.filterMap fun line => (translate line host).toOption

theorem map_ok_descriptions (host : Host) (lines : List String) :
    (descriptions host lines).map Except.ok =
      (lines.filter hasSeparator).map fun line => translate line host := by
  induction lines with
  | nil => rfl
  | cons line rest ih =>
    rw [descriptions, List.filterMap_cons, List.filter_cons]
    cases h : hasSeparator line with
    | true =>
      obtain ⟨description, hd⟩ := translate_of_hasSeparator h host
      rw [hd, if_pos rfl, List.map_cons, hd, ← ih]
      rfl
    | false =>
      rw [translate_of_not_hasSeparator h host, if_neg Bool.false_ne_true, ← ih]
      rfl

/-- The line becomes an event: the lifecycle logger wrote it, and it can be translated. -/
def makesEvent (line : String) : Bool := hasSeparator line && isEvent line

theorem filter_hasSeparator_filter_isEvent (lines : List String) :
    (lines.filter isEvent).filter hasSeparator = lines.filter makesEvent := List.filter_filter

end Lifecycle.Line
