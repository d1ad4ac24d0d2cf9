import Lifecycle.Proofs.Line.Patterns
import Mathlib.Data.List.Infix

/-! # Which lines are event lines

An event line can also be told by a pattern: a run of characters, one more character, the marker and
another run, where no character may be a line feed. The search for the marker accepts the same lines,
and these are the lines that have it somewhere behind their first character and before any line
feed. -/

namespace Lifecycle.Line

open Pattern

/-- The pattern of event lines. -/
def eventPattern : Pattern :=
  .seq (.many (.one .notLineFeed))
    (.seq (.one .notLineFeed) (word marker (.many (.one .notLineFeed))))

variable {text : List Char}

theorem has_notLineFeed_iff {c : Char} : CharClass.notLineFeed.has c = true ↔ c ≠ '\n' :=
  bne_iff_ne

/-! ### The marker -/

/-- The marker occurs behind `before`, which has a character and no line feed. -/
def MarkedBehind (before text : List Char) : Prop :=
  before ≠ [] ∧ '\n' ∉ before ∧ ∃ after, text = before ++ marker ++ after

theorem markedBehind_singleton {c d : Char} {rest : List Char} :
    MarkedBehind [d] (c :: rest) ↔ c = d ∧ c ≠ '\n' ∧ marker <+: rest := by
  constructor
  · rintro ⟨-, hfree, after, heq⟩
    obtain ⟨rfl, rfl⟩ := List.cons.inj heq
    exact ⟨rfl, fun hc => hfree (hc ▸ List.mem_singleton_self c), List.prefix_append marker after⟩
  · rintro ⟨rfl, hc, after, rfl⟩
    exact ⟨List.cons_ne_nil _ _, fun h => hc (List.mem_singleton.1 h).symm, after, rfl⟩

theorem markedBehind_cons {c d : Char} {before rest : List Char} (h : before ≠ []) :
    MarkedBehind (d :: before) (c :: rest) ↔ c = d ∧ c ≠ '\n' ∧ MarkedBehind before rest := by
  constructor
  · rintro ⟨-, hfree, after, heq⟩
    obtain ⟨rfl, hrest⟩ := List.cons.inj heq
    obtain ⟨hc, hbefore⟩ := List.ne_and_not_mem_of_not_mem_cons hfree
    exact ⟨rfl, hc.symm, h, hbefore, after, hrest⟩
  · rintro ⟨rfl, hc, -, hbefore, after, rfl⟩
    exact ⟨List.cons_ne_nil _ _, List.not_mem_cons_of_ne_of_not_mem hc.symm hbefore, after, rfl⟩

theorem hasMarker_iff : hasMarker text = true ↔ ∃ before, MarkedBehind before text := by
  induction text with
  | nil =>
    simp only [hasMarker, Bool.false_eq_true, false_iff]
    rintro ⟨before, hne, -, after, heq⟩
    rw [eq_comm, List.append_eq_nil_iff, List.append_eq_nil_iff] at heq
    exact hne heq.1.1
  | cons c rest ih =>
    rw [hasMarker, Bool.and_eq_true, Bool.or_eq_true, List.isPrefixOf_iff_prefix, bne_iff_ne, ih]
    constructor
    · rintro ⟨hc, hhere | ⟨before, hbefore⟩⟩
      · exact ⟨[c], markedBehind_singleton.2 ⟨rfl, hc, hhere⟩⟩
      · exact ⟨c :: before, (markedBehind_cons hbefore.1).2 ⟨rfl, hc, hbefore⟩⟩
    · rintro ⟨before, hmarked⟩
      match before, hmarked with
      | [], hmarked => exact absurd rfl hmarked.1
      | [d], hmarked =>
        obtain ⟨-, hc, hhere⟩ := markedBehind_singleton.1 hmarked
        exact ⟨hc, Or.inl hhere⟩
      | d :: e :: before, hmarked =>
        obtain ⟨-, hc, hrest⟩ := (markedBehind_cons (List.cons_ne_nil e before)).1 hmarked
        exact ⟨hc, Or.inr ⟨e :: before, hrest⟩⟩

/-- The run and the one character in front of the marker are together what stands before it. -/
theorem accepts_eventPattern_iff :
    accepts eventPattern text = true ↔ ∃ before, MarkedBehind before text := by
  rw [accepts, rest?, eventPattern, thenTry, isSome_run_iff]
  constructor
  · rintro ⟨before, rest, rfl, hfree, hrest⟩
    rw [thenTry, isSome_one_iff] at hrest
    obtain ⟨c, rest, rfl, hc, hrest⟩ := hrest
    obtain ⟨after, rfl, -⟩ := isSome_word_iff.1 hrest
    refine ⟨before ++ [c], List.concat_ne_nil c before, ?_, after, by simp⟩
    rw [List.mem_append, List.mem_singleton, not_or]
    exact ⟨fun h => has_notLineFeed_iff.1 (hfree _ h) rfl, (has_notLineFeed_iff.1 hc).symm⟩
  · rintro ⟨before, hne, hfree, after, rfl⟩
    have hinit : ∀ c ∈ before.dropLast, CharClass.notLineFeed.has c = true := fun c hc =>
      has_notLineFeed_iff.2 fun h => hfree (h ▸ List.mem_of_mem_dropLast hc)
    have hlast : CharClass.notLineFeed.has (before.getLast hne) = true :=
      has_notLineFeed_iff.2 fun h => hfree (h ▸ List.getLast_mem hne)
    refine ⟨before.dropLast, before.getLast hne :: (marker ++ after), ?_, hinit, ?_⟩
    · rw [List.append_assoc]
      conv_lhs => rw [← List.dropLast_append_getLast hne, List.append_assoc, List.singleton_append]
    · rw [thenTry, isSome_one_iff]
      refine ⟨_, _, rfl, hlast, isSome_word_iff.2 ⟨after, rfl, ?_⟩⟩
      exact isSome_run_iff.2 ⟨[], after, rfl, fun c hc => absurd hc List.not_mem_nil, rfl⟩

theorem exists_markedBehind_iff :
    (∃ before, MarkedBehind before text) ↔
      ∃ p, 1 ≤ p ∧ marker <+: text.drop p ∧ '\n' ∉ text.take p := by
  constructor
  · rintro ⟨before, hne, hfree, after, rfl⟩
    refine ⟨before.length, List.length_pos_iff.2 hne, ?_, ?_⟩
    · rw [List.append_assoc, List.drop_left]
      exact List.prefix_append marker after
    · rwa [List.append_assoc, List.take_left]
  · rintro ⟨p, hp, ⟨after, hafter⟩, hfree⟩
    refine ⟨text.take p, ?_, hfree, after, ?_⟩
    · -- the marker is not empty, so the text has more than `p` characters
      intro htake
      rw [List.take_eq_nil_iff] at htake
      obtain hzero | rfl := htake
      · omega
      · simp [marker] at hafter
    · rw [List.append_assoc, hafter, List.take_append_drop]

/-- The event lines are the lines that the pattern accepts, and these are the lines with the marker
at some position but the first and no line feed before it. -/
theorem event_lines_have_marker_behind_first_character (line : String) :
    (isEvent line = true ↔ ∃ p, 1 ≤ p ∧ "USMEventLogger".toList <+: line.toList.drop p ∧
      '\n' ∉ line.toList.take p) ∧
    isEvent line = accepts eventPattern line.toList := by
  constructor
  · rw [isEvent, hasMarker_iff]
    exact exists_markedBehind_iff
  · rw [Bool.eq_iff_iff, isEvent, hasMarker_iff, accepts_eventPattern_iff]

/-- The marker at the beginning does not count, but it may stand before the one that does. -/
example : isEvent "USMEventLogger: idle" = false ∧ isEvent "USMEventLoggerUSMEventLogger" = true ∧
    isEvent "1 -\nUSMEventLogger.starting" = false := by decide

end Lifecycle.Line
