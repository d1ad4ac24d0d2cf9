import Lifecycle.Line

/-! # Patterns of characters

A pattern is matched from the first character of a text on and need not reach the last one. A part of
it that may be repeated is repeated as often as it can be, and less often where the rest of the
pattern does not match behind it. What is left of the text behind the first match that is found this
way is the answer. -/

namespace Lifecycle.Line

/-- A class of characters. -/
inductive CharClass
  | exactly (c : Char)
  | notLineFeed
  | inName
  deriving DecidableEq, Repr

/-- The class has the character. -/
def CharClass.has : CharClass → Char → Bool
  | .exactly d, c => c == d
  | .notLineFeed, c => c != '\n'
  | .inName, c => isNameChar c

/-- A pattern of characters. -/
inductive Pattern
  | one (k : CharClass)
  | seq (first second : Pattern)
  /-- Any number of repetitions, also none. -/
  | many (p : Pattern)
  deriving DecidableEq, Repr

/-- What is done with the text behind a match: it is refused, or something is left of it. -/
abbrev Next := List Char → Option (List Char)

/-- Repeats a step before it goes on, and goes on sooner where what is left is refused. A repetition
takes at least one character, so a text allows no more than `fuel` of them if it is no longer. -/
def manyThen (step : Next → Next) (next : Next) : Nat → Next
  | 0, text => next text
  | fuel + 1, text =>
    let again : Next := fun rest =>
      if rest.length < text.length then manyThen step next fuel rest else none
    (step again text).or (next text)

namespace Pattern

/-- Matches the pattern at the beginning of the text and goes on behind it. -/
def thenTry : Pattern → Next → Next
  | .one _, _, [] => none
  | .one k, next, c :: rest => if k.has c then next rest else none
  | .seq first second, next, text => first.thenTry (second.thenTry next) text
  | .many p, next, text => manyThen p.thenTry next text.length text

/-- What is left behind the match at the beginning of the text. -/
def rest? (p : Pattern) (text : List Char) : Option (List Char) := p.thenTry some text

/-- The text begins with something that matches the pattern. -/
def accepts (p : Pattern) (text : List Char) : Bool := (p.rest? text).isSome

/-- At least one repetition. -/
def several (p : Pattern) : Pattern := .seq p (.many p)

/-- These characters, and a pattern behind them. -/
def word (cs : List Char) (p : Pattern) : Pattern :=
  cs.foldr (fun c pattern => .seq (.one (.exactly c)) pattern) p

end Pattern

open Pattern

variable {k : CharClass} {next : Next} {text : List Char}

/-! ### One character and more -/

theorem isSome_one_iff :
    ((one k).thenTry next text).isSome = true ↔
      ∃ c rest, text = c :: rest ∧ k.has c = true ∧ (next rest).isSome = true := by
  cases text with
  | nil => simp [thenTry]
  | cons c rest =>
    rw [thenTry]
    constructor
    · intro h
      split at h
      · rename_i hc
        exact ⟨c, rest, rfl, hc, h⟩
      · exact absurd h (by simp)
    · rintro ⟨d, more, heq, hd, h⟩
      obtain ⟨rfl, rfl⟩ := List.cons.inj heq
      rwa [if_pos hd]

theorem isSome_word_iff {cs : List Char} {p : Pattern} :
    ((word cs p).thenTry next text).isSome = true ↔
      ∃ after, text = cs ++ after ∧ (p.thenTry next after).isSome = true := by
  induction cs generalizing text with
  | nil => simp [word]
  | cons c cs ih =>
    show ((one (.exactly c)).thenTry ((word cs p).thenTry next) text).isSome = true ↔ _
    rw [isSome_one_iff]
    constructor
    · rintro ⟨d, rest, rfl, hd, hrest⟩
      obtain ⟨after, rfl, hafter⟩ := ih.1 hrest
      rw [CharClass.has, beq_iff_eq] at hd
      exact ⟨after, by rw [hd, List.cons_append], hafter⟩
    · rintro ⟨after, rfl, hafter⟩
      exact ⟨c, cs ++ after, rfl, beq_self_eq_true c, ih.2 ⟨after, rfl, hafter⟩⟩

/-! ### Runs of one class -/

theorem manyThen_one_nil (fuel : Nat) : manyThen (one k).thenTry next fuel [] = next [] := by
  cases fuel with
  | zero => rfl
  | succ fuel => rfl

theorem manyThen_one_cons (fuel : Nat) (c : Char) (rest : List Char) :
    manyThen (one k).thenTry next (fuel + 1) (c :: rest) =
      (if k.has c then manyThen (one k).thenTry next fuel rest else none).or
        (next (c :: rest)) := by
  rw [manyThen, thenTry, if_pos (show rest.length < (c :: rest).length from Nat.lt_succ_self _)]

/-- Going back over a run finds every part of it behind which the rest is accepted. -/
theorem isSome_run_iff :
    ((many (one k)).thenTry next text).isSome = true ↔
      ∃ before after, text = before ++ after ∧ (∀ c ∈ before, k.has c = true) ∧
        (next after).isSome = true := by
  rw [thenTry]
  induction text with
  | nil =>
    rw [manyThen_one_nil]
    constructor
    · exact fun h => ⟨[], [], rfl, fun c hc => absurd hc List.not_mem_nil, h⟩
    · rintro ⟨before, after, heq, -, h⟩
      rwa [(List.append_eq_nil_iff.1 heq.symm).2] at h
  | cons c rest ih =>
    rw [List.length_cons, manyThen_one_cons, Option.isSome_or, Bool.or_eq_true]
    constructor
    · rintro (h | h)
      · split at h
        · rename_i hc
          obtain ⟨before, after, rfl, hall, hafter⟩ := ih.1 h
          exact ⟨c :: before, after, rfl, List.forall_mem_cons.2 ⟨hc, hall⟩, hafter⟩
        · exact absurd h (by simp)
      · exact ⟨[], c :: rest, rfl, fun d hd => absurd hd List.not_mem_nil, h⟩
    · rintro ⟨before, after, heq, hall, h⟩
      cases before with
      | nil =>
        rw [List.nil_append] at heq
        exact Or.inr (heq ▸ h)
      | cons d before =>
        obtain ⟨rfl, hrest⟩ := List.cons.inj heq
        obtain ⟨hc, hbefore⟩ := List.forall_mem_cons.1 hall
        rw [if_pos hc]
        exact Or.inl (ih.2 ⟨before, after, hrest, hbefore, h⟩)

/-- A run that is only accepted where it ends is taken as a whole. -/
theorem run_of_stop (stop : ∀ c rest, k.has c = true → next (c :: rest) = none)
    {run : List Char} (all : ∀ c ∈ run, k.has c = true) {rest : List Char}
    (ends : ∀ c more, rest = c :: more → k.has c = false) :
    (many (one k)).thenTry next (run ++ rest) = next rest := by
  rw [thenTry]
  induction run with
  | nil =>
    rw [List.nil_append]
    cases rest with
    | nil => exact manyThen_one_nil _
    | cons c more =>
      rw [List.length_cons, manyThen_one_cons, ends c more rfl, if_neg Bool.false_ne_true,
        Option.none_or]
  | cons c run ih =>
    obtain ⟨hc, hrun⟩ := List.forall_mem_cons.1 all
    rw [List.cons_append, List.length_cons, manyThen_one_cons, if_pos hc, stop c _ hc,
      Option.or_none, ih hrun]

end Lifecycle.Line
