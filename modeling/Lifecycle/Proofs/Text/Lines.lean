import Lifecycle.Text.Lines

/-! # Lines of a growing text

A text that ends with a break has no line open, so its lines stay as they are whatever is written
behind it. That holds as well if the break is a carriage return and the next character is the line
feed that belongs to it: the two are one break then, and the lines before it are the same. -/

namespace Lifecycle.Text

/-- The last character of the text ends a line. -/
def endsLine (isBreak : Char → Bool) (text : List Char) : Bool := text.getLast?.any isBreak

variable {isBreak : Char → Bool}

theorem endsLine_singleton (c : Char) : endsLine isBreak [c] = isBreak c := rfl

theorem endsLine_cons_cons (c d : Char) (rest : List Char) :
    endsLine isBreak (c :: d :: rest) = endsLine isBreak (d :: rest) := by
  rw [endsLine, endsLine, List.getLast?_cons_cons]

/-! ### One character -/

theorem cutFrom_pair (isBreak : Char → Bool) (line rest : List Char) :
    cutFrom isBreak line ('\r' :: '\n' :: rest) = line.reverse :: cutFrom isBreak [] rest := by
  rw [cutFrom]

theorem cutFrom_cons {c : Char} {rest : List Char}
    (single : ∀ more, c = '\r' → rest = '\n' :: more → False) (line : List Char) :
    cutFrom isBreak line (c :: rest) =
      if isBreak c then line.reverse :: cutFrom isBreak [] rest
      else cutFrom isBreak (c :: line) rest := by
  rw [cutFrom]
  exact single

/-- A break closes the open line, alone or together with a line feed behind it. -/
theorem exists_cutFrom_break {c : Char} (h : isBreak c = true) (line rest : List Char) :
    ∃ later, cutFrom isBreak line (c :: rest) = line.reverse :: cutFrom isBreak [] later := by
  by_cases hpair : ∃ more, c = '\r' ∧ rest = '\n' :: more
  · obtain ⟨more, rfl, rfl⟩ := hpair
    exact ⟨more, cutFrom_pair isBreak line more⟩
  · have single : ∀ more, c = '\r' → rest = '\n' :: more → False :=
      fun more hc hrest => hpair ⟨more, hc, hrest⟩
    rw [cutFrom_cons single, if_pos h]
    exact ⟨rest, rfl⟩

/-! ### Text that goes on -/

theorem single_append {c d : Char} {rest : List Char}
    (single : ∀ later, c = '\r' → d :: rest = '\n' :: later → False) (more : List Char) :
    ∀ later, c = '\r' → d :: (rest ++ more) = '\n' :: later → False := by
  intro later hc hd
  rw [List.cons.injEq] at hd
  exact single rest hc (by rw [hd.1])

/-- The lines of a text that ends with a break are the first lines of every text that begins with
it. -/
theorem cutFrom_isPrefix_append {line text : List Char} (h : endsLine isBreak text = true)
    (more : List Char) : cutFrom isBreak line text <+: cutFrom isBreak line (text ++ more) := by
  fun_induction cutFrom isBreak line text with
  | case1 => exact absurd h Bool.false_ne_true
  | case2 => exact absurd h Bool.false_ne_true
  | case3 line rest ih =>
    rw [List.cons_append, List.cons_append, cutFrom_pair, List.prefix_cons_inj]
    cases rest with
    | nil => exact List.nil_prefix
    | cons d rest =>
      rw [endsLine_cons_cons, endsLine_cons_cons] at h
      exact ih h
  | case4 line c rest single hbreak ih =>
    cases rest with
    | nil =>
      -- the break is the last character, and what is written next may belong to it
      obtain ⟨later, hlater⟩ := exists_cutFrom_break hbreak line more
      rw [List.singleton_append, hlater, List.prefix_cons_inj]
      exact List.nil_prefix
    | cons d rest =>
      rw [List.cons_append, List.cons_append, cutFrom_cons (single_append single more),
        if_pos hbreak, List.prefix_cons_inj]
      rw [endsLine_cons_cons] at h
      exact ih h
  | case5 line c rest single hopen ih =>
    cases rest with
    | nil =>
      rw [endsLine_singleton] at h
      exact absurd h hopen
    | cons d rest =>
      rw [List.cons_append, List.cons_append, cutFrom_cons (single_append single more),
        if_neg hopen]
      rw [endsLine_cons_cons] at h
      exact ih h

theorem logLines_isPrefix {part text : String} (begins : part.toList <+: text.toList)
    (ends : endsLine isLogBreak part.toList = true) : logLines part <+: logLines text := by
  obtain ⟨more, hmore⟩ := begins
  rw [logLines, logLines, ← hmore]
  exact (cutFrom_isPrefix_append ends more).map String.ofList

end Lifecycle.Text
