import Lifecycle.Proofs.Text.Lines
import Mathlib.Data.List.DropRight

/-! # Breaks of files and of logs

No line has a break in it, and every other character of a text is in one of its lines. So two ways
to cut texts agree on a text exactly if they agree on which of its characters are breaks: a file and
a worker's log with the same text have the same lines exactly if none of the characters that break
the lines of logs alone occurs.

The lines of a file can also be had in two steps: every carriage return, with the line feed behind
it if there is one, is read as a line feed, and of each line that ends with a line feed then that
one is stripped off. -/

namespace Lifecycle.Text

variable {isBreak other : Char → Bool}

/-! ### What lines are made of -/

theorem cutFrom_congr {text : List Char} (h : ∀ c ∈ text, isBreak c = other c)
    (line : List Char) : cutFrom isBreak line text = cutFrom other line text := by
  fun_induction cutFrom isBreak line text with
  | case1 line hopen => rw [cutFrom, if_pos hopen]
  | case2 line hopen => rw [cutFrom, if_neg hopen]
  | case3 line rest ih =>
    rw [cutFrom_pair, ih (fun c hc => h c (List.mem_cons_of_mem _ (List.mem_cons_of_mem _ hc)))]
  | case4 line c rest single hbreak ih =>
    rw [h c List.mem_cons_self] at hbreak
    rw [cutFrom_cons single, if_pos hbreak, ih (fun d hd => h d (List.mem_cons_of_mem _ hd))]
  | case5 line c rest single hopen ih =>
    rw [h c List.mem_cons_self] at hopen
    rw [cutFrom_cons single, if_neg hopen, ih (fun d hd => h d (List.mem_cons_of_mem _ hd))]

/-- A line that was open stays free of breaks as long as it is. -/
theorem not_isBreak_of_mem_cutFrom {begun text l : List Char} (h : l ∈ cutFrom isBreak begun text)
    (free : ∀ c ∈ begun, isBreak c = false) : ∀ c ∈ l, isBreak c = false := by
  fun_induction cutFrom isBreak begun text with
  | case1 => exact absurd h List.not_mem_nil
  | case2 line =>
    rw [List.mem_singleton] at h
    intro c hc
    exact free c (List.mem_reverse.1 (h ▸ hc))
  | case3 line rest ih =>
    obtain rfl | hlater := List.mem_cons.1 h
    · exact fun c hc => free c (List.mem_reverse.1 hc)
    · exact ih hlater (fun c hc => absurd hc List.not_mem_nil)
  | case4 line c rest single hbreak ih =>
    obtain rfl | hlater := List.mem_cons.1 h
    · exact fun c hc => free c (List.mem_reverse.1 hc)
    · exact ih hlater (fun c hc => absurd hc List.not_mem_nil)
  | case5 line c rest single hopen ih =>
    refine ih h ?_
    intro d hd
    obtain rfl | hd := List.mem_cons.1 hd
    · exact Bool.eq_false_iff.2 hopen
    · exact free d hd

/-- No character gets lost but breaks. -/
theorem exists_mem_cutFrom {begun text : List Char} {c : Char}
    (pair : isBreak '\r' = true ∧ isBreak '\n' = true)
    (h : c ∈ begun ∨ c ∈ text ∧ isBreak c = false) : ∃ l ∈ cutFrom isBreak begun text, c ∈ l := by
  fun_induction cutFrom isBreak begun text with
  | case1 line hempty =>
    rw [List.isEmpty_iff] at hempty
    simp [hempty] at h
  | case2 line =>
    refine ⟨line.reverse, List.mem_singleton_self _, List.mem_reverse.2 ?_⟩
    exact h.resolve_right fun hrest => List.not_mem_nil hrest.1
  | case3 line rest ih =>
    obtain hopen | ⟨hmem, hc⟩ := h
    · exact ⟨line.reverse, List.mem_cons_self, List.mem_reverse.2 hopen⟩
    · obtain rfl | hmem := List.mem_cons.1 hmem
      · exact absurd (hc.symm.trans pair.1) Bool.false_ne_true
      obtain rfl | hmem := List.mem_cons.1 hmem
      · exact absurd (hc.symm.trans pair.2) Bool.false_ne_true
      obtain ⟨l, hl, hcl⟩ := ih (Or.inr ⟨hmem, hc⟩)
      exact ⟨l, List.mem_cons_of_mem _ hl, hcl⟩
  | case4 line d rest single hbreak ih =>
    obtain hopen | ⟨hmem, hc⟩ := h
    · exact ⟨line.reverse, List.mem_cons_self, List.mem_reverse.2 hopen⟩
    · obtain rfl | hmem := List.mem_cons.1 hmem
      · exact absurd (hc.symm.trans hbreak) Bool.false_ne_true
      obtain ⟨l, hl, hcl⟩ := ih (Or.inr ⟨hmem, hc⟩)
      exact ⟨l, List.mem_cons_of_mem _ hl, hcl⟩
  | case5 line d rest single hopen ih =>
    refine ih ?_
    obtain hmem | ⟨hmem, hc⟩ := h
    · exact Or.inl (List.mem_cons_of_mem _ hmem)
    · obtain rfl | hmem := List.mem_cons.1 hmem
      · exact Or.inl List.mem_cons_self
      · exact Or.inr ⟨hmem, hc⟩

theorem exists_mem_cut {text : List Char} {c : Char}
    (pair : isBreak '\r' = true ∧ isBreak '\n' = true) (hmem : c ∈ text)
    (hc : isBreak c = false) : ∃ l ∈ cut isBreak text, c ∈ l :=
  exists_mem_cutFrom pair (Or.inr ⟨hmem, hc⟩)

theorem not_isBreak_of_mem_cut {text l : List Char} (h : l ∈ cut isBreak text) :
    ∀ c ∈ l, isBreak c = false :=
  not_isBreak_of_mem_cutFrom h fun _ hc => absurd hc List.not_mem_nil

/-! ### Files and logs -/

/-- The characters that end a line of a worker's log but not a line of a file. -/
def logOnlyBreaks : List Char :=
  ['\x0b', '\x0c', '\x1c', '\x1d', '\x1e', '\u0085', '\u2028', '\u2029']

theorem isLogOnlyBreak_iff {c : Char} : isLogOnlyBreak c = true ↔ c ∈ logOnlyBreaks := by
  simp only [isLogOnlyBreak, logOnlyBreaks, Bool.or_eq_true, beq_iff_eq, List.mem_cons,
    List.not_mem_nil, or_false, or_assoc]

theorem isFileBreak_of_mem {c : Char} (h : c ∈ logOnlyBreaks) : isFileBreak c = false := by
  have hall : (logOnlyBreaks.all fun d => !isFileBreak d) = true := by decide
  simpa using List.all_eq_true.1 hall c h

theorem isLogBreak_eq {c : Char} (h : c ∉ logOnlyBreaks) : isLogBreak c = isFileBreak c := by
  rw [← isLogOnlyBreak_iff, Bool.not_eq_true] at h
  rw [isLogBreak, h, Bool.or_false]

theorem map_ofList_inj {a b : List (List Char)} :
    a.map String.ofList = b.map String.ofList ↔ a = b :=
  (List.map_injective_iff.2 fun _ _ h => String.ofList_injective h).eq_iff

theorem fileLines_eq_logLines_iff {text : String} :
    fileLines text = logLines text ↔ ∀ c ∈ text.toList, c ∉ logOnlyBreaks := by
  rw [fileLines, logLines, map_ofList_inj]
  constructor
  · -- a break of logs alone is in a line of the file, and no line of the log has it
    intro heq c hc hmem
    have hfile : isFileBreak c = false := isFileBreak_of_mem hmem
    obtain ⟨l, hl, hcl⟩ := exists_mem_cut ⟨rfl, rfl⟩ hc hfile
    rw [heq] at hl
    have hfree := not_isBreak_of_mem_cut hl c hcl
    rw [isLogBreak, isLogOnlyBreak_iff.2 hmem, Bool.or_true] at hfree
    exact absurd hfree.symm Bool.false_ne_true
  · intro h
    exact cutFrom_congr (fun c hc => (isLogBreak_eq (h c hc)).symm) []

/-! ### Files in two steps -/

/-- The text with each break of a file written as a line feed. -/
def unified : List Char → List Char
  | [] => []
  | '\r' :: '\n' :: rest => '\n' :: unified rest
  | c :: rest => (if c == '\r' then '\n' else c) :: unified rest

/-- The lines of a text, each with the line feed that ends it. -/
def fedFrom : List Char → List Char → List (List Char)
  | line, [] => if line.isEmpty then [] else [line.reverse]
  | line, c :: rest =>
    if c == '\n' then (c :: line).reverse :: fedFrom [] rest else fedFrom (c :: line) rest

/-- The line without line feeds at its end. -/
def stripped (line : List Char) : List Char := line.rdropWhile (· == '\n')

theorem unified_pair (rest : List Char) :
    unified ('\r' :: '\n' :: rest) = '\n' :: unified rest := by
  rw [unified]

theorem unified_cons {c : Char} {rest : List Char}
    (single : ∀ more, c = '\r' → rest = '\n' :: more → False) :
    unified (c :: rest) = (if c == '\r' then '\n' else c) :: unified rest := by
  rw [unified]
  exact single

theorem stripped_of_not_mem {line : List Char} (h : '\n' ∉ line) : stripped line = line := by
  rw [stripped, List.rdropWhile_eq_self_iff]
  intro hne heq
  rw [beq_iff_eq] at heq
  exact h (heq ▸ List.getLast_mem hne)

theorem stripped_reverse_cons {line : List Char} (h : '\n' ∉ line) :
    stripped ('\n' :: line).reverse = line.reverse := by
  rw [List.reverse_cons, stripped, List.rdropWhile_concat_pos (· == '\n') _ _ rfl]
  exact stripped_of_not_mem (fun hmem => h (List.mem_reverse.1 hmem))

theorem map_stripped_fedFrom {line : List Char} (h : '\n' ∉ line) (rest : List Char) :
    (fedFrom line ('\n' :: rest)).map stripped =
      line.reverse :: (fedFrom [] rest).map stripped := by
  rw [fedFrom, if_pos (beq_self_eq_true '\n'), List.map_cons, stripped_reverse_cons h]

theorem cutFrom_isFileBreak {line text : List Char} (h : '\n' ∉ line) :
    cutFrom isFileBreak line text = (fedFrom line (unified text)).map stripped := by
  fun_induction cutFrom isFileBreak line text with
  | case1 line hempty => rw [unified, fedFrom, if_pos hempty, List.map_nil]
  | case2 line hopen =>
    rw [unified, fedFrom, if_neg hopen, List.map_cons, List.map_nil,
      stripped_of_not_mem (fun hmem => h (List.mem_reverse.1 hmem))]
  | case3 line rest ih =>
    rw [unified_pair, map_stripped_fedFrom h, ih List.not_mem_nil]
  | case4 line c rest single hbreak ih =>
    have hfeed : (if c == '\r' then '\n' else c) = '\n' := by
      rw [isFileBreak, Bool.or_eq_true, beq_iff_eq] at hbreak
      split
      · rfl
      · rename_i hreturn
        exact hbreak.resolve_right hreturn
    rw [unified_cons single, hfeed, map_stripped_fedFrom h, ih List.not_mem_nil]
  | case5 line c rest single hopen ih =>
    rw [isFileBreak, Bool.or_eq_true, not_or, beq_iff_eq] at hopen
    rw [unified_cons single, if_neg hopen.2, fedFrom, if_neg (by simpa using hopen.1)]
    exact ih (List.not_mem_cons_of_ne_of_not_mem (Ne.symm hopen.1) h)

theorem fileLines_eq_stripped (text : String) :
    fileLines text =
      (fedFrom [] (unified text.toList)).map (fun line => String.ofList (stripped line)) := by
  rw [fileLines, cut, cutFrom_isFileBreak List.not_mem_nil, List.map_map]
  rfl

end Lifecycle.Text
