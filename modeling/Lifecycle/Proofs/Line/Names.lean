import Lifecycle.Proofs.Line.Patterns
import Lifecycle.Proofs.Translation
import Mathlib.Data.List.TakeWhile

/-! # Names in front of event texts

A line is cut at its first separator, and the text behind it at the end of the longest run of dotted
blocks that it begins with: that run is taken for the name of the logger. A pattern with a repeated
block finds the same end. A name does not tell where it ends, so an event text that begins with such
blocks loses them together with the name. Any other event text is kept whole, whatever else it
contains. -/

namespace Lifecycle.Line

/-- One component of a qualified name. -/
def IsComponent (part : List Char) : Prop := part ≠ [] ∧ ∀ c ∈ part, isNameChar c = true

/-- A run of blocks, each of a component and a dot. -/
inductive Dotted : List Char → Prop
  | nil : Dotted []
  | block {part rest : List Char} (component : IsComponent part) (more : Dotted rest) :
    Dotted (part ++ '.' :: rest)

/-- Components with a dot between each two of them. -/
inductive Qualified : List Char → Prop
  | single {part : List Char} (component : IsComponent part) : Qualified part
  | dot {part rest : List Char} (component : IsComponent part) (more : Qualified rest) :
    Qualified (part ++ '.' :: rest)

/-- A block stands at the beginning of the text. -/
def BeginsWithBlock (text : List Char) : Prop :=
  ∃ part rest, IsComponent part ∧ text = part ++ '.' :: rest

/-- `blocks` is the longest run of blocks that the text begins with. -/
structure CutBehindBlocks (text blocks rest : List Char) : Prop where
  eq : text = blocks ++ rest
  dotted : Dotted blocks
  longest : ∀ other, Dotted other → other <+: text → other <+: blocks

/-- The first separator of the text stands between `before` and `rest`. -/
structure CutAtSeparator (text before rest : List Char) : Prop where
  eq : text = before ++ separator ++ rest
  first : ∀ other more, text = other ++ separator ++ more → before <+: other

/-! ### The name -/

theorem isNameChar_dot : isNameChar '.' = false := by
  rw [isNameChar, Text.isWord_dot]
  rfl

theorem dropNameFrom_append {part : List Char} (h : ∀ c ∈ part, isNameChar c = true)
    (kept : List Char) (inside : Bool) (rest : List Char) :
    dropNameFrom kept inside (part ++ rest) =
      dropNameFrom kept (inside || !part.isEmpty) rest := by
  induction part generalizing inside with
  | nil => rw [List.nil_append, List.isEmpty_nil, Bool.not_true, Bool.or_false]
  | cons c part ih =>
    rw [List.cons_append, dropNameFrom, if_pos (h c List.mem_cons_self),
      ih (fun d hd => h d (List.mem_cons_of_mem c hd)), List.isEmpty_cons, Bool.not_false,
      Bool.or_true, Bool.true_or]

theorem dropName_block {part : List Char} (h : IsComponent part) (rest : List Char) :
    dropName (part ++ '.' :: rest) = dropName rest := by
  have hinside : (!part.isEmpty) = true := by
    rw [Bool.not_eq_true', List.isEmpty_eq_false_iff]
    exact h.1
  rw [dropName, dropNameFrom_append h.2, hinside, dropNameFrom, isNameChar_dot]
  rfl

theorem dropName_of_not_begins {text : List Char} (h : ¬ BeginsWithBlock text) :
    dropName text = text := by
  have hsplit := List.takeWhile_append_dropWhile (p := isNameChar) (l := text)
  have hpart : ∀ c ∈ text.takeWhile isNameChar, isNameChar c = true :=
    fun c hc => List.mem_takeWhile_imp hc
  -- after the name characters the text ends, or a character follows that ends the name
  cases hrest : text.dropWhile isNameChar with
  | nil =>
    rw [hrest] at hsplit
    rw [dropName]
    conv_lhs => rw [← hsplit]
    rw [dropNameFrom_append hpart, dropNameFrom, hsplit]
  | cons c rest =>
    have hc : isNameChar c = false := by
      have hhead := List.head?_dropWhile_not isNameChar text
      rw [hrest] at hhead
      exact hhead
    have hstop : (c == '.' && (false || !(text.takeWhile isNameChar).isEmpty)) = false := by
      rw [← Bool.not_eq_true]
      intro hblock
      rw [Bool.and_eq_true, beq_iff_eq, Bool.false_or, Bool.not_eq_true',
        List.isEmpty_eq_false_iff] at hblock
      refine h ⟨_, rest, ⟨hblock.2, hpart⟩, ?_⟩
      rw [← hblock.1, ← hrest, hsplit]
    rw [dropName]
    conv_lhs => rw [← hsplit, hrest]
    rw [dropNameFrom_append hpart, dropNameFrom, hc, hstop, ← hrest, hsplit]
    rfl

theorem dropName_append {blocks : List Char} (h : Dotted blocks) (rest : List Char) :
    dropName (blocks ++ rest) = dropName rest := by
  induction h with
  | nil => rfl
  | block component _ ih => rw [List.append_assoc, List.cons_append, dropName_block component, ih]

/-- A run of blocks is dropped, and what is kept does not begin with another one. -/
theorem exists_dotted (text : List Char) :
    ∃ blocks, Dotted blocks ∧ text = blocks ++ dropName text ∧
      ¬ BeginsWithBlock (dropName text) := by
  induction hlength : text.length using Nat.strongRecOn generalizing text with
  | ind n ih =>
    by_cases hbegins : BeginsWithBlock text
    · obtain ⟨part, rest, hpart, rfl⟩ := hbegins
      have hshorter : rest.length < n := by
        rw [List.length_append, List.length_cons] at hlength
        omega
      obtain ⟨blocks, hdotted, heq, hkept⟩ := ih rest.length hshorter rest rfl
      rw [dropName_block hpart]
      refine ⟨part ++ '.' :: blocks, .block hpart hdotted, ?_, hkept⟩
      rw [List.append_assoc, List.cons_append, ← heq]
    · rw [dropName_of_not_begins hbegins]
      exact ⟨[], .nil, rfl, hbegins⟩

theorem cutBehindBlocks (text : List Char) :
    ∃ blocks, CutBehindBlocks text blocks (dropName text) := by
  obtain ⟨blocks, hdotted, heq, -⟩ := exists_dotted text
  refine ⟨blocks, heq, hdotted, ?_⟩
  intro other hother hprefix
  obtain ⟨more, hmore⟩ := hprefix
  -- what is kept of the text is kept of what follows the other run, so that run is no longer
  have hkept : dropName text = dropName more := by rw [← hmore, dropName_append hother]
  obtain ⟨dropped, -, hdropped, -⟩ := exists_dotted more
  have hle : (dropName more).length ≤ more.length := by
    conv_rhs => rw [hdropped, List.length_append]
    omega
  have hlength : other.length + more.length = blocks.length + (dropName more).length := by
    rw [← List.length_append, hmore, ← hkept, ← List.length_append, ← heq]
  exact List.prefix_of_prefix_length_le ⟨more, hmore⟩ ⟨dropName text, heq.symm⟩ (by omega)

theorem dropName_eq_self_iff {text : List Char} :
    dropName text = text ↔ ¬ BeginsWithBlock text := by
  constructor
  · intro h
    obtain ⟨-, -, -, hkept⟩ := exists_dotted text
    rwa [h] at hkept
  · exact dropName_of_not_begins

theorem Qualified.dotted {name : List Char} (h : Qualified name) : Dotted (name ++ ['.']) := by
  induction h with
  | single component => exact .block component .nil
  | dot component _ ih =>
    rw [List.append_assoc, List.cons_append]
    exact .block component ih

/-! ### The pattern of names -/

/-- A component of a name and the dot behind it. -/
def blockPattern : Pattern := .seq (.several (.one .inName)) (.one (.exactly '.'))

/-- The pattern of the name in front of an event text. -/
def namePattern : Pattern := .several blockPattern

/-- Only the whole component has a dot behind it, so no shorter one is tried with success. -/
theorem thenTry_block {part : List Char} (h : IsComponent part) (next : Next) (rest : List Char) :
    blockPattern.thenTry next (part ++ '.' :: rest) = next rest := by
  obtain ⟨hne, hall⟩ := h
  cases part with
  | nil => exact absurd rfl hne
  | cons c run =>
    obtain ⟨hc, hrun⟩ := List.forall_mem_cons.1 hall
    have hstop : ∀ d more, CharClass.inName.has d = true →
        (Pattern.one (.exactly '.')).thenTry next (d :: more) = none := by
      intro d more hd
      have hdot : CharClass.has (.exactly '.') d = false := by
        rw [CharClass.has, beq_eq_false_iff_ne]
        rintro rfl
        exact Bool.false_ne_true (isNameChar_dot.symm.trans hd)
      rw [Pattern.thenTry, hdot, if_neg Bool.false_ne_true]
    have hends : ∀ d more, '.' :: rest = d :: more → CharClass.inName.has d = false := by
      rintro d more heq
      obtain ⟨rfl, -⟩ := List.cons.inj heq
      exact isNameChar_dot
    rw [blockPattern, Pattern.thenTry, Pattern.several, Pattern.thenTry, List.cons_append,
      Pattern.thenTry, if_pos (show CharClass.inName.has c = true from hc),
      run_of_stop hstop hrun hends]
    rfl

theorem thenTry_of_not_begins {text : List Char} (h : ¬ BeginsWithBlock text) (next : Next) :
    blockPattern.thenTry next text = none := by
  rw [← Option.not_isSome_iff_eq_none]
  intro hsome
  rw [blockPattern, Pattern.thenTry, Pattern.several, Pattern.thenTry, isSome_one_iff] at hsome
  obtain ⟨c, tail, rfl, hc, hsome⟩ := hsome
  obtain ⟨run, after, rfl, hrun, hsome⟩ := isSome_run_iff.1 hsome
  obtain ⟨d, rest, rfl, hd, -⟩ := isSome_one_iff.1 hsome
  rw [CharClass.has, beq_iff_eq] at hd
  subst hd
  exact h ⟨c :: run, rest, ⟨List.cons_ne_nil c run, List.forall_mem_cons.2 ⟨hc, hrun⟩⟩, rfl⟩

/-- Each round takes a block off the text as long as it begins with one. -/
theorem manyThen_block (fuel : Nat) (text : List Char) (h : text.length ≤ fuel) :
    manyThen blockPattern.thenTry some fuel text = some (dropName text) := by
  induction fuel generalizing text with
  | zero =>
    rw [List.length_eq_zero_iff.1 (Nat.le_zero.1 h)]
    rfl
  | succ fuel ih =>
    rw [manyThen]
    by_cases hbegins : BeginsWithBlock text
    · obtain ⟨part, rest, hpart, rfl⟩ := hbegins
      rw [List.length_append, List.length_cons] at h
      have hshorter : rest.length < (part ++ '.' :: rest).length := by
        rw [List.length_append, List.length_cons]
        omega
      rw [thenTry_block hpart, if_pos hshorter, ih rest (by omega), Option.some_or,
        dropName_block hpart]
    · rw [thenTry_of_not_begins hbegins, Option.none_or, dropName_of_not_begins hbegins]

/-- The name is what the pattern matches at the beginning of the text. -/
theorem dropName_eq_rest (text : List Char) :
    dropName text = (namePattern.rest? text).getD text := by
  rw [Pattern.rest?, namePattern, Pattern.several, Pattern.thenTry]
  by_cases hbegins : BeginsWithBlock text
  · obtain ⟨part, rest, hpart, rfl⟩ := hbegins
    rw [thenTry_block hpart, Pattern.thenTry, manyThen_block _ rest (Nat.le_refl _),
      dropName_block hpart, Option.getD_some]
  · rw [thenTry_of_not_begins hbegins, dropName_of_not_begins hbegins, Option.getD_none]

/-! ### The separator -/

theorem afterSeparator_append {before : List Char} (free : ¬ separator <:+: before)
    (ends : ¬ [' ', '-'] <:+ before) (rest : List Char) :
    afterSeparator (before ++ separator ++ rest) = some rest := by
  induction before with
  | nil => rfl
  | cons c before ih =>
    have hfree : ¬ separator <:+: before := fun h => free (List.infix_cons h)
    have hends : ¬ [' ', '-'] <:+ before := fun h => ends (h.trans (List.suffix_cons c before))
    rw [List.cons_append, List.cons_append, afterSeparator, ih hfree hends]
    -- no separator begins at the first character
    intro more hblank hmore
    subst hblank
    cases before with
    | nil => simp [separator] at hmore
    | cons d before =>
      obtain ⟨rfl, htail⟩ := List.cons.inj hmore
      cases before with
      | nil => exact ends (List.suffix_refl _)
      | cons e before =>
        obtain ⟨rfl, -⟩ := List.cons.inj htail
        exact free ⟨[], before, rfl⟩

theorem exists_cutAtSeparator {text rest : List Char} (h : afterSeparator text = some rest) :
    ∃ before, CutAtSeparator text before rest := by
  fun_induction afterSeparator text with
  | case1 => exact absurd h (by simp)
  | case2 tail =>
    obtain rfl := Option.some.inj h
    exact ⟨[], rfl, fun other _ _ => List.nil_prefix⟩
  | case3 c tail hother ih =>
    obtain ⟨before, heq, hfirst⟩ := ih h
    refine ⟨c :: before, by rw [heq]; rfl, ?_⟩
    intro other more hcut
    cases other with
    | nil =>
      obtain ⟨hblank, htail⟩ := List.cons.inj hcut
      exact absurd htail (hother more hblank)
    | cons d other =>
      obtain ⟨rfl, htail⟩ := List.cons.inj hcut
      exact List.cons_prefix_cons.2 ⟨rfl, hfirst other more htail⟩

/-! ### Whole lines -/

/-- All that is dropped in front of an event text is the name and the run of blocks that the event
text itself begins with. -/
theorem event_text_is_kept_behind_blocks (before name text : String) (host : Host)
    (free : ¬ separator <:+: before.toList) (ends : ¬ [' ', '-'] <:+ before.toList)
    (qualified : Qualified name.toList) :
    ∃ blocks kept, CutBehindBlocks text.toList blocks kept ∧
      translate (before ++ " - " ++ name ++ "." ++ text) host =
        .ok ("[" ++ host.name ++ "/" ++ host.address ++ "] - " ++ String.ofList kept) ∧
      (String.ofList kept = text ↔ ¬ BeginsWithBlock text.toList) := by
  obtain ⟨blocks, hcut⟩ := cutBehindBlocks text.toList
  refine ⟨blocks, dropName text.toList, hcut, ?_, ?_⟩
  · have hline : (before ++ " - " ++ name ++ "." ++ text).toList =
        before.toList ++ separator ++ (name.toList ++ ['.'] ++ text.toList) := by
      have hseparator : " - ".toList = separator := rfl
      have hdot : ".".toList = ['.'] := rfl
      simp only [String.toList_append, hseparator, hdot, List.append_assoc]
    rw [translate, hline, afterSeparator_append free ends]
    simp only [dropName_append qualified.dotted]
    rfl
  · rw [← dropName_eq_self_iff, ← String.toList_inj, String.toList_ofList]

theorem isComponent_of_all {part : List Char} (hne : part ≠ [])
    (hall : part.all isNameChar = true) : IsComponent part :=
  ⟨hne, List.all_eq_true.1 hall⟩

theorem qualified_eventLogger : Qualified "org.foo.USMEventLogger".toList :=
  @Qualified.dot ['o', 'r', 'g'] _ (isComponent_of_all (by decide) (by decide)) <|
  @Qualified.dot ['f', 'o', 'o'] _ (isComponent_of_all (by decide) (by decide)) <|
  .single (isComponent_of_all (by decide) (by decide))

theorem text_of_sentences_is_kept :
    let line := "2024-01-01 10:00:00" ++ " - " ++ "org.foo.USMEventLogger" ++ "." ++
      "Step 1 - done. Next."
    translate line ⟨"h1", "10.0.0.1"⟩ = .ok "[h1/10.0.0.1] - Step 1 - done. Next." := by
  obtain ⟨blocks, kept, hcut, hline, hkept⟩ := event_text_is_kept_behind_blocks
    "2024-01-01 10:00:00" "org.foo.USMEventLogger" "Step 1 - done. Next." ⟨"h1", "10.0.0.1"⟩
    (by decide) (by decide) qualified_eventLogger
  have hwhole : String.ofList kept = "Step 1 - done. Next." := hkept.2 (dropName_eq_self_iff.1 rfl)
  rw [hwhole] at hline
  exact hline

/-- A text that begins with the name of a file loses that name up to its dot. -/
theorem blocks_of_a_text_are_lost :
    ¬ ∀ (before name text : String) (host : Host), ¬ separator <:+: before.toList →
      ¬ [' ', '-'] <:+ before.toList → Qualified name.toList →
      translate (before ++ " - " ++ name ++ "." ++ text) host =
        .ok ("[" ++ host.name ++ "/" ++ host.address ++ "] - " ++ text) := by
  intro hkept
  have hline := hkept "1" "org.foo.USMEventLogger" "config.yml missing" ⟨"h", "a"⟩ (by decide)
    (by decide) qualified_eventLogger
  exact absurd hline (by decide)

end Lifecycle.Line
