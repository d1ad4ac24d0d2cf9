import Lifecycle.Markup
import Mathlib.Data.List.TakeWhile

/-! # Text that can be shown

Whether a text can be shown is a matter of its tags alone. Text without brackets and backslashes
neither opens nor closes anything, so it may stand in front of a marked-up text or not, and a text
that is to stand for itself has no tag that is not guarded. Such text is seen as it is, unless two
colons make the name of a picture of it. -/

namespace Lifecycle.Markup

variable {console : Console} {c : Char} {text rest body : List Char} {ps : List Piece}
  {opened after : List Tag} {position : Nat}

/-! ### Cutting into pieces -/

/-- The character is neither a bracket that opens a tag nor a backslash. -/
def IsPlain (c : Char) : Prop := c ≠ '[' ∧ c ≠ '\\'

instance (c : Char) : Decidable (IsPlain c) := inferInstanceAs (Decidable (_ ∧ _))

/-- It is decided for the characters of a text by going through the text, not through all
characters there are. -/
instance (priority := high) decidableForall (text : List Char) (p : Char → Prop)
    [DecidablePred p] : Decidable (∀ c ∈ text, p c) := List.decidableBAll p text

theorem markAt?_of_plain (h : IsPlain c) (rest : List Char) : markAt? (c :: rest) = none := by
  have hguards : (c :: rest).takeWhile (· == '\\') = [] :=
    List.takeWhile_cons_of_neg (by simpa using h.2)
  rw [markAt?, hguards, List.length_nil, List.drop_zero]
  split
  · rename_i hbracket
    exact absurd (List.cons.inj hbracket).1 h.1
  · rfl

theorem markAt?_bracket (rest : List Char) :
    markAt? ('[' :: rest) = (tagBody? rest).map (Piece.mark 0) := rfl

theorem pieces_plain (h : IsPlain c) (rest : List Char) :
    pieces 0 (c :: rest) = consPlain c (pieces 0 rest) := by
  rw [pieces, markAt?_of_plain h]

theorem pieces_append (h : ∀ c ∈ text, IsPlain c) (rest : List Char) :
    pieces 0 (text ++ rest) = text.foldr consPlain (pieces 0 rest) := by
  induction text with
  | nil => rfl
  | cons c text ih =>
    obtain ⟨hc, htext⟩ := List.forall_mem_cons.1 h
    rw [List.cons_append, pieces_plain hc, ih htext, List.foldr_cons]

theorem pieces_skip (before rest : List Char) :
    pieces before.length (before ++ rest) = pieces 0 rest := by
  induction before with
  | nil => rfl
  | cons c before ih => exact ih

/-- The tag is the first thing in the text. -/
theorem pieces_tag (h : tagBody? (body ++ ']' :: rest) = some body) :
    pieces 0 ('[' :: (body ++ ']' :: rest)) = .mark 0 body :: pieces 0 rest := by
  have hskip := pieces_skip (body ++ [']']) rest
  rw [List.length_append, List.length_singleton, List.append_assoc, List.singleton_append] at hskip
  rw [pieces, markAt?_bracket, h, Option.map_some, ← hskip]
  show Piece.mark 0 body :: pieces (0 + body.length + 2 - 1) _ = _
  rw [Nat.zero_add]
  rfl

theorem pieces_bracket (h : tagBody? rest = none) :
    pieces 0 ('[' :: rest) = consPlain '[' (pieces 0 rest) := by
  rw [pieces, markAt?_bracket, h, Option.map_none]

/-! ### Which texts can be shown -/

/-- Where a tag stands matters to the words of a fault alone. -/
theorem afterTag_eq_ok (h : afterTag console position opened body = .ok after) (other : Nat) :
    afterTag console other opened body = .ok after := by
  unfold afterTag at h ⊢
  split at h
  · rename_i more
    dsimp only at h ⊢
    split at h
    · rename_i hname
      rw [if_pos hname]
      cases opened with
      | nil => exact absurd h (by simp)
      | cons last others => exact h
    · rename_i hname
      rw [if_neg hname]
      split at h
      · exact absurd h (by simp)
      · exact h
  · exact h

/-- The pieces can be shown behind tags that are open. -/
def Readable (console : Console) (opened : List Tag) (ps : List Piece) : Prop :=
  check console 0 opened ps = .ok ()

theorem check_eq_ok (h : check console position opened ps = .ok ()) (other : Nat) :
    check console other opened ps = .ok () := by
  induction ps generalizing position opened other with
  | nil => rfl
  | cons p ps ih =>
    cases p with
    | plain text => exact ih h _
    | mark guards body =>
      simp only [check] at h ⊢
      split at h
      · rename_i hguarded
        rw [if_pos hguarded]
        exact ih h _
      · rename_i hguarded
        rw [if_neg hguarded]
        split at h
        · exact absurd h (by simp)
        · rename_i after hafter
          rw [afterTag_eq_ok hafter]
          exact ih h _

theorem check_iff : check console position opened ps = .ok () ↔ Readable console opened ps :=
  ⟨fun h => check_eq_ok h 0, fun h => check_eq_ok h position⟩

theorem readable_nil : Readable console opened [] := rfl

theorem readable_plain :
    Readable console opened (.plain text :: ps) ↔ Readable console opened ps := by
  rw [Readable, check]
  exact check_iff

theorem readable_mark (h : afterTag console 0 opened body = .ok after) :
    Readable console opened (.mark 0 body :: ps) ↔ Readable console after ps := by
  rw [Readable, check, if_neg (by decide), h]
  exact check_iff

theorem readable_consPlain :
    Readable console opened (consPlain c ps) ↔ Readable console opened ps := by
  unfold consPlain
  split
  · rw [readable_plain, readable_plain]
  · exact readable_plain

theorem readable_foldr :
    Readable console opened (text.foldr consPlain ps) ↔ Readable console opened ps := by
  induction text with
  | nil => rfl
  | cons c text ih => rw [List.foldr_cons, readable_consPlain, ih]

theorem readable_append (h : ∀ c ∈ text, IsPlain c) :
    Readable console opened (pieces 0 (text ++ rest)) ↔
      Readable console opened (pieces 0 rest) := by
  rw [pieces_append h, readable_foldr]

theorem readable_of_plain (h : ∀ c ∈ text, IsPlain c) :
    Readable console opened (pieces 0 text) := by
  rw [← List.append_nil text, readable_append h]
  exact readable_nil

theorem readable_guarded (ps : List Piece) :
    Readable console opened (ps.map Piece.guarded) := by
  induction ps with
  | nil => exact readable_nil
  | cons p ps ih =>
    cases p with
    | plain text => exact readable_plain.2 ih
    | mark guards body =>
      have hguarded : (2 * guards + 1) % 2 = 1 := by omega
      rw [List.map_cons, Readable, Piece.guarded, check, if_pos hguarded]
      exact check_iff.2 ih

/-- A text that is to stand for itself can always be shown. -/
theorem read_escape (console : Console) (s : String) :
    console.read (escape s) = .ok (console.literal s) := by
  have h : check console 0 [] (escape s) = .ok () := readable_guarded _
  rw [Console.read, h]
  rfl

theorem exists_shown_iff {s : String} :
    (∃ text, console.shown s = .ok text) ↔ Readable console [] (pieces 0 s.toList) := by
  rw [Console.shown, Console.read, Readable]
  cases check console 0 [] (pieces 0 s.toList) with
  | error fault => simp [Except.map]
  | ok => simp [Except.map]

theorem shown_of_readable {s : String} (h : Readable console [] (pieces 0 s.toList)) :
    console.shown s = .ok (seen console (pieces 0 s.toList)) := by
  rw [Readable] at h
  rw [Console.shown, Console.read, h]
  rfl

/-! ### A word in a style -/

/-- The word can name a style: it has letters and nothing else. -/
def IsName (word : List Char) : Prop := word ≠ [] ∧ ∀ c ∈ word, c.isLower = true

instance (word : List Char) : Decidable (IsName word) := inferInstanceAs (Decidable (_ ∧ _))

theorem tagBody?_of_begins (hc : beginsTag c = true) (h : ∀ d ∈ body, d.isLower = true) :
    tagBody? (c :: (body ++ ']' :: rest)) = some (c :: body) := by
  have hbody : (body ++ ']' :: rest).takeWhile (fun d => d != '[' && d != ']') = body := by
    rw [List.takeWhile_append_of_pos]
    · simp
    · intro d hd
      have hlower := h d hd
      have hopen : d ≠ '[' := by
        rintro rfl
        exact absurd hlower (by decide)
      have hclose : d ≠ ']' := by
        rintro rfl
        exact absurd hlower (by decide)
      simp [hopen, hclose]
  simp only [tagBody?, hbody, List.drop_left, List.head?_cons, hc]
  rfl

theorem toNat_of_isLower (h : c.isLower = true) : 97 ≤ c.toNat ∧ c.toNat ≤ 122 := by
  have hrange : (decide ('a'.val ≤ c.val) && decide (c.val ≤ 'z'.val)) = true := h
  rw [Bool.and_eq_true, decide_eq_true_iff, decide_eq_true_iff] at hrange
  exact hrange.imp UInt32.le_iff_toNat_le.1 UInt32.le_iff_toNat_le.1

theorem isBlank_of_isLower (h : c.isLower = true) : Text.isBlank c = false := by
  have hrange := toNat_of_isLower h
  simp [Text.isBlank, Text.inRanges, Text.blankRanges]
  omega

theorem trim_eq_self {p : Char → Bool} (h : ∀ c ∈ text, p c = false) : Text.trim p text = text := by
  have hfront : text.dropWhile p = text := by
    cases text with
    | nil => rfl
    | cons c rest => exact List.dropWhile_cons_of_neg (by simp [h c List.mem_cons_self])
  have hback : text.reverse.dropWhile p = text.reverse := by
    cases hreverse : text.reverse with
    | nil => rfl
    | cons c rest =>
      have hc : c ∈ text := List.mem_reverse.1 (hreverse ▸ List.mem_cons_self)
      exact List.dropWhile_cons_of_neg (by simp [h c hc])
  rw [Text.trim, hfront, hback, List.reverse_reverse]

theorem takeWhile_name {name : List Char} (h : IsName name) :
    name.takeWhile (· != '=') = name := by
  rw [List.takeWhile_eq_self_iff]
  intro c hc
  rw [bne_iff_ne]
  rintro rfl
  exact absurd (h.2 _ hc) (by decide)

theorem strip_name {name : List Char} (h : IsName name) :
    Text.strip (String.ofList name) = String.ofList name := by
  rw [Text.strip, String.toList_ofList, trim_eq_self fun c hc => isBlank_of_isLower (h.2 c hc)]

theorem ofList_name_ne {name : List Char} (h : IsName name) : String.ofList name ≠ "" := by
  intro hempty
  have hlist := congrArg String.toList hempty
  rw [String.toList_ofList] at hlist
  exact h.1 hlist

/-- The tag that a name opens. -/
def named (console : Console) (name : List Char) : Tag := ⟨console.style (String.ofList name), none⟩

theorem afterTag_name {name : List Char} (h : IsName name) :
    afterTag console position opened name = .ok (named console name :: opened) := by
  obtain ⟨hne, hlower⟩ := h
  have htag : Tag.ofBody name = ⟨String.ofList name, none⟩ := by
    rw [Tag.ofBody, takeWhile_name ⟨hne, hlower⟩, List.drop_length]
    rfl
  rw [afterTag, htag]
  · rfl
  · rintro more rfl
    exact absurd (hlower '/' List.mem_cons_self) (by decide)

theorem afterTag_close {name : List Char} (h : IsName name) :
    afterTag console position (named console name :: opened) ('/' :: name) = .ok opened := by
  rw [afterTag, takeWhile_name h, strip_name h]
  dsimp only
  rw [if_neg (ofList_name_ne h), List.find?_cons_of_pos (by simp [named])]
  dsimp only
  rw [List.eraseP_cons_of_pos (by simp [named]), finish]
  simp [named]

/-- A word in front of a text, in a style of its own. -/
def labelled (name label text : List Char) : List Char :=
  '[' :: (name ++ ']' :: (label ++ '[' :: ('/' :: name ++ ']' :: text)))

theorem toList_styled (name label text : String) :
    (styled name label ++ text).toList = labelled name.toList label.toList text.toList := by
  simp [styled, labelled]

theorem pieces_labelled {name label : List Char} (h : IsName name) (plain : ∀ c ∈ label, IsPlain c)
    (text : List Char) :
    pieces 0 (labelled name label text) =
      .mark 0 name :: label.foldr consPlain (.mark 0 ('/' :: name) :: pieces 0 text) := by
  obtain ⟨hne, hlower⟩ := h
  have hclosing : tagBody? ('/' :: name ++ ']' :: text) = some ('/' :: name) :=
    tagBody?_of_begins rfl hlower
  cases name with
  | nil => exact absurd rfl hne
  | cons c name =>
    obtain ⟨hc, hname⟩ := List.forall_mem_cons.1 hlower
    have hbegins : beginsTag c = true := by simp [beginsTag, hc]
    have hopening :
        tagBody? (c :: name ++ ']' :: (label ++ '[' :: ('/' :: c :: name ++ ']' :: text))) =
          some (c :: name) := tagBody?_of_begins hbegins hname
    rw [labelled, pieces_tag hopening, pieces_append plain, pieces_tag hclosing]

/-- A label does not matter to what can be shown behind it. -/
theorem readable_labelled {name label : List Char} (h : IsName name)
    (plain : ∀ c ∈ label, IsPlain c) :
    Readable console opened (pieces 0 (labelled name label text)) ↔
      Readable console opened (pieces 0 text) := by
  rw [pieces_labelled h plain, readable_mark (afterTag_name h), readable_foldr,
    readable_mark (afterTag_close h)]

/-! ### What is seen of plain text -/

theorem code?_of_ne (h : c ≠ ':') (rest : List Char) : code? (c :: rest) = none := by
  rw [code?]
  rintro more heq
  exact h (List.cons.inj heq).1

theorem code?_of_not_mem (h : ':' ∉ rest) : code? (':' :: rest) = none := by
  rw [code?, if_neg]
  intro hcolon
  rw [beq_iff_eq] at hcolon
  exact h (List.mem_of_mem_drop (List.mem_of_mem_head? hcolon))

/-- One colon does not make the name of a picture. -/
theorem pictured_eq_self (h : text.count ':' ≤ 1) : pictured console 0 text = text := by
  induction text with
  | nil => rfl
  | cons c rest ih =>
    by_cases hc : c = ':'
    · subst hc
      rw [List.count_cons_self] at h
      have hnone : ':' ∉ rest := List.count_eq_zero.1 (by omega)
      rw [pictured, code?_of_not_mem hnone]
      exact congrArg _ (ih (by omega))
    · rw [List.count_cons_of_ne hc] at h
      rw [pictured, code?_of_ne hc]
      exact congrArg _ (ih h)

theorem dropGuards_eq_self (h : ∀ c ∈ text, IsPlain c) : dropGuards text = text := by
  induction text with
  | nil => rfl
  | cons c rest ih =>
    obtain ⟨hc, hrest⟩ := List.forall_mem_cons.1 h
    rw [dropGuards, ih hrest]
    rintro more hguard -
    exact hc.2 hguard

/-- Plain text without the names of pictures. -/
structure IsSeen (text : List Char) : Prop where
  plain : ∀ c ∈ text, IsPlain c
  colons : text.count ':' ≤ 1

theorem seen_plain (h : IsSeen text) : (Piece.plain text).seen console = text := by
  rw [Piece.seen, dropGuards_eq_self h.plain, pictured_eq_self h.colons]

theorem foldr_consPlain (next : ∀ more rest, ps ≠ .plain more :: rest) (hne : text ≠ []) :
    text.foldr consPlain ps = .plain text :: ps := by
  induction text with
  | nil => exact absurd rfl hne
  | cons c rest ih =>
    rw [List.foldr_cons]
    cases rest with
    | nil =>
      rw [List.foldr_nil, consPlain]
      exact next
    | cons d rest => rw [ih (List.cons_ne_nil d rest), consPlain]

theorem seen_foldr (h : IsSeen text) (next : ∀ more rest, ps ≠ .plain more :: rest) :
    (text.foldr consPlain ps).flatMap (Piece.seen console) =
      text ++ ps.flatMap (Piece.seen console) := by
  by_cases hne : text = []
  · rw [hne]
    rfl
  · rw [foldr_consPlain next hne, List.flatMap_cons, seen_plain h]

/-- Plain text behind a label is shown as it is. -/
theorem shown_styled {name label text : String} (hname : IsName name.toList)
    (hlabel : IsSeen label.toList) (htext : IsSeen text.toList) :
    console.shown (styled name label ++ text) = .ok (label ++ text) := by
  have hrest : pieces 0 text.toList = text.toList.foldr consPlain [] := by
    have happend := pieces_append htext.plain []
    rwa [List.append_nil] at happend
  have hreadable : Readable console [] (pieces 0 (styled name label ++ text).toList) := by
    rw [toList_styled, readable_labelled hname hlabel.plain, hrest, readable_foldr]
    exact readable_nil
  have hmark (name : List Char) : (Piece.mark 0 name).seen console = [] := rfl
  rw [shown_of_readable hreadable, toList_styled, pieces_labelled hname hlabel.plain, seen,
    List.flatMap_cons, hmark, List.nil_append, seen_foldr hlabel (by simp), List.flatMap_cons, hmark,
    List.nil_append, hrest, seen_foldr htext (by simp), List.flatMap_nil, List.append_nil,
    ← String.toList_append, String.ofList_toList]

/-! ### Numbers -/

/-- The character is plain and no colon. -/
def IsQuiet (c : Char) : Prop := IsPlain c ∧ c ≠ ':'

instance (c : Char) : Decidable (IsQuiet c) := inferInstanceAs (Decidable (_ ∧ _))

theorem isSeen_append {before : List Char} (quiet : ∀ c ∈ before, IsQuiet c) (h : IsSeen text) :
    IsSeen (before ++ text) where
  plain := by
    intro c hc
    obtain hc | hc := List.mem_append.1 hc
    · exact (quiet c hc).1
    · exact h.plain c hc
  colons := by
    have hnone : before.count ':' = 0 := List.count_eq_zero.2 fun hcolon => (quiet _ hcolon).2 rfl
    rw [List.count_append, hnone, Nat.zero_add]
    exact h.colons

theorem isSeen_of_quiet (quiet : ∀ c ∈ text, IsQuiet c) : IsSeen text := by
  have happend := isSeen_append quiet ⟨fun c hc => absurd hc List.not_mem_nil, Nat.zero_le 1⟩
  rwa [List.append_nil] at happend

/-- A character of a number in decimal notation. -/
def IsNumeral (c : Char) : Prop := c.isDigit = true ∨ c = '-'

theorem numeral_of_mem_natural {n : Nat} (h : c ∈ (toString n).toList) : IsNumeral c := by
  have hdigits : (toString n).toList = Nat.toDigits 10 n := Nat.toList_repr
  rw [hdigits] at h
  exact Or.inl (Nat.isDigit_of_mem_toDigits (by decide) (by decide) h)

theorem numeral_of_mem_integer {n : Int} (h : c ∈ (toString n).toList) : IsNumeral c := by
  have hrepr : toString n = if 0 ≤ n then toString n.toNat else "-" ++ toString (-n).toNat :=
    Int.repr_eq_if
  rw [hrepr] at h
  split at h
  · exact numeral_of_mem_natural h
  · rw [String.toList_append, List.mem_append] at h
    obtain h | h := h
    · exact Or.inr (List.mem_singleton.1 h)
    · exact numeral_of_mem_natural h

theorem IsNumeral.isQuiet (h : IsNumeral c) : IsQuiet c ∧ beginsTag c = false := by
  obtain h | rfl := h
  · have hrange : 48 ≤ c.toNat ∧ c.toNat ≤ 57 := by
      simpa [Char.isDigit, UInt32.le_iff_toNat_le] using h
    refine ⟨⟨⟨?_, ?_⟩, ?_⟩, ?_⟩
    · rintro rfl
      exact absurd hrange (by decide)
    · rintro rfl
      exact absurd hrange (by decide)
    · rintro rfl
      exact absurd hrange (by decide)
    · rw [Bool.eq_false_iff]
      intro hbegins
      simp only [beginsTag, Bool.or_eq_true, beq_iff_eq] at hbegins
      obtain ((hlower | rfl) | rfl) | rfl := hbegins
      · have hletter := toNat_of_isLower hlower
        omega
      · exact absurd hrange (by decide)
      · exact absurd hrange (by decide)
      · exact absurd hrange (by decide)
  · decide

end Lifecycle.Markup
