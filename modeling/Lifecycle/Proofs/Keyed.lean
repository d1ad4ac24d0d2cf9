import Lifecycle.Keyed
import Mathlib.Data.List.Nodup

/-! # Keys of a keyed list

A keyed list that was built by giving keys their values and by leaving keys out has each key once. So
its entries are just what it gives when it is asked for a key. -/

namespace Lifecycle.Keyed

variable {α β γ : Type} [BEq α]

theorem get?_map (l : Keyed α β) (f : β → γ) (key : α) :
    get? (l.map fun (k, value) => (k, f value)) key = (get? l key).map f := by
  induction l with
  | nil => rfl
  | cons e rest ih =>
    rw [List.map_cons, get?_cons, get?_cons, ih]
    cases e.1 == key <;> rfl

theorem map_set (l : Keyed α β) (f : β → γ) (key : α) (value : β) :
    (set l key value).map (fun (k, value) => (k, f value)) =
      set (l.map fun (k, value) => (k, f value)) key (f value) := by
  induction l with
  | nil => rfl
  | cons e rest ih =>
    rw [List.map_cons, set, set]
    cases h : e.1 == key with
    | true => rfl
    | false => exact congrArg (_ :: ·) ih

/-- The value of a new key comes last. -/
theorem set_of_get?_eq_none {l : Keyed α β} {key : α} (h : get? l key = none) (value : β) :
    set l key value = l ++ [(key, value)] := by
  induction l with
  | nil => rfl
  | cons e rest ih =>
    rw [get?_cons] at h
    split at h
    · exact absurd h (by simp)
    · rename_i hne
      rw [set, if_neg hne, ih h, List.cons_append]

variable [LawfulBEq α]

theorem set_set (l : Keyed α β) (key : α) (value next : β) :
    set (set l key value) key next = set l key next := by
  induction l with
  | nil => simp [set]
  | cons e rest ih =>
    by_cases he : e.1 = key
    · simp [set, he]
    · simp [set, he, ih]

theorem set_get? {l : Keyed α β} {key : α} {value : β} (h : get? l key = some value) :
    set l key value = l := by
  induction l with
  | nil => exact absurd h (by simp [get?_nil])
  | cons e rest ih =>
    rw [get?_cons] at h
    by_cases he : e.1 = key
    · rw [he, beq_self_eq_true, if_pos rfl] at h
      rw [set, he, beq_self_eq_true, if_pos rfl, ← Option.some.inj h, ← he]
    · rw [beq_false_of_ne he, if_neg Bool.false_ne_true] at h
      rw [set, beq_false_of_ne he, if_neg Bool.false_ne_true, ih h]

/-- A new value for an old key changes no key. -/
theorem map_fst_set_of_get? {l : Keyed α β} {key : α} {value : β} (h : get? l key = some value)
    (next : β) : (set l key next).map Prod.fst = l.map Prod.fst := by
  induction l with
  | nil => exact absurd h (by simp [get?_nil])
  | cons e rest ih =>
    rw [get?_cons] at h
    by_cases he : e.1 = key
    · rw [set, he, beq_self_eq_true, if_pos rfl, List.map_cons, List.map_cons, he]
    · rw [beq_false_of_ne he, if_neg Bool.false_ne_true] at h
      rw [set, beq_false_of_ne he, if_neg Bool.false_ne_true, List.map_cons, ih h, List.map_cons]

theorem get?_eq_none_iff {l : Keyed α β} {key : α} : get? l key = none ↔ key ∉ l.map Prod.fst := by
  rw [get?, Option.map_eq_none_iff, List.find?_eq_none]
  simp only [List.mem_map, beq_iff_eq, not_exists, not_and]

/-- A value that is left out again leaves no trace. -/
theorem erase_set (l : Keyed α β) (key : α) (value : β) :
    erase (set l key value) key = erase l key := by
  induction l with
  | nil => simp [set, erase]
  | cons e rest ih =>
    by_cases he : e.1 = key
    · simp [set, erase, he]
    · simp only [erase] at ih
      simp [set, erase, he, ih]

omit [LawfulBEq α] in
theorem map_fst_erase (l : Keyed α β) (key : α) :
    (erase l key).map Prod.fst = (l.map Prod.fst).filter fun other => !(other == key) := by
  rw [erase, List.filter_map]
  rfl

theorem isSome_get?_of_mem {l : Keyed α β} {key : α} {value : β} (h : (key, value) ∈ l) :
    (get? l key).isSome = true := by
  rw [get?, Option.isSome_map, List.find?_isSome]
  exact ⟨_, h, beq_self_eq_true key⟩

theorem mem_of_get? {l : Keyed α β} {key : α} {value : β} (h : get? l key = some value) :
    (key, value) ∈ l := by
  obtain ⟨e, hfound, rfl⟩ := Option.map_eq_some_iff.1 h
  have hkey := List.find?_some hfound
  rw [← beq_iff_eq.1 hkey]
  exact List.mem_of_find?_eq_some hfound

/-- Each key occurs once. -/
def Distinct (l : Keyed α β) : Prop := (l.map Prod.fst).Nodup

variable {l : Keyed α β}

omit [BEq α] [LawfulBEq α] in
theorem distinct_nil : Distinct ([] : Keyed α β) := List.nodup_nil

theorem Distinct.get?_of_mem (h : l.Distinct) {key : α} {value : β} (hmem : (key, value) ∈ l) :
    get? l key = some value := by
  induction l with
  | nil => exact absurd hmem List.not_mem_nil
  | cons e rest ih =>
    rw [Distinct, List.map_cons, List.nodup_cons] at h
    rw [get?_cons]
    rcases List.mem_cons.1 hmem with rfl | hrest
    · rw [beq_self_eq_true, if_pos rfl]
    · have hne : e.1 ≠ key := fun heq => h.1 (heq ▸ List.mem_map_of_mem (f := Prod.fst) hrest)
      rw [beq_false_of_ne hne, if_neg Bool.false_ne_true]
      exact ih h.2 hrest

theorem Distinct.mem_iff (h : l.Distinct) {key : α} {value : β} :
    (key, value) ∈ l ↔ get? l key = some value :=
  ⟨h.get?_of_mem, mem_of_get?⟩

theorem mem_keys_set {key other : α} {value : β} :
    other ∈ (set l key value).map Prod.fst ↔ other ∈ l.map Prod.fst ∨ other = key := by
  induction l with
  | nil => simp [set]
  | cons e rest ih =>
    rw [set]
    by_cases he : e.1 = key
    · rw [he, beq_self_eq_true, if_pos rfl, List.map_cons, List.map_cons, he, List.mem_cons]
      constructor
      · exact Or.inl
      · rintro (h | rfl)
        · exact h
        · exact Or.inl rfl
    · rw [beq_false_of_ne he, if_neg Bool.false_ne_true, List.map_cons, List.map_cons,
        List.mem_cons, List.mem_cons, ih, or_assoc]

theorem Distinct.set (h : l.Distinct) (key : α) (value : β) : (set l key value).Distinct := by
  induction l with
  | nil => exact List.nodup_singleton key
  | cons e rest ih =>
    rw [Distinct, List.map_cons, List.nodup_cons] at h
    rw [Keyed.set]
    by_cases he : e.1 = key
    · rw [he, beq_self_eq_true, if_pos rfl, Distinct, List.map_cons, List.nodup_cons, ← he]
      exact h
    · rw [beq_false_of_ne he, if_neg Bool.false_ne_true, Distinct, List.map_cons, List.nodup_cons,
        mem_keys_set, not_or]
      exact ⟨⟨h.1, he⟩, ih h.2⟩

omit [LawfulBEq α] in
theorem Distinct.erase (h : l.Distinct) (key : α) : (erase l key).Distinct :=
  h.sublist (List.filter_sublist.map Prod.fst)

omit [BEq α] [LawfulBEq α] in
theorem Distinct.map (h : l.Distinct) (f : β → γ) :
    Distinct (l.map fun (key, value) => (key, f value)) := by
  rw [Distinct, List.map_map]
  exact h

/-- A new value stands where the old one stood. -/
theorem Distinct.set_append_cons {before behind : Keyed α β} {key : α} {value : β}
    (h : Distinct (before ++ (key, value) :: behind)) (next : β) :
    Keyed.set (before ++ (key, value) :: behind) key next = before ++ (key, next) :: behind := by
  induction before with
  | nil => rw [List.nil_append, List.nil_append, Keyed.set, beq_self_eq_true, if_pos rfl]
  | cons e rest ih =>
    rw [List.cons_append, Distinct, List.map_cons, List.nodup_cons] at h
    have hne : e.1 ≠ key := by
      rintro rfl
      exact h.1 (List.mem_map.2 ⟨_, List.mem_append_right _ List.mem_cons_self, rfl⟩)
    rw [List.cons_append, Keyed.set, beq_false_of_ne hne, if_neg Bool.false_ne_true, ih h.2,
      List.cons_append]

theorem Distinct.setAll (h : l.Distinct) (entries : List (α × β)) :
    (setAll l entries).Distinct := by
  induction entries generalizing l with
  | nil => exact h
  | cons e rest ih => exact ih (h.set e.1 e.2)

theorem get?_setAll_of_ne {entries : List (α × β)} {key : α} (h : ∀ e ∈ entries, e.1 ≠ key) :
    get? (setAll l entries) key = get? l key := by
  induction entries generalizing l with
  | nil => rfl
  | cons e rest ih =>
    have hrest : get? (setAll (set l e.1 e.2) rest) key = get? (set l e.1 e.2) key :=
      ih fun e he => h e (List.mem_cons_of_mem _ he)
    rw [get?_set, beq_false_of_ne (h e List.mem_cons_self), if_neg Bool.false_ne_true] at hrest
    exact hrest

theorem get?_setAll_of_mem {entries : List (α × β)} (h : (entries.map Prod.fst).Nodup)
    {e : α × β} (he : e ∈ entries) : get? (setAll l entries) e.1 = some e.2 := by
  induction entries generalizing l with
  | nil => exact absurd he List.not_mem_nil
  | cons first rest ih =>
    rw [List.map_cons, List.nodup_cons] at h
    rcases List.mem_cons.1 he with rfl | hrest
    · have hlater : ∀ other ∈ rest, other.1 ≠ e.1 := fun other hother hsame =>
        h.1 (hsame ▸ List.mem_map_of_mem (f := Prod.fst) hother)
      have hset : get? (setAll (set l e.1 e.2) rest) e.1 = get? (set l e.1 e.2) e.1 :=
        get?_setAll_of_ne hlater
      rw [get?_set, beq_self_eq_true, if_pos rfl] at hset
      exact hset
    · exact ih h.2 hrest

end Lifecycle.Keyed
