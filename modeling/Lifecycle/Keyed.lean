/-! # Keyed lists

A keyed list holds at most one value for a key and keeps its keys in the order in which they came. A
new value for an old key stands where the old one stood. -/

namespace Lifecycle

/-- Pairs of a key and its value, in order of arrival. -/
abbrev Keyed (α β : Type) := List (α × β)

namespace Keyed

variable {α β : Type} [BEq α]

/-- The value of a key. -/
def get? (l : Keyed α β) (key : α) : Option β := (l.find? fun e => e.1 == key).map Prod.snd

/-- Gives a key a value. -/
def set : Keyed α β → α → β → Keyed α β
  | [], key, value => [(key, value)]
  | e :: rest, key, value => if e.1 == key then (key, value) :: rest else e :: set rest key value

/-- Gives keys their values, one after the other. -/
def setAll (l : Keyed α β) (entries : List (α × β)) : Keyed α β :=
  entries.foldl (fun l e => set l e.1 e.2) l

/-- The list without a key. -/
def erase (l : Keyed α β) (key : α) : Keyed α β := l.filter fun e => !(e.1 == key)

theorem get?_nil (key : α) : get? ([] : Keyed α β) key = none := rfl

theorem get?_cons (e : α × β) (l : Keyed α β) (key : α) :
    get? (e :: l) key = if e.1 == key then some e.2 else get? l key := by
  unfold get?
  cases h : e.1 == key <;> simp [h]

theorem get?_set [LawfulBEq α] (l : Keyed α β) (key key' : α) (value : β) :
    get? (set l key value) key' = if key == key' then some value else get? l key' := by
  induction l with
  | nil => simp [set, get?_cons, get?_nil]
  | cons e rest ih =>
    by_cases he : e.1 = key
    · by_cases h : key = key' <;> simp [set, get?_cons, he, h]
    · by_cases h : key = key'
      · subst h
        simp [set, get?_cons, he, ih]
      · simp [set, get?_cons, he, ih, h]

theorem get?_erase [LawfulBEq α] (l : Keyed α β) (key key' : α) :
    get? (erase l key) key' = if key == key' then none else get? l key' := by
  induction l with
  | nil => simp [erase, get?_nil]
  | cons e rest ih =>
    have cons : erase (e :: rest) key =
        if e.1 == key then erase rest key else e :: erase rest key := by
      unfold erase
      cases h : e.1 == key <;> simp [h]
    by_cases he : e.1 = key
    · by_cases h : key = key' <;> simp_all [get?_cons]
    · by_cases h : key = key'
      · subst h
        simp_all [get?_cons]
      · simp_all [get?_cons]

end Keyed

end Lifecycle
