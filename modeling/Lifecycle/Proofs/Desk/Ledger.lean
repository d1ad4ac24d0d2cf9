import Lifecycle.Proofs.Allocator.Indices
import Lifecycle.Proofs.Store.Reads
import Lifecycle.Proofs.Translation
import Lifecycle.Watcher

/-! # The ledger of a deployment

An index is given out by the allocator, and the event is put into the store at that index. The two
are in step if the stored indices are those that were given out. Then the keys and the descriptions
can be read side by side, as a ledger in the order of the indices. An event line whose key is new
adds one entry at the end of the ledger; any other line leaves the ledger as it is. -/

namespace Lifecycle

/-! ### Puts at the end and puts again -/

namespace Store

/-- A put behind all events of its deployment adds its event at the end. -/
theorem Sound.put_behind {store : Store} (hs : store.Sound) {id : String} {index : Int}
    (behind : ∀ e ∈ store.contents id, e.1 < index) (event : Event)
    (ok : check index event = .ok ()) (now : Rat) :
    ∃ report next, store.put now id index event = .ok (report, next) ∧ next.Sound ∧
      report.put = .stored event ∧
      next.contents id = store.contents id ++ [(index, event)] ∧
      ∀ other, other ≠ id → next.find? other = store.find? other := by
  obtain ⟨report, next, hput, hsound, hreport, hfind⟩ := hs.put_spec ok now id
  have hnone : (store.sequenceAt now id).events[index]? = none := by
    rw [Option.eq_none_iff_forall_ne_some]
    intro kept hkept
    have := behind _ (getElem?_sequenceAt.1 hkept)
    exact absurd this (Int.lt_irrefl index)
  rw [Sequence.insert_of_none hnone] at hreport hfind
  refine ⟨report, next, hput, hsound, hreport, ?_, ?_⟩
  · have hid := hfind id
    rw [if_pos rfl] at hid
    have hbehind : ∀ e ∈ (store.sequenceAt now id).events.toList, e.1 < index := by
      rwa [toList_sequenceAt]
    rw [contents_of_find? hid, Sequence.toList_insert_of_lt hbehind, toList_sequenceAt]
  · intro other hother
    rw [hfind other, if_neg hother]

/-- A put at an index that is taken changes no sequence. -/
theorem Sound.put_taken {store : Store} (hs : store.Sound) {id : String} {index : Int}
    {kept : Event} (taken : (index, kept) ∈ store.contents id) (event : Event)
    (ok : check index event = .ok ()) (now : Rat) :
    ∃ report next, store.put now id index event = .ok (report, next) ∧ next.Sound ∧
      report.put = .duplicate kept ∧ ∀ other, next.find? other = store.find? other := by
  obtain ⟨report, hput, hkept⟩ := hs.put_duplicate (mem_contents_iff.1 taken) ok now
  exact ⟨report, store, hput, hs, hkept, fun _ => rfl⟩

end Store

/-! ### The ledger -/

namespace Desk

/-- The indices of the events of a deployment are those that the allocator has given out. -/
structure InStep (desk : Desk) (id : String) : Prop where
  sound : desk.store.Sound
  distinct : desk.allocator.keys.Nodup
  indices : (desk.store.contents id).map Prod.fst =
    (List.range desk.allocator.size).map Int.ofNat
  labelled : ∀ e ∈ desk.store.contents id, e.2.index = e.1

/-- The keys with the descriptions of their events, in the order of the indices. -/
def ledger (desk : Desk) (id : String) : List (LineKey × String) :=
  desk.allocator.keys.zip ((desk.store.contents id).map fun e => e.2.description)

section

variable {desk : Desk} {id : String}

theorem inStep_empty (id : String) : InStep ⟨{}, {}⟩ id where
  sound := Store.sound_empty
  distinct := List.nodup_nil
  indices := rfl
  labelled := by
    intro e he
    exact absurd he List.not_mem_nil

theorem InStep.length_contents (h : desk.InStep id) :
    (desk.store.contents id).length = desk.allocator.size := by
  have hlength := congrArg List.length h.indices
  rwa [List.length_map, List.length_map, List.length_range] at hlength

theorem InStep.mem_contents_lt (h : desk.InStep id) {e : Int × Event}
    (he : e ∈ desk.store.contents id) : 0 ≤ e.1 ∧ e.1 < desk.allocator.size := by
  have hmem := List.mem_map_of_mem (f := Prod.fst) he
  rw [h.indices, List.mem_map] at hmem
  obtain ⟨n, hn, hne⟩ := hmem
  rw [List.mem_range] at hn
  rw [← hne]
  exact ⟨Int.natCast_nonneg n, Int.ofNat_lt.2 hn⟩

theorem InStep.exists_mem_contents (h : desk.InStep id) {index : Nat}
    (hi : index < desk.allocator.size) : ∃ event, ((index : Int), event) ∈ desk.store.contents id := by
  have hmem : (index : Int) ∈ (desk.store.contents id).map Prod.fst := by
    rw [h.indices]
    exact List.mem_map_of_mem (List.mem_range.2 hi)
  obtain ⟨⟨i, event⟩, he, rfl⟩ := List.mem_map.1 hmem
  exact ⟨event, he⟩

theorem InStep.map_fst_ledger (h : desk.InStep id) :
    (desk.ledger id).map Prod.fst = desk.allocator.keys := by
  refine List.map_fst_zip ?_
  rw [List.length_map, h.length_contents, Allocator.size]

theorem InStep.map_snd_ledger (h : desk.InStep id) :
    (desk.ledger id).map Prod.snd =
      (desk.store.contents id).map fun e => e.2.description := by
  refine List.map_snd_zip ?_
  rw [List.length_map, h.length_contents, Allocator.size]

/-- Each event stands at the place of its index. -/
theorem InStep.getElem?_contents_iff (h : desk.InStep id) {index : Nat} {event : Event} :
    (desk.store.contents id)[index]? = some ((index : Int), event) ↔
      ((index : Int), event) ∈ desk.store.contents id := by
  constructor
  · exact List.mem_of_getElem?
  · intro he
    obtain ⟨j, hj⟩ := List.mem_iff_getElem?.1 he
    have hplace : ((desk.store.contents id).map Prod.fst)[j]? = some (index : Int) := by
      rw [List.getElem?_map, hj, Option.map_some]
    rw [h.indices, List.getElem?_map, Option.map_eq_some_iff] at hplace
    obtain ⟨n, hn, hindex⟩ := hplace
    obtain ⟨hlt, hjn⟩ := List.getElem?_eq_some_iff.1 hn
    rw [List.getElem_range] at hjn
    rw [← Int.ofNat.inj hindex, ← hjn]
    rwa [← Int.ofNat.inj hindex, ← hjn] at hj

theorem InStep.getElem?_ledger_iff (h : desk.InStep id) {index : Nat} {key : LineKey}
    {description : String} :
    (desk.ledger id)[index]? = some (key, description) ↔
      desk.allocator.keys[index]? = some key ∧
        ∃ event, ((index : Int), event) ∈ desk.store.contents id ∧
          event.description = description := by
  rw [ledger, List.getElem?_zip_eq_some, List.getElem?_map]
  refine and_congr_right ?_
  intro hkey
  constructor
  · intro hd
    obtain ⟨⟨i, event⟩, he, rfl⟩ := Option.map_eq_some_iff.1 hd
    have hlt : index < desk.allocator.size := (List.getElem?_eq_some_iff.1 hkey).1
    obtain ⟨kept, hkept⟩ := h.exists_mem_contents hlt
    have hplace := h.getElem?_contents_iff.2 hkept
    rw [hplace, Option.some.injEq] at he
    rw [he] at hkept
    obtain ⟨rfl, -⟩ := Prod.mk.inj he
    exact ⟨event, hkept, rfl⟩
  · rintro ⟨event, he, rfl⟩
    rw [h.getElem?_contents_iff.2 he, Option.map_some]

end

/-- From one desk to the next, the ledger of a deployment has got `added` at its end, and nothing
else has changed. -/
structure Advance (id : String) (added : List (LineKey × String)) (desk next : Desk) : Prop where
  inStep : next.InStep id
  ledger : next.ledger id = desk.ledger id ++ added
  frame : ∀ other, other ≠ id → next.store.find? other = desk.store.find? other
  logs : next.allocator.logs = desk.allocator.logs

theorem Advance.refl {id : String} {desk : Desk} (h : desk.InStep id) : Advance id [] desk desk where
  inStep := h
  ledger := (List.append_nil _).symm
  frame := fun _ _ => rfl
  logs := rfl

theorem Advance.trans {id : String} {added more : List (LineKey × String)} {desk next last : Desk}
    (first : Advance id added desk next) (second : Advance id more next last) :
    Advance id (added ++ more) desk last where
  inStep := second.inStep
  ledger := by rw [second.ledger, first.ledger, List.append_assoc]
  frame := fun other hother => (second.frame other hother).trans (first.frame other hother)
  logs := second.logs.trans first.logs

theorem Advance.keys {id : String} {added : List (LineKey × String)} {desk next : Desk}
    (h : Advance id added desk next) (hd : desk.InStep id) :
    next.allocator.keys = desk.allocator.keys ++ added.map Prod.fst := by
  rw [← h.inStep.map_fst_ledger, h.ledger, List.map_append, hd.map_fst_ledger]

/-- The next index, given to a new key, and an event at it. -/
theorem InStep.extend {desk : Desk} {id : String} (h : desk.InStep id) {key : LineKey}
    (hkey : key ∉ desk.allocator.keys) {event : Event} (hevent : event.index = desk.allocator.size)
    {store : Store} (hs : store.Sound)
    (contents : store.contents id =
      desk.store.contents id ++ [((desk.allocator.size : Int), event)])
    (frame : ∀ other, other ≠ id → store.find? other = desk.store.find? other) :
    Advance id [(key, event.description)] desk
      ⟨{ desk.allocator with keys := desk.allocator.keys ++ [key] }, store⟩ where
  inStep :=
    { sound := hs
      distinct := by
        rw [List.nodup_append]
        refine ⟨h.distinct, List.nodup_singleton key, ?_⟩
        intro a ha b hb hab
        rw [List.mem_singleton.1 hb] at hab
        exact hkey (hab ▸ ha)
      indices := by
        rw [contents, List.map_append, h.indices, Allocator.size_append_key, List.range_succ,
          List.map_append]
        rfl
      labelled := by
        intro e he
        rw [contents, List.mem_append, List.mem_singleton] at he
        rcases he with he | rfl
        · exact h.labelled e he
        · exact hevent }
  ledger := by
    rw [ledger, contents, List.map_append, List.zip_append]
    · rfl
    · rw [List.length_map, h.length_contents, Allocator.size]
  frame := frame
  logs := rfl

end Desk

end Lifecycle
