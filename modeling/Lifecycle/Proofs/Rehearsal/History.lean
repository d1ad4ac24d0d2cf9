import Lifecycle.Proofs.Rehearsal.Watchers

/-! # Histories of loops

The loop of a watcher is started, stopped and halted, and its history says when. It is live as long
as the last of these signs is a start. The live loops are listed in the order of their starts, where
a start of a live loop does not count. -/

namespace Lifecycle

/-- What happens to the loop of a watcher. -/
inductive Sign
  | started
  | stopped
  | halted (line : MalformedLine)
  deriving DecidableEq

/-- A sign of the place, with none of the signs `later` of that place behind it. -/
def Stands (history : List (Place × Sign)) (place : Place) (sign : Sign) (later : Sign → Prop) :
    Prop :=
  ∃ before after, history = before ++ (place, sign) :: after ∧
    ∀ e ∈ after, e.1 = place → ¬ later e.2

/-- The live places in the order of their starts. -/
def live (history : List (Place × Sign)) : List Place :=
  history.foldl
    (fun live (place, sign) =>
      match sign with
      | .started => if place ∈ live then live else live ++ [place]
      | _ => live.filter (· ≠ place))
    []

/-- The line that last halted a place. -/
def lastHalt (history : List (Place × Sign)) (place : Place) : Option MalformedLine :=
  history.foldl
    (fun last (other, sign) =>
      match sign with
      | .halted line => if other = place then some line else last
      | _ => last)
    none

def Sign.IsHalt (sign : Sign) : Prop := ∃ line, sign = .halted line

section

variable {history : List (Place × Sign)} {place other : Place} {sign : Sign} {later : Sign → Prop}

theorem not_stands_nil : ¬ Stands [] place sign later := by
  rintro ⟨before, after, h, -⟩
  exact absurd h (by simp)

theorem stands_concat {e : Place × Sign} :
    Stands (history ++ [e]) place sign later ↔
      e = (place, sign) ∨ Stands history place sign later ∧ (e.1 = place → ¬ later e.2) := by
  constructor
  · rintro ⟨before, after, h, hafter⟩
    rcases List.eq_nil_or_concat after with rfl | ⟨after, last, rfl⟩
    · left
      exact (List.append_inj' h rfl).2 |> List.singleton_inj.1
    · right
      rw [List.concat_eq_append, ← List.cons_append, ← List.append_assoc] at h
      obtain ⟨rfl, hlast⟩ := List.append_inj' h rfl
      obtain rfl := List.singleton_inj.1 hlast
      rw [List.concat_eq_append] at hafter
      refine ⟨⟨before, after, rfl, fun x hx => hafter x (List.mem_append_left _ hx)⟩, ?_⟩
      exact hafter e (List.mem_append_right _ (List.mem_singleton_self e))
  · rintro (rfl | ⟨⟨before, after, rfl, hafter⟩, he⟩)
    · exact ⟨history, [], rfl, fun x hx => absurd hx List.not_mem_nil⟩
    · refine ⟨before, after ++ [e], by rw [List.append_assoc, List.cons_append], ?_⟩
      intro x hx
      rcases List.mem_append.1 hx with hx | hx
      · exact hafter x hx
      · rw [List.mem_singleton.1 hx]
        exact he

theorem live_started (history : List (Place × Sign)) (place : Place) :
    live (history ++ [(place, .started)]) =
      if place ∈ live history then live history else live history ++ [place] := by
  rw [live, List.foldl_append]
  rfl

theorem live_ended (history : List (Place × Sign)) (place : Place) (h : sign ≠ .started) :
    live (history ++ [(place, sign)]) = (live history).filter (· ≠ place) := by
  rw [live, List.foldl_append]
  cases sign with
  | started => exact absurd rfl h
  | stopped => rfl
  | halted line => rfl

theorem lastHalt_halted (history : List (Place × Sign)) (place other : Place)
    (line : MalformedLine) :
    lastHalt (history ++ [(place, .halted line)]) other =
      if place = other then some line else lastHalt history other := by
  rw [lastHalt, List.foldl_append]
  rfl

theorem lastHalt_kept (history : List (Place × Sign)) (place other : Place) (h : ¬ sign.IsHalt) :
    lastHalt (history ++ [(place, sign)]) other = lastHalt history other := by
  rw [lastHalt, List.foldl_append]
  cases sign with
  | started => rfl
  | stopped => rfl
  | halted line => exact absurd ⟨line, rfl⟩ h

theorem nodup_live (history : List (Place × Sign)) : (live history).Nodup := by
  induction history using List.reverseRecOn with
  | nil => exact List.nodup_nil
  | append_singleton history e ih =>
    obtain ⟨other, sign⟩ := e
    by_cases hsign : sign = .started
    · subst hsign
      rw [live_started]
      split
      · exact ih
      · rename_i hnew
        rw [← List.concat_eq_append]
        exact ih.concat hnew
    · rw [live_ended history other hsign]
      exact ih.filter _

theorem mem_live_iff : place ∈ live history ↔ Stands history place .started (· ≠ .started) := by
  induction history using List.reverseRecOn with
  | nil => exact iff_of_false List.not_mem_nil not_stands_nil
  | append_singleton history e ih =>
    obtain ⟨other, sign⟩ := e
    simp only [stands_concat, ← ih, Prod.mk.injEq]
    by_cases hsign : sign = .started
    · subst hsign
      rw [live_started]
      by_cases hmem : other ∈ live history
      · rw [if_pos hmem]
        constructor
        · exact fun h => Or.inr ⟨h, fun _ hne => hne rfl⟩
        · rintro (⟨rfl, -⟩ | ⟨h, -⟩)
          · exact hmem
          · exact h
      · rw [if_neg hmem, List.mem_append, List.mem_singleton]
        constructor
        · rintro (h | h)
          · exact Or.inr ⟨h, fun _ hne => hne rfl⟩
          · exact Or.inl ⟨h.symm, rfl⟩
        · rintro (⟨h, -⟩ | ⟨h, -⟩)
          · exact Or.inr h.symm
          · exact Or.inl h
    · rw [live_ended history other hsign, List.mem_filter, decide_eq_true_iff]
      constructor
      · rintro ⟨hlive, hne⟩
        exact Or.inr ⟨hlive, fun heq => absurd heq.symm hne⟩
      · rintro (⟨-, hstarted⟩ | ⟨hlive, hother⟩)
        · exact absurd hstarted hsign
        · exact ⟨hlive, fun heq => hother heq.symm hsign⟩

theorem lastHalt_eq_some_iff {line : MalformedLine} :
    lastHalt history place = some line ↔ Stands history place (.halted line) Sign.IsHalt := by
  induction history using List.reverseRecOn with
  | nil => exact iff_of_false (by simp [lastHalt]) not_stands_nil
  | append_singleton history e ih =>
    obtain ⟨other, sign⟩ := e
    simp only [stands_concat, ← ih, Prod.mk.injEq]
    cases sign with
    | halted last =>
      rw [lastHalt_halted]
      by_cases heq : other = place
      · simp [heq, Sign.IsHalt]
      · simp [heq]
    | started => simp [lastHalt_kept, Sign.IsHalt]
    | stopped => simp [lastHalt_kept, Sign.IsHalt]

end

end Lifecycle
