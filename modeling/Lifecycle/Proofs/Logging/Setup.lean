import Lifecycle.Logging
import Lifecycle.Proofs.Keyed

/-! # Setting log output up again and again

However often log output is set up, and whatever handlers were there before, the last time decides:
its handler is the only one, and the level of a logger is the last one that was set up, or a warning
for the loggers of the noisy libraries. So every record is written once or not at all, and it shows
its correlation id. -/

namespace Lifecycle.Logging

variable {σ : Type} {l : Logging σ} {env : Environment} {request : LogRequest σ}

/-! ### The last handler -/

theorem silence_eq (l : Logging σ) (libraries : List String) :
    l.silence libraries = { l with own := (l.silence libraries).own } := by
  induction libraries generalizing l with
  | nil => rfl
  | cons library rest ih => exact ih (l.setLevel library .warning)

theorem get?_own_silence (l : Logging σ) (libraries : List String) (logger : String) :
    (l.silence libraries).own.get? logger =
      if logger ∈ libraries then some .warning else l.own.get? logger := by
  induction libraries generalizing l with
  | nil => rfl
  | cons library rest ih =>
    have step : (l.silence (library :: rest)) = (l.setLevel library .warning).silence rest := rfl
    rw [step, ih, setLevel, Keyed.get?_set]
    by_cases h : library = logger
    · simp [h]
    · simp [h, Ne.symm h]

variable [DecidableEq σ]

theorem clear_eq (l : Logging σ) : l.clear = { l with handlers := [] } := by
  obtain ⟨level, handlers, own⟩ := l
  rw [clear]
  induction handlers with
  | nil => rfl
  | cons h rest ih =>
    rw [List.foldl_cons, remove, List.erase_cons_head]
    exact ih

theorem setUp_handlers : (l.setUp env request).handlers = [handler env request] := by
  rw [setUp, silence_eq, clear_eq]
  rfl

theorem setUp_level : (l.setUp env request).level = (handler env request).level := by
  rw [setUp, silence_eq, clear_eq]

theorem get?_own_setUp (logger : String) :
    (l.setUp env request).own.get? logger =
      if logger ∈ noisy then some .warning else l.own.get? logger := by
  rw [setUp, get?_own_silence, clear_eq]

/-- Only the noisy libraries have a level of their own. -/
def OnlyNoisy (l : Logging σ) : Prop := ∀ logger ∉ noisy, l.own.get? logger = none

theorem OnlyNoisy.setUp (h : l.OnlyNoisy) : (l.setUp env request).OnlyNoisy := by
  intro logger hlogger
  rw [get?_own_setUp, if_neg hlogger]
  exact h logger hlogger

/-- Sets the output up several times, one after the other. -/
def setUps (l : Logging σ) (calls : List (Environment × LogRequest σ)) : Logging σ :=
  calls.foldl (fun l (env, request) => l.setUp env request) l

theorem setUps_concat (l : Logging σ) (calls : List (Environment × LogRequest σ)) :
    l.setUps (calls ++ [(env, request)]) = (l.setUps calls).setUp env request := by
  rw [setUps, List.foldl_append]
  rfl

theorem OnlyNoisy.setUps (h : l.OnlyNoisy) (calls : List (Environment × LogRequest σ)) :
    (l.setUps calls).OnlyNoisy := by
  induction calls generalizing l with
  | nil => exact h
  | cons call rest ih => exact ih h.setUp

/-! ### Loggers and those above them -/

theorem mem_above_iff {name before : List Char} :
    before ∈ above name ↔ before ++ ['.'] <+: name := by
  induction name generalizing before with
  | nil => simp [above]
  | cons c rest ih =>
    cases before with
    | nil => simp [above, eq_comm]
    | cons b before =>
      have hhere : b :: before ∉ (if c = '.' then [[]] else []) := by split <;> simp
      rw [above, List.mem_append, or_iff_right hhere, List.cons_append, List.cons_prefix_cons, ← ih]
      simp [eq_comm, and_comm]

/-- A logger with a name, or one below it in the hierarchy of dotted names. -/
def Within (logger top : String) : Prop :=
  logger = top ∨ (top ++ ".").toList <+: logger.toList

instance (logger top : String) : Decidable (Within logger top) := by
  unfold Within
  infer_instance

theorem mem_lineage_iff {logger top : String} : top ∈ lineage logger ↔ Within logger top := by
  rw [lineage, List.mem_cons, List.mem_reverse, List.mem_map, Within, eq_comm, String.toList_append]
  refine or_congr_right ⟨?_, fun h => ⟨top.toList, mem_above_iff.2 h, String.ofList_toList⟩⟩
  rintro ⟨before, hbefore, rfl⟩
  rw [String.toList_ofList]
  exact mem_above_iff.1 hbefore

theorem findSome?_eq_if {α β : Type} {f : α → Option β} {P : α → Prop} [DecidablePred P] {b : β}
    (h : ∀ a, f a = if P a then some b else none) (as : List α) :
    as.findSome? f = if ∃ a ∈ as, P a then some b else none := by
  induction as with
  | nil => simp
  | cons a rest ih =>
    rw [List.findSome?_cons, h a, ih]
    by_cases ha : P a <;> simp [ha]

theorem levelOf_setUp (only : l.OnlyNoisy) (logger : String) :
    (l.setUp env request).levelOf logger =
      if ∃ top ∈ noisy, Within logger top then .warning else (handler env request).level := by
  have hown : ∀ top, (l.setUp env request).own.get? top =
      if top ∈ noisy then some .warning else none := by
    intro top
    rw [get?_own_setUp]
    split
    · rfl
    · exact only top ‹_›
  have hlineage : (∃ top ∈ lineage logger, top ∈ noisy) ↔ ∃ top ∈ noisy, Within logger top := by
    simp only [mem_lineage_iff, and_comm]
  rw [levelOf, findSome?_eq_if hown, setUp_level]
  simp only [hlineage]
  split <;> rfl

/-! ### Which records are written -/

/-- A handler writes a record if it is at least of the level of the handler and, if a noisy library
logs it, at least a warning. -/
def Due (h : Handler σ) (e : Emission) : Prop :=
  h.level.number ≤ e.level.number ∧
    (Within e.logger "urllib3" ∨ Within e.logger "kubernetes" →
      Level.warning.number ≤ e.level.number)

instance (h : Handler σ) (e : Emission) : Decidable (Due h e) := by
  unfold Due
  infer_instance

/-- No field bears a name of the record itself. -/
def Unreserved (fields : List (String × Json)) : Prop := ∀ f ∈ fields, f.1 ∉ reserved

theorem accepts_setUp_iff (only : l.OnlyNoisy) (logger : String) (level : Level) :
    (l.setUp env request).accepts logger level = true ↔
      if Within logger "urllib3" ∨ Within logger "kubernetes" then
        Level.warning.number ≤ level.number
      else (handler env request).level.number ≤ level.number := by
  have hnoisy : (∃ top ∈ noisy, Within logger top) ↔
      Within logger "urllib3" ∨ Within logger "kubernetes" := by simp [noisy]
  rw [accepts, decide_eq_true_iff, levelOf_setUp only]
  simp only [hnoisy]
  split <;> rfl

theorem due_iff (only : l.OnlyNoisy) {e : Emission} :
    Due (handler env request) e ↔
      (l.setUp env request).accepts e.logger e.level = true ∧
        (handler env request).level.number ≤ e.level.number := by
  rw [accepts_setUp_iff only, Due, and_comm]
  refine and_congr_left fun hlevel => ?_
  split
  -- The level of a noisy library may be below that of the handler: both must let the record pass.
  case isTrue hnoisy => exact forall_prop_of_true hnoisy
  case isFalse hnoisy => exact iff_of_true (fun h => absurd h hnoisy) hlevel

/-- What a handler writes of a record. -/
def line (h : Handler σ) (stamp : Stamp) (e : Emission) : Written σ :=
  ⟨h.stream, format stamp e h.format⟩

theorem written_setUp (stamp : Stamp) (e : Emission) :
    (l.setUp env request).written stamp e =
      if (handler env request).level.number ≤ e.level.number then
        [line (handler env request) stamp e] else [] := by
  rw [written, setUp_handlers, List.isEmpty_cons, if_neg Bool.false_ne_true, List.filter_singleton]
  by_cases h : (handler env request).level.number ≤ e.level.number
  · rw [decide_eq_true h, if_pos h, cond_true]
    rfl
  · rw [decide_eq_false h, if_neg h, cond_false]
    rfl

-- The logger of a noisy library lets a warning pass, and the handler stops it.
example :
    let l := ({} : Logging).setUp (fun _ => none) { level := some "error" }
    l.accepts "kubernetes.client" .warning = true ∧
      l.written ⟨"12:00", "250"⟩ ⟨"kubernetes.client", .warning, "slow", []⟩ = [] := by
  cbv

theorem emit_setUp (only : l.OnlyNoisy) (stamp : Stamp) {e : Emission} (h : Unreserved e.fields) :
    (l.setUp env request).emit stamp e =
      .ok (if Due (handler env request) e then [line (handler env request) stamp e] else []) := by
  have hfind : e.fields.find? (fun f => reserved.contains f.1) = none := by
    simpa [Unreserved] using h
  rw [emit, hfind, written_setUp]
  cases haccepts : (l.setUp env request).accepts e.logger e.level with
  | false =>
    have hdue : ¬ Due (handler env request) e := fun h =>
      Bool.false_ne_true (haccepts.symm.trans ((due_iff only).1 h).1)
    rw [if_neg hdue]
    rfl
  | true =>
    simp only [due_iff only, haccepts, true_and]
    rfl

theorem key_ne_of_mem_extraFields {fields : List (String × Json)} {f : String × Json}
    (h : f ∈ extraFields fields) : f.1 ≠ correlationField := by
  have hkept := (List.mem_filter.1 h).2
  exact bne_iff_ne.1 (Bool.and_eq_true_iff.1 hkept).1

theorem distinct_commonFields (stamp : Stamp) (e : Emission) : (commonFields stamp e).Distinct := by
  show ["timestamp", "logger", "level", "message", correlationField].Nodup
  decide

theorem correlation_mem_jsonRecord_iff (stamp : Stamp) (e : Emission) (value : Json) :
    (correlationField, value) ∈ (commonFields stamp e).setAll (extraFields e.fields) ↔
      value = shownCorrelation e.fields := by
  have hcommon : (commonFields stamp e).get? correlationField = some (shownCorrelation e.fields) :=
    rfl
  rw [((distinct_commonFields stamp e).setAll _).mem_iff,
    Keyed.get?_setAll_of_ne fun f => key_ne_of_mem_extraFields, hcommon, Option.some_inj, eq_comm]

/-- The correlation id of a view. -/
def viewId : Option String → String
  | none => "N/A"
  | some id => if id = "" then "N/A" else id

theorem lookup_viewFields (id : Option String) (given : List (String × Json)) :
    (viewFields id given).lookup "correlation_id" = some (.text (viewId id)) := by
  cases id with
  | none => rfl
  | some id =>
    by_cases h : id = ""
    · rw [h]
      rfl
    · simp [viewFields, correlationField, viewId, h, Option.filter]

theorem unreserved_viewFields (id : Option String) (given : List (String × Json)) :
    Unreserved (viewFields id given) := by
  simp [Unreserved, viewFields, correlationField, reserved]

/-! ### What is set up -/

/-- The name that is meant: the one asked for, unless there is none or it is empty, and else the one
in the environment or the default. -/
inductive Meant (found : Option String) (default : String) : Option String → String → Prop
  | asked {name : String} : name ≠ "" → Meant found default (some name) name
  | empty : Meant found default (some "") (found.getD default)
  | missing : Meant found default none (found.getD default)

theorem meant_choose (asked found : Option String) (default : String) :
    Meant found default asked (choose asked found default) := by
  cases asked with
  | none => exact .missing
  | some name =>
    by_cases h : name = ""
    · rw [h]
      exact .empty
    · have hchoose : choose (some name) found default = name := by simp [choose, Option.filter, h]
      rw [hchoose]
      exact .asked h

theorem levelNamed_of_eq {name : String} {level : Level} (h : name.map capital = level.name) :
    levelNamed name = level := by
  rw [levelNamed, h]
  cases level <;> rfl

theorem levelNamed_of_ne {name : String} (h : ∀ level : Level, name.map capital ≠ level.name) :
    levelNamed name = .info := by
  rw [levelNamed]
  split
  · exact absurd ‹_› (h .debug)
  · exact absurd ‹_› (h .warning)
  · exact absurd ‹_› (h .error)
  · exact absurd ‹_› (h .critical)
  · rfl

/-- What a call asks the handler to be. -/
structure Requested (env : Environment) (request : LogRequest σ) (h : Handler σ) : Prop where
  stream : h.stream = request.stream
  level : ∃ name, Meant (env "DEPLOY_EVENTS_LOG_LEVEL") "INFO" request.level name ∧
    (∀ level, name.map capital = level.name → h.level = level) ∧
    ((∀ level : Level, name.map capital ≠ level.name) → h.level = .info)
  format : ∃ name, Meant (env "DEPLOY_EVENTS_LOG_FORMAT") "json" request.format name ∧
    (h.format = .json ↔ name.map Char.toLower = "json")

omit [DecidableEq σ] in
theorem requested_handler : Requested env request (handler env request) where
  stream := rfl
  level := ⟨_, meant_choose .., fun _ => levelNamed_of_eq, levelNamed_of_ne⟩
  format := ⟨_, meant_choose .., by simp [handler, formatNamed]⟩

end Lifecycle.Logging
