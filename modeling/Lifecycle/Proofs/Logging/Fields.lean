import Lifecycle.Proofs.Logging.Setup

/-! # Fields of written records

A record that is logged directly shows in JSON all fields it is given, behind those that every
record has or in their place. A view passes on its correlation id and nothing else. So a record
that is logged through a view shows five fields, and the fields it was given are lost. -/

namespace Lifecycle.Logging

variable {fields : List (String × Json)} {f : String × Json}

/-- The fields of a record in JSON, in order. -/
def jsonFields (stamp : Stamp) (e : Emission) : List (String × Json) :=
  (commonFields stamp e).setAll (extraFields e.fields)

/-! ### Records logged directly -/

theorem lookup_of_mem (distinct : (fields.map Prod.fst).Nodup) (hf : f ∈ fields) :
    fields.lookup f.1 = some f.2 := by
  obtain ⟨before, after, rfl⟩ := List.append_of_mem hf
  rw [List.lookup_eq_some_iff]
  refine ⟨before, after, rfl, fun p hp => bne_iff_ne.2 fun hsame => ?_⟩
  rw [List.map_append, List.map_cons, List.nodup_append] at distinct
  exact distinct.2.2 p.1 (List.mem_map_of_mem hp) f.1 List.mem_cons_self hsame.symm

/-- A field whose name does not begin with an underscore is written, also one that bears the name
of a field that every record has. -/
theorem mem_jsonFields (stamp : Stamp) {e : Emission} (distinct : (e.fields.map Prod.fst).Nodup)
    (hf : f ∈ e.fields) (shown : f.1.toList.head? ≠ some '_') : f ∈ jsonFields stamp e := by
  by_cases hkey : f.1 = correlationField
  · have hvalue : f.2 = shownCorrelation e.fields := by
      rw [shownCorrelation, ← hkey, lookup_of_mem distinct hf, Option.getD_some]
    have hmem := (correlation_mem_jsonRecord_iff stamp e f.2).2 hvalue
    rwa [← hkey] at hmem
  · have hextra : f ∈ extraFields e.fields :=
      List.mem_filter.2 ⟨hf, by simp [hkey, shown]⟩
    have hkeys : ((extraFields e.fields).map Prod.fst).Nodup :=
      distinct.sublist (List.filter_sublist.map _)
    exact Keyed.mem_of_get? (Keyed.get?_setAll_of_mem hkeys hextra)

/-! ### Records logged through a view -/

theorem shownCorrelation_viewFields (id : Option String) (given : List (String × Json)) :
    shownCorrelation (viewFields id given) = .text (viewId id) := by
  rw [shownCorrelation, correlationField, lookup_viewFields, Option.getD_some]

theorem extraFields_viewFields (id : Option String) (given : List (String × Json)) :
    extraFields (viewFields id given) = [] := by
  simp [extraFields, viewFields]

theorem jsonFields_view (stamp : Stamp) (logger message : String) (level : Level)
    (id : Option String) (given : List (String × Json)) :
    jsonFields stamp ⟨logger, level, message, viewFields id given⟩ =
      [("timestamp", .text (stamp.seconds ++ "," ++ stamp.millis)),
        ("logger", .text (shownLogger logger)), ("level", .text level.name),
        ("message", .text message), ("correlation_id", .text (viewId id))] := by
  rw [jsonFields, extraFields_viewFields, commonFields, shownCorrelation_viewFields]
  rfl

/-- Through a view every record that is due is written, and in JSON it shows the same five fields
whatever it is given. Logged directly, it shows each field that it is given, unless the name begins
with an underscore. -/
theorem views_write_no_given_field {σ : Type} [DecidableEq σ] (level : Level)
    (handlers : List (Handler σ)) (calls : List (Environment × LogRequest σ)) (env : Environment)
    (request : LogRequest σ) :
    let l := (Logging.mk level handlers []).setUps (calls ++ [(env, request)])
    ∃ h, Requested env request h ∧ l.handlers = [h] ∧
      ∀ (stamp : Stamp) (logger message : String) (urgency : Level) (id : Option String)
        (given : List (String × Json)),
        let viewed : Emission := ⟨logger, urgency, message, viewFields id given⟩
        let direct : Emission := ⟨logger, urgency, message, given⟩
        l.emit stamp viewed =
            .ok (if Due h viewed then [⟨h.stream, format stamp viewed h.format⟩] else []) ∧
          (h.format = .json → format stamp viewed h.format =
            (Json.record [("timestamp", .text (stamp.seconds ++ "," ++ stamp.millis)),
              ("logger", .text (shownLogger logger)), ("level", .text urgency.name),
              ("message", .text message), ("correlation_id", .text (viewId id))]).inline) ∧
          (Unreserved given → (given.map Prod.fst).Nodup →
            l.emit stamp direct =
                .ok (if Due h direct then [⟨h.stream, format stamp direct h.format⟩] else []) ∧
              (h.format = .json → ∃ fields, format stamp direct h.format =
                (Json.record fields).inline ∧
                  ∀ f ∈ given, f.1.toList.head? ≠ some '_' → f ∈ fields)) := by
  intro l
  have only : ((Logging.mk level handlers []).setUps calls).OnlyNoisy :=
    OnlyNoisy.setUps (fun _ _ => rfl) calls
  have last : l = ((Logging.mk level handlers []).setUps calls).setUp env request :=
    setUps_concat ..
  rw [last]
  refine ⟨handler env request, requested_handler, setUp_handlers, ?_⟩
  intro stamp logger message urgency id given viewed direct
  refine ⟨emit_setUp only stamp (unreserved_viewFields id given), fun hjson => ?_,
    fun unreserved distinct => ⟨emit_setUp only stamp unreserved, fun hjson => ?_⟩⟩
  · rw [hjson, ← jsonFields_view]
    rfl
  · rw [hjson]
    exact ⟨jsonFields stamp direct, rfl, fun f => mem_jsonFields stamp (e := direct) distinct⟩

theorem workers_are_shown_directly :
    let l := (Logging.mk .warning [] []).setUps ([] ++ [(fun _ => none, ({} : LogRequest))])
    let stamp : Stamp := ⟨"12:00:00", "250"⟩
    let given : List (String × Json) := [("workers", .whole 3)]
    let direct : Emission := ⟨"collector.main", .info, "Watching workers", given⟩
    let viewed : Emission := { direct with fields := viewFields (some "op-42") given }
    Unreserved given ∧ (given.map Prod.fst).Nodup ∧
      l.emit stamp direct = .ok [⟨.out, format stamp direct .json⟩] ∧
      l.emit stamp viewed = .ok [⟨.out, format stamp viewed .json⟩] ∧
      (∃ fields, format stamp direct .json = (Json.record fields).inline ∧
        ("workers", .whole 3) ∈ fields) ∧
      format stamp viewed .json = (Json.record [("timestamp", .text "12:00:00,250"),
        ("logger", .text "collector.main"), ("level", .text "INFO"),
        ("message", .text "Watching workers"), ("correlation_id", .text "op-42")]).inline := by
  intro l stamp given direct viewed
  have unreserved : Unreserved given := by simp [Unreserved, given, reserved]
  have distinct : (given.map Prod.fst).Nodup := by decide
  obtain ⟨h, -, hhandlers, hrecords⟩ :=
    views_write_no_given_field .warning [] [] (fun _ => none) ({} : LogRequest)
  rw [setUps_concat, setUp_handlers] at hhandlers
  obtain ⟨rfl, -⟩ := List.cons.inj hhandlers
  have hjson : (handler (fun _ => none) ({} : LogRequest)).format = .json := by decide +kernel
  obtain ⟨hviewed, hfive, hdirect⟩ :=
    hrecords stamp "collector.main" "Watching workers" .info (some "op-42") given
  obtain ⟨hemit, hfields⟩ := hdirect unreserved distinct
  obtain ⟨fields, htext, hshown⟩ := hfields hjson
  have hfive := hfive hjson
  have due (e : Emission) (he : e.logger = "collector.main") (hlevel : e.level = .info) :
      Due (handler (fun _ => none) ({} : LogRequest)) e := by
    rw [Due, he, hlevel]
    decide +kernel
  rw [if_pos (due _ rfl rfl), hjson] at hemit hviewed
  rw [hjson] at htext hfive
  exact ⟨unreserved, distinct, hemit, hviewed,
    ⟨fields, htext, hshown _ List.mem_cons_self (by decide +kernel)⟩, hfive⟩

/-- The field of the record is not in the line that is written. -/
theorem field_given_to_a_view_is_lost :
    let l := ({} : Logging).setUp (fun _ => none) {}
    let given : List (String × Json) := [("workers", .whole 3)]
    let e : Emission :=
      ⟨"collector.main", .info, "Watching workers", viewFields (some "op-42") given⟩
    Unreserved given ∧ l.accepts e.logger e.level = true ∧
      ∃ text, l.emit ⟨"2023-11-14 22:13:20", "250"⟩ e = .ok [⟨.out, text⟩] ∧
        ¬ "\"workers\": 3".toList <:+: text.toList := by
  intro l given e
  let h := handler (fun _ => none) ({} : LogRequest)
  let stamp : Stamp := ⟨"2023-11-14 22:13:20", "250"⟩
  have hemit : l.emit stamp e = .ok (if Due h e then [line h stamp e] else []) :=
    emit_setUp (fun _ _ => rfl) stamp (unreserved_viewFields (some "op-42") given)
  have hdue : Due h e := by decide +kernel
  rw [if_pos hdue] at hemit
  exact ⟨by simp [Unreserved, given, reserved], by decide +kernel, _, hemit, by decide +kernel⟩

end Lifecycle.Logging
