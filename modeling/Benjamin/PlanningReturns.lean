import Benjamin.PlanReview
import Benjamin.Planner

/-!
# Which messages planning and review survive

With the language model off, a message is planned and its plan reviewed without an
exception exactly if its command's payload is one that neither the drafter's
preparation nor the critic's check raises on.
-/
namespace PlanningReturns

open PyBase PlanSchemas AssistantState PlanCritic PlanReview Planner Effect

/-- Whatever is on has no provider. -/
def Off (llm : LanguageModel) : Prop :=
  (∀ reply, llm.planner = some reply → reply = .unavailable) ∧
    ∀ reply, llm.drafter = some reply → reply = .unavailable

def Undraftable (lib : Libraries) (payload : Dict) : Prop :=
  shortBody lib payload = true ∧ iterable (payload.lookup "to") = false

def MessageBreaks (c : Critic) (now : Int) (message : String) : Prop :=
  (∃ text, textAfter "reminders.create " message = some text ∧
    ArgsBreak c (strip text) (ReminderBreaks c now)) ∨
  (∃ text, textAfter "calendar.create_event " message = some text ∧
    ArgsBreak c (strip text) (CalendarBreaks c now)) ∨
  ∃ text, textAfter "gmail.draft_email " message = some text ∧
    ArgsBreak c (strip text) (Undraftable c.lib)

def PlannedAndReviewed (c : Critic) (llm : LanguageModel) (message : String) (w : World) : Prop :=
  ∃ plan w', Planner.plan c.lib llm message w = (.ok plan, w') ∧ ReviewReturns c w'.now plan

theorem textAfter_head {marker text rest : String} (hmarker : marker.toList ≠ [])
    (h : textAfter marker text = some rest) : text.toList.head? = marker.toList.head? := by
  unfold textAfter at h
  split at h
  · rename_i hstart
    obtain ⟨more, hmore⟩ := List.isPrefixOf_iff_prefix.mp hstart
    rw [← hmore, List.head?_append_of_ne_nil _ hmarker]
  · cases h

theorem textAfter_append (marker rest : String) :
    textAfter marker (marker ++ rest) = some rest := by
  have hstart : marker.toList.isPrefixOf (marker.toList ++ rest.toList) = true :=
    List.isPrefixOf_iff_prefix.mpr (List.prefix_append _ _)
  rw [textAfter, String.toList_append, if_pos hstart, ← String.length_toList, List.drop_left,
    String.ofList_toList]

/-- The markers of the three commands begin with different letters. -/
theorem one_command {message : String} :
    ((textAfter "reminders.create " message).isSome →
      textAfter "calendar.create_event " message = none ∧
        textAfter "gmail.draft_email " message = none) ∧
    ((textAfter "calendar.create_event " message).isSome →
      textAfter "gmail.draft_email " message = none) := by
  have hhead : ∀ marker, marker.toList ≠ [] → ∀ rest, textAfter marker message = some rest →
      message.toList.head? = marker.toList.head? := fun _ hne _ h => textAfter_head hne h
  refine ⟨fun h => ⟨?_, ?_⟩, fun h => ?_⟩
  all_goals
    obtain ⟨rest, hrest⟩ := Option.isSome_iff_exists.mp h
    refine Option.eq_none_iff_forall_ne_some.mpr fun other hother => ?_
    have hsame := (hhead _ (by decide) _ hrest).symm.trans (hhead _ (by decide) _ hother)
    revert hsame
    decide

theorem commandPlan_returns (rt : Runtime) (goal description skillName args : String) (w : World) :
    Returns (commandPlan rt goal description skillName args) w fun plan w' =>
      (∃ id, plan = ⟨goal, [⟨id, description, some skillName, args, true⟩]⟩) ∧ Quiet w w' := by
  obtain ⟨id, w₁, hrun, -, -, hquiet⟩ := drawUuid_returns rt w
  refine ⟨_, w₁, ?_, ⟨id, rfl⟩, hquiet⟩
  unfold commandPlan
  rw [bind_ok hrun]
  rfl

theorem fallbackPlan_returns (rt : Runtime) (goal : String) (w : World) :
    Returns (fallbackPlan rt goal) w fun plan w' =>
      (∃ analyze execute, plan = ⟨goal, [⟨analyze, "Analyze: " ++ goal, none, "", false⟩,
        ⟨execute, "Execute: " ++ goal, none, "", false⟩]⟩) ∧ Quiet w w' := by
  obtain ⟨analyze, w₁, hrun₁, -, -, hquiet₁⟩ := drawUuid_returns rt w
  obtain ⟨execute, w₂, hrun₂, -, -, hquiet₂⟩ := drawUuid_returns rt w₁
  refine ⟨_, w₂, ?_, ⟨analyze, execute, rfl⟩, quiet_chains.trans hquiet₁ hquiet₂⟩
  unfold fallbackPlan
  rw [bind_ok hrun₁, bind_ok hrun₂]
  rfl

section Messages

variable (c : Critic) {llm : LanguageModel} (message : String) (w : World)

theorem command_reviewed (description skillName args : String)
    (hcommand : deterministicPlan c.lib llm message w =
      (do
        let plan ← commandPlan c.lib.toRuntime message description skillName args
        pure (some plan) : Py (Option Plan)) w) :
    PlannedAndReviewed c llm message w ↔ ¬ StepBreaks c w.now (some skillName) args := by
  obtain ⟨plan, w', hdrawn, ⟨id, rfl⟩, hquiet⟩ := commandPlan_returns c.lib.toRuntime message
    description skillName args w
  rw [bind_ok hdrawn] at hcommand
  have hrun : Planner.plan c.lib llm message w =
      (.ok ⟨message, [⟨id, description, some skillName, args, true⟩]⟩, w') := by
    unfold Planner.plan
    rw [bind_ok hcommand]
    rfl
  have hnow : w'.now = w.now := congrArg Surroundings.now hquiet.surroundings
  have hsurvives := review_returns_iff c w.now
    ⟨message, [⟨id, description, some skillName, args, true⟩]⟩
  simp only [Survives, implies_true, and_true] at hsurvives
  rw [← hsurvives]
  constructor
  · rintro ⟨plan, w₁, hrun', hreview⟩
    cases hrun.symm.trans hrun'
    rwa [hnow] at hreview
  · intro hreview
    exact ⟨_, w', hrun, by rwa [hnow]⟩

theorem draftPayload_cases (hoff : Off llm) (hback : ReadsBack c.lib) (text : String) :
    (∃ e, draftPayload c.lib llm text = .error e) ∧ ArgsBreak c text (Undraftable c.lib) ∨
      ∃ args, draftPayload c.lib llm text = .ok args ∧
        (StepBreaks c w.now (some "gmail.draft_email") args ↔
          ArgsBreak c text (Undraftable c.lib)) := by
  have hstep : ∀ args, StepBreaks c w.now (some "gmail.draft_email") args ↔
      ArgsBreak c args fun _ => False := fun args => by simp [StepBreaks]
  have hdraft : ∀ context, ∃ body, draftEmail llm context = .ok body := by
    intro context
    unfold draftEmail
    cases hdrafter : llm.drafter with
    | none => exact ⟨_, rfl⟩
    | some reply =>
      cases hoff.2 reply hdrafter
      exact ⟨_, rfl⟩
  unfold draftPayload
  cases hloads : jsonLoads c.lib text with
  | error e => exact Or.inl ⟨⟨e, rfl⟩, by simp [ArgsBreak, hloads]⟩
  | ok value? =>
    have hsame : ∀ {value}, value? = value → (∀ payload, value ≠ some (.obj payload)) →
        (StepBreaks c w.now (some "gmail.draft_email") text ↔
          ArgsBreak c text (Undraftable c.lib)) := by
      rintro value rfl hvalue
      rw [hstep]
      unfold ArgsBreak
      rw [hloads]
      cases value? with
      | none => exact Iff.rfl
      | some j =>
        cases j with
        | obj payload => exact absurd rfl (hvalue payload)
        | _ => exact Iff.rfl
    cases value? with
    | none => exact Or.inr ⟨text, rfl, hsame rfl (by simp)⟩
    | some value =>
      cases value with
      | obj payload =>
        dsimp only
        by_cases hshort : shortBody c.lib payload = true
        · rw [if_pos hshort]
          by_cases hto : iterable (Dict.lookup payload "to") = true
          · rw [if_pos hto]
            obtain ⟨body, hbody⟩ := hdraft (draftContext c.lib payload)
            rw [hbody]
            refine Or.inr ⟨_, rfl, ?_⟩
            obtain ⟨payload', hread⟩ := hback text payload hloads "body" body
            rw [hstep]
            simp [ArgsBreak, hread, hloads, Undraftable, hto]
          · rw [if_neg hto]
            refine Or.inl ⟨⟨_, rfl⟩, ?_⟩
            simpa [ArgsBreak, hloads, Undraftable, hshort] using hto
        · rw [if_neg hshort]
          refine Or.inr ⟨text, rfl, ?_⟩
          rw [hstep]
          simp [ArgsBreak, hloads, Undraftable, hshort]
      | _ => exact Or.inr ⟨text, rfl, hsame rfl (by simp)⟩

theorem open_reviewed (hoff : Off llm) (hreminder : textAfter "reminders.create " message = none)
    (hcalendar : textAfter "calendar.create_event " message = none)
    (hgmail : textAfter "gmail.draft_email " message = none) :
    PlannedAndReviewed c llm message w := by
  have hopen : openPlan c.lib llm message w = fallbackPlan c.lib.toRuntime message w := by
    unfold openPlan
    cases hplanner : llm.planner with
    | none => rfl
    | some reply =>
      cases hoff.1 reply hplanner
      rfl
  have hplan : Planner.plan c.lib llm message w = openPlan c.lib llm message w := by
    unfold Planner.plan deterministicPlan
    simp only [hreminder, hcalendar, hgmail]
    rfl
  obtain ⟨plan, w', hrun, ⟨analyze, execute, rfl⟩, -⟩ :=
    fallbackPlan_returns c.lib.toRuntime message w
  refine ⟨_, w', (hplan.trans hopen).trans hrun, ?_⟩
  rw [review_returns_iff]
  simp [Survives, StepBreaks]

theorem message_reviewed_iff (hoff : Off llm) (hback : ReadsBack c.lib) :
    PlannedAndReviewed c llm message w ↔ ¬ MessageBreaks c w.now message := by
  cases hreminder : textAfter "reminders.create " message with
  | some text =>
    obtain ⟨hcalendar, hgmail⟩ := one_command.1 (by rw [hreminder]; rfl)
    rw [command_reviewed c message w "Create reminder" "reminders.create" (strip text) (by
      unfold deterministicPlan
      simp only [hreminder])]
    simp [MessageBreaks, StepBreaks, hreminder, hcalendar, hgmail]
  | none =>
    cases hcalendar : textAfter "calendar.create_event " message with
    | some text =>
      have hgmail := one_command.2 (by rw [hcalendar]; rfl)
      rw [command_reviewed c message w "Create calendar event" "calendar.create_event"
        (strip text) (by
          unfold deterministicPlan
          simp only [hreminder, hcalendar])]
      simp [MessageBreaks, StepBreaks, hreminder, hcalendar, hgmail]
    | none =>
      cases hgmail : textAfter "gmail.draft_email " message with
      | some text =>
        have hbreaks : MessageBreaks c w.now message ↔
            ArgsBreak c (strip text) (Undraftable c.lib) := by
          simp [MessageBreaks, hreminder, hcalendar, hgmail]
        rw [hbreaks]
        obtain ⟨⟨e, he⟩, hbreak⟩ | ⟨args, hargs, hstep⟩ :=
          draftPayload_cases c w hoff hback (strip text)
        · refine iff_of_false ?_ (not_not.mpr hbreak)
          rintro ⟨plan, w', hrun, -⟩
          unfold Planner.plan deterministicPlan at hrun
          simp only [hreminder, hcalendar, hgmail, he] at hrun
          cases hrun
        · rw [← hstep]
          refine command_reviewed c message w "Create Gmail draft" _ args ?_
          unfold deterministicPlan
          simp only [hreminder, hcalendar, hgmail, hargs]
          rfl
      | none =>
        refine iff_of_true (open_reviewed c message w hoff hreminder hcalendar hgmail) ?_
        simp [MessageBreaks, hreminder, hcalendar, hgmail]

end Messages

theorem planning_and_review_return_iff (c : Critic) (hback : ReadsBack c.lib) :
    (∀ llm, Off llm → ∀ message w,
      PlannedAndReviewed c llm message w ↔ ¬ MessageBreaks c w.now message) ∧
      ∀ now plan, ReviewReturns c now plan ↔ Survives c now plan.steps :=
  ⟨fun _ hoff message w => message_reviewed_iff c message w hoff hback, review_returns_iff c⟩

def teaPayload (timezone : String) : Dict :=
  [("message", .str "Tea"), ("run_at_iso", .str "2026-01-02T09:00:00"),
    ("timezone", .str timezone)]

def teaArgs (timezone : String) : String := dumps (.obj (teaPayload timezone))

def teaLibraries : Libraries where
  toRuntime :=
    { exampleRuntime (fun _ => .returned "") fun _ => none with
      loads := fun text =>
        if text.toList.head? ≠ some ('{') then none
        else if text = teaArgs "" then some (.obj (teaPayload ""))
        else if text = teaArgs "UTC" then some (.obj (teaPayload "UTC"))
        else some (.obj [])
      fromisoformat := fun text =>
        if text = "2026-01-02T09:00:00" then some (.naive 1767344400000000) else none }
  loadsRaises _ := none
  zoneInfo key :=
    if key = "UTC" then .zone id
    else if key = "" then .badKey "ZoneInfo keys must refer to a file"
    else .notFound

def teaCritic : Critic := ⟨teaLibraries, "UTC"⟩

def llmOff : LanguageModel := ⟨none, none⟩

theorem teaLibraries_readsBack : ReadsBack teaLibraries := by
  intro _ payload _ key value
  generalize payload.set key (.str value) = written
  have hhead : (dumps (.obj written)).toList.head? = some ('{') := by
    simp [dumps, dumpsWith]
  have hloads : jsonLoads teaLibraries (dumps (.obj written)) =
      .ok (if dumps (.obj written) = teaArgs "" then some (.obj (teaPayload ""))
        else if dumps (.obj written) = teaArgs "UTC" then some (.obj (teaPayload "UTC"))
        else some (.obj [])) := by
    simp only [jsonLoads, teaLibraries, hhead, ne_eq, not_true_eq_false, if_false]
  rw [hloads]
  split
  · exact ⟨_, rfl⟩
  · split
    · exact ⟨_, rfl⟩
    · exact ⟨_, rfl⟩

theorem llmOff_off : Off llmOff := ⟨nofun, nofun⟩

def teaMessage (timezone : String) : String := "reminders.create " ++ teaArgs timezone

theorem teaArgs_loads :
    jsonLoads teaCritic.lib (teaArgs "") = .ok (some (.obj (teaPayload ""))) ∧
      jsonLoads teaCritic.lib (teaArgs "UTC") = .ok (some (.obj (teaPayload "UTC"))) :=
  ⟨rfl, rfl⟩

theorem teaArgs_strip : strip (teaArgs "") = teaArgs "" ∧
    strip (teaArgs "UTC") = teaArgs "UTC" := by
  decide

theorem blank_timezone_raises :
    ¬ PlannedAndReviewed teaCritic llmOff (teaMessage "") (freshWorld exampleSurroundings) := by
  rw [message_reviewed_iff teaCritic _ _ llmOff_off teaLibraries_readsBack, not_not]
  refine Or.inl ⟨teaArgs "", textAfter_append _ _, ?_⟩
  rw [teaArgs_strip.1, ArgsBreak, teaArgs_loads.1]
  refine ⟨by unfold BlankMessage; decide, Or.inl ?_⟩
  exact .badKey "2026-01-02T09:00:00" 1767344400000000 _ rfl (by decide) rfl rfl

theorem time_zone_returns :
    PlannedAndReviewed teaCritic llmOff (teaMessage "UTC") (freshWorld exampleSurroundings) := by
  refine ((planning_and_review_return_iff teaCritic teaLibraries_readsBack).1 llmOff llmOff_off
    _ _).mpr ?_
  have htext := textAfter_append "reminders.create " (teaArgs "UTC")
  obtain ⟨hcalendar, hgmail⟩ := one_command.1 (Option.isSome_iff_exists.mpr ⟨_, htext⟩)
  rintro (⟨text, h, hbreak⟩ | ⟨text, h, -⟩ | ⟨text, h, -⟩)
  · cases htext.symm.trans h
    rw [teaArgs_strip.2, ArgsBreak, teaArgs_loads.2] at hbreak
    have hparse : parseIso teaCritic ((teaPayload "UTC").lookup "run_at_iso")
        ((teaPayload "UTC").lookup "timezone") = .ok (some 1767344400000000) := by rfl
    obtain ⟨-, htime | ⟨runAt, hreads, hpast, -⟩⟩ := hbreak
    · obtain ⟨e, he⟩ := parseIso_raises_iff.mpr htime
      cases hparse.symm.trans he
    · cases hparse.symm.trans (parseIso_some_iff.mpr hreads)
      exact absurd hpast (by decide)
  · cases hcalendar.symm.trans h
  · cases hgmail.symm.trans h

end PlanningReturns
