import Benjamin.PlanCritic

/-!
# What the critic raises on and what it turns down

Conditions on a step's arguments, written from the payload, for the two ways a check
does not accept a step. A plan is reviewed without an exception exactly if no step
before the first one turned down makes its check raise.
-/
namespace PlanReview

open PyBase PlanSchemas PlanCritic

/-- The text is a date whose UTC instant does not exist, or a naive date with a zone
name that `ZoneInfo` does not take. -/
inductive TimeBreaks (c : Critic) (value timezoneValue : Json) : Prop
  | aware (text : String) (utc : Int) (value_eq : value = .str text) (filled : strip text ≠ "")
      (reads : c.lib.fromisoformat text = some (.aware utc)) (out : ¬ InRange utc)
  | badKey (text : String) (wall : Int) (message : String) (value_eq : value = .str text)
      (filled : strip text ≠ "") (reads : c.lib.fromisoformat text = some (.naive wall))
      (bad : c.lib.zoneInfo (zoneName c timezoneValue) = .badKey message)
  | naive (text : String) (wall : Int) (instant : Int → Int) (value_eq : value = .str text)
      (filled : strip text ≠ "") (reads : c.lib.fromisoformat text = some (.naive wall))
      (zone : c.lib.zoneInfo (zoneName c timezoneValue) = .zone instant)
      (out : ¬ InRange (instant wall))

inductive TimeReads (c : Critic) (value timezoneValue : Json) (utc : Int) : Prop
  | aware (text : String) (value_eq : value = .str text) (filled : strip text ≠ "")
      (reads : c.lib.fromisoformat text = some (.aware utc)) (exists_utc : InRange utc)
  | naive (text : String) (wall : Int) (instant : Int → Int) (value_eq : value = .str text)
      (filled : strip text ≠ "") (reads : c.lib.fromisoformat text = some (.naive wall))
      (zone : c.lib.zoneInfo (zoneName c timezoneValue) = .zone instant)
      (utc_eq : utc = instant wall) (exists_utc : InRange utc)

section Times

variable {c : Critic} {value timezoneValue : Json}

theorem parseNaive_cases (c : Critic) (wall : Int) (name : String) :
    (∃ e message, parseNaive c wall name = .error e ∧ c.lib.zoneInfo name = .badKey message) ∨
      (parseNaive c wall name = .ok none ∧ c.lib.zoneInfo name = .notFound) ∨
      ∃ instant, c.lib.zoneInfo name = .zone instant ∧
        parseNaive c wall name = (toUtc (instant wall)).map some := by
  rw [parseNaive]
  cases h : c.lib.zoneInfo name with
  | zone instant => exact Or.inr (Or.inr ⟨instant, rfl, rfl⟩)
  | notFound => exact Or.inr (Or.inl ⟨rfl, rfl⟩)
  | badKey message => exact Or.inl ⟨_, message, rfl, rfl⟩

theorem toUtc_error_iff {instant : Int} :
    (∃ e, (toUtc instant).map some = .error e) ↔ ¬ InRange instant := by
  rw [toUtc_eq]
  by_cases h : InRange instant <;> simp [h, Except.map]

theorem toUtc_some_iff {instant utc : Int} :
    (toUtc instant).map some = .ok (some utc) ↔ utc = instant ∧ InRange instant := by
  rw [toUtc_eq]
  by_cases h : InRange instant <;> simp [h, Except.map, eq_comm]

theorem parseIso_raises_iff :
    (∃ e, parseIso c value timezoneValue = .error e) ↔ TimeBreaks c value timezoneValue := by
  constructor
  · rintro ⟨e, h⟩
    unfold parseIso at h
    split at h
    · rename_i text
      split at h
      · cases h
      · rename_i hfilled
        split at h
        · cases h
        · rename_i utc hreads
          exact .aware text utc rfl hfilled hreads (toUtc_error_iff.mp ⟨e, h⟩)
        · rename_i wall hreads
          obtain ⟨e', message, -, hbad⟩ | ⟨hnone, -⟩ | ⟨instant, hzone, hparse⟩ :=
            parseNaive_cases c wall (zoneName c timezoneValue)
          · exact .badKey text wall message rfl hfilled hreads hbad
          · cases hnone.symm.trans h
          · exact .naive text wall instant rfl hfilled hreads hzone
              (toUtc_error_iff.mp ⟨e, hparse.symm.trans h⟩)
    · cases h
  · intro h
    cases h with
    | aware text utc value_eq filled reads out =>
      subst value_eq
      simpa [parseIso, filled, reads] using toUtc_error_iff.mpr out
    | badKey text wall message value_eq filled reads bad =>
      subst value_eq
      exact ⟨.valueError message, by simp [parseIso, filled, reads, parseNaive, bad]⟩
    | naive text wall instant value_eq filled reads zone out =>
      subst value_eq
      simpa [parseIso, filled, reads, parseNaive, zone] using toUtc_error_iff.mpr out

theorem parseIso_some_iff {utc : Int} :
    parseIso c value timezoneValue = .ok (some utc) ↔ TimeReads c value timezoneValue utc := by
  constructor
  · intro h
    unfold parseIso at h
    split at h
    · rename_i text
      split at h
      · cases h
      · rename_i hfilled
        split at h
        · cases h
        · rename_i utc' hreads
          obtain ⟨rfl, hrange⟩ := toUtc_some_iff.mp h
          exact .aware text rfl hfilled hreads hrange
        · rename_i wall hreads
          obtain ⟨e', message, herror, -⟩ | ⟨hnone, -⟩ | ⟨instant, hzone, hparse⟩ :=
            parseNaive_cases c wall (zoneName c timezoneValue)
          · cases herror.symm.trans h
          · cases hnone.symm.trans h
          · obtain ⟨rfl, hrange⟩ := toUtc_some_iff.mp (hparse.symm.trans h)
            exact .naive text wall instant rfl hfilled hreads hzone rfl hrange
    · cases h
  · intro h
    cases h with
    | aware text value_eq filled reads exists_utc =>
      subst value_eq
      simpa [parseIso, filled, reads] using toUtc_some_iff.mpr ⟨rfl, exists_utc⟩
    | naive text wall instant value_eq filled reads zone utc_eq exists_utc =>
      subst value_eq utc_eq
      simpa [parseIso, filled, reads, parseNaive, zone] using toUtc_some_iff.mpr ⟨rfl, exists_utc⟩

end Times

/-- The zone name is filled in and `ZoneInfo` does not take it. -/
def BadZone (c : Critic) (timezoneName : Json) : Prop :=
  blankTimezone c timezoneName = false ∧
    ∃ message, c.lib.zoneInfo (pyStr c.lib.toRuntime timezoneName) = .badKey message

def UnknownZone (c : Critic) (timezoneName : Json) : Prop :=
  blankTimezone c timezoneName = false ∧
    c.lib.zoneInfo (pyStr c.lib.toRuntime timezoneName) = .notFound

/-- `now + timedelta(days=365 * 2)`. -/
def horizon (now : Int) : Int := now + 365 * 2 * 24 * 60 * 60000000

def CalendarBreaks (c : Critic) (now : Int) (payload : Dict) : Prop :=
  TimeBreaks c (payload.lookup "start_iso") (payload.lookup "timezone") ∨
    TimeBreaks c (payload.lookup "end_iso") (payload.lookup "timezone") ∨
    ∃ start stop, TimeReads c (payload.lookup "start_iso") (payload.lookup "timezone") start ∧
      TimeReads c (payload.lookup "end_iso") (payload.lookup "timezone") stop ∧
      (BadZone c (payload.lookup "timezone") ∨
        (¬ UnknownZone c (payload.lookup "timezone") ∧ start < stop ∧ ¬ InRange (horizon now)))

def CalendarTurnedDown (c : Critic) (payload : Dict) : Prop :=
  (∀ start, ¬ TimeReads c (payload.lookup "start_iso") (payload.lookup "timezone") start) ∨
    (∀ stop, ¬ TimeReads c (payload.lookup "end_iso") (payload.lookup "timezone") stop) ∨
    UnknownZone c (payload.lookup "timezone") ∨
    ∃ start stop, TimeReads c (payload.lookup "start_iso") (payload.lookup "timezone") start ∧
      TimeReads c (payload.lookup "end_iso") (payload.lookup "timezone") stop ∧ stop ≤ start

def NoRecipient (c : Critic) (payload : Dict) : Prop :=
  ∀ address ∈ recipients (payload.lookup "to"), strip (pyStr c.lib.toRuntime address) = ""

def BlankMessage (c : Critic) (payload : Dict) : Prop :=
  strip (pyStr c.lib.toRuntime (payload.lookup "message").orEmpty) = ""

def ReminderBreaks (c : Critic) (now : Int) (payload : Dict) : Prop :=
  ¬ BlankMessage c payload ∧
    (TimeBreaks c (payload.lookup "run_at_iso") (payload.lookup "timezone") ∨
      ∃ runAt, TimeReads c (payload.lookup "run_at_iso") (payload.lookup "timezone") runAt ∧
        runAt ≤ now ∧ ¬ InRange (now + 5 * 60000000))

def ReminderTurnedDown (c : Critic) (payload : Dict) : Prop :=
  BlankMessage c payload ∨
    ∀ runAt, ¬ TimeReads c (payload.lookup "run_at_iso") (payload.lookup "timezone") runAt

/-- The check raises exactly if `breaks`; otherwise it turns the step down exactly if
`rejects`, and then it names an error and has a question. -/
structure Verdict (outcome : Except PyError StepReview) (breaks rejects : Prop) : Prop where
  raises : (∃ e, outcome = .error e) ↔ breaks
  declines : ∀ r, outcome = .ok r → (r.result.ok = false ↔ rejects)
  explained : ∀ r, outcome = .ok r → r.result.ok = false →
    r.result.errors ≠ [] ∧ r.result.userQuestion.isSome = true

section Checks

variable (c : Critic) (now : Int) (step : PlanStep) (payload : Dict)

@[simp] theorem passed_ok (changes : List Change) (warnings : List String) :
    (passed step payload changes warnings).result.ok = true := by
  cases changes <;> rfl

@[simp] theorem turnedDown_ok (error question : String) :
    (turnedDown step error question).result.ok = false := rfl

theorem Verdict.of_raise {e : PyError} {breaks rejects : Prop} (h : breaks) :
    Verdict (.error e) breaks rejects :=
  ⟨⟨fun _ => h, fun _ => ⟨e, rfl⟩⟩, nofun, nofun⟩

theorem Verdict.of_decline {error question : String} {breaks rejects : Prop} (hb : ¬ breaks)
    (hr : rejects) : Verdict (.ok (turnedDown step error question)) breaks rejects := by
  refine ⟨⟨nofun, fun h => absurd h hb⟩, ?_, ?_⟩
  · rintro r ⟨⟩
    simp [hr]
  · rintro r ⟨⟩ -
    simp [turnedDown]

theorem Verdict.of_pass {changes : List Change} {warnings : List String} {breaks rejects : Prop}
    (hb : ¬ breaks) (hr : ¬ rejects) :
    Verdict (.ok (passed step payload changes warnings)) breaks rejects := by
  refine ⟨⟨nofun, fun h => absurd h hb⟩, ?_, ?_⟩
  · rintro r ⟨⟩
    simp [hr]
  · rintro r ⟨⟩ h
    simp at h

theorem addHours_horizon (now : Int) :
    addHours now (365 * 2 * 24) =
      if InRange (horizon now) then .ok (horizon now) else .error dateOutOfRange := rfl

theorem addMinutes_five (now : Int) :
    addMinutes now 5 = if InRange (now + 5 * 60000000) then .ok (now + 5 * 60000000)
      else .error dateOutOfRange := rfl

theorem reviewTimes_verdict {start stop : Int} (changes : List Change) {breaks rejects : Prop}
    (hbreaks : breaks ↔ start < stop ∧ ¬ InRange (horizon now))
    (hrejects : rejects ↔ stop ≤ start) :
    Verdict (reviewTimes now start stop step payload changes) breaks rejects := by
  rw [reviewTimes]
  by_cases horder : stop ≤ start
  · rw [if_pos horder]
    refine .of_decline step ?_ (hrejects.mpr horder)
    intro hb
    have := (hbreaks.mp hb).1
    omega
  · rw [if_neg horder, addHours_horizon]
    have hlt : start < stop := by omega
    by_cases hrange : InRange (horizon now)
    · rw [if_pos hrange]
      exact .of_pass step payload (fun hb => (hbreaks.mp hb).2 hrange)
        fun hr => horder (hrejects.mp hr)
    · rw [if_neg hrange]
      exact .of_raise (hbreaks.mpr ⟨hlt, hrange⟩)

theorem reviewTimezone_verdict {start stop : Int} {breaks rejects : Prop}
    (hbreaks : breaks ↔ BadZone c (payload.lookup "timezone") ∨
      (¬ UnknownZone c (payload.lookup "timezone") ∧ start < stop ∧ ¬ InRange (horizon now)))
    (hrejects : rejects ↔ UnknownZone c (payload.lookup "timezone") ∨ stop ≤ start) :
    Verdict (reviewTimezone c now start stop step payload) breaks rejects := by
  unfold reviewTimezone validTimezone
  dsimp only
  by_cases hblank : blankTimezone c (payload.lookup "timezone") = true
  · rw [if_pos hblank]
    apply reviewTimes_verdict
    · simpa [BadZone, UnknownZone, hblank] using hbreaks
    · simpa [UnknownZone, hblank] using hrejects
  · rw [if_neg hblank]
    have hfilled : blankTimezone c (payload.lookup "timezone") = false := by simpa using hblank
    cases hzone : c.lib.zoneInfo (pyStr c.lib.toRuntime (payload.lookup "timezone")) with
    | zone instant =>
      apply reviewTimes_verdict
      · simpa [BadZone, UnknownZone, hzone] using hbreaks
      · simpa [UnknownZone, hzone] using hrejects
    | notFound =>
      refine .of_decline step ?_ (hrejects.mpr (Or.inl ⟨hfilled, hzone⟩))
      simp [hbreaks, BadZone, UnknownZone, hfilled, hzone]
    | badKey message => exact .of_raise (hbreaks.mpr (Or.inl ⟨hfilled, message, hzone⟩))

theorem reviewCalendar_verdict :
    Verdict (reviewCalendar c now step payload) (CalendarBreaks c now payload)
      (CalendarTurnedDown c payload) := by
  rw [reviewCalendar]
  cases hstart : parseIso c (payload.lookup "start_iso") (payload.lookup "timezone") with
  | error e => exact .of_raise (Or.inl (parseIso_raises_iff.mp ⟨e, hstart⟩))
  | ok start? =>
    cases hstop : parseIso c (payload.lookup "end_iso") (payload.lookup "timezone") with
    | error e => exact .of_raise (Or.inr (Or.inl (parseIso_raises_iff.mp ⟨e, hstop⟩)))
    | ok stop? =>
      have hbreaks : CalendarBreaks c now payload ↔ ∃ start stop, start? = some start ∧
          stop? = some stop ∧ (BadZone c (payload.lookup "timezone") ∨
            (¬ UnknownZone c (payload.lookup "timezone") ∧ start < stop ∧
              ¬ InRange (horizon now))) := by
        simp [CalendarBreaks, ← parseIso_raises_iff, ← parseIso_some_iff, hstart, hstop]
      have hrejects : CalendarTurnedDown c payload ↔ (∀ start, start? ≠ some start) ∨
          (∀ stop, stop? ≠ some stop) ∨ UnknownZone c (payload.lookup "timezone") ∨
          ∃ start stop, start? = some start ∧ stop? = some stop ∧ stop ≤ start := by
        simp [CalendarTurnedDown, ← parseIso_some_iff, hstart, hstop]
      cases start? with
      | none => exact .of_decline step (by simp [hbreaks]) (by simp [hrejects])
      | some start =>
        cases stop? with
        | none => exact .of_decline step (by simp [hbreaks]) (by simp [hrejects])
        | some stop =>
          apply reviewTimezone_verdict
          · simpa using hbreaks
          · simpa using hrejects

theorem normalizedRecipients_nil_iff :
    normalizedRecipients c (recipients (payload.lookup "to")) = [] ↔ NoRecipient c payload := by
  rw [List.eq_nil_iff_forall_not_mem]
  simp [normalizedRecipients, NoRecipient, List.mem_eraseDups]

theorem reviewGmail_verdict :
    Verdict (.ok (reviewGmail c step payload)) False (NoRecipient c payload) := by
  unfold reviewGmail
  dsimp only
  by_cases hnone : normalizedRecipients c (recipients (payload.lookup "to")) = []
  · rw [if_pos hnone]
    exact .of_decline step id ((normalizedRecipients_nil_iff c payload).mp hnone)
  · have hsome : ¬ NoRecipient c payload :=
      fun h => hnone ((normalizedRecipients_nil_iff c payload).mpr h)
    rw [if_neg hnone]
    split
    · exact .of_pass step payload id hsome
    · exact .of_pass step _ id hsome

theorem reviewReminder_verdict :
    Verdict (reviewReminder c now step payload) (ReminderBreaks c now payload)
      (ReminderTurnedDown c payload) := by
  unfold reviewReminder reviewRunAt
  by_cases hblank : BlankMessage c payload
  · rw [if_pos (show strip _ = "" from hblank)]
    exact .of_decline step (fun h => h.1 hblank) (Or.inl hblank)
  · rw [if_neg (show strip _ ≠ "" from hblank)]
    cases hrun : parseIso c (payload.lookup "run_at_iso") (payload.lookup "timezone") with
    | error e => exact .of_raise ⟨hblank, Or.inl (parseIso_raises_iff.mp ⟨e, hrun⟩)⟩
    | ok runAt? =>
      have hbreaks : ReminderBreaks c now payload ↔ ∃ runAt, runAt? = some runAt ∧ runAt ≤ now ∧
          ¬ InRange (now + 5 * 60000000) := by
        simp [ReminderBreaks, ← parseIso_raises_iff, ← parseIso_some_iff, hrun, hblank]
      have hrejects : ReminderTurnedDown c payload ↔ ∀ runAt, runAt? ≠ some runAt := by
        simp [ReminderTurnedDown, ← parseIso_some_iff, hrun, hblank]
      cases runAt? with
      | none => exact .of_decline step (by simp [hbreaks]) (by simp [hrejects])
      | some runAt =>
        dsimp only
        by_cases hpast : runAt ≤ now
        · rw [if_pos hpast, addMinutes_five]
          by_cases hrange : InRange (now + 5 * 60000000)
          · rw [if_pos hrange]
            refine .of_pass step _ ?_ (by simp [hrejects])
            intro hb
            obtain ⟨_, _, _, hout⟩ := hbreaks.mp hb
            exact hout hrange
          · rw [if_neg hrange]
            exact .of_raise (hbreaks.mpr ⟨runAt, rfl, hpast, hrange⟩)
        · rw [if_neg hpast]
          exact .of_pass step payload (by simp [hbreaks, hpast]) (by simp [hrejects])

end Checks

/-- `json.loads` raises something of its own on the text, or reads a document that is no
object, or an object that breaks the check. -/
def ArgsBreak (c : Critic) (args : String) (breaks : Dict → Prop) : Prop :=
  match jsonLoads c.lib args with
  | .error _ => True
  | .ok none => False
  | .ok (some (.obj payload)) => breaks payload
  | .ok (some _) => True

def ArgsTurnedDown (c : Critic) (args : String) (rejects : Dict → Prop) : Prop :=
  match jsonLoads c.lib args with
  | .ok none => True
  | .ok (some (.obj payload)) => rejects payload
  | _ => False

def StepBreaks (c : Critic) (now : Int) (skillName : Option String) (args : String) : Prop :=
  if skillName = some "calendar.create_event" then ArgsBreak c args (CalendarBreaks c now)
  else if skillName = some "gmail.draft_email" then ArgsBreak c args fun _ => False
  else if skillName = some "reminders.create" then ArgsBreak c args (ReminderBreaks c now)
  else False

def StepTurnedDown (c : Critic) (skillName : Option String) (args : String) : Prop :=
  if skillName = some "calendar.create_event" then ArgsTurnedDown c args (CalendarTurnedDown c)
  else if skillName = some "gmail.draft_email" then ArgsTurnedDown c args (NoRecipient c)
  else if skillName = some "reminders.create" then ArgsTurnedDown c args (ReminderTurnedDown c)
  else False

/-- No step before the first one that is turned down, nor that one, makes its check raise. -/
def Survives (c : Critic) (now : Int) : List PlanStep → Prop
  | [] => True
  | step :: rest => ¬ StepBreaks c now step.skillName step.args ∧
      (¬ StepTurnedDown c step.skillName step.args → Survives c now rest)

/-- The review returns, and a plan that is not accepted comes with an error and a question. -/
def ReviewReturns (c : Critic) (now : Int) (plan : Plan) : Prop :=
  ∃ result plan', review c now plan = .ok (result, plan') ∧
    (result.ok = false → result.errors ≠ [] ∧ result.userQuestion.isSome = true)

section Plans

variable (c : Critic) (now : Int)

theorem reviewPayload_verdict {step : PlanStep} {error question : String}
    {check : Dict → Except PyError StepReview} {breaks rejects : Dict → Prop}
    (h : ∀ payload, Verdict (check payload) (breaks payload) (rejects payload)) :
    Verdict (reviewPayload c step error question check) (ArgsBreak c step.args breaks)
      (ArgsTurnedDown c step.args rejects) := by
  rw [reviewPayload, ArgsBreak, ArgsTurnedDown]
  cases jsonLoads c.lib step.args with
  | error e => exact .of_raise trivial
  | ok value? =>
    cases value? with
    | none => exact .of_decline step id trivial
    | some value =>
      cases value with
      | obj payload => exact h payload
      | _ => exact .of_raise trivial

theorem reviewStep_verdict (step : PlanStep) :
    Verdict (reviewStep c now step) (StepBreaks c now step.skillName step.args)
      (StepTurnedDown c step.skillName step.args) := by
  rw [reviewStep, StepBreaks, StepTurnedDown]
  by_cases hcalendar : step.skillName = some "calendar.create_event"
  · simp only [hcalendar, if_true]
    exact reviewPayload_verdict c (reviewCalendar_verdict c now step)
  · by_cases hgmail : step.skillName = some "gmail.draft_email"
    · simp only [hgmail, if_true]
      exact reviewPayload_verdict c (reviewGmail_verdict c step)
    · by_cases hreminder : step.skillName = some "reminders.create"
      · simp only [hreminder, if_true]
        exact reviewPayload_verdict c (reviewReminder_verdict c now step)
      · simp only [hreminder, hcalendar, hgmail, if_false]
        exact .of_pass step [] id id

theorem reviewSteps_returns_iff (warnings : List String)
    (normalizations : List CriticNormalization) (steps : List PlanStep) :
    (∃ result steps', reviewSteps c now warnings normalizations steps = .ok (result, steps') ∧
      (result.ok = false → result.errors ≠ [] ∧ result.userQuestion.isSome = true)) ↔
      Survives c now steps := by
  induction steps generalizing warnings normalizations with
  | nil => simp [reviewSteps, Survives]
  | cons step rest ih =>
    have hverdict := reviewStep_verdict c now step
    rw [reviewSteps, Survives]
    cases hreview : reviewStep c now step with
    | error e =>
      have hbreaks := hverdict.raises.mp ⟨e, hreview⟩
      simp [hbreaks]
    | ok reviewed =>
      have hbreaks : ¬ StepBreaks c now step.skillName step.args := by
        intro h
        obtain ⟨e, herror⟩ := hverdict.raises.mpr h
        cases hreview.symm.trans herror
      have hdeclines := hverdict.declines reviewed hreview
      dsimp only
      by_cases hok : reviewed.result.ok = true
      · have hkept : ¬ StepTurnedDown c step.skillName step.args := by simp [← hdeclines, hok]
        rw [if_pos hok]
        have := ih (warnings ++ reviewed.warnings)
          (normalizations ++ reviewed.result.normalizations)
        cases hrest : reviewSteps c now (warnings ++ reviewed.warnings)
            (normalizations ++ reviewed.result.normalizations) rest with
        | error e => simpa [hrest, hbreaks, hkept, Except.map] using this
        | ok out =>
          obtain ⟨result, steps⟩ := out
          simpa [hrest, hbreaks, hkept, Except.map] using this
      · have hfalse : reviewed.result.ok = false := by simpa using hok
        rw [if_neg hok]
        refine iff_of_true ⟨_, _, rfl, fun _ => hverdict.explained reviewed hreview hfalse⟩ ?_
        exact ⟨hbreaks, fun hkept => absurd (hdeclines.mp hfalse) hkept⟩

theorem review_returns_iff (plan : Plan) :
    ReviewReturns c now plan ↔ Survives c now plan.steps := by
  rw [← reviewSteps_returns_iff c now [] []]
  rw [ReviewReturns, review]
  cases reviewSteps c now [] [] plan.steps with
  | error e => simp [Except.map]
  | ok out =>
    obtain ⟨result, steps⟩ := out
    by_cases hok : result.ok = true <;> simp [Except.map, hok]

/-- The step was accepted and left as `step'`. -/
def Accepted (step step' : PlanStep) : Prop :=
  ∃ r, reviewStep c now step = .ok r ∧ r.result.ok = true ∧ r.step = step'

/-- An accepted review has accepted its first step and the others. -/
theorem reviewSteps_cons_ok {warnings : List String} {normalizations : List CriticNormalization}
    {step : PlanStep} {rest steps' : List PlanStep} {result : CriticResult}
    (h : reviewSteps c now warnings normalizations (step :: rest) = .ok (result, steps'))
    (hok : result.ok = true) :
    ∃ reviewed rest', reviewStep c now step = .ok reviewed ∧ reviewed.result.ok = true ∧
      reviewSteps c now (warnings ++ reviewed.warnings)
        (normalizations ++ reviewed.result.normalizations) rest = .ok (result, rest') ∧
      steps' = reviewed.step :: rest' := by
  rw [reviewSteps] at h
  cases hreview : reviewStep c now step with
  | error e => simp [hreview] at h
  | ok reviewed =>
    simp only [hreview] at h
    by_cases haccepted : reviewed.result.ok = true
    · rw [if_pos haccepted] at h
      cases hrest : reviewSteps c now (warnings ++ reviewed.warnings)
          (normalizations ++ reviewed.result.normalizations) rest with
      | error e => simp [hrest, Except.map] at h
      | ok out =>
        obtain ⟨result', rest'⟩ := out
        simp only [hrest, Except.map] at h
        cases h
        exact ⟨reviewed, rest', rfl, haccepted, hrest, rfl⟩
    · rw [if_neg haccepted] at h
      cases h
      exact absurd hok haccepted

theorem reviewSteps_accepted {warnings : List String} {normalizations : List CriticNormalization}
    {steps steps' : List PlanStep} {result : CriticResult}
    (h : reviewSteps c now warnings normalizations steps = .ok (result, steps'))
    (hok : result.ok = true) : List.Forall₂ (Accepted c now) steps steps' := by
  induction steps generalizing warnings normalizations steps' with
  | nil =>
    cases h
    exact .nil
  | cons step rest ih =>
    obtain ⟨reviewed, rest', hreview, haccepted, hrest, rfl⟩ := reviewSteps_cons_ok c now h hok
    exact .cons ⟨reviewed, hreview, haccepted, rfl⟩ (ih hrest)

theorem review_accepted {plan plan' : Plan} {result : CriticResult}
    (h : review c now plan = .ok (result, plan')) (hok : result.ok = true) :
    List.Forall₂ (Accepted c now) plan.steps plan'.steps := by
  rw [review] at h
  cases hsteps : reviewSteps c now [] [] plan.steps with
  | error e => simp [hsteps, Except.map] at h
  | ok out =>
    obtain ⟨result₀, steps'⟩ := out
    simp only [hsteps, Except.map] at h
    cases h
    exact reviewSteps_accepted c now hsteps hok

end Plans

theorem forall₂_mem {α β : Type*} {R : α → β → Prop} {xs : List α} {ys : List β}
    (h : List.Forall₂ R xs ys) {y : β} (hy : y ∈ ys) : ∃ x ∈ xs, R x y := by
  induction h with
  | nil => cases hy
  | cons hhead _ ih =>
    rcases List.mem_cons.mp hy with rfl | hy
    · exact ⟨_, List.mem_cons_self, hhead⟩
    · obtain ⟨x, hx, hR⟩ := ih hy
      exact ⟨x, List.mem_cons_of_mem _ hx, hR⟩

end PlanReview
