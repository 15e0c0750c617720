import Mathlib.Data.List.Forall2
import Benjamin.PlanningReturns

/-!
# When a reminder fires

The skill behind `reminders.create` and the job it schedules. The critic reads a naive
time with the zone that the payload names; the scheduler reads it with its own.
-/
namespace ReminderSkill

open PyBase PlanSchemas AssistantState PlanCritic PlanReview PlanningReturns

/-- `scheduled_run_iso` among the arguments of the job renders `runDate`. -/
structure ScheduledJob where
  jobId : String
  runDate : Datetime
  message : Json

def fromIso (lib : Libraries) : Json → Except PyError Datetime
  | .str text =>
    match lib.fromisoformat text with
    | some t => .ok t
    | none => .error (.valueError ("Invalid isoformat string: '" ++ text ++ "'"))
  | _ => .error (.typeError "fromisoformat: argument must be str")

/-- `run`: the job that `add_one_off` is given. -/
def run (lib : Libraries) (uuid query : String) : Except PyError ScheduledJob :=
  match jsonLoads lib query with
  | .error e => .error e
  | .ok none => .error (.valueError "Expecting value")
  | .ok (some (.obj payload)) => do
    let message ← Dict.item payload "message"
    let runAtIso ← Dict.item payload "run_at_iso"
    let runAt ← fromIso lib runAtIso
    pure ⟨"reminder:" ++ uuid, runAt, message⟩
  | .ok (some _) => .error (.typeError "indices must be integers or slices, not str")

/-- When the scheduler runs a job: it reads a naive date in its own time zone. -/
def firesAt (schedulerZone : Int → Int) : Datetime → Int
  | .naive wall => schedulerZone wall
  | .aware utc => utc

def adjusted (now runAt : Int) : Int := if runAt ≤ now then now + 5 * 60000000 else runAt

def putOff (now : Int) (payload : Dict) : Dict :=
  payload.set "run_at_iso" (.str (isoformat (now + 5 * 60000000)))

/-- The instant that the critic computed for a reminder with these arguments. -/
def Said (c : Critic) (now : Int) (args : String) (instant : Int) : Prop :=
  ∃ (payload : Dict) (runAt : Int), jsonLoads c.lib args = .ok (some (.obj payload)) ∧
    parseIso c (payload.lookup "run_at_iso") (payload.lookup "timezone") = .ok (some runAt) ∧
    instant = adjusted now runAt

/-- The skill, given the reviewed arguments, schedules its job for the instant that the
critic computed, and that is in the future. -/
def FiresAsSaid (c : Critic) (schedulerZone : Int → Int) (now : Int) (args args' : String) : Prop :=
  ∃ instant, Said c now args instant ∧ now < instant ∧
    ∀ uuid, ∃ job, run c.lib uuid args' = .ok job ∧ firesAt schedulerZone job.runDate = instant

/-- A naive time in the future that comes with a time zone names the same instant in that
zone and in the scheduler's. -/
def ZonesAgree (c : Critic) (schedulerZone : Int → Int) (now : Int) (args : String) : Prop :=
  ∀ (payload : Dict) text wall instant, jsonLoads c.lib args = .ok (some (.obj payload)) →
    payload.lookup "run_at_iso" = .str text → c.lib.fromisoformat text = some (.naive wall) →
    payload.lookup "timezone" ≠ .null →
    c.lib.zoneInfo (zoneName c (payload.lookup "timezone")) = .zone instant →
    now < instant wall → instant wall = schedulerZone wall

/-- The libraries read back the arguments and the time that the critic writes for a
reminder in the past. -/
structure Rereads (lib : Libraries) (now : Int) (args : String) : Prop where
  time : lib.fromisoformat (isoformat (now + 5 * 60000000)) = some (.aware (now + 5 * 60000000))
  payload : ∀ payload : Dict, jsonLoads lib args = .ok (some (.obj payload)) →
    jsonLoads lib (dumps (.obj (putOff now payload))) = .ok (some (.obj (putOff now payload)))

section Reminders

variable {c : Critic} {now : Int} {step step' : PlanStep}

theorem accepted_reminder (hskill : step.skillName = some "reminders.create")
    (h : Accepted c now step step') :
    ∃ (payload : Dict) (runAt : Int), jsonLoads c.lib step.args = .ok (some (.obj payload)) ∧
      ¬ BlankMessage c payload ∧
      parseIso c (payload.lookup "run_at_iso") (payload.lookup "timezone") = .ok (some runAt) ∧
      (runAt ≤ now ∧ step'.args = dumps (.obj (putOff now payload)) ∨
        now < runAt ∧ step'.args = step.args) := by
  obtain ⟨r, hreview, hok, rfl⟩ := h
  have hverdict := reviewStep_verdict c now step
  have hkept : ¬ StepTurnedDown c step.skillName step.args := by
    simp [← hverdict.declines r hreview, hok]
  simp only [StepTurnedDown, hskill, if_true, ArgsTurnedDown] at hkept
  rw [reviewStep, if_neg (by rw [hskill]; decide), if_neg (by rw [hskill]; decide), if_pos hskill,
    reviewPayload] at hreview
  cases hloads : jsonLoads c.lib step.args with
  | error e => simp [hloads] at hreview
  | ok value? =>
    cases value? with
    | none => simp [hloads] at hkept
    | some value =>
      cases value with
      | obj payload =>
        simp only [hloads] at hreview hkept
        obtain ⟨hfilled, hreads⟩ := not_or.mp hkept
        obtain ⟨runAt, hrunAt⟩ := not_forall_not.mp hreads
        have hparse := parseIso_some_iff.mpr hrunAt
        refine ⟨payload, runAt, rfl, hfilled, hparse, ?_⟩
        rw [reviewReminder, if_neg (show strip _ ≠ "" from hfilled), hparse] at hreview
        simp only [reviewRunAt] at hreview
        by_cases hpast : runAt ≤ now
        · rw [if_pos hpast, addMinutes_five] at hreview
          by_cases hrange : InRange (now + 5 * 60000000)
          · rw [if_pos hrange] at hreview
            cases hreview
            exact Or.inl ⟨hpast, rfl⟩
          · rw [if_neg hrange] at hreview
            cases hreview
        · rw [if_neg hpast] at hreview
          cases hreview
          exact Or.inr ⟨by omega, rfl⟩
      | _ => simp [hloads] at hreview

theorem run_reads {lib : Libraries} {args text : String} {payload : Dict} {t : Datetime}
    (hloads : jsonLoads lib args = .ok (some (.obj payload)))
    (hmessage : payload.lookup "message" ≠ .null) (htext : payload.lookup "run_at_iso" = .str text)
    (hreads : lib.fromisoformat text = some t) (uuid : String) :
    run lib uuid args = .ok ⟨"reminder:" ++ uuid, t, payload.lookup "message"⟩ := by
  have hrunAt : Dict.item payload "run_at_iso" = .ok (.str text) := by
    rw [← htext]
    exact item_of_lookup (by simp [htext])
  have htime : fromIso lib (.str text) = .ok t := by simp [fromIso, hreads]
  rw [run]
  simp only [hloads, item_of_lookup hmessage, hrunAt, bind, Except.bind, htime]
  rfl

theorem filled_message {payload : Dict} (h : ¬ BlankMessage c payload) :
    payload.lookup "message" ≠ .null := by
  intro hnull
  apply h
  rw [BlankMessage, hnull]
  change strip "" = ""
  decide

/-- A reminder that the critic puts off fires when it is put off to. -/
theorem past_fires {zone : Int → Int} {payload : Dict} (hreread : Rereads c.lib now step.args)
    (hloads : jsonLoads c.lib step.args = .ok (some (.obj payload)))
    (hfilled : ¬ BlankMessage c payload) (uuid : String) :
    ∃ job, run c.lib uuid (dumps (.obj (putOff now payload))) = .ok job ∧
      firesAt zone job.runDate = now + 5 * 60000000 := by
  have hmessage : (putOff now payload).lookup "message" ≠ .null := by
    rw [putOff, lookup_set_ne (by decide)]
    exact filled_message hfilled
  have htext : (putOff now payload).lookup "run_at_iso" =
      .str (isoformat (now + 5 * 60000000)) := lookup_set_self ..
  exact ⟨_, run_reads (hreread.payload payload hloads) hmessage htext hreread.time uuid, rfl⟩

theorem naive_reads {value timezoneValue : Json} {text : String} {wall runAt : Int}
    (h : TimeReads c value timezoneValue runAt) (htext : value = .str text)
    (hnaive : c.lib.fromisoformat text = some (.naive wall)) :
    ∃ instant, c.lib.zoneInfo (zoneName c timezoneValue) = .zone instant ∧
    runAt = instant wall := by
  cases h with
  | aware text' value_eq _ reads _ =>
    cases value_eq.symm.trans htext
    cases reads.symm.trans hnaive
  | naive text' wall' instant value_eq _ reads zone utc_eq _ =>
    cases value_eq.symm.trans htext
    cases reads.symm.trans hnaive
    exact ⟨instant, zone, utc_eq⟩

theorem reminder_fires_iff {schedulerZone : Int → Int}
    (hzone : c.lib.zoneInfo c.defaultTimezone = .zone schedulerZone)
    (hskill : step.skillName = some "reminders.create") (h : Accepted c now step step')
    (hreread : Rereads c.lib now step.args) :
    FiresAsSaid c schedulerZone now step.args step'.args ↔
      ZonesAgree c schedulerZone now step.args := by
  obtain ⟨payload, runAt, hloads, hfilled, hparse, hcase⟩ := accepted_reminder hskill h
  have hpayload : ∀ {other : Dict}, jsonLoads c.lib step.args = .ok (some (.obj other)) →
      other = payload := by
    intro other hother
    cases hother.symm.trans hloads
    rfl
  have hreads := parseIso_some_iff.mp hparse
  have hmessage := filled_message hfilled
  have hsaid : Said c now step.args (adjusted now runAt) := ⟨payload, runAt, hloads, hparse, rfl⟩
  have hunique : ∀ {instant}, Said c now step.args instant → instant = adjusted now runAt := by
    rintro instant ⟨other, runAt', hother, hparse', rfl⟩
    cases hpayload hother
    cases hparse'.symm.trans hparse
    rfl
  have hlater : now < adjusted now runAt := by
    rw [adjusted]
    split <;> omega
  obtain ⟨hpast, hargs⟩ | ⟨hfuture, hargs⟩ := hcase
  · have hadjusted : adjusted now runAt = now + 5 * 60000000 := if_pos hpast
    refine iff_of_true ⟨_, hsaid, hlater, fun uuid => ?_⟩ ?_
    · rw [hargs, hadjusted]
      exact past_fires hreread hloads hfilled uuid
    · intro other text wall instant hother htext hnaive _ hinstant hlt
      cases hpayload hother
      obtain ⟨instant', hinstant', hrunAt⟩ := naive_reads hreads htext hnaive
      cases hinstant.symm.trans hinstant'
      omega
  · have hadjusted : adjusted now runAt = runAt := if_neg (by omega)
    cases hreads with
    | aware text value_eq filled reads exists_utc =>
      refine iff_of_true ⟨_, hsaid, hlater, fun uuid => ?_⟩ ?_
      · rw [hargs, hadjusted]
        exact ⟨_, run_reads hloads hmessage value_eq reads uuid, rfl⟩
      · intro other text' wall instant hother htext hnaive
        cases hpayload hother
        cases value_eq.symm.trans htext
        cases reads.symm.trans hnaive
    | naive text wall instant value_eq filled reads zone utc_eq exists_utc =>
      have hrun := run_reads hloads hmessage value_eq reads
      constructor
      · rintro ⟨said, hsaid', -, hfires⟩ other text' wall' instant' hother htext hnaive - hinstant -
        cases hpayload hother
        cases value_eq.symm.trans htext
        cases reads.symm.trans hnaive
        cases zone.symm.trans hinstant
        obtain ⟨job, hjob, hat⟩ := hfires ""
        rw [hargs] at hjob
        cases (hrun "").symm.trans hjob
        rw [← utc_eq, ← hadjusted, ← hunique hsaid', ← hat]
        rfl
      · intro hagree
        refine ⟨_, hsaid, hlater, fun uuid => ⟨_, hargs ▸ hrun uuid, ?_⟩⟩
        change schedulerZone wall = adjusted now runAt
        rw [hadjusted, utc_eq]
        by_cases hnull : payload.lookup "timezone" = .null
        · have hname : zoneName c (payload.lookup "timezone") = c.defaultTimezone := by
            rw [hnull]
            rfl
          rw [hname] at zone
          cases zone.symm.trans hzone
          rfl
        · exact (hagree payload text wall instant hloads value_eq reads hnull zone
            (utc_eq ▸ hfuture)).symm

end Reminders

/-- For every reminder of an accepted plan. -/
theorem reminders_fire_as_said_iff (c : Critic) (now : Int) {schedulerZone : Int → Int}
    (hzone : c.lib.zoneInfo c.defaultTimezone = .zone schedulerZone) {plan plan' : Plan}
    {result : CriticResult} (hreview : review c now plan = .ok (result, plan'))
    (hok : result.ok = true)
    (hreread : ∀ step ∈ plan.steps, step.skillName = some "reminders.create" →
      Rereads c.lib now step.args) :
    List.Forall₂ (fun step step' => step.skillName = some "reminders.create" →
      (FiresAsSaid c schedulerZone now step.args step'.args ↔
        ZonesAgree c schedulerZone now step.args)) plan.steps plan'.steps := by
  have haccepted := review_accepted c now hreview hok
  refine ((List.forall₂_and_left _ _).mpr ⟨hreread, haccepted⟩).imp ?_
  rintro step step' ⟨hrereads, h⟩ hskill
  exact reminder_fires_iff hzone hskill h (hrereads hskill)

def teaStep (timezone : String) : PlanStep :=
  ⟨"s", "Create reminder", some "reminders.create", teaArgs timezone, true⟩

/-- Three payloads are JSON; the scheduler and the critic's default are at UTC. -/
def tokyoLibraries : Libraries where
  toRuntime :=
    { exampleRuntime (fun _ => .returned "") fun _ => none with
      loads := fun text =>
        if text = teaArgs "Asia/Tokyo" then some (.obj (teaPayload "Asia/Tokyo"))
        else if text = teaArgs "UTC" then some (.obj (teaPayload "UTC"))
        else if text = dumps (.obj (putOff 0 (teaPayload "UTC"))) then
          some (.obj (putOff 0 (teaPayload "UTC")))
        else none
      fromisoformat := fun text =>
        if text = "2026-01-02T09:00:00" then some (.naive 1767344400000000)
        else if text = "1970-01-01T00:05:00+00:00" then some (.aware 300000000)
        else none }
  loadsRaises _ := none
  zoneInfo key :=
    if key = "UTC" then .zone id
    else if key = "Asia/Tokyo" then .zone fun wall => wall - 9 * 3600000000
    else .notFound

def tokyoCritic : Critic := ⟨tokyoLibraries, "UTC"⟩

theorem tokyo_accepted (timezone : String) (h : timezone = "Asia/Tokyo" ∨ timezone = "UTC") :
    ∃ result, review tokyoCritic 0 ⟨"tea", [teaStep timezone]⟩ =
      .ok (result, ⟨"tea", [teaStep timezone]⟩) ∧ result.ok = true := by
  obtain rfl | rfl := h
  · exact ⟨_, rfl, rfl⟩
  · exact ⟨_, rfl, rfl⟩

theorem tokyo_reminder_late :
    (∃ result, review tokyoCritic 0 ⟨"tea", [teaStep "Asia/Tokyo"]⟩ =
      .ok (result, ⟨"tea", [teaStep "Asia/Tokyo"]⟩) ∧ result.ok = true) ∧
      ¬ FiresAsSaid tokyoCritic id 0 (teaArgs "Asia/Tokyo") (teaArgs "Asia/Tokyo") := by
  refine ⟨tokyo_accepted _ (Or.inl rfl), ?_⟩
  rintro ⟨instant, ⟨payload, runAt, hloads, hparse, rfl⟩, -, hfires⟩
  have hpayload : jsonLoads tokyoCritic.lib (teaArgs "Asia/Tokyo") =
      .ok (some (.obj (teaPayload "Asia/Tokyo"))) := rfl
  cases hpayload.symm.trans hloads
  have hreads : parseIso tokyoCritic ((teaPayload "Asia/Tokyo").lookup "run_at_iso")
      ((teaPayload "Asia/Tokyo").lookup "timezone") = .ok (some 1767312000000000) := rfl
  cases hreads.symm.trans hparse
  obtain ⟨job, hjob, hat⟩ := hfires "1"
  have hrun : run tokyoCritic.lib "1" (teaArgs "Asia/Tokyo") =
      .ok ⟨"reminder:1", .naive 1767344400000000, .str "Tea"⟩ := rfl
  cases hrun.symm.trans hjob
  revert hat
  decide

theorem utc_reminder_on_time :
    FiresAsSaid tokyoCritic id 0 (teaArgs "UTC") (teaArgs "UTC") := by
  obtain ⟨result, hreview, hok⟩ := tokyo_accepted "UTC" (Or.inr rfl)
  have hloads : jsonLoads tokyoCritic.lib (teaArgs "UTC") =
      .ok (some (.obj (teaPayload "UTC"))) := rfl
  have hall := reminders_fire_as_said_iff tokyoCritic 0 rfl hreview hok (by
    rintro step hstep -
    cases List.mem_singleton.mp hstep
    refine ⟨rfl, fun payload h => ?_⟩
    cases hloads.symm.trans h
    rfl)
  obtain ⟨hiff, -⟩ := List.forall₂_cons.mp hall
  refine (hiff rfl).mpr ?_
  intro payload text wall instant h htext hnaive _ hinstant _
  cases hloads.symm.trans h
  have hzone : tokyoCritic.lib.zoneInfo
      (zoneName tokyoCritic ((teaPayload "UTC").lookup "timezone")) = .zone id := rfl
  cases hzone.symm.trans hinstant
  rfl

end ReminderSkill
