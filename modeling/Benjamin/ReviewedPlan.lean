import Benjamin.ReminderSkill
import Benjamin.IsoReading
import Benjamin.JsonLines

/-!
# What an accepted plan guarantees

The payloads that an accepted review leaves, the changes that it records, and the review
of the reviewed plan, which finds nothing to change until the time of a reminder comes.
-/
namespace ReviewedPlan

open PyBase PlanSchemas PlanCritic PlanReview ReminderSkill IsoReading

theorem nodup_eraseDups {α : Type*} [DecidableEq α] (xs : List α) : xs.eraseDups.Nodup := by
  match xs with
  | [] => simp
  | x :: xs =>
    have hshorter : (xs.filter fun y => !y == x).length ≤ xs.length := List.length_filter_le _ _
    rw [List.eraseDups_cons, List.nodup_cons]
    refine ⟨?_, nodup_eraseDups _⟩
    simp
termination_by xs.length
decreasing_by simp only [List.length_cons]; omega

theorem eraseDups_of_nodup {α : Type*} [DecidableEq α] {xs : List α} (h : xs.Nodup) :
    xs.eraseDups = xs := by
  induction xs with
  | nil => rfl
  | cons x xs ih =>
    obtain ⟨hx, hxs⟩ := List.nodup_cons.mp h
    have hall : (xs.filter fun y => !y == x) = xs := by
      rw [List.filter_eq_self]
      intro y hy
      have hne : y ≠ x := fun heq => hx (heq ▸ hy)
      simpa using hne
    rw [List.eraseDups_cons, hall, ih hxs]

/-- The changes are those of the keys whose values differ, with both values; the other
keys are as they were, also where they are absent. -/
structure Edited (payload payload' : Dict) (changes : List Change) : Prop where
  listed : ∀ key old new, (key, old, new) ∈ changes ↔
    old = payload.lookup key ∧ new = payload'.lookup key ∧ old ≠ new
  once : (changes.map Prod.fst).Nodup
  kept : ∀ key, key ∉ changes.map Prod.fst → Dict.item payload' key = Dict.item payload key

theorem item_set_ne {key other : String} (h : key ≠ other) (d : Dict) (value : Json) :
    Dict.item (d.set key value) other = Dict.item d other := by
  unfold Dict.item
  induction d with
  | nil => simp [Dict.set, h]
  | cons kv rest ih =>
    by_cases hkv : kv.1 = key
    · simp [Dict.set, hkv, h]
    · by_cases hother : kv.1 = other
      · simp [Dict.set, hother, Ne.symm h]
      · simpa [Dict.set, hkv, hother] using ih

theorem edited_none (payload : Dict) : Edited payload payload [] := by
  refine ⟨?_, List.nodup_nil, fun _ _ => rfl⟩
  intro key old new
  constructor
  · intro h
    cases h
  · rintro ⟨rfl, rfl, hne⟩
    exact absurd rfl hne

theorem edited_set {payload : Dict} {key : String} {value : Json}
    (h : payload.lookup key ≠ value) :
    Edited payload (payload.set key value) [(key, payload.lookup key, value)] := by
  refine ⟨?_, List.nodup_singleton _, ?_⟩
  · intro other old new
    rw [List.mem_singleton]
    constructor
    · intro hchange
      cases hchange
      exact ⟨rfl, (lookup_set_self payload key value).symm, h⟩
    · rintro ⟨rfl, rfl, hne⟩
      by_cases hother : key = other
      · subst hother
        rw [lookup_set_self]
      · rw [lookup_set_ne hother] at hne
        exact absurd rfl hne
  · intro other hother
    refine item_set_ne ?_ payload value
    intro heq
    exact hother (by simp [heq])

/-- The zone is filled in and known, and the event ends after it starts in that zone. -/
structure Timely (c : Critic) (payload : Dict) : Prop where
  filled : blankTimezone c (payload.lookup "timezone") = false
  known : ∃ instant,
    c.lib.zoneInfo (pyStr c.lib.toRuntime (payload.lookup "timezone")) = .zone instant
  ordered : ∃ start stop,
    parseIso c (payload.lookup "start_iso") (payload.lookup "timezone") = .ok (some start) ∧
    parseIso c (payload.lookup "end_iso") (payload.lookup "timezone") = .ok (some stop) ∧
    start < stop

def Addressed (c : Critic) (payload payload' : Dict) : Prop :=
  ∃ addresses, payload'.lookup "to" = .arr (addresses.map .str) ∧
    addresses = normalizedRecipients c (recipients (payload.lookup "to")) ∧
    addresses ≠ [] ∧ addresses.Nodup ∧ ∀ address ∈ addresses, address ≠ "" ∧ strip address = address

structure Reminding (c : Critic) (now : Int) (payload : Dict) (moved : Prop) : Prop where
  message : ¬ BlankMessage c payload
  due : ∃ runAt, now < runAt ∧ (moved → runAt = now + 5 * 60000000) ∧
    parseIso c (payload.lookup "run_at_iso") (payload.lookup "timezone") = .ok (some runAt)

def reviewedSkills : List String :=
  ["calendar.create_event", "gmail.draft_email", "reminders.create"]

/-- The payload of an accepted step after the review. -/
structure Guaranteed (c : Critic) (now : Int) (skillName : Option String) (payload payload' : Dict)
    (changes : List Change) : Prop where
  edited : Edited payload payload' changes
  calendar : skillName = some "calendar.create_event" → Timely c payload'
  gmail : skillName = some "gmail.draft_email" → Addressed c payload payload'
  reminder : skillName = some "reminders.create" → Reminding c now payload' (changes ≠ [])

/-- What the review leaves of an accepted step, with the changes that it records. -/
structure Outcome (c : Critic) (now : Int) (step : PlanStep) (out : PlanStep × List Change) :
    Prop where
  frame : out.1 = { step with args := out.1.args }
  idle : out.2 = [] → out.1 = step
  others : (∀ name ∈ reviewedSkills, step.skillName ≠ some name) → out = (step, [])
  payloads : ∀ name ∈ reviewedSkills, step.skillName = some name → ∃ payload payload',
    jsonLoads c.lib step.args = .ok (some (.obj payload)) ∧
      jsonLoads c.lib out.1.args = .ok (some (.obj payload')) ∧
      Guaranteed c now step.skillName payload payload' out.2

def recorded (out : PlanStep × List Change) : Option CriticNormalization :=
  match out.2 with
  | [] => none
  | _ :: _ => some ⟨out.1.id, out.2⟩

/-- The names of zones are neither blank nor padded. -/
def ZoneNames (lib : Libraries) : Prop :=
  ∀ name instant, lib.zoneInfo name = .zone instant → name ≠ "" ∧ strip name = name

def rewritten (c : Critic) (now : Int) (skillName : Option String) (payload : Dict) : Dict :=
  if skillName = some "calendar.create_event" then
    payload.set "timezone" (.str c.defaultTimezone)
  else if skillName = some "gmail.draft_email" then
    payload.set "to" (.arr ((normalizedRecipients c (recipients (payload.lookup "to"))).map .str))
  else putOff now payload

/-- `json.loads` reads back what `json.dumps` writes of a payload that the critic changes. -/
def ReadsRewritten (c : Critic) (now : Int) (step : PlanStep) : Prop :=
  ∀ payload, jsonLoads c.lib step.args = .ok (some (.obj payload)) →
    jsonLoads c.lib (dumps (.obj (rewritten c now step.skillName payload))) =
      .ok (some (.obj (rewritten c now step.skillName payload)))

def CheckPasses (c : Critic) (now : Int) (step : PlanStep) (payload : Dict) (r : StepReview) :
    Prop :=
  ∃ payload' changes warnings, r = passed step payload' changes warnings ∧
    (changes = [] ∧ payload' = payload ∨
      changes ≠ [] ∧ payload' = rewritten c now step.skillName payload) ∧
    Guaranteed c now step.skillName payload payload' changes

section Checks

variable {c : Critic} {now : Int} {step : PlanStep} {payload : Dict} {r : StepReview}

theorem reviewTimes_ok {start stop : Int} {changes : List Change}
    (h : reviewTimes now start stop step payload changes = .ok r) (hok : r.result.ok = true) :
    start < stop ∧ ∃ warnings, r = passed step payload changes warnings := by
  rw [reviewTimes] at h
  by_cases horder : stop ≤ start
  · rw [if_pos horder] at h
    cases h
    cases hok
  · rw [if_neg horder, addHours_horizon] at h
    by_cases hrange : InRange (horizon now)
    · rw [if_pos hrange] at h
      cases h
      exact ⟨by omega, _, rfl⟩
    · rw [if_neg hrange] at h
      cases h

theorem zoneName_of_blank {timezoneValue : Json} (h : blankTimezone c timezoneValue = true) :
    zoneName c timezoneValue = c.defaultTimezone ∨ zoneName c timezoneValue = "" := by
  unfold blankTimezone at h
  unfold zoneName
  split at h
  · exact Or.inl rfl
  · right
    simpa using h

/-- A blank zone becomes the default one, in which the time is the same. -/
theorem parseIso_default (hnames : ZoneNames c.lib)
    (hdefault : ∃ instant, c.lib.zoneInfo c.defaultTimezone = .zone instant)
    {value timezoneValue : Json} {utc : Int} (hblank : blankTimezone c timezoneValue = true)
    (h : parseIso c value timezoneValue = .ok (some utc)) :
    parseIso c value (.str c.defaultTimezone) = .ok (some utc) := by
  obtain ⟨instant, hdefaultZone⟩ := hdefault
  have hname : zoneName c (.str c.defaultTimezone) = c.defaultTimezone := by
    rw [zoneName, pyStr]
    · exact (hnames _ _ hdefaultZone).2
    · nofun
  rw [parseIso_some_iff] at h ⊢
  cases h with
  | aware text value_eq filled reads exists_utc =>
    exact .aware text value_eq filled reads exists_utc
  | naive text wall other value_eq filled reads zone utc_eq exists_utc =>
    rcases zoneName_of_blank hblank with hsame | hnone
    · rw [hsame, ← hname] at zone
      exact .naive text wall other value_eq filled reads zone utc_eq exists_utc
    · -- A blank name names no zone.
      exact absurd hnone (hnames _ _ zone).1

theorem reviewCalendar_ok (h : reviewCalendar c now step payload = .ok r)
    (hok : r.result.ok = true) :
    ∃ start stop,
      parseIso c (payload.lookup "start_iso") (payload.lookup "timezone") = .ok (some start) ∧
      parseIso c (payload.lookup "end_iso") (payload.lookup "timezone") = .ok (some stop) ∧
      reviewTimezone c now start stop step payload = .ok r := by
  rw [reviewCalendar] at h
  cases hstart : parseIso c (payload.lookup "start_iso") (payload.lookup "timezone") with
  | error e =>
    rw [hstart] at h
    cases h
  | ok start? =>
    cases hstop : parseIso c (payload.lookup "end_iso") (payload.lookup "timezone") with
    | error e =>
      rw [hstart, hstop] at h
      cases h
    | ok stop? =>
      rw [hstart, hstop] at h
      cases start? with
      | none =>
        cases h
        cases hok
      | some start =>
        cases stop? with
        | none =>
          cases h
          cases hok
        | some stop => exact ⟨start, stop, rfl, rfl, h⟩

theorem reviewCalendar_passes (hnames : ZoneNames c.lib)
    (hdefault : ∃ instant, c.lib.zoneInfo c.defaultTimezone = .zone instant)
    (hskill : step.skillName = some "calendar.create_event")
    (h : reviewCalendar c now step payload = .ok r) (hok : r.result.ok = true) :
    CheckPasses c now step payload r := by
  obtain ⟨start, stop, hstart, hstop, hzone⟩ := reviewCalendar_ok h hok
  have honly : ∀ {payload' changes}, Edited payload payload' changes → Timely c payload' →
      Guaranteed c now step.skillName payload payload' changes :=
    fun hedited htimely => ⟨hedited, fun _ => htimely, hskill ▸ nofun, hskill ▸ nofun⟩
  unfold reviewTimezone at hzone
  dsimp only at hzone
  by_cases hblank : blankTimezone c (payload.lookup "timezone") = true
  · rw [if_pos hblank] at hzone
    obtain ⟨hlt, warnings, rfl⟩ := reviewTimes_ok hzone hok
    obtain ⟨instant, hknown⟩ := hdefault
    have hfilled : blankTimezone c (.str c.defaultTimezone) = false := by
      obtain ⟨hname, htrimmed⟩ := hnames _ _ hknown
      refine decide_eq_false ?_
      rw [pyStr, htrimmed]
      exact hname
    have hchanged : payload.lookup "timezone" ≠ .str c.defaultTimezone := by
      intro hsame
      rw [hsame, hfilled] at hblank
      cases hblank
    have htimely : Timely c (payload.set "timezone" (.str c.defaultTimezone)) := by
      refine ⟨?_, ⟨instant, ?_⟩, start, stop, ?_, ?_, hlt⟩
      · rw [lookup_set_self]
        exact hfilled
      · rw [lookup_set_self]
        exact hknown
      · rw [lookup_set_self, lookup_set_ne (by decide)]
        exact parseIso_default hnames ⟨instant, hknown⟩ hblank hstart
      · rw [lookup_set_self, lookup_set_ne (by decide)]
        exact parseIso_default hnames ⟨instant, hknown⟩ hblank hstop
    refine ⟨_, _, warnings, rfl, Or.inr ⟨by simp, ?_⟩, honly (edited_set hchanged) htimely⟩
    rw [rewritten, if_pos hskill]
  · rw [if_neg hblank] at hzone
    have hfilled : blankTimezone c (payload.lookup "timezone") = false := by simpa using hblank
    rw [validTimezone] at hzone
    cases hlookup : c.lib.zoneInfo (pyStr c.lib.toRuntime (payload.lookup "timezone")) with
    | zone instant =>
      rw [hlookup] at hzone
      obtain ⟨hlt, warnings, rfl⟩ := reviewTimes_ok hzone hok
      have htimely : Timely c payload :=
        ⟨hfilled, ⟨instant, hlookup⟩, start, stop, hstart, hstop, hlt⟩
      exact ⟨payload, [], warnings, rfl, Or.inl ⟨rfl, rfl⟩, honly (edited_none payload) htimely⟩
    | notFound =>
      rw [hlookup] at hzone
      cases hzone
      cases hok
    | badKey message =>
      rw [hlookup] at hzone
      cases hzone

theorem normalizedRecipients_addresses (c : Critic) (addresses : List Json) :
    (normalizedRecipients c addresses).Nodup ∧
      ∀ address ∈ normalizedRecipients c addresses, address ≠ "" ∧ strip address = address := by
  refine ⟨nodup_eraseDups _, ?_⟩
  intro address haddress
  rw [normalizedRecipients, List.mem_eraseDups, List.mem_filter, List.mem_map] at haddress
  obtain ⟨⟨value, -, rfl⟩, hfilled⟩ := haddress
  exact ⟨by simpa using hfilled, JsonLines.strip_strip _⟩

theorem recipients_arr {value : Json} (h : recipients value ≠ []) :
    value = .arr (recipients value) := by
  cases value with
  | arr items => rfl
  | _ => exact absurd rfl h

theorem map_asStr_eq {values : List Json} {texts : List String}
    (h : values.map Json.asStr = texts.map some) : values = texts.map .str := by
  induction values generalizing texts with
  | nil =>
    cases texts with
    | nil => rfl
    | cons text texts => cases h
  | cons value values ih =>
    cases texts with
    | nil => cases h
    | cons text texts =>
      obtain ⟨hvalue, hvalues⟩ := List.cons.inj h
      rw [ih hvalues, List.map_cons]
      cases value with
      | str s => rw [Option.some.inj hvalue]
      | _ => cases hvalue

theorem reviewGmail_passes (hskill : step.skillName = some "gmail.draft_email")
    (hok : (reviewGmail c step payload).result.ok = true) :
    CheckPasses c now step payload (reviewGmail c step payload) := by
  have honly : ∀ {payload' changes}, Edited payload payload' changes →
      Addressed c payload payload' → Guaranteed c now step.skillName payload payload' changes :=
    fun hedited haddressed => ⟨hedited, hskill ▸ nofun, fun _ => haddressed, hskill ▸ nofun⟩
  obtain ⟨hnodup, htrimmed⟩ :=
    normalizedRecipients_addresses c (recipients (payload.lookup "to"))
  unfold reviewGmail at hok ⊢
  dsimp only at hok ⊢
  by_cases hnone : normalizedRecipients c (recipients (payload.lookup "to")) = []
  · rw [if_pos hnone] at hok
    cases hok
  · have harr : payload.lookup "to" = .arr (recipients (payload.lookup "to")) := by
      refine recipients_arr fun hempty => hnone ?_
      rw [hempty]
      rfl
    rw [if_neg hnone]
    by_cases hsame : (recipients (payload.lookup "to")).map Json.asStr =
        (normalizedRecipients c (recipients (payload.lookup "to"))).map some
    · rw [if_pos hsame]
      refine ⟨payload, [], _, rfl, Or.inl ⟨rfl, rfl⟩, honly (edited_none payload) ?_⟩
      refine ⟨_, ?_, rfl, hnone, hnodup, htrimmed⟩
      rw [← map_asStr_eq hsame]
      exact harr
    · rw [if_neg hsame]
      have hchanged : payload.lookup "to" ≠
          .arr ((normalizedRecipients c (recipients (payload.lookup "to"))).map .str) := by
        intro heq
        apply hsame
        rw [harr, Json.arr.injEq] at heq
        conv_lhs => rw [heq]
        rw [List.map_map]
        rfl
      have hedited := edited_set hchanged
      refine ⟨_, _, _, by rw [← harr], Or.inr ⟨by simp, ?_⟩, honly hedited ?_⟩
      · rw [rewritten, if_neg (by rw [hskill]; decide), if_pos hskill]
      · exact ⟨_, lookup_set_self _ _ _, rfl, hnone, hnodup, htrimmed⟩

theorem parseIso_timestamp (htimes : ReadsTimestamps c.lib.toRuntime) {t : Int} (ht : InRange t)
    (timezoneValue : Json) : parseIso c (.str (isoformat t)) timezoneValue = .ok (some t) := by
  refine parseIso_some_iff.mpr (.aware _ rfl ?_ (htimes t ht) ht)
  intro hblank
  -- The date and the time stand apart by a letter.
  have hletter : 'T' ∈ (isoformat t).toList := by
    rw [IsoOrder.isoformat_toList]
    simp
  have hspaces := List.dropWhile_eq_nil_iff.mp
    (String.ofList_inj.mp (JsonLines.unindented_eq_empty.mpr hblank)) 'T' hletter
  cases hspaces

theorem reviewReminder_passes (htimes : ReadsTimestamps c.lib.toRuntime)
    (hskill : step.skillName = some "reminders.create")
    (h : reviewReminder c now step payload = .ok r) (hok : r.result.ok = true) :
    CheckPasses c now step payload r := by
  have honly : ∀ {payload' changes}, Edited payload payload' changes →
      Reminding c now payload' (changes ≠ []) →
        Guaranteed c now step.skillName payload payload' changes :=
    fun hedited hreminding => ⟨hedited, hskill ▸ nofun, hskill ▸ nofun, fun _ => hreminding⟩
  rw [reviewReminder] at h
  by_cases hblank : BlankMessage c payload
  · rw [if_pos (show strip _ = "" from hblank)] at h
    cases h
    cases hok
  · rw [if_neg (show strip _ ≠ "" from hblank)] at h
    cases hparse : parseIso c (payload.lookup "run_at_iso") (payload.lookup "timezone") with
    | error e =>
      rw [hparse] at h
      cases h
    | ok runAt? =>
      rw [hparse] at h
      cases runAt? with
      | none =>
        cases h
        cases hok
      | some runAt =>
        dsimp only at h
        rw [reviewRunAt] at h
        by_cases hpast : runAt ≤ now
        · rw [if_pos hpast, addMinutes_five] at h
          by_cases hrange : InRange (now + 5 * 60000000)
          · rw [if_pos hrange] at h
            cases h
            have hmoved : ∀ timezoneValue, parseIso c (.str (isoformat (now + 5 * 60000000)))
                timezoneValue = .ok (some (now + 5 * 60000000)) :=
              parseIso_timestamp htimes hrange
            have hchanged : payload.lookup "run_at_iso" ≠
                .str (isoformat (now + 5 * 60000000)) := by
              intro hsame
              rw [hsame, hmoved] at hparse
              cases hparse
              omega
            refine ⟨_, _, _, rfl, Or.inr ⟨by simp, ?_⟩, honly (edited_set hchanged) ?_⟩
            · rw [rewritten, if_neg (by rw [hskill]; decide), if_neg (by rw [hskill]; decide)]
              rfl
            · refine ⟨?_, now + 5 * 60000000, by omega, fun _ => rfl, ?_⟩
              · rw [BlankMessage, lookup_set_ne (by decide)]
                exact hblank
              · rw [lookup_set_self]
                exact hmoved _
          · rw [if_neg hrange] at h
            cases h
        · rw [if_neg hpast] at h
          cases h
          refine ⟨payload, [], _, rfl, Or.inl ⟨rfl, rfl⟩, honly (edited_none payload) ?_⟩
          exact ⟨hblank, runAt, by omega, fun hne => absurd rfl hne, hparse⟩

theorem reviewPayload_ok {error question : String} {check : Dict → Except PyError StepReview}
    (h : reviewPayload c step error question check = .ok r) (hok : r.result.ok = true) :
    ∃ payload, jsonLoads c.lib step.args = .ok (some (.obj payload)) ∧ check payload = .ok r := by
  rw [reviewPayload] at h
  split at h
  · cases h
  · cases h
    cases hok
  · rename_i payload hloads
    exact ⟨payload, hloads, h⟩
  · cases h

def Leaves (c : Critic) (now : Int) (step : PlanStep) (r : StepReview) : Prop :=
  ∃ changes, Outcome c now step (r.step, changes) ∧
    r.result.normalizations = (recorded (r.step, changes)).toList

theorem CheckPasses.leaves (h : CheckPasses c now step payload r)
    (hread : ReadsRewritten c now step)
    (hloads : jsonLoads c.lib step.args = .ok (some (.obj payload)))
    (hskill : ∃ name ∈ reviewedSkills, step.skillName = some name) : Leaves c now step r := by
  obtain ⟨payload', changes, warnings, rfl, hcase, hguaranteed⟩ := h
  obtain ⟨name, hname, hskill⟩ := hskill
  refine ⟨changes, ⟨?_, ?_, ?_, ?_⟩, ?_⟩
  · cases changes <;> rfl
  · rintro rfl
    rfl
  · intro hother
    exact absurd hskill (hother name hname)
  · intro _ _ _
    refine ⟨payload, payload', hloads, ?_, hguaranteed⟩
    rcases hcase with ⟨rfl, rfl⟩ | ⟨hne, rfl⟩
    · exact hloads
    · obtain ⟨change, rest, rfl⟩ := List.exists_cons_of_ne_nil hne
      exact hread payload hloads
  · cases changes <;> rfl

theorem reviewStep_leaves (hnames : ZoneNames c.lib)
    (hdefault : ∃ instant, c.lib.zoneInfo c.defaultTimezone = .zone instant)
    (htimes : ReadsTimestamps c.lib.toRuntime) (hread : ReadsRewritten c now step)
    (h : reviewStep c now step = .ok r) (hok : r.result.ok = true) : Leaves c now step r := by
  rw [reviewStep] at h
  by_cases hcalendar : step.skillName = some "calendar.create_event"
  · rw [if_pos hcalendar] at h
    obtain ⟨payload, hloads, hcheck⟩ := reviewPayload_ok h hok
    exact (reviewCalendar_passes hnames hdefault hcalendar hcheck hok).leaves hread hloads
      ⟨_, by decide, hcalendar⟩
  · rw [if_neg hcalendar] at h
    by_cases hgmail : step.skillName = some "gmail.draft_email"
    · rw [if_pos hgmail] at h
      obtain ⟨payload, hloads, hcheck⟩ := reviewPayload_ok h hok
      cases hcheck
      exact (reviewGmail_passes hgmail hok).leaves hread hloads ⟨_, by decide, hgmail⟩
    · rw [if_neg hgmail] at h
      by_cases hreminder : step.skillName = some "reminders.create"
      · rw [if_pos hreminder] at h
        obtain ⟨payload, hloads, hcheck⟩ := reviewPayload_ok h hok
        exact (reviewReminder_passes htimes hreminder hcheck hok).leaves hread hloads
          ⟨_, by decide, hreminder⟩
      · rw [if_neg hreminder] at h
        cases h
        refine ⟨[], ⟨rfl, fun _ => rfl, fun _ => rfl, ?_⟩, rfl⟩
        intro name hname hskill
        simp only [reviewedSkills, List.mem_cons, List.not_mem_nil, or_false] at hname
        rcases hname with rfl | rfl | rfl
        · exact absurd hskill hcalendar
        · exact absurd hskill hgmail
        · exact absurd hskill hreminder

end Checks

/-- At this time the horizon of an event exists and no reminder's time has come. -/
structure Punctual (c : Critic) (later : Int) (step : PlanStep) : Prop where
  horizon : step.skillName = some "calendar.create_event" → InRange (horizon later)
  notDue : step.skillName = some "reminders.create" → ∀ (payload : Dict) runAt,
    jsonLoads c.lib step.args = .ok (some (.obj payload)) →
    parseIso c (payload.lookup "run_at_iso") (payload.lookup "timezone") = .ok (some runAt) →
    later < runAt

/-- The review accepts the step and changes nothing. -/
def Settled (c : Critic) (later : Int) (step : PlanStep) : Prop :=
  ∃ warnings, reviewStep c later step = .ok (passed step [] [] warnings)

section Again

variable {c : Critic} {now later : Int} {step : PlanStep} {payload payload' : Dict}

theorem Timely.settles (h : Timely c payload) (hrange : InRange (horizon later)) :
    ∃ warnings, reviewCalendar c later step payload = .ok (passed step payload [] warnings) := by
  obtain ⟨hfilled, ⟨instant, hknown⟩, start, stop, hstart, hstop, hlt⟩ := h
  have hunblank : ¬ blankTimezone c (payload.lookup "timezone") = true := by simp [hfilled]
  have horder : ¬ stop ≤ start := by omega
  rw [reviewCalendar, hstart, hstop]
  change ∃ warnings, reviewTimezone c later start stop step payload = _
  unfold reviewTimezone validTimezone
  dsimp only
  rw [if_neg hunblank, hknown]
  dsimp only
  rw [reviewTimes, if_neg horder, addHours_horizon, if_pos hrange]
  exact ⟨_, rfl⟩

theorem normalizedRecipients_again {addresses : List String} (hnodup : addresses.Nodup)
    (htrimmed : ∀ address ∈ addresses, address ≠ "" ∧ strip address = address) :
    normalizedRecipients c (addresses.map .str) = addresses := by
  have htexts : (addresses.map Json.str).map
      (fun address => strip (pyStr c.lib.toRuntime address)) =
      addresses := by
    rw [List.map_map]
    conv_rhs => rw [← List.map_id addresses]
    exact List.map_congr_left fun address haddress => (htrimmed address haddress).2
  have hfilled : addresses.filter (· ≠ "") = addresses := by
    rw [List.filter_eq_self]
    intro address haddress
    simpa using (htrimmed address haddress).1
  rw [normalizedRecipients, htexts, hfilled, eraseDups_of_nodup hnodup]

theorem Addressed.settles (h : Addressed c payload payload') :
    ∃ warnings, reviewGmail c step payload' = passed step payload' [] warnings := by
  obtain ⟨addresses, hto, -, hne, hnodup, htrimmed⟩ := h
  have hrecipients : recipients (payload'.lookup "to") = addresses.map .str := by
    rw [hto]
    rfl
  have hsame : (addresses.map Json.str).map Json.asStr = addresses.map some := by
    rw [List.map_map]
    rfl
  unfold reviewGmail
  dsimp only
  rw [hrecipients, normalizedRecipients_again hnodup htrimmed, if_neg hne, if_pos hsame]
  exact ⟨_, rfl⟩

theorem Reminding.settles {moved : Prop} (h : Reminding c now payload moved)
    (hlater : ∀ runAt,
      parseIso c (payload.lookup "run_at_iso") (payload.lookup "timezone") = .ok (some runAt) →
        later < runAt) :
    reviewReminder c later step payload = .ok (passed step payload [] []) := by
  obtain ⟨hmessage, runAt, -, -, hparse⟩ := h
  have hfuture : ¬ runAt ≤ later := by
    have := hlater runAt hparse
    omega
  rw [reviewReminder, if_neg (show strip _ ≠ "" from hmessage), hparse]
  dsimp only
  rw [reviewRunAt, if_neg hfuture]

theorem Outcome.settles {out : PlanStep × List Change} (h : Outcome c now step out)
    (hpunctual : Punctual c later out.1) : Settled c later out.1 := by
  have hname : out.1.skillName = step.skillName := by rw [h.frame]
  unfold Settled reviewStep reviewPayload
  by_cases hcalendar : step.skillName = some "calendar.create_event"
  · obtain ⟨payload, payload', -, hloads, hguaranteed⟩ := h.payloads _ (by decide) hcalendar
    rw [if_pos (hname.trans hcalendar), hloads]
    obtain ⟨warnings, hsettled⟩ := (hguaranteed.calendar hcalendar).settles
      (hpunctual.horizon (hname.trans hcalendar))
    exact ⟨warnings, hsettled⟩
  · rw [if_neg (hname ▸ hcalendar)]
    by_cases hgmail : step.skillName = some "gmail.draft_email"
    · obtain ⟨payload, payload', -, hloads, hguaranteed⟩ := h.payloads _ (by decide) hgmail
      rw [if_pos (hname.trans hgmail), hloads]
      obtain ⟨warnings, hsettled⟩ := (hguaranteed.gmail hgmail).settles
      exact ⟨warnings, congrArg Except.ok hsettled⟩
    · rw [if_neg (hname ▸ hgmail)]
      by_cases hreminder : step.skillName = some "reminders.create"
      · obtain ⟨payload, payload', -, hloads, hguaranteed⟩ := h.payloads _ (by decide) hreminder
        rw [if_pos (hname.trans hreminder), hloads]
        exact ⟨[], (hguaranteed.reminder hreminder).settles fun runAt =>
          hpunctual.notDue (hname.trans hreminder) payload' runAt hloads⟩
      · rw [if_neg (hname ▸ hreminder)]
        exact ⟨[], rfl⟩

end Again

section Plans

variable {c : Critic} {now later : Int}

theorem reviewSteps_leaves (hnames : ZoneNames c.lib)
    (hdefault : ∃ instant, c.lib.zoneInfo c.defaultTimezone = .zone instant)
    (htimes : ReadsTimestamps c.lib.toRuntime) {warnings : List String}
    {normalizations : List CriticNormalization} {steps steps' : List PlanStep}
    {result : CriticResult} (hread : ∀ step ∈ steps, ReadsRewritten c now step)
    (h : reviewSteps c now warnings normalizations steps = .ok (result, steps'))
    (hok : result.ok = true) :
    ∃ outs, List.Forall₂ (Outcome c now) steps outs ∧ steps' = outs.map Prod.fst ∧
      result.normalizations = normalizations ++ outs.filterMap recorded := by
  induction steps generalizing warnings normalizations steps' with
  | nil =>
    cases h
    exact ⟨[], .nil, rfl, (List.append_nil _).symm⟩
  | cons step rest ih =>
    obtain ⟨reviewed, rest', hreview, haccepted, hrest, rfl⟩ := reviewSteps_cons_ok c now h hok
    obtain ⟨changes, houtcome, hrecorded⟩ := reviewStep_leaves hnames hdefault htimes
      (hread step List.mem_cons_self) hreview haccepted
    obtain ⟨outs, hall, rfl, hnormalizations⟩ :=
      ih (fun other hother => hread other (List.mem_cons_of_mem _ hother)) hrest
    refine ⟨(reviewed.step, changes) :: outs, .cons houtcome hall, rfl, ?_⟩
    rw [hnormalizations, hrecorded, List.append_assoc]
    cases hstep : recorded (reviewed.step, changes) with
    | none => rw [List.filterMap_cons_none hstep]; rfl
    | some normalization => rw [List.filterMap_cons_some hstep]; rfl

theorem reviewSteps_settled {steps : List PlanStep} (h : ∀ step ∈ steps, Settled c later step)
    (warnings : List String) (normalizations : List CriticNormalization) :
    ∃ result, reviewSteps c later warnings normalizations steps = .ok (result, steps) ∧
      result.ok = true ∧ result.normalizations = normalizations := by
  induction steps generalizing warnings normalizations with
  | nil => exact ⟨_, rfl, rfl, rfl⟩
  | cons step rest ih =>
    obtain ⟨added, hstep⟩ := h step List.mem_cons_self
    obtain ⟨result, hrest, hok, hsame⟩ := ih (fun other hother =>
      h other (List.mem_cons_of_mem _ hother)) (warnings ++ added) (normalizations ++ [])
    refine ⟨result, ?_, hok, by rw [hsame, List.append_nil]⟩
    rw [reviewSteps, hstep]
    dsimp only [passed]
    rw [if_pos rfl, hrest]
    rfl

end Plans

/-- An accepted plan comes back with the payloads that the skills rely on, the changes on
record and nothing else changed; a punctual second review accepts it as it is. -/
theorem accepted_plan_guarantees (c : Critic) (hnames : ZoneNames c.lib)
    (hdefault : ∃ instant, c.lib.zoneInfo c.defaultTimezone = .zone instant)
    (htimes : ReadsTimestamps c.lib.toRuntime) (now : Int) (plan plan' : Plan)
    (hread : ∀ step ∈ plan.steps, ReadsRewritten c now step) (result : CriticResult)
    (h : review c now plan = .ok (result, plan')) (hok : result.ok = true) :
    result.plan = some plan' ∧
      (∃ outs, List.Forall₂ (Outcome c now) plan.steps outs ∧
        plan' = { plan with steps := outs.map Prod.fst } ∧
        result.normalizations = outs.filterMap recorded) ∧
      ∀ later, (∀ step ∈ plan'.steps, Punctual c later step) →
        ∃ again, review c later plan' = .ok (again, plan') ∧ again.ok = true ∧
          again.normalizations = [] := by
  rw [review] at h
  cases hsteps : reviewSteps c now [] [] plan.steps with
  | error e => simp [hsteps, Except.map] at h
  | ok out =>
    obtain ⟨result₀, steps'⟩ := out
    simp only [hsteps, Except.map] at h
    cases h
    have hok₀ : result₀.ok = true := hok
    obtain ⟨outs, hall, rfl, hnormalizations⟩ :=
      reviewSteps_leaves hnames hdefault htimes hread hsteps hok₀
    refine ⟨if_pos hok₀, ⟨outs, hall, rfl, hnormalizations⟩, ?_⟩
    intro later hpunctual
    have hsettled : ∀ step ∈ outs.map Prod.fst, Settled c later step := by
      intro step hstep
      obtain ⟨out, hout, rfl⟩ := List.mem_map.mp hstep
      obtain ⟨source, -, houtcome⟩ := forall₂_mem hall hout
      exact houtcome.settles (hpunctual out.1 hstep)
    obtain ⟨again, hagain, hagainOk, hnone⟩ := reviewSteps_settled hsettled [] []
    refine ⟨{ again with plan := some { plan with steps := outs.map Prod.fst } }, ?_, hagainOk,
      hnone⟩
    rw [review, hagain]
    simp only [Except.map, hagainOk, if_true]

def mailPayload : Dict := [("to", .arr [.str "a ", .str "b", .str "a"])]

def eventPayload : Dict :=
  [("start_iso", .str "1970-01-01T00:00:00+00:00"), ("end_iso", .str "1970-01-01T01:00:00+00:00")]

def zonedPayload : Dict := eventPayload ++ [("timezone", .str "UTC")]

def soonPayload : Dict :=
  [("message", .str "Tea"), ("run_at_iso", .str "1970-01-01T00:01:00+00:00")]

def deskPayloads : List Dict :=
  [mailPayload, [("to", .arr [.str "a", .str "b"])], eventPayload, zonedPayload, soonPayload]

def deskLibraries : Libraries where
  toRuntime :=
    { AssistantState.exampleRuntime (fun _ => .returned "") fun _ => none with
      loads := fun text =>
        (deskPayloads.find? fun payload => dumps (.obj payload) = text).map .obj
      fromisoformat := fromIsoformat }
  loadsRaises _ := none
  zoneInfo key := if key = "UTC" then .zone id else .notFound

def deskCritic : Critic := ⟨deskLibraries, "UTC"⟩

def deskStep (id skillName : String) (payload : Dict) : PlanStep :=
  ⟨id, "", some skillName, dumps (.obj payload), true⟩

/-- Padded and repeated addresses, and an event without a time zone. -/
def deskPlan : Plan := ⟨"desk", [deskStep "1" "gmail.draft_email" mailPayload,
  deskStep "2" "calendar.create_event" eventPayload]⟩

theorem desk_zones : ZoneNames deskLibraries := by
  intro name instant h
  by_cases hname : name = "UTC"
  · subst hname
    decide
  · have hlookup : deskLibraries.zoneInfo name = .notFound := if_neg hname
    cases hlookup.symm.trans h

theorem desk_times : ReadsTimestamps deskLibraries.toRuntime := by
  intro t h
  have hruntime : deskLibraries.fromisoformat = fromIsoformat := rfl
  rw [hruntime]
  exact fromIsoformat_isoformat h

theorem desk_rewrites : ∀ step ∈ deskPlan.steps, ReadsRewritten deskCritic 0 step := by
  have hmail : jsonLoads deskLibraries (dumps (.obj mailPayload)) =
      .ok (some (.obj mailPayload)) := rfl
  have hevent : jsonLoads deskLibraries (dumps (.obj eventPayload)) =
      .ok (some (.obj eventPayload)) := rfl
  intro step hstep payload hloads
  simp only [deskPlan, List.mem_cons, List.not_mem_nil, or_false] at hstep
  rcases hstep with rfl | rfl
  · cases hmail.symm.trans hloads
    rfl
  · cases hevent.symm.trans hloads
    rfl

theorem desk_accepted : ∃ result plan', review deskCritic 0 deskPlan = .ok (result, plan') ∧
    result.ok = true := ⟨_, _, rfl, rfl⟩

theorem desk_guarantees : ∃ result plan', review deskCritic 0 deskPlan = .ok (result, plan') ∧
    result.plan = some plan' ∧
      (∃ outs, List.Forall₂ (Outcome deskCritic 0) deskPlan.steps outs ∧
        plan' = { deskPlan with steps := outs.map Prod.fst } ∧
        result.normalizations = outs.filterMap recorded) ∧
      ∀ later, (∀ step ∈ plan'.steps, Punctual deskCritic later step) →
        ∃ again, review deskCritic later plan' = .ok (again, plan') ∧ again.ok = true ∧
          again.normalizations = [] := by
  obtain ⟨result, plan', hreview, hok⟩ := desk_accepted
  exact ⟨result, plan', hreview, accepted_plan_guarantees deskCritic desk_zones ⟨id, rfl⟩ desk_times
    0 deskPlan plan' desk_rewrites result hreview hok⟩

def lastHorizon : Int := maxInstant - 365 * 2 * 24 * 60 * 60000000

/-- A reminder that is due a minute after the first review is moved by one a minute later
still, and an event of which the horizon is out of reach by then is not reviewed at all. -/
theorem second_review_differs :
    (∃ first plan', review deskCritic 0 ⟨"tea", [deskStep "1" "reminders.create" soonPayload]⟩ =
        .ok (first, plan') ∧ first.ok = true ∧ first.normalizations = [] ∧
      ∃ again plan'', review deskCritic 120000000 plan' = .ok (again, plan'') ∧
        again.normalizations.length = 1) ∧
      ∃ first plan', review deskCritic lastHorizon
          ⟨"end", [deskStep "1" "calendar.create_event" zonedPayload]⟩ = .ok (first, plan') ∧
        first.ok = true ∧ review deskCritic (lastHorizon + 1) plan' = .error dateOutOfRange :=
  ⟨⟨_, _, rfl, rfl, rfl, _, _, rfl, rfl⟩, _, _, rfl, rfl, rfl⟩

end ReviewedPlan
