import Benjamin.PlanSchemas

/-!
# Ledger keys

The keys hash a `|`-joined list of parts. With an injective hash, keys of
approvals with different `|`-free identifiers differ, and so do the keys of
different actions of one rule.
-/
namespace LedgerKeys

open PyBase PlanSchemas

/-- `sort_keys=True, separators=(",", ":"), ensure_ascii=False`. -/
def canonicalJson (obj : Json) : String := dumpsWith ⟨",", ":", false, true⟩ obj

variable (rt : Runtime)

/-- `_stable_hash`. -/
def stableHash (parts : List String) : String := rt.sha256 ("|".intercalate parts)

/-- `_normalize_args` of a string: the JSON it holds, or the string itself. -/
def normalizeArgs (args : String) : Json := (rt.loads args).getD (.str args)

def approvalExecutionKey (approvalId : String) (step : PlanStep) : String :=
  stableHash rt ["approval_exec", approvalId, step.skillName.getD "",
    canonicalJson (normalizeArgs rt step.args)]

def ruleActionKey (ruleId : String) (actionIndex : Nat) (itemId : Option String)
    (signature : Dict) : String :=
  stableHash rt ["rule_action", ruleId, toString actionIndex, (truthy itemId).getD "none",
    canonicalJson (.obj signature)]

/-- The run of a job falls into the bucket of its schedule, or of the current minute. -/
def runBucket (now : Int) (scheduledRunIso : Option String) : String :=
  scheduledRunIso.getD (isoformat (now - now % 60000000))

def jobRunKey (now : Int) (jobId : String) (scheduledRunIso : Option String) (extra : Dict) :
    String :=
  stableHash rt ["job_run", jobId, runBucket now scheduledRunIso, canonicalJson (.obj extra)]

/-- No `|` in it: the case of every uuid. -/
def BarFree (s : String) : Prop := '|' ∉ s.toList

instance (s : String) : Decidable (BarFree s) := inferInstanceAs (Decidable (_ ∉ _))

theorem barFree_toString (n : Nat) : BarFree (toString n) := by
  intro h
  rw [Nat.toString_eq_ofList_toDigits, String.toList_ofList] at h
  have := Nat.isDigit_of_mem_toDigits (by decide) (by decide) h
  simp [Char.isDigit] at this

theorem toString_inj {m n : Nat} (h : toString m = toString n) : m = n := by
  rw [Nat.toString_eq_ofList_toDigits, Nat.toString_eq_ofList_toDigits, String.ofList_inj] at h
  have := congrArg (Nat.ofDigitChars 10 · 0) h
  simpa using this

theorem takeWhile_part {s : String} (hs : BarFree s) (xs : List Char) :
    (s.toList ++ '|' :: xs).takeWhile (· ≠ '|') = s.toList := by
  rw [List.takeWhile_append_of_pos (by intro c hc; simpa using ne_of_mem_of_not_mem hc hs)]
  simp

/-- A part without `|` is read off the front of what follows. -/
theorem part_inj {s t : String} {xs ys : List Char} (hs : BarFree s) (ht : BarFree t)
    (h : s.toList ++ '|' :: xs = t.toList ++ '|' :: ys) : s = t := by
  have htake := congrArg (List.takeWhile (· ≠ '|')) h
  rw [takeWhile_part hs, takeWhile_part ht] at htake
  exact String.toList_inj.mp htake

variable {rt}

theorem joined_cons (s t : String) (rest : List String) :
    ("|".intercalate (s :: t :: rest)).toList =
      s.toList ++ '|' :: ("|".intercalate (t :: rest)).toList := by
  simp [String.intercalate_cons_cons]

theorem approvalExecutionKey_inj (hash : Function.Injective rt.sha256) {id id' : String}
    {step step' : PlanStep} (hid : BarFree id) (hid' : BarFree id')
    (h : approvalExecutionKey rt id step = approvalExecutionKey rt id' step') : id = id' := by
  have hjoin := congrArg String.toList (hash h)
  simp only [joined_cons, List.append_cancel_left_eq, List.cons_inj_right] at hjoin
  exact part_inj hid hid' hjoin

theorem ruleActionKey_index (hash : Function.Injective rt.sha256) {ruleId : String} {i j : Nat}
    {item item' : Option String} {sig sig' : Dict}
    (h : ruleActionKey rt ruleId i item sig = ruleActionKey rt ruleId j item' sig') : i = j := by
  have hjoin := congrArg String.toList (hash h)
  simp only [joined_cons, List.append_cancel_left_eq, List.cons_inj_right] at hjoin
  exact toString_inj (part_inj (barFree_toString i) (barFree_toString j) hjoin)

end LedgerKeys
