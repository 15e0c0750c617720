import Benjamin.PyBase

/-!
# Payloads

What the program does with a document that `json.loads` has read: lookups, truth
values, `str`. The libraries add two things to the runtime: what `json.loads` raises
on a text it cannot take although it is no `JSONDecodeError` (a nesting too deep, an
integer too long), and the time zones.
-/
namespace PyBase

/-- What `ZoneInfo(key)` gives: a zone takes a wall clock to its instant. -/
inductive ZoneLookup where
  | zone (instant : Int → Int)
  | notFound
  | badKey (message : String)

/-- `boolFrom` is what a `bool` field of a model takes of a value that is no boolean. -/
structure Libraries extends Runtime where
  loadsRaises : String → Option PyError
  zoneInfo : String → ZoneLookup
  boolFrom : Json → Option Bool := fun _ => none

/-- `json.loads(text)`; `none` is a `JSONDecodeError`. -/
def jsonLoads (lib : Libraries) (text : String) : Except PyError (Option Json) :=
  match lib.loadsRaises text with
  | some e => .error e
  | none => .ok (lib.loads text)

/-- `json.loads` has read an object and a text is put in one of its fields: what `json.dumps`
writes of it is read as an object again. -/
def ReadsBack (lib : Libraries) : Prop :=
  ∀ (text : String) (payload : Dict), jsonLoads lib text = .ok (some (.obj payload)) →
    ∀ (key value : String),
      ∃ payload', jsonLoads lib (dumps (.obj (payload.set key (.str value)))) =
        .ok (some (.obj payload'))

def noAttribute : PyError := .other "object has no attribute 'get'"

/-- `bool(value)`. -/
def Json.isTruthy : Json → Bool
  | .null => false
  | .bool b => b
  | .int n => decide (n ≠ 0)
  | .float repr => decide (repr ≠ "0.0" ∧ repr ≠ "-0.0")
  | .str s => decide (s ≠ "")
  | .arr items => !items.isEmpty
  | .obj fields => !fields.isEmpty

/-- `value or ""`. -/
def Json.orEmpty (j : Json) : Json := if j.isTruthy then j else .str ""

/-- `str(value)`. -/
def pyStr (rt : Runtime) : Json → String
  | .str s => s
  | j => rt.str j

def Json.asStr : Json → Option String
  | .str s => some s
  | _ => none

/-- `payload.get(key)`; an absent key reads as `None`. -/
def Dict.lookup (d : Dict) (key : String) : Json :=
  ((d.find? fun kv => kv.1 = key).map Prod.snd).getD .null

/-- `payload[key]`. -/
def Dict.item (d : Dict) (key : String) : Except PyError Json :=
  match d.find? fun kv => kv.1 = key with
  | some kv => .ok kv.2
  | none => .error (.keyError key)

theorem lookup_set_self (d : Dict) (key : String) (value : Json) :
    (d.set key value).lookup key = value := by
  induction d with
  | nil => simp [Dict.set, Dict.lookup]
  | cons kv rest ih =>
    by_cases h : kv.1 = key
    · simp [Dict.set, Dict.lookup, h]
    · simpa [Dict.set, Dict.lookup, h] using ih

theorem lookup_set_ne {key other : String} (h : key ≠ other) (d : Dict) (value : Json) :
    (d.set key value).lookup other = d.lookup other := by
  induction d with
  | nil => simp [Dict.set, Dict.lookup, h]
  | cons kv rest ih =>
    by_cases hkv : kv.1 = key
    · simp [Dict.set, Dict.lookup, hkv, h]
    · by_cases hother : kv.1 = other
      · simp [Dict.set, Dict.lookup, hother, Ne.symm h]
      · simpa [Dict.set, Dict.lookup, hkv, hother] using ih

theorem item_of_lookup {d : Dict} {key : String} (h : d.lookup key ≠ .null) :
    d.item key = .ok (d.lookup key) := by
  rw [Dict.item, Dict.lookup] at *
  cases hfind : d.find? fun kv => kv.1 = key with
  | none => simp [hfind] at h
  | some kv => simp

def InRange (instant : Int) : Prop := minInstant ≤ instant ∧ instant ≤ maxInstant

instance (instant : Int) : Decidable (InRange instant) :=
  inferInstanceAs (Decidable (_ ∧ _))

/-- An aware datetime in UTC: `astimezone(timezone.utc)` of an instant. -/
def toUtc (instant : Int) : Except PyError Int :=
  if minInstant ≤ instant ∧ instant ≤ maxInstant then .ok instant else .error dateOutOfRange

theorem toUtc_eq (instant : Int) :
    toUtc instant = if InRange instant then .ok instant else .error dateOutOfRange := rfl

end PyBase
