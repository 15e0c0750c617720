import Mathlib.Data.List.Sort
import Mathlib.Data.String.Basic

/-!
# The Python values the program is written over

Exceptions, JSON documents, datetimes and the parts of the runtime that the
model leaves open: identifiers, hashing, case folding, text parsing and the
outcomes of the outside world. Strings are sequences of Unicode scalar values;
an instant is a number of microseconds since 1970-01-01T00:00:00 UTC.
-/
namespace PyBase

/-- The exception classes the modelled code raises or receives. `BaseException`s
outside `Exception` end the process and are not values of this type. -/
inductive PyError where
  | valueError (message : String)
  | keyError (key : String)
  | typeError (message : String)
  | overflowError (message : String)
  | httpException (statusCode : Nat) (detail : String)
  | serviceDegraded (service : String) (lastError : Option String)
  | other (message : String)
  deriving DecidableEq, Repr

/-- `str(exc)`; a `KeyError` prints the repr of its key. -/
def PyError.str : PyError → String
  | .valueError m | .typeError m | .overflowError m | .other m => m
  | .keyError k => "'" ++ k ++ "'"
  | .httpException code detail => toString code ++ ": " ++ detail
  | .serviceDegraded service none => "service_degraded:" ++ service
  | .serviceDegraded service (some e) => "service_degraded:" ++ service ++ ": " ++ e

/-- The characters that `str.strip` removes. -/
def isSpace (c : Char) : Bool :=
  let n := c.toNat
  decide (9 ≤ n ∧ n ≤ 13) || decide (28 ≤ n ∧ n ≤ 32) || decide (n ∈ [133, 160, 5760]) ||
    decide (8192 ≤ n ∧ n ≤ 8202) || decide (n ∈ [8232, 8233, 8239, 8287, 12288])

def strip (s : String) : String :=
  String.ofList ((s.toList.dropWhile isSpace).reverse.dropWhile isSpace).reverse

/-- A document of the `json` module. A float is kept as its `repr`. -/
inductive Json where
  | null
  | bool (b : Bool)
  | int (n : Int)
  | float (repr : String)
  | str (s : String)
  | arr (items : List Json)
  | obj (fields : List (String × Json))

/-- A `dict` with string keys, in insertion order. -/
abbrev Dict := List (String × Json)

def Dict.set (d : Dict) (key : String) (value : Json) : Dict :=
  match d with
  | [] => [(key, value)]
  | (k, v) :: rest => if k = key then (k, value) :: rest else (k, v) :: Dict.set rest key value

/-- `dict.update`: known keys keep their place, new ones go to the end. -/
def Dict.update (d : Dict) (more : Dict) : Dict := more.foldl (fun acc kv => acc.set kv.1 kv.2) d

def hexDigit (n : Nat) : Char := if n < 10 then Char.ofNat (48 + n) else Char.ofNat (87 + n)

def unicodeEscape (n : Nat) : List Char :=
  ['\\', 'u', hexDigit (n / 4096 % 16), hexDigit (n / 256 % 16), hexDigit (n / 16 % 16),
    hexDigit (n % 16)]

/-- One character of a JSON string; `ascii` is the `ensure_ascii` option. -/
def escapeChar (ascii : Bool) (c : Char) : List Char :=
  if c = '"' then ['\\', '"']
  else if c = '\\' then ['\\', '\\']
  else if c = '\n' then ['\\', 'n']
  else if c = '\r' then ['\\', 'r']
  else if c = '\t' then ['\\', 't']
  else if c.toNat = 8 then ['\\', 'b']
  else if c.toNat = 12 then ['\\', 'f']
  else if c.toNat < 32 then unicodeEscape c.toNat
  else if ascii && decide (126 < c.toNat) then
    if c.toNat < 65536 then unicodeEscape c.toNat
    else unicodeEscape (55296 + (c.toNat - 65536) / 1024) ++
      unicodeEscape (56320 + (c.toNat - 65536) % 1024)
  else [c]

def quote (ascii : Bool) (s : String) : String :=
  String.ofList ('"' :: s.toList.flatMap (escapeChar ascii) ++ ['"'])

/-- The layout of one `json.dumps` call: its separators and flags. -/
structure Layout where
  itemSeparator : String
  keySeparator : String
  ensureAscii : Bool
  sortKeys : Bool

def insertField (kv : String × String) : List (String × String) → List (String × String)
  | [] => [kv]
  | head :: rest => if kv.1 ≤ head.1 then kv :: head :: rest else head :: insertField kv rest

def sortFields (fields : List (String × String)) : List (String × String) :=
  fields.foldr insertField []

mutual
def dumpsWith (l : Layout) : Json → String
  | .null => "null"
  | .bool true => "true"
  | .bool false => "false"
  | .int n => toString n
  | .float repr => repr
  | .str s => quote l.ensureAscii s
  | .arr items => "[" ++ l.itemSeparator.intercalate (dumpsItems l items) ++ "]"
  | .obj fields =>
    let rendered := dumpsFields l fields
    let ordered := if l.sortKeys then sortFields rendered else rendered
    r"{" ++ l.itemSeparator.intercalate
      (ordered.map fun kv => quote l.ensureAscii kv.1 ++ l.keySeparator ++ kv.2) ++ r"}"
def dumpsItems (l : Layout) : List Json → List String
  | [] => []
  | x :: xs => dumpsWith l x :: dumpsItems l xs
def dumpsFields (l : Layout) : List (String × Json) → List (String × String)
  | [] => []
  | (k, v) :: rest => (k, dumpsWith l v) :: dumpsFields l rest
end

/-- `json.dumps(obj)` with its defaults. -/
def dumps (j : Json) : String := dumpsWith ⟨", ", ": ", true, false⟩ j

example : dumps (.obj [("b", .int 1), ("a", .arr [.null, .str "x\n"])]) =
    r#"{"b": 1, "a": [null, "x\n"]}"# := by decide

/-- A `datetime`: a naive one is its wall clock, an aware one its UTC instant. -/
inductive Datetime where
  | naive (wall : Int)
  | aware (utc : Int)
  deriving DecidableEq, Repr

def mixedComparison : PyError := .typeError "can't compare offset-naive and offset-aware datetimes"

/-- `a <= b`, which raises between a naive and an aware value. -/
def Datetime.le : Datetime → Datetime → Except PyError Bool
  | .naive a, .naive b => .ok (decide (a ≤ b))
  | .aware a, .aware b => .ok (decide (a ≤ b))
  | _, _ => .error mixedComparison

/-- `a > b`, which raises between a naive and an aware value. -/
def Datetime.gt : Datetime → Datetime → Except PyError Bool
  | .naive a, .naive b => .ok (decide (b < a))
  | .aware a, .aware b => .ok (decide (b < a))
  | _, _ => .error mixedComparison

def Datetime.Comparable : Datetime → Datetime → Prop
  | .naive _, .naive _ | .aware _, .aware _ => True
  | _, _ => False

instance (a b : Datetime) : Decidable (a.Comparable b) := by
  cases a <;> cases b <;> simp only [Datetime.Comparable] <;> infer_instance

/-- The number compared, meaningful among values of one kind. -/
def Datetime.ticks : Datetime → Int
  | .naive t | .aware t => t

theorem le_of_comparable {a b : Datetime} (h : a.Comparable b) :
    a.le b = .ok (decide (a.ticks ≤ b.ticks)) := by
  cases a <;> cases b <;> first | rfl | exact h.elim

theorem gt_of_comparable {a b : Datetime} (h : a.Comparable b) :
    a.gt b = .ok (decide (b.ticks < a.ticks)) := by
  cases a <;> cases b <;> first | rfl | exact h.elim

theorem le_of_not_comparable {a b : Datetime} (h : ¬ a.Comparable b) :
    a.le b = .error mixedComparison := by
  cases a <;> cases b <;> first | rfl | exact (h trivial).elim

theorem gt_of_not_comparable {a b : Datetime} (h : ¬ a.Comparable b) :
    a.gt b = .error mixedComparison := by
  cases a <;> cases b <;> first | rfl | exact (h trivial).elim

theorem comparable_refl (a : Datetime) : a.Comparable a := by cases a <;> trivial

theorem comparable_symm {a b : Datetime} (h : a.Comparable b) : b.Comparable a := by
  cases a <;> cases b <;> trivial

theorem comparable_trans {a b c : Datetime} (h : a.Comparable b) (k : b.Comparable c) :
    a.Comparable c := by
  cases a <;> cases b <;> cases c <;> trivial

def microsPerDay : Int := 86400000000

/-- The first and the last representable microsecond, years 1 to 9999. -/
def minInstant : Int := -719162 * microsPerDay
def maxInstant : Int := 2932897 * microsPerDay - 1

def dateOutOfRange : PyError := .overflowError "date value out of range"

/-- What a sum with a `timedelta` of that many whole days raises; the delta itself may be too
long. -/
def deltaOverflow (days : Int) : PyError :=
  if days < -2147483648 ∨ 2147483647 < days then
    .overflowError "Python int too large to convert to C int"
  else if days < -999999999 ∨ 999999999 < days then
    .overflowError ("days=" ++ toString days ++ "; must have magnitude <= 999999999")
  else dateOutOfRange

/-- `now + timedelta(minutes=m)`. -/
def addMinutes (now m : Int) : Except PyError Int :=
  let t := now + m * 60000000
  if minInstant ≤ t ∧ t ≤ maxInstant then .ok t else .error (deltaOverflow (m / 1440))

/-- `now + timedelta(hours=h)`. -/
def addHours (now h : Int) : Except PyError Int := addMinutes now (h * 60)

/-- Year, month and day of a day number counted from 1970-01-01. -/
def civilFromDays (days : Int) : Int × Int × Int :=
  let z := days + 719468
  let era := z / 146097
  let doe := z % 146097
  let yoe := (doe - doe / 1460 + doe / 36524 - doe / 146096) / 365
  let doy := doe - (365 * yoe + yoe / 4 - yoe / 100)
  let mp := (5 * doy + 2) / 153
  let d := doy - (153 * mp + 2) / 5 + 1
  let m := if mp < 10 then mp + 3 else mp - 9
  (yoe + era * 400 + (if m ≤ 2 then 1 else 0), m, d)

def daysFromCivil (year month day : Int) : Int :=
  let y := if month ≤ 2 then year - 1 else year
  let era := y / 400
  let yoe := y % 400
  let mp := if month > 2 then month - 3 else month + 9
  let doy := (153 * mp + 2) / 5 + day - 1
  let doe := yoe * 365 + yoe / 4 - yoe / 100 + doy
  era * 146097 + doe - 719468

def padded (width : Nat) (n : Int) : String :=
  let digits := toString n.toNat
  String.ofList (List.replicate (width - digits.length) '0' ++ digits.toList)

/-- `datetime.isoformat()` of an aware UTC value; zero microseconds are omitted. -/
def isoformat (t : Int) : String :=
  let date := civilFromDays (t / microsPerDay)
  let rest := t % microsPerDay
  let seconds := rest / 1000000
  let fraction := rest % 1000000
  padded 4 date.1 ++ "-" ++ padded 2 date.2.1 ++ "-" ++ padded 2 date.2.2 ++ "T" ++
    padded 2 (seconds / 3600) ++ ":" ++ padded 2 (seconds / 60 % 60) ++ ":" ++
    padded 2 (seconds % 60) ++ (if fraction = 0 then "" else "." ++ padded 6 fraction) ++ "+00:00"

example : isoformat 1767225600000000 = "2026-01-01T00:00:00+00:00" := by decide

/-- What a call of a skill's `run` does: it returns a `SkillResult` or raises an `Exception`. -/
inductive SkillOutcome where
  | returned (content : String)
  | raised (error : PyError)
  deriving DecidableEq, Repr

/-- Library functions and outcomes that the results below hold for whatever they
are. `uuid4` gives the n-th identifier drawn. `skillRun` and `notifierSend` give the
outcome of a call that has n events before it. `str` is `str()` of a JSON value. -/
structure Runtime where
  uuid4 : Nat → String
  sha256 : String → String
  loads : String → Option Json
  str : Json → String
  casefold : String → String
  fromisoformat : String → Option Datetime
  skillRun : Nat → SkillOutcome
  notifierSend : Nat → Option PyError

end PyBase
