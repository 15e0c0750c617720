import Mathlib.Data.List.Infix

/-!
# Expanding a template

A template names keys, each of which stands for a value. Replacing the keys one after
another also finds those that earlier values bring in; `expand` replaces the keys of the
template at once. The two agree where every replacement finds the template's own keys
only, and `Clear` says of which templates that is true. Keys must not overlap.
-/
namespace TemplateExpansion

universe u

variable {α : Type u} [DecidableEq α]

abbrev Values (α : Type u) := List (List α × List α)

inductive Token (α : Type u) where
  | text (a : α)
  | hole (key : List α)
  deriving DecidableEq

def tokens (keys : List (List α)) : Nat → List α → List (Token α)
  | _, [] => []
  | skip + 1, _ :: rest => tokens keys skip rest
  | 0, a :: rest =>
    match keys.find? fun key => key.isPrefixOf (a :: rest) with
    | some key => .hole key :: tokens keys (key.length - 1) rest
    | none => .text a :: tokens keys 0 rest

/-- A key without a value stays as it is. -/
def Token.fill (values : Values α) : Token α → List α
  | .text a => [a]
  | .hole key => (values.lookup key).getD key

def fillAll (values : Values α) (ts : List (Token α)) : List α := ts.flatMap (Token.fill values)

def expand (values : Values α) (template : List α) : List α :=
  fillAll values (tokens (values.map Prod.fst) 0 template)

def replace (key value : List α) : Nat → List α → List α
  | _, [] => []
  | skip + 1, _ :: rest => replace key value skip rest
  | 0, a :: rest =>
    if key.isPrefixOf (a :: rest) then value ++ replace key value (key.length - 1) rest
    else a :: replace key value 0 rest

def replaceEach (values : Values α) (text : List α) : List α :=
  values.foldl (fun text kv => replace kv.1 kv.2 0 text) text

def occurrences (key : List α) : List α → Nat
  | [] => 0
  | a :: rest => (if key.isPrefixOf (a :: rest) then 1 else 0) + occurrences key rest

/-- Every replacement finds its key as often as the template has it. -/
def OwnKeys (template : List α) : Values α → List α → Prop
  | [], _ => True
  | (key, value) :: rest, text =>
    occurrences key text = occurrences key template ∧
      OwnKeys template rest (replace key value 0 text)

def Clear (done : Values α) (key : List α) (ts : List (Token α)) : Prop :=
  ∀ run, run <:+: ts → (∀ hole, Token.hole hole ∈ run → hole ∈ done.map Prod.fst) →
    ¬ key <:+: fillAll done run

def AllClear (done : Values α) : Values α → List (Token α) → Prop
  | [], _ => True
  | kv :: rest, ts => Clear done kv.1 ts ∧ AllClear (done ++ [kv]) rest ts

/-- No key overlaps another or itself. -/
structure Apart (keys : List (List α)) : Prop where
  distinct : keys.Nodup
  nonempty : [] ∉ keys
  separate : ∀ key ∈ keys, ∀ other ∈ keys, ∀ n < key.length,
    (key.drop n <+: other ∨ other <+: key.drop n) → n = 0 ∧ key = other

section Scanning

variable {key value : List α} {skip : Nat}

theorem replace_skip (x y : List α) :
    replace key value x.length (x ++ y) = replace key value 0 y := by
  induction x with
  | nil => simp
  | cons a rest ih => exact ih

theorem replace_key (hkey : key ≠ []) (y : List α) :
    replace key value 0 (key ++ y) = value ++ replace key value 0 y := by
  obtain ⟨a, rest, rfl⟩ := List.exists_cons_of_ne_nil hkey
  have hfront : (a :: rest).isPrefixOf (a :: (rest ++ y)) = true := by
    rw [List.isPrefixOf_iff_prefix, ← List.cons_append]
    exact List.prefix_append _ _
  rw [List.cons_append, replace, if_pos hfront]
  congr 1
  exact replace_skip rest y

/-- The key does not begin within `x`, which `y` follows. -/
def Passes (key x y : List α) : Prop := ∀ inner, inner ≠ [] → inner <:+ x → ¬ key <+: inner ++ y

omit [DecidableEq α] in
theorem Passes.tail {a : α} {x y : List α} (h : Passes key (a :: x) y) : Passes key x y :=
  fun inner hne hsuffix => h inner hne (hsuffix.trans (List.suffix_cons _ _))

theorem Passes.head {a : α} {x y : List α} (h : Passes key (a :: x) y) :
    key.isPrefixOf (a :: (x ++ y)) = false := by
  have hno := h (a :: x) (List.cons_ne_nil _ _) (List.suffix_refl _)
  rw [← List.isPrefixOf_iff_prefix, List.cons_append] at hno
  exact Bool.eq_false_iff.mpr hno

theorem replace_passes {x y : List α} (h : Passes key x y) :
    replace key value 0 (x ++ y) = x ++ replace key value 0 y := by
  induction x with
  | nil => rfl
  | cons a rest ih =>
    rw [List.cons_append, replace, h.head, ih h.tail]
    rfl

theorem occurrences_passes {x y : List α} (h : Passes key x y) :
    occurrences key (x ++ y) = occurrences key y := by
  induction x with
  | nil => rfl
  | cons a rest ih =>
    rw [List.cons_append, occurrences, h.head, ih h.tail]
    simp

theorem occurrences_key {a : α} {rest y : List α} (h : Passes (a :: rest) rest y) :
    occurrences (a :: rest) (a :: rest ++ y) = 1 + occurrences (a :: rest) y := by
  have hfront : (a :: rest).isPrefixOf (a :: (rest ++ y)) = true := by
    rw [List.isPrefixOf_iff_prefix, ← List.cons_append]
    exact List.prefix_append _ _
  rw [List.cons_append, occurrences, if_pos hfront, occurrences_passes h]

theorem occurrences_append_le (key x y : List α) :
    occurrences key x + occurrences key y ≤ occurrences key (x ++ y) := by
  induction x with
  | nil => simp [occurrences]
  | cons a rest ih =>
    have hhead : (if key.isPrefixOf (a :: rest) then 1 else 0) ≤
        if key.isPrefixOf (a :: (rest ++ y)) then 1 else 0 := by
      by_cases hfront : key.isPrefixOf (a :: rest) = true
      · have hmore : key.isPrefixOf (a :: (rest ++ y)) = true := by
          rw [List.isPrefixOf_iff_prefix] at hfront ⊢
          exact hfront.trans (List.prefix_append (a :: rest) y)
        rw [if_pos hfront, if_pos hmore]
      · rw [if_neg hfront]
        exact Nat.zero_le _
    rw [List.cons_append, occurrences, occurrences]
    omega

theorem occurrences_pos_of_infix (hkey : key ≠ []) {x : List α} (h : key <:+: x) :
    0 < occurrences key x := by
  obtain ⟨before, after, rfl⟩ := h
  obtain ⟨a, rest, rfl⟩ := List.exists_cons_of_ne_nil hkey
  have hself : 0 < occurrences (a :: rest) (a :: rest) := by
    rw [occurrences, if_pos (List.isPrefixOf_iff_prefix.mpr (List.prefix_refl _))]
    omega
  have hleft := occurrences_append_le (a :: rest) before (a :: rest)
  have hboth := occurrences_append_le (a :: rest) (before ++ (a :: rest)) after
  omega

end Scanning

/-- The tokens that a template has: each of its texts begins no key. -/
inductive Parsed (keys : List (List α)) : List (Token α) → Prop
  | nil : Parsed keys []
  | text (a : α) (ts : List (Token α)) (unkeyed : ∀ key ∈ keys, ¬ key <+: a :: fillAll [] ts)
      (rest : Parsed keys ts) : Parsed keys (.text a :: ts)
  | hole (key : List α) (ts : List (Token α)) (known : key ∈ keys) (rest : Parsed keys ts) :
      Parsed keys (.hole key :: ts)

section Parsing

variable {keys : List (List α)} {done : Values α} {key : List α} {ts : List (Token α)}

theorem fillAll_cons (t : Token α) (ts : List (Token α)) :
    fillAll done (t :: ts) = t.fill done ++ fillAll done ts := List.flatMap_cons ..

theorem fillAll_append (ts us : List (Token α)) :
    fillAll done (ts ++ us) = fillAll done ts ++ fillAll done us := List.flatMap_append ..

theorem lookup_pending (h : key ∉ done.map Prod.fst) : done.lookup key = none := by
  rw [List.lookup_eq_none_iff]
  intro kv hkv
  have hne : key ≠ kv.1 := fun heq => h (heq ▸ List.mem_map_of_mem hkv)
  simpa using hne

theorem fill_pending (h : key ∉ done.map Prod.fst) : (Token.hole key).fill done = key := by
  rw [Token.fill, lookup_pending h]
  rfl

theorem tokens_parsed (hempty : [] ∉ keys) (skip : Nat) (template : List α) :
    Parsed keys (tokens keys skip template) ∧
      fillAll [] (tokens keys skip template) = template.drop skip := by
  induction template generalizing skip with
  | nil =>
    cases skip <;> exact ⟨.nil, by simp [tokens, fillAll]⟩
  | cons a rest ih =>
    cases skip with
    | succ skip => exact ih skip
    | zero =>
      cases hfound : keys.find? fun key => key.isPrefixOf (a :: rest) with
      | none =>
        obtain ⟨hparsed, hfill⟩ := ih 0
        simp only [tokens, hfound]
        refine ⟨.text a _ ?_ hparsed, ?_⟩
        · intro key hkey hfront
          rw [hfill] at hfront
          have hno := List.find?_eq_none.mp hfound key hkey
          exact hno (List.isPrefixOf_iff_prefix.mpr hfront)
        · rw [fillAll_cons, hfill]
          rfl
      | some key =>
        obtain ⟨hparsed, hfill⟩ := ih (key.length - 1)
        have hkey := List.mem_of_find?_eq_some hfound
        have hfirst : key.isPrefixOf (a :: rest) = true := by simpa using List.find?_some hfound
        have hfront := List.isPrefixOf_iff_prefix.mp hfirst
        obtain ⟨b, more, rfl⟩ := List.exists_cons_of_ne_nil fun h : key = [] => hempty (h ▸ hkey)
        obtain ⟨after, hafter⟩ := hfront
        rw [List.cons_append] at hafter
        obtain ⟨rfl, rfl⟩ := List.cons.inj hafter
        simp only [tokens, hfound]
        refine ⟨.hole _ _ hkey hparsed, ?_⟩
        rw [fillAll_cons, hfill, fill_pending (by simp)]
        simp

theorem Parsed.suffix {pre : List (Token α)} (h : Parsed keys (pre ++ ts)) : Parsed keys ts := by
  induction pre with
  | nil => exact h
  | cons t rest ih =>
    cases h with
    | text a _ _ hrest => exact ih hrest
    | hole k _ _ hrest => exact ih hrest

theorem Parsed.holes (h : Parsed keys ts) : ∀ hole, Token.hole hole ∈ ts → hole ∈ keys := by
  induction h with
  | nil => simp
  | text a ts _ _ ih => simpa using ih
  | hole key ts hknown _ ih =>
    intro hole hmem
    rcases List.mem_cons.mp hmem with heq | hmem
    · cases heq
      exact hknown
    · exact ih hole hmem

theorem Parsed.clear (h : Parsed keys ts) (hempty : [] ∉ keys) (hkey : key ∈ keys) :
    Clear [] key ts := by
  rintro run ⟨before, after, rfl⟩ hfree
  rw [List.append_assoc] at h
  have hparsed := h.suffix
  clear h
  induction run with
  | nil =>
    intro hinfix
    have hnil : key = [] := List.infix_nil.mp hinfix
    exact hempty (hnil ▸ hkey)
  | cons t rest ih =>
    cases hparsed with
    | hole k _ hknown hrest => simpa using hfree k List.mem_cons_self
    | text a _ hunkeyed hrest =>
      intro hinfix
      rw [fillAll_cons, Token.fill, List.singleton_append, List.infix_cons_iff] at hinfix
      rcases hinfix with hfront | hinfix
      · have hlonger : a :: fillAll [] rest <+: a :: fillAll [] (rest ++ after) := by
          rw [fillAll_append, ← List.cons_append]
          exact List.prefix_append _ _
        exact hunkeyed key hkey (hfront.trans hlonger)
      · exact ih (fun hole hmem => hfree hole (List.mem_cons_of_mem _ hmem)) hrest hinfix

end Parsing

section Replacing

variable {keys : List (List α)} {done : Values α} {key value : List α} {ts : List (Token α)}

theorem Clear.tail {t : Token α} (h : Clear done key (t :: ts)) : Clear done key ts :=
  fun run hrun => h run (hrun.trans (List.suffix_cons t ts).isInfix)

theorem prefix_run (happ : Apart keys) (hkey : key ∈ keys)
    (hholes : ∀ hole, Token.hole hole ∈ ts → hole ∈ keys) {p : List α} (hp : p ≠ [])
    (h : key <+: p ++ fillAll done ts) :
    ∃ run, run <+: ts ∧ (∀ hole, Token.hole hole ∈ run → hole ∈ done.map Prod.fst) ∧
      key <+: p ++ fillAll done run := by
  induction ts generalizing p with
  | nil => exact ⟨[], List.prefix_refl _, by simp, h⟩
  | cons t rest ih =>
    have hrest : ∀ hole, Token.hole hole ∈ rest → hole ∈ keys :=
      fun hole hmem => hholes hole (List.mem_cons_of_mem _ hmem)
    by_cases hpending : ∃ hole, t = .hole hole ∧ hole ∉ done.map Prod.fst
    · obtain ⟨hole, rfl, hnew⟩ := hpending
      refine ⟨[], List.nil_prefix, by simp, ?_⟩
      rw [fillAll_cons, fill_pending hnew] at h
      rw [fillAll, List.flatMap_nil, List.append_nil]
      rcases List.prefix_or_prefix_of_prefix h (List.prefix_append p _) with hshort | ⟨q, rfl⟩
      · exact hshort
      by_cases hq : q = []
      · rw [hq, List.append_nil]
      have hwithin : p.length < (p ++ q).length := by
        have := List.length_pos_iff.mpr hq
        rw [List.length_append]
        omega
      have hmeets : q <+: hole ∨ hole <+: q :=
        List.prefix_or_prefix_of_prefix ((List.prefix_append_right_inj p).mp h)
          (List.prefix_append hole _)
      have hstart := happ.separate (p ++ q) hkey hole (hholes hole List.mem_cons_self) p.length
        hwithin (by rwa [List.drop_left])
      exact absurd (List.length_eq_zero_iff.mp hstart.1) hp
    · rw [fillAll_cons, ← List.append_assoc] at h
      obtain ⟨run, hrun, hfree, hfront⟩ := ih hrest (by simp [hp]) h
      refine ⟨t :: run, List.cons_prefix_cons.mpr ⟨rfl, hrun⟩, ?_, ?_⟩
      · intro hole hmem
        rcases List.mem_cons.mp hmem with rfl | hmem
        · by_contra hnew
          exact hpending ⟨hole, rfl, hnew⟩
        · exact hfree hole hmem
      · rw [fillAll_cons, ← List.append_assoc]
        exact hfront

theorem Clear.passes_done (happ : Apart keys) (hkey : key ∈ keys) {t : Token α}
    (hholes : ∀ hole, Token.hole hole ∈ ts → hole ∈ keys) (hclear : Clear done key (t :: ts))
    (hdone : ∀ hole, t = .hole hole → hole ∈ done.map Prod.fst) :
    Passes key (t.fill done) (fillAll done ts) := by
  rintro inner hne ⟨before, hinner⟩ hfront
  obtain ⟨run, hrun, hfree, hfront⟩ := prefix_run happ hkey hholes hne hfront
  refine hclear (t :: run) (List.cons_prefix_cons.mpr ⟨rfl, hrun⟩).isInfix ?_ ?_
  · intro hole hmem
    rcases List.mem_cons.mp hmem with heq | hmem
    · exact hdone hole heq.symm
    · exact hfree hole hmem
  · rw [fillAll_cons, ← hinner, List.append_assoc]
    exact hfront.isInfix.trans (List.suffix_append _ _).isInfix

omit [DecidableEq α] in
/-- Within another key, and after its own first symbol, a key does not begin. -/
theorem Apart.passes (happ : Apart keys) (hkey : key ∈ keys) {other : List α}
    (hother : other ∈ keys)
    {n : Nat} (hn : n ≠ 0 ∨ key ≠ other) (y : List α) : Passes key (other.drop n) y := by
  rintro inner hne ⟨before, hinner⟩ hfront
  have hdrop : inner = other.drop (n + before.length) := by
    rw [← List.drop_drop, ← hinner, List.drop_left]
  have hwithin : n + before.length < other.length := by
    by_contra hpast
    rw [List.drop_eq_nil_of_le (by omega)] at hdrop
    exact hne hdrop
  have hmeets : inner <+: key ∨ key <+: inner :=
    List.prefix_or_prefix_of_prefix (List.prefix_append inner y) hfront
  rw [hdrop] at hmeets
  obtain ⟨hzero, hsame⟩ := happ.separate other hother key hkey _ hwithin hmeets
  rcases hn with hn | hn
  · omega
  · exact hn hsame.symm

structure Turn (keys : List (List α)) (done : Values α) (key : List α) (ts : List (Token α)) :
    Prop where
  apart : Apart keys
  known : key ∈ keys
  pending : key ∉ done.map Prod.fst
  holes : ∀ hole, Token.hole hole ∈ ts → hole ∈ keys

omit [DecidableEq α] in
theorem Turn.tail {t : Token α} (h : Turn keys done key (t :: ts)) : Turn keys done key ts :=
  ⟨h.apart, h.known, h.pending, fun hole hmem => h.holes hole (List.mem_cons_of_mem _ hmem)⟩

omit [DecidableEq α] in
theorem Turn.nonempty (h : Turn keys done key ts) : key ≠ [] :=
  fun hnil => h.apart.nonempty (hnil ▸ h.known)

theorem Turn.passes {t : Token α} (h : Turn keys done key (t :: ts))
    (hclear : Clear done key (t :: ts)) (hother : t ≠ .hole key) :
    Passes key (t.fill done) (fillAll done ts) := by
  by_cases hdone : ∀ hole, t = .hole hole → hole ∈ done.map Prod.fst
  · exact hclear.passes_done h.apart h.known h.tail.holes hdone
  · push Not at hdone
    obtain ⟨hole, rfl, hnew⟩ := hdone
    rw [fill_pending hnew]
    have hne : key ≠ hole := fun heq => hother (heq ▸ rfl)
    have hpass := h.apart.passes (n := 0) h.known (h.holes hole List.mem_cons_self) (Or.inr hne)
    exact hpass _

theorem fill_append_self (h : key ∉ done.map Prod.fst) :
    (Token.hole key).fill (done ++ [(key, value)]) = value := by
  have hnone : done.lookup key = none := lookup_pending h
  simp [Token.fill, List.lookup_append, hnone]

theorem fill_append_other {t : Token α} (h : t ≠ .hole key) :
    t.fill (done ++ [(key, value)]) = t.fill done := by
  cases t with
  | text a => rfl
  | hole other =>
    have hne : (other == key) = false := by
      rw [beq_eq_false_iff_ne]
      exact fun heq => h (heq ▸ rfl)
    simp [Token.fill, List.lookup_append, List.lookup_cons, hne]

theorem replace_fillAll (h : Turn keys done key ts) (hclear : Clear done key ts) :
    replace key value 0 (fillAll done ts) = fillAll (done ++ [(key, value)]) ts := by
  induction ts with
  | nil => rfl
  | cons t rest ih =>
    have htail := ih h.tail hclear.tail
    rw [fillAll_cons, fillAll_cons, ← htail]
    by_cases hown : t = .hole key
    · subst hown
      rw [fill_pending h.pending, fill_append_self h.pending, replace_key h.nonempty]
    · rw [fill_append_other hown, replace_passes (h.passes hclear hown)]

theorem occurrences_fillAll (h : Turn keys done key ts) (hclear : Clear done key ts) :
    occurrences key (fillAll done ts) = ts.count (.hole key) := by
  induction ts with
  | nil => rfl
  | cons t rest ih =>
    have htail := ih h.tail hclear.tail
    rw [fillAll_cons]
    by_cases hown : t = .hole key
    · subst hown
      obtain ⟨a, more, rfl⟩ := List.exists_cons_of_ne_nil h.nonempty
      have hpass : Passes (a :: more) more (fillAll done rest) :=
        h.apart.passes (n := 1) h.known h.known (Or.inl Nat.one_ne_zero) _
      rw [fill_pending h.pending, List.count_cons_self, ← htail, occurrences_key hpass,
        Nat.add_comm]
    · rw [List.count_cons_of_ne hown, ← htail, occurrences_passes (h.passes hclear hown)]

theorem count_le_occurrences (h : Turn keys done key ts) :
    ts.count (.hole key) ≤ occurrences key (fillAll done ts) := by
  induction ts with
  | nil => exact Nat.zero_le _
  | cons t rest ih =>
    have htail := ih h.tail
    have hboth := occurrences_append_le key (t.fill done) (fillAll done rest)
    rw [fillAll_cons]
    by_cases hown : t = .hole key
    · subst hown
      rw [fill_pending h.pending] at hboth ⊢
      have hself := occurrences_pos_of_infix h.nonempty (List.infix_refl key)
      rw [List.count_cons_self]
      omega
    · rw [List.count_cons_of_ne hown]
      omega

/-- Where the key is found in its own holes only, the tokens are clear. -/
theorem clear_of_occurrences (h : Turn keys done key ts)
    (hown : occurrences key (fillAll done ts) = ts.count (.hole key)) : Clear done key ts := by
  rintro run ⟨before, after, rfl⟩ hfree hinfix
  have hnone : run.count (.hole key) = 0 :=
    List.count_eq_zero.mpr fun hmem => h.pending (hfree key hmem)
  have hbefore : Turn keys done key before :=
    ⟨h.apart, h.known, h.pending, fun hole hmem => h.holes hole (by simp [hmem])⟩
  have hafter : Turn keys done key after :=
    ⟨h.apart, h.known, h.pending, fun hole hmem => h.holes hole (by simp [hmem])⟩
  have hcount₁ := count_le_occurrences hbefore
  have hcount₂ := count_le_occurrences hafter
  have hrun := occurrences_pos_of_infix h.nonempty hinfix
  have hleft := occurrences_append_le key (fillAll done before) (fillAll done run)
  have hboth := occurrences_append_le key (fillAll done before ++ fillAll done run)
    (fillAll done after)
  rw [fillAll_append, fillAll_append, List.count_append, List.count_append] at hown
  omega

end Replacing

section Expanding

variable {values : Values α} {template : List α}

omit [DecidableEq α] in
theorem Turn.of_split {ts : List (Token α)} {done rest : Values α} {key value : List α}
    (happ : Apart (values.map Prod.fst))
    (hholes : ∀ hole, Token.hole hole ∈ ts → hole ∈ values.map Prod.fst)
    (hsplit : values = done ++ (key, value) :: rest) :
    Turn (values.map Prod.fst) done key ts := by
  refine ⟨happ, by simp [hsplit], ?_, hholes⟩
  have hdistinct := happ.distinct
  rw [hsplit, List.map_append, List.map_cons] at hdistinct
  intro hmem
  exact (List.nodup_append.mp hdistinct).2.2 key hmem key List.mem_cons_self rfl

theorem run_of_clear {ts : List (Token α)} (happ : Apart (values.map Prod.fst))
    (hholes : ∀ hole, Token.hole hole ∈ ts → hole ∈ values.map Prod.fst)
    {done rest : Values α} (hsplit : values = done ++ rest) (hclear : AllClear done rest ts) :
    replaceEach rest (fillAll done ts) = fillAll values ts := by
  induction rest generalizing done with
  | nil => simp [replaceEach, hsplit]
  | cons kv rest ih =>
    have hturn := Turn.of_split happ hholes hsplit
    have hstep : replaceEach (kv :: rest) (fillAll done ts) =
        replaceEach rest (replace kv.1 kv.2 0 (fillAll done ts)) := rfl
    rw [hstep, replace_fillAll hturn hclear.1]
    exact ih (by simp [hsplit]) hclear.2

theorem ownKeys_iff {ts : List (Token α)} (happ : Apart (values.map Prod.fst))
    (hparsed : Parsed (values.map Prod.fst) ts) (hfill : fillAll [] ts = template)
    {done rest : Values α} (hsplit : values = done ++ rest) :
    OwnKeys template rest (fillAll done ts) ↔ AllClear done rest ts := by
  induction rest generalizing done with
  | nil => simp [OwnKeys, AllClear]
  | cons kv rest ih =>
    obtain ⟨key, value⟩ := kv
    have hturn := Turn.of_split happ hparsed.holes hsplit
    have hfirst : Turn (values.map Prod.fst) [] key ts :=
      ⟨happ, hturn.known, by simp, hparsed.holes⟩
    have htemplate : occurrences key template = ts.count (.hole key) := by
      rw [← hfill]
      exact occurrences_fillAll hfirst (hparsed.clear happ.nonempty hturn.known)
    have hnext : values = done ++ [(key, value)] ++ rest := by simp [hsplit]
    have hlater := ih hnext
    rw [OwnKeys, AllClear, htemplate]
    constructor
    · rintro ⟨hcount, hown⟩
      have hclear := clear_of_occurrences hturn hcount
      rw [replace_fillAll hturn hclear] at hown
      exact ⟨hclear, hlater.mp hown⟩
    · rintro ⟨hclear, hrest⟩
      refine ⟨occurrences_fillAll hturn hclear, ?_⟩
      rw [replace_fillAll hturn hclear]
      exact hlater.mpr hrest

/-- Every replacement finds the template's own keys only, and so all of them together expand
the template at once, if and only if all of them are clear. -/
theorem expanded_iff (happ : Apart (values.map Prod.fst)) (template : List α) :
    replaceEach values template = expand values template ∧ OwnKeys template values template ↔
      AllClear [] values (tokens (values.map Prod.fst) 0 template) := by
  obtain ⟨hparsed, hfill⟩ := tokens_parsed happ.nonempty 0 template
  rw [List.drop_zero] at hfill
  have hall : values = [] ++ values := rfl
  have howned := ownKeys_iff happ hparsed hfill hall
  rw [hfill] at howned
  rw [← howned, and_iff_right_iff_imp]
  intro hown
  have hrun := run_of_clear happ hparsed.holes hall (howned.mp hown)
  rwa [hfill] at hrun

end Expanding

end TemplateExpansion
