import Benjamin.RuleSchemas

/-!
# From trigger items to matches

How an evaluation gets its items, keeps those that are new, selects those that match,
renders a notification and remembers what it has processed. A connector's reply is
the value or the exception of its search call.
-/
namespace RuleMatching

open PyBase PlanSchemas RuleSchemas

/-- A Gmail search result. The key `from` is `sender` here. -/
structure GmailMessage where
  id : Option String
  threadId : Option String
  sender : String
  subject : String
  snippet : String
  dateIso : Option String

structure CalendarEvent where
  id : Option String
  title : String
  startIso : Option String
  updated : Option String
  location : Option String

/-- What the connectors of the engine answer; `none` where it has no connector. -/
structure Feed where
  messages : Option (Except PyError (List GmailMessage))
  events : Option (Except PyError (List CalendarEvent))

/-- `str()` of a string or `None`. -/
def strOption (s : Option String) : String := s.getD "None"

def orElse (a b : Option String) : Option String :=
  match truthy a with
  | some s => some s
  | none => b

/-- The item of a message; a message without an identifier is passed over. -/
def gmailItem (message : GmailMessage) : Option Item :=
  match truthy (orElse message.threadId message.id) with
  | none => none
  | some itemId => some
    { itemId
      tsIso := message.dateIso
      text := strip (" ".intercalate [message.sender, message.subject, message.snippet]) }

def calendarItem (event : CalendarEvent) : Option Item :=
  match truthy event.id with
  | none => none
  | some itemId => some
    { itemId
      tsIso := orElse event.startIso event.updated
      text := strip (" ".intercalate [event.title, strOption event.location]) }

/-- `_load_trigger_items`. The end of the calendar window is computed before the search. -/
def loadTriggerItems (now : Int) (feed : Feed) (trigger : RuleTrigger) :
    Except PyError (List Item) :=
  match trigger.type with
  | .schedule => .ok [⟨"schedule:" ++ isoformat now, none, "scheduler tick heartbeat"⟩]
  | .gmail =>
    match feed.messages with
    | none => .ok []
    | some reply => reply.map (List.filterMap gmailItem)
  | .calendar =>
    match feed.events with
    | none => .ok []
    | some reply =>
      match addHours now trigger.hoursAhead with
      | .error e => .error e
      | .ok _ => reply.map (List.filterMap calendarItem)

/-- `_parse_iso`. -/
def parseIso (rt : Runtime) (value : Option String) : Option Datetime :=
  (truthy value).bind rt.fromisoformat

/-- Whether `_filter_new_items` keeps the item. -/
def isNew (rt : Runtime) (state : RuleState) (item : Item) : Except PyError Bool :=
  if item.itemId ∈ state.seenIds then .ok false
  else
    match parseIso rt state.lastCursorIso, parseIso rt item.tsIso with
    | some cursor, some itemTs => (itemTs.le cursor).map (! ·)
    | _, _ => .ok true

def filterNewItems (rt : Runtime) (state : RuleState) : List Item → Except PyError (List Item)
  | [] => .ok []
  | item :: rest =>
    match isNew rt state item with
    | .error e => .error e
    | .ok new =>
      match filterNewItems rt state rest with
      | .error e => .error e
      | .ok kept => .ok (if new then item :: kept else kept)

/-- `needle in text`. -/
def occursIn (needle text : String) : Bool :=
  text.toList.tails.any fun tail => needle.toList.isPrefixOf tail

def matchesText (contains notContains : Option String) (text : String) : Bool :=
  (contains.all fun needle => occursIn needle text) &&
    (notContains.all fun needle => !occursIn needle text)

/-- `_matching_items`. -/
def matchingItems (rt : Runtime) (condition : RuleCondition) (items : List Item) : List Item :=
  let contains := truthy ((truthy condition.contains).map rt.casefold)
  let notContains := truthy ((truthy condition.notContains).map rt.casefold)
  items.filter fun item => matchesText contains notContains (rt.casefold item.text)

structure Matches where
  trigger : List Item
  candidates : List Item
  matching : List Item
  notes : List String

/-- `compute_matches`: a degraded service gives no items. -/
def computeMatches (rt : Runtime) (now : Int) (feed : Feed) (rule : Rule) (includeSeen : Bool) :
    Except PyError Matches :=
  match loadTriggerItems now feed rule.trigger with
  | .error (.serviceDegraded service _) => .ok ⟨[], [], [], ["service_degraded:" ++ service]⟩
  | .error e => .error e
  | .ok trigger =>
    match (if includeSeen then .ok trigger else filterNewItems rt rule.state trigger) with
    | .error e => .error e
    | .ok candidates => .ok
      { trigger
        candidates
        matching := matchingItems rt rule.condition candidates
        notes := ["trigger_count=" ++ toString trigger.length,
            "candidate_count=" ++ toString candidates.length] ++
          if includeSeen then ["include_seen=true"] else [] }

/-- What `_update_cursors` carries from item to item. Its set of seen identifiers is
always that of the list. -/
structure Cursors where
  seenIds : List String
  maxDt : Option Datetime
  maxIso : Option String

def Cursors.see (c : Cursors) (itemId : String) : List String :=
  (if itemId ∈ c.seenIds then c.seenIds.filter fun x => x ≠ itemId else c.seenIds) ++ [itemId]

def Cursors.process (rt : Runtime) (c : Cursors) (item : Item) : Except PyError Cursors :=
  let seenIds := c.see item.itemId
  match parseIso rt item.tsIso, c.maxDt with
  | none, _ => .ok { c with seenIds }
  | some itemTs, none => .ok ⟨seenIds, some itemTs, item.tsIso⟩
  | some itemTs, some maxDt =>
    (itemTs.gt maxDt).map fun later =>
      if later then ⟨seenIds, some itemTs, item.tsIso⟩ else { c with seenIds }

def Cursors.processAll (rt : Runtime) (c : Cursors) : List Item → Except PyError Cursors
  | [] => .ok c
  | item :: rest =>
    match c.process rt item with
    | .error e => .error e
    | .ok next => next.processAll rt rest

def lastOf (limit : Nat) (xs : List String) : List String := xs.drop (xs.length - limit)

/-- `_update_cursors`: the new state, or the exception that leaves it as it was. -/
def updateCursors (rt : Runtime) (state : RuleState) (processed : List Item) :
    Except PyError RuleState :=
  if processed = [] then .ok state
  else
    match Cursors.processAll rt
        ⟨state.seenIds, parseIso rt state.lastCursorIso, state.lastCursorIso⟩ processed with
    | .error e => .error e
    | .ok c => .ok
      { state with
        seenIds := lastOf (max 1 state.seenIdsMax).toNat c.seenIds
        lastCursorIso := c.maxIso }

def Later (cursor itemTs : Option Datetime) : Prop :=
  ∀ c, cursor = some c → ∀ t, itemTs = some t → c.ticks < t.ticks

def BothComparable (a b : Option Datetime) : Prop :=
  ∀ x, a = some x → ∀ y, b = some y → x.Comparable y

instance : (a b : Option Datetime) → Decidable (BothComparable a b)
  | some x, some y => decidable_of_iff (x.Comparable y) (by simp [BothComparable])
  | none, _ => isTrue (by simp [BothComparable])
  | some _, none => isTrue (by simp [BothComparable])

section Newness

variable {rt : Runtime} {state : RuleState}

theorem isNew_iff {item : Item} {new : Bool} (h : isNew rt state item = .ok new) :
    new = true ↔ item.itemId ∉ state.seenIds ∧
      Later (parseIso rt state.lastCursorIso) (parseIso rt item.tsIso) := by
  rw [isNew] at h
  rw [Later]
  by_cases hseen : item.itemId ∈ state.seenIds
  · rw [if_pos hseen] at h
    cases h
    simp [hseen]
  · rw [if_neg hseen] at h
    cases hcursor : parseIso rt state.lastCursorIso with
    | none =>
      rw [hcursor] at h
      cases h
      simp [hseen]
    | some cursor =>
      cases hts : parseIso rt item.tsIso with
      | none =>
        rw [hcursor, hts] at h
        cases h
        simp [hseen]
      | some itemTs =>
        rw [hcursor, hts] at h
        dsimp only at h
        by_cases hcomparable : itemTs.Comparable cursor
        · rw [le_of_comparable hcomparable] at h
          cases h
          simp [hseen]
        · rw [le_of_not_comparable hcomparable] at h
          cases h

theorem isNew_comparable {item : Item}
    (h : BothComparable (parseIso rt item.tsIso) (parseIso rt state.lastCursorIso)) :
    ∃ new, isNew rt state item = .ok new := by
  rw [isNew]
  by_cases hseen : item.itemId ∈ state.seenIds
  · exact ⟨false, if_pos hseen⟩
  · rw [if_neg hseen]
    cases hcursor : parseIso rt state.lastCursorIso with
    | none => exact ⟨true, rfl⟩
    | some cursor =>
      cases hts : parseIso rt item.tsIso with
      | none => exact ⟨true, rfl⟩
      | some itemTs =>
        dsimp only
        rw [le_of_comparable (h itemTs hts cursor hcursor)]
        exact ⟨_, rfl⟩

theorem comparable_of_isNew {item : Item} (h : isNew rt state item = .ok true) :
    BothComparable (parseIso rt item.tsIso) (parseIso rt state.lastCursorIso) := by
  intro itemTs hts cursor hcursor
  by_contra hcomparable
  have hunseen : item.itemId ∉ state.seenIds := ((isNew_iff h).mp rfl).1
  rw [isNew, if_neg hunseen, hts, hcursor] at h
  dsimp only at h
  rw [le_of_not_comparable hcomparable] at h
  cases h

theorem mem_filterNewItems {items kept : List Item} (h : filterNewItems rt state items = .ok kept)
    {item : Item} : item ∈ kept ↔ item ∈ items ∧ isNew rt state item = .ok true := by
  induction items generalizing kept with
  | nil =>
    cases h
    simp
  | cons head rest ih =>
    rw [filterNewItems] at h
    cases hhead : isNew rt state head with
    | error e => simp [hhead] at h
    | ok new =>
      cases hrest : filterNewItems rt state rest with
      | error e => simp [hhead, hrest] at h
      | ok kept' =>
        simp only [hhead, hrest, Except.ok.injEq] at h
        have htail := ih hrest
        cases new with
        | true =>
          rw [if_pos rfl] at h
          subst h
          rw [List.mem_cons, List.mem_cons, htail]
          constructor
          · rintro (rfl | ⟨hmem, hnew⟩)
            · exact ⟨Or.inl rfl, hhead⟩
            · exact ⟨Or.inr hmem, hnew⟩
          · rintro ⟨rfl | hmem, hnew⟩
            · exact Or.inl rfl
            · exact Or.inr ⟨hmem, hnew⟩
        | false =>
          rw [if_neg (by simp)] at h
          subst h
          rw [htail, List.mem_cons]
          constructor
          · rintro ⟨hmem, hnew⟩
            exact ⟨Or.inr hmem, hnew⟩
          · rintro ⟨rfl | hmem, hnew⟩
            · rw [hhead] at hnew
              cases hnew
            · exact ⟨hmem, hnew⟩

theorem filterNewItems_ok {items kept : List Item} (h : filterNewItems rt state items = .ok kept) :
    ∀ item ∈ items, ∃ new, isNew rt state item = .ok new := by
  induction items generalizing kept with
  | nil => simp
  | cons head rest ih =>
    rw [filterNewItems] at h
    cases hhead : isNew rt state head with
    | error e => simp [hhead] at h
    | ok new =>
      cases hrest : filterNewItems rt state rest with
      | error e => simp [hhead, hrest] at h
      | ok kept' =>
        intro item hitem
        rcases List.mem_cons.mp hitem with rfl | hitem
        · exact ⟨new, hhead⟩
        · exact ih hrest item hitem

theorem filterNewItems_total {items : List Item} (h : ∀ item ∈ items,
      ∃ new, isNew rt state item = .ok new) :
    ∃ kept, filterNewItems rt state items = .ok kept := by
  induction items with
  | nil => exact ⟨[], rfl⟩
  | cons head rest ih =>
    obtain ⟨new, hnew⟩ := h head List.mem_cons_self
    obtain ⟨kept, hkept⟩ := ih fun item hmem => h item (List.mem_cons_of_mem _ hmem)
    exact ⟨if new then head :: kept else kept, by rw [filterNewItems, hnew, hkept]⟩

theorem matching_subset {condition : RuleCondition} {items : List Item} {item : Item}
    (h : item ∈ matchingItems rt condition items) : item ∈ items :=
  List.mem_of_mem_filter h

end Newness

theorem mem_see {c : Cursors} {itemId x : String} :
    x ∈ c.see itemId ↔ x ∈ c.seenIds ∨ x = itemId := by
  rw [Cursors.see]
  by_cases hseen : itemId ∈ c.seenIds
  · by_cases hx : x = itemId <;> simp [hseen, hx]
  · simp [hseen]

/-- The newest of the seen identifiers are distinct ones of `ids`, those of `kept` among
them. -/
def Recent (ids kept seenIds : List String) : Prop :=
  ∃ newest, newest <:+ seenIds ∧ newest.Nodup ∧ newest ⊆ ids ∧ kept ⊆ newest

theorem Recent.seen {ids kept seenIds : List String} (h : Recent ids kept seenIds) :
    kept ⊆ seenIds := by
  obtain ⟨newest, hsuffix, _, _, hkept⟩ := h
  exact List.Subset.trans hkept hsuffix.subset

theorem see_eq (c : Cursors) (itemId : String) :
    c.see itemId = (c.seenIds.filter fun x => x ≠ itemId) ++ [itemId] := by
  rw [Cursors.see]
  by_cases hseen : itemId ∈ c.seenIds
  · rw [if_pos hseen]
  · have hall : (c.seenIds.filter fun x => x ≠ itemId) = c.seenIds := by
      rw [List.filter_eq_self]
      intro x hx
      have hne : x ≠ itemId := fun heq => hseen (heq ▸ hx)
      simpa using hne
    rw [if_neg hseen, hall]

theorem Recent.see {ids kept : List String} {c : Cursors} {itemId : String}
    (h : Recent ids kept c.seenIds) (hid : itemId ∈ ids) :
    Recent ids (itemId :: kept) (c.see itemId) := by
  obtain ⟨newest, ⟨older, hsplit⟩, hnodup, hids, hkept⟩ := h
  refine ⟨(newest.filter fun x => x ≠ itemId) ++ [itemId], ?_, ?_, ?_, ?_⟩
  · refine ⟨older.filter fun x => x ≠ itemId, ?_⟩
    rw [see_eq, ← hsplit, List.filter_append, List.append_assoc]
  · refine List.Nodup.append (hnodup.filter _) (List.nodup_singleton _) ?_
    simp [List.disjoint_singleton]
  · intro x hx
    rcases List.mem_append.mp hx with hx | hx
    · exact hids (List.mem_of_mem_filter hx)
    · rw [List.mem_singleton.mp hx]
      exact hid
  · intro x hx
    by_cases heq : x = itemId
    · simp [heq]
    · have hkeptx : x ∈ kept := (List.mem_cons.mp hx).resolve_left heq
      simpa [heq] using hkept hkeptx

/-- Items move the time of the cursor to the latest of their times and its own. -/
structure Moved (rt : Runtime) (items : List Item) (cursor cursor' : Option Datetime) : Prop where
  reached : ∀ t, cursor' = some t →
    cursor = some t ∨ ∃ item ∈ items, parseIso rt item.tsIso = some t
  covers : ∀ t, (cursor = some t ∨ ∃ item ∈ items, parseIso rt item.tsIso = some t) →
    ∃ last, cursor' = some last ∧ t.Comparable last ∧ t.ticks ≤ last.ticks

theorem Moved.refl (rt : Runtime) (cursor : Option Datetime) : Moved rt [] cursor cursor := by
  refine ⟨fun t ht => Or.inl ht, ?_⟩
  rintro t (ht | ⟨i, hi, _⟩)
  · exact ⟨t, ht, comparable_refl t, le_refl _⟩
  · cases hi

theorem Moved.append {rt : Runtime} {xs ys : List Item} {c c₁ c₂ : Option Datetime}
    (h : Moved rt xs c c₁) (h' : Moved rt ys c₁ c₂) : Moved rt (xs ++ ys) c c₂ := by
  constructor
  · intro t ht
    rcases h'.reached t ht with ht | ⟨i, hi, hit⟩
    · rcases h.reached t ht with ht | ⟨i, hi, hit⟩
      · exact Or.inl ht
      · exact Or.inr ⟨i, List.mem_append_left _ hi, hit⟩
    · exact Or.inr ⟨i, List.mem_append_right _ hi, hit⟩
  · have hfirst : ∀ t, (c = some t ∨ ∃ item ∈ xs, parseIso rt item.tsIso = some t) →
        ∃ last, c₂ = some last ∧ t.Comparable last ∧ t.ticks ≤ last.ticks := by
      intro t ht
      obtain ⟨middle, hmiddle, hcomparable, hle⟩ := h.covers t ht
      obtain ⟨last, hlast, hcomparable', hle'⟩ := h'.covers middle (Or.inl hmiddle)
      exact ⟨last, hlast, comparable_trans hcomparable hcomparable', by omega⟩
    rintro t (ht | ⟨i, hi, hit⟩)
    · exact hfirst t (Or.inl ht)
    · rcases List.mem_append.mp hi with hi | hi
      · exact hfirst t (Or.inr ⟨i, hi, hit⟩)
      · exact h'.covers t (Or.inr ⟨i, hi, hit⟩)

/-- A time is past the moved cursor when it is past the cursor and all the items. -/
theorem Moved.later_iff {rt : Runtime} {items : List Item} {cursor cursor' : Option Datetime}
    (h : Moved rt items cursor cursor') (itemTs : Option Datetime) :
    Later cursor' itemTs ↔
      Later cursor itemTs ∧ ∀ item ∈ items, Later (parseIso rt item.tsIso) itemTs := by
  constructor
  · intro hlater
    have hpast : ∀ t, (cursor = some t ∨ ∃ item ∈ items, parseIso rt item.tsIso = some t) →
        ∀ s, itemTs = some s → t.ticks < s.ticks := by
      intro t ht s hs
      obtain ⟨last, hlast, _, hle⟩ := h.covers t ht
      have hlt := hlater last hlast s hs
      omega
    exact ⟨fun t ht => hpast t (Or.inl ht),
      fun item hitem t ht => hpast t (Or.inr ⟨item, hitem, ht⟩)⟩
  · rintro ⟨hcursor, hitems⟩ t ht
    rcases h.reached t ht with ht | ⟨item, hitem, ht⟩
    · exact hcursor t ht
    · exact hitems item hitem t ht

structure Advanced (rt : Runtime) (items : List Item) (c c' : Cursors) : Prop where
  within : ∀ x ∈ c'.seenIds, x ∈ c.seenIds ∨ ∃ item ∈ items, item.itemId = x
  recent : ∀ ids kept, (∀ item ∈ items, item.itemId ∈ ids) → Recent ids kept c.seenIds →
    ∃ kept', Recent ids kept' c'.seenIds ∧ kept ⊆ kept' ∧ ∀ item ∈ items, item.itemId ∈ kept'
  parsed : parseIso rt c.maxIso = c.maxDt → parseIso rt c'.maxIso = c'.maxDt
  moved : Moved rt items c.maxDt c'.maxDt

theorem process_advanced {rt : Runtime} {c c' : Cursors} {item : Item}
    (h : c.process rt item = .ok c') : Advanced rt [item] c c' := by
  have hwithin : ∀ x ∈ c.see item.itemId, x ∈ c.seenIds ∨ ∃ i ∈ [item], i.itemId = x := by
    intro x hx
    refine (mem_see.mp hx).imp_right ?_
    rintro rfl
    exact ⟨item, List.mem_cons_self, rfl⟩
  have hrecent : ∀ ids kept, (∀ i ∈ [item], i.itemId ∈ ids) → Recent ids kept c.seenIds →
      ∃ kept', Recent ids kept' (c.see item.itemId) ∧ kept ⊆ kept' ∧
        ∀ i ∈ [item], i.itemId ∈ kept' := by
    intro ids kept hids h
    refine ⟨item.itemId :: kept, h.see (hids item List.mem_cons_self),
        List.subset_cons_self _ _, ?_⟩
    intro i hi
    rw [List.mem_singleton.mp hi]
    exact List.mem_cons_self
  rw [Cursors.process] at h
  cases hts : parseIso rt item.tsIso with
  | none =>
    simp only [hts] at h
    cases h
    refine ⟨hwithin, hrecent, id, fun t ht => Or.inl ht, ?_⟩
    rintro t (ht | ⟨i, hi, hit⟩)
    · exact ⟨t, ht, comparable_refl t, le_refl _⟩
    · cases List.mem_singleton.mp hi
      cases hts.symm.trans hit
  | some itemTs =>
    cases hmax : c.maxDt with
    | none =>
      simp only [hts, hmax] at h
      cases h
      refine ⟨hwithin, hrecent, fun _ => hts, ?_, ?_⟩
      · rintro t ⟨⟩
        exact Or.inr ⟨item, List.mem_cons_self, hts⟩
      · rintro t (ht | ⟨i, hi, hit⟩)
        · cases hmax.symm.trans ht
        · cases List.mem_singleton.mp hi
          cases hts.symm.trans hit
          exact ⟨itemTs, rfl, comparable_refl _, le_refl _⟩
    | some maxDt =>
      simp only [hts, hmax] at h
      by_cases hcomparable : itemTs.Comparable maxDt
      · rw [gt_of_comparable hcomparable] at h
        by_cases hlater : maxDt.ticks < itemTs.ticks
        · simp only [hlater, decide_true, Except.map, if_true] at h
          cases h
          refine ⟨hwithin, hrecent, fun _ => hts, ?_, ?_⟩
          · rintro t ⟨⟩
            exact Or.inr ⟨item, List.mem_cons_self, hts⟩
          · rintro t (ht | ⟨i, hi, hit⟩)
            · cases hmax.symm.trans ht
              exact ⟨itemTs, rfl, comparable_symm hcomparable, by omega⟩
            · cases List.mem_singleton.mp hi
              cases hts.symm.trans hit
              exact ⟨itemTs, rfl, comparable_refl _, le_refl _⟩
        · simp only [hlater, decide_false, Except.map, Bool.false_eq_true, if_false] at h
          cases h
          refine ⟨hwithin, hrecent, fun hparsed => hparsed.trans hmax,
            fun t ht => Or.inl (hmax.trans ht), ?_⟩
          rintro t (ht | ⟨i, hi, hit⟩)
          · exact ⟨t, hmax.symm.trans ht, comparable_refl t, le_refl _⟩
          · cases List.mem_singleton.mp hi
            cases hts.symm.trans hit
            exact ⟨maxDt, rfl, hcomparable, by omega⟩
      · rw [gt_of_not_comparable hcomparable] at h
        cases h

theorem Advanced.refl (rt : Runtime) (c : Cursors) : Advanced rt [] c c :=
  ⟨fun _ hx => Or.inl hx, fun _ kept _ h => ⟨kept, h, List.Subset.refl _, by simp⟩, id,
    Moved.refl rt c.maxDt⟩

theorem Advanced.append {rt : Runtime} {xs ys : List Item} {c c₁ c₂ : Cursors}
    (h : Advanced rt xs c c₁) (h' : Advanced rt ys c₁ c₂) : Advanced rt (xs ++ ys) c c₂ := by
  refine ⟨?_, ?_, fun hparsed => h'.parsed (h.parsed hparsed), h.moved.append h'.moved⟩
  · intro x hx
    rcases h'.within x hx with hx | ⟨i, hi, hid⟩
    · rcases h.within x hx with hx | ⟨i, hi, hid⟩
      · exact Or.inl hx
      · exact Or.inr ⟨i, List.mem_append_left _ hi, hid⟩
    · exact Or.inr ⟨i, List.mem_append_right _ hi, hid⟩
  · intro ids kept hids hkept
    obtain ⟨kept₁, hkept₁, hsub, hxs⟩ := h.recent ids kept
      (fun i hi => hids i (List.mem_append_left _ hi)) hkept
    obtain ⟨kept₂, hkept₂, hsub', hys⟩ := h'.recent ids kept₁
      (fun i hi => hids i (List.mem_append_right _ hi)) hkept₁
    refine ⟨kept₂, hkept₂, List.Subset.trans hsub hsub', ?_⟩
    intro i hi
    rcases List.mem_append.mp hi with hi | hi
    · exact hsub' (hxs i hi)
    · exact hys i hi

theorem processAll_advanced {rt : Runtime} {items : List Item} {c c' : Cursors}
    (h : c.processAll rt items = .ok c') : Advanced rt items c c' := by
  induction items generalizing c with
  | nil =>
    cases h
    exact Advanced.refl rt c'
  | cons item rest ih =>
    rw [Cursors.processAll] at h
    cases hitem : c.process rt item with
    | error e => simp [hitem] at h
    | ok next =>
      simp only [hitem] at h
      exact (process_advanced hitem).append (ih h)

theorem process_total {rt : Runtime} {c : Cursors} {item : Item}
    (h : BothComparable (parseIso rt item.tsIso) c.maxDt) : ∃ c', c.process rt item = .ok c' := by
  rw [Cursors.process]
  cases hts : parseIso rt item.tsIso with
  | none => exact ⟨_, rfl⟩
  | some itemTs =>
    cases hmax : c.maxDt with
    | none => exact ⟨_, rfl⟩
    | some maxDt =>
      dsimp only
      rw [gt_of_comparable (h itemTs hts maxDt hmax)]
      exact ⟨_, rfl⟩

theorem processAll_total {rt : Runtime} {items : List Item} {c : Cursors}
    (hcursor : ∀ i ∈ items, BothComparable (parseIso rt i.tsIso) c.maxDt)
    (hitems : ∀ i ∈ items, ∀ j ∈ items,
      BothComparable (parseIso rt i.tsIso) (parseIso rt j.tsIso)) :
    ∃ c', c.processAll rt items = .ok c' := by
  induction items generalizing c with
  | nil => exact ⟨c, rfl⟩
  | cons item rest ih =>
    obtain ⟨next, hnext⟩ := process_total (hcursor item List.mem_cons_self)
    have hadvanced := process_advanced hnext
    obtain ⟨c', hc'⟩ := ih (c := next)
      (by
        intro i hi t ht last hlast
        rcases hadvanced.moved.reached last hlast with hold | ⟨j, hj, hjt⟩
        · exact hcursor i (List.mem_cons_of_mem _ hi) t ht last hold
        · cases List.mem_singleton.mp hj
          exact hitems i (List.mem_cons_of_mem _ hi) item List.mem_cons_self t ht last hjt)
      (fun i hi j hj => hitems i (List.mem_cons_of_mem _ hi) j (List.mem_cons_of_mem _ hj))
    exact ⟨c', by rw [Cursors.processAll, hnext]; exact hc'⟩

/-- The items have all been remembered, and nothing else has changed but the cursors. -/
structure Remembered (rt : Runtime) (items : List Item) (state state' : RuleState) : Prop where
  limit : state'.seenIdsMax = state.seenIdsMax
  cooldown : state'.cooldownUntilIso = state.cooldownUntilIso
  recent : ∀ ids kept, (∀ item ∈ items, item.itemId ∈ ids) →
    ids.length ≤ (max 1 state.seenIdsMax).toNat → Recent ids kept state.seenIds →
    ∃ kept', Recent ids kept' state'.seenIds ∧ kept ⊆ kept' ∧ ∀ item ∈ items, item.itemId ∈ kept'
  within : ∀ x ∈ state'.seenIds, x ∈ state.seenIds ∨ ∃ item ∈ items, item.itemId = x
  moved : Moved rt items (parseIso rt state.lastCursorIso) (parseIso rt state'.lastCursorIso)

/-- The list keeps its newest identifiers when no more than its limit of them are distinct. -/
theorem Recent.lastOf {ids kept seenIds : List String} {limit : Nat}
    (h : Recent ids kept seenIds) (hlimit : ids.length ≤ limit) :
    Recent ids kept (lastOf limit seenIds) := by
  obtain ⟨newest, hsuffix, hnodup, hids, hkept⟩ := h
  refine ⟨newest, ?_, hnodup, hids, hkept⟩
  have hlength : newest.length ≤ ids.length := (List.subperm_of_subset hnodup hids).length_le
  have hdropped : (RuleMatching.lastOf limit seenIds).length = min limit seenIds.length := by
    rw [RuleMatching.lastOf, List.length_drop]
    omega
  have hshorter : newest.length ≤ seenIds.length := hsuffix.length_le
  refine List.suffix_of_suffix_length_le hsuffix (List.drop_suffix _ _) ?_
  omega

/-- Without items the state stays; with items it is that of the cursors after all of them. -/
theorem updateCursors_ok {rt : Runtime} {state state' : RuleState} {items : List Item}
    (h : updateCursors rt state items = .ok state') :
    (items = [] ∧ state' = state) ∨
      (items ≠ [] ∧ ∃ c, Cursors.processAll rt
          ⟨state.seenIds, parseIso rt state.lastCursorIso, state.lastCursorIso⟩ items = .ok c ∧
        state' = { state with
          seenIds := lastOf (max 1 state.seenIdsMax).toNat c.seenIds
          lastCursorIso := c.maxIso }) := by
  rw [updateCursors] at h
  by_cases hempty : items = []
  · rw [if_pos hempty] at h
    cases h
    exact .inl ⟨hempty, rfl⟩
  · rw [if_neg hempty] at h
    cases hall : Cursors.processAll rt
        ⟨state.seenIds, parseIso rt state.lastCursorIso, state.lastCursorIso⟩ items with
    | error e => simp [hall] at h
    | ok c =>
      simp only [hall, Except.ok.injEq] at h
      exact .inr ⟨hempty, c, rfl, h.symm⟩

theorem updateCursors_remembers {rt : Runtime} {state state' : RuleState} {items : List Item}
    (h : updateCursors rt state items = .ok state') : Remembered rt items state state' := by
  rcases updateCursors_ok h with ⟨rfl, rfl⟩ | ⟨-, c, hall, rfl⟩
  · exact ⟨rfl, rfl, fun _ kept _ _ h => ⟨kept, h, List.Subset.refl _, by simp⟩,
      fun x hx => Or.inl hx, Moved.refl rt _⟩
  · have hadvanced := processAll_advanced hall
    have hparsed : parseIso rt c.maxIso = c.maxDt := hadvanced.parsed rfl
    refine ⟨rfl, rfl, ?_, ?_, ?_⟩
    · intro ids kept hids hlimit hkept
      obtain ⟨kept', hkept', hsub, hall⟩ := hadvanced.recent ids kept hids hkept
      exact ⟨kept', hkept'.lastOf hlimit, hsub, hall⟩
    · intro x hx
      exact hadvanced.within x (List.mem_of_mem_drop hx)
    · rw [hparsed]
      exact hadvanced.moved

structure SameCursors (state state' : RuleState) : Prop where
  seenIds : state'.seenIds = state.seenIds
  lastCursorIso : state'.lastCursorIso = state.lastCursorIso
  seenIdsMax : state'.seenIdsMax = state.seenIdsMax

theorem SameCursors.refl (state : RuleState) : SameCursors state state := ⟨rfl, rfl, rfl⟩

theorem SameCursors.trans {s₁ s₂ s₃ : RuleState} (h : SameCursors s₁ s₂) (h' : SameCursors s₂ s₃) :
    SameCursors s₁ s₃ :=
  ⟨h'.seenIds.trans h.seenIds, h'.lastCursorIso.trans h.lastCursorIso,
    h'.seenIdsMax.trans h.seenIdsMax⟩

theorem filterNewItems_congr {rt : Runtime} {state state' : RuleState}
    (h : SameCursors state state') (items : List Item) :
    filterNewItems rt state' items = filterNewItems rt state items := by
  have hnew : ∀ item, isNew rt state' item = isNew rt state item := fun item => by
    rw [isNew, h.seenIds, h.lastCursorIso, isNew]
  induction items with
  | nil => rfl
  | cons item rest ih => rw [filterNewItems, hnew, ih, filterNewItems]

theorem updateCursors_error_congr {rt : Runtime} {state state' : RuleState}
    (h : SameCursors state state') {items : List Item} {e : PyError}
    (he : updateCursors rt state' items = .error e) : updateCursors rt state items = .error e := by
  rw [updateCursors] at he ⊢
  by_cases hempty : items = []
  · rw [if_pos hempty] at he
    cases he
  · rw [if_neg hempty] at he ⊢
    rw [h.seenIds, h.lastCursorIso] at he
    cases hall : Cursors.processAll rt
        ⟨state.seenIds, parseIso rt state.lastCursorIso, state.lastCursorIso⟩ items with
    | error e' =>
      rw [hall] at he
      cases he
      rfl
    | ok c =>
      rw [hall] at he
      cases he

theorem updateCursors_total {rt : Runtime} {state : RuleState} {items : List Item}
    (hcursor : ∀ i ∈ items, BothComparable (parseIso rt i.tsIso) (parseIso rt state.lastCursorIso))
    (hitems : ∀ i ∈ items, ∀ j ∈ items,
      BothComparable (parseIso rt i.tsIso) (parseIso rt j.tsIso)) :
    ∃ state', updateCursors rt state items = .ok state' := by
  rw [updateCursors]
  by_cases hempty : items = []
  · exact ⟨state, if_pos hempty⟩
  · rw [if_neg hempty]
    obtain ⟨c, hc⟩ := processAll_total (c := ⟨state.seenIds, parseIso rt state.lastCursorIso,
      state.lastCursorIso⟩) hcursor hitems
    exact ⟨_, by rw [hc]⟩

/-- `str.replace` with a nonempty key; the counter passes over what a match has consumed. -/
def replaceChars (key value : List Char) : Nat → List Char → List Char
  | _, [] => []
  | skip + 1, _ :: rest => replaceChars key value skip rest
  | 0, c :: rest =>
    if key.isPrefixOf (c :: rest) then value ++ replaceChars key value (key.length - 1) rest
    else c :: replaceChars key value 0 rest

def replaceAll (text key value : String) : String :=
  String.ofList (replaceChars key.toList value.toList 0 text.toList)

/-- `_render_notify`. Each replacement is made in the text that the one before it left. -/
def renderNotify (template : String) (count : Nat) (matching : List Item) (nowIso : String) :
    String :=
  let topTexts := matching.map fun item => String.ofList (item.text.toList.take 280)
  let replacements := [
    ("{{count}}", toString count),
    ("{{top1}}", topTexts.head?.getD ""),
    ("{{top2}}", topTexts.tail.head?.getD ""),
    ("{{now_iso}}", nowIso)]
  replacements.foldl (fun rendered kv => replaceAll rendered kv.1 kv.2) template

example : renderNotify "{{count}} new: {{top1}}" 1 [⟨"m", none, "hi"⟩] "now" =
    "1 new: hi" := by decide

end RuleMatching
