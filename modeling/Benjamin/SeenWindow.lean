import Benjamin.RuleMatching
import Benjamin.AssistantState
import Mathlib.Data.List.Dedup

/-!
# The cursor and the window of seen identifiers

What `_update_cursors` leaves in the state of a rule: the identifiers in the order in
which they were last processed, cut to the newest ones, and the latest timestamp. What
`_filter_new_items` makes of the same items next.
-/
namespace SeenWindow

open PyBase RuleSchemas RuleMatching

section Recency

variable {α : Type*} [DecidableEq α]

theorem dedup_concat (xs : List α) (a : α) :
    (xs ++ [a]).dedup = (xs.dedup.filter fun x => x ≠ a) ++ [a] := by
  induction xs with
  | nil => rfl
  | cons x xs ih =>
    rw [List.cons_append]
    by_cases hx : x ∈ xs
    · rw [List.dedup_cons_of_mem (List.mem_append_left _ hx), ih, List.dedup_cons_of_mem hx]
    · rw [List.dedup_cons_of_notMem hx]
      by_cases ha : x = a
      · subst ha
        rw [List.dedup_cons_of_mem (List.mem_append_right _ List.mem_cons_self), ih,
          List.filter_cons_of_neg (by simp)]
      · have hnew : x ∉ xs ++ [a] := by simp [hx, ha]
        rw [List.dedup_cons_of_notMem hnew, ih, List.filter_cons_of_pos (by simpa using ha),
          List.cons_append]

theorem dedup_suffix_append (xs ys : List α) : ys.dedup <:+ (xs ++ ys).dedup := by
  rw [List.dedup_append]
  exact List.suffix_union_right xs ys.dedup

end Recency

def processingOrder (state : RuleState) (items : List Item) : List String :=
  (state.seenIds ++ items.map Item.itemId).dedup

variable {rt : Runtime}

theorem process_seenIds {c c' : Cursors} {item : Item} (h : c.process rt item = .ok c') :
    c'.seenIds = c.see item.itemId := by
  rw [Cursors.process] at h
  split at h
  · cases h
    rfl
  · cases h
    rfl
  · rename_i itemTs maxDt _ _
    cases hlater : itemTs.gt maxDt with
    | error e =>
      rw [hlater] at h
      cases h
    | ok later =>
      rw [hlater] at h
      cases h
      cases later <;> rfl

theorem process_maxIso {c c' : Cursors} {item : Item} (h : c.process rt item = .ok c') :
    c'.maxIso = c.maxIso ∨ c'.maxIso = item.tsIso := by
  rw [Cursors.process] at h
  split at h
  · cases h
    exact Or.inl rfl
  · cases h
    exact Or.inr rfl
  · rename_i itemTs maxDt _ _
    cases hlater : itemTs.gt maxDt with
    | error e =>
      rw [hlater] at h
      cases h
    | ok later =>
      rw [hlater] at h
      cases h
      cases later
      · exact Or.inl rfl
      · exact Or.inr rfl

/-- Along the items the list stays that of the last occurrences. -/
theorem processAll_seenIds {items : List Item} {c c' : Cursors} {history : List String}
    (h : c.processAll rt items = .ok c') (hseen : c.seenIds = history.dedup) :
    c'.seenIds = (history ++ items.map Item.itemId).dedup := by
  induction items generalizing c history with
  | nil =>
    cases h
    rw [hseen, List.map_nil, List.append_nil]
  | cons item rest ih =>
    rw [Cursors.processAll] at h
    cases hitem : c.process rt item with
    | error e => simp [hitem] at h
    | ok next =>
      simp only [hitem] at h
      have hnext : next.seenIds = (history ++ [item.itemId]).dedup := by
        rw [process_seenIds hitem, see_eq, hseen, dedup_concat]
      rw [ih h hnext, List.append_assoc, List.singleton_append, List.map_cons]

theorem processAll_maxIso {items : List Item} {c c' : Cursors}
    (h : c.processAll rt items = .ok c') :
    c'.maxIso = c.maxIso ∨ ∃ item ∈ items, c'.maxIso = item.tsIso := by
  induction items generalizing c with
  | nil =>
    cases h
    exact Or.inl rfl
  | cons item rest ih =>
    rw [Cursors.processAll] at h
    cases hitem : c.process rt item with
    | error e => simp [hitem] at h
    | ok next =>
      simp only [hitem] at h
      rcases ih h with hkept | ⟨other, hother, htext⟩
      · rcases process_maxIso hitem with hold | hnew
        · exact Or.inl (hkept.trans hold)
        · exact Or.inr ⟨item, List.mem_cons_self, hkept.trans hnew⟩
      · exact Or.inr ⟨other, List.mem_cons_of_mem _ hother, htext⟩

def limit (state : RuleState) : Nat := (max 1 state.seenIdsMax).toNat

/-- The times of the cursor and of the items, where they parse, carry an offset. -/
structure Aware (rt : Runtime) (state : RuleState) (items : List Item) : Prop where
  cursor : ∀ t, parseIso rt state.lastCursorIso = some t → ∃ utc, t = .aware utc
  items : ∀ item ∈ items, ∀ t, parseIso rt item.tsIso = some t → ∃ utc, t = .aware utc

def Reached (rt : Runtime) (state : RuleState) (t : Int) : Prop :=
  ∃ last, parseIso rt state.lastCursorIso = some (.aware last) ∧ t ≤ last

/-- What `_update_cursors` leaves in the state. -/
structure Updated (rt : Runtime) (state state' : RuleState) (items : List Item) : Prop where
  distinct : state'.seenIds.Nodup
  idle : items = [] → state' = state
  window : items ≠ [] → state'.seenIds <:+ processingOrder state items ∧
    state'.seenIds.length = min (limit state) (processingOrder state items).length
  fromText : state'.lastCursorIso = state.lastCursorIso ∨
    ∃ item ∈ items, state'.lastCursorIso = item.tsIso
  forward : ∀ t, parseIso rt state.lastCursorIso = some (.aware t) → Reached rt state' t
  covers : ∀ item ∈ items, ∀ t, parseIso rt item.tsIso = some (.aware t) → Reached rt state' t

/-- What `_filter_new_items` then keeps of the items. -/
structure Refiltered (rt : Runtime) (state' : RuleState) (items kept : List Item) : Prop where
  timeless : ∀ item, item ∈ kept ↔
    item ∈ items ∧ parseIso rt item.tsIso = none ∧ item.itemId ∉ state'.seenIds
  fitting : (items.map Item.itemId).dedup.length ≤ limit state' → kept = []

section Update

variable {state state' : RuleState} {items : List Item}

theorem Aware.comparable (h : Aware rt state items) :
    (∀ i ∈ items, BothComparable (parseIso rt i.tsIso) (parseIso rt state.lastCursorIso)) ∧
      ∀ i ∈ items, ∀ j ∈ items, BothComparable (parseIso rt i.tsIso) (parseIso rt j.tsIso) := by
  constructor
  · intro i hi x hx y hy
    obtain ⟨utc, rfl⟩ := h.items i hi x hx
    obtain ⟨last, rfl⟩ := h.cursor y hy
    trivial
  · intro i hi j hj x hx y hy
    obtain ⟨utc, rfl⟩ := h.items i hi x hx
    obtain ⟨other, rfl⟩ := h.items j hj y hy
    trivial

theorem reached_of_covers {t : Int} {cursor : Option Datetime}
    (h : ∃ last, cursor = some last ∧ (Datetime.aware t).Comparable last ∧
      (Datetime.aware t).ticks ≤ last.ticks) :
    ∃ last, cursor = some (.aware last) ∧ t ≤ last := by
  obtain ⟨last, hlast, hcomparable, hle⟩ := h
  cases last with
  | naive wall => exact hcomparable.elim
  | aware utc => exact ⟨utc, hlast, hle⟩

theorem lastOf_window (size : Nat) (xs : List String) :
    lastOf size xs <:+ xs ∧ (lastOf size xs).length = min size xs.length := by
  refine ⟨List.drop_suffix _ _, ?_⟩
  rw [lastOf, List.length_drop]
  omega

theorem updateCursors_updated (hnodup : state.seenIds.Nodup)
    (h : updateCursors rt state items = .ok state') : Updated rt state state' items := by
  have hremembered := updateCursors_remembers h
  have hforward : ∀ t, parseIso rt state.lastCursorIso = some (.aware t) → Reached rt state' t :=
    fun t ht => reached_of_covers (hremembered.moved.covers _ (Or.inl ht))
  have hcovers : ∀ item ∈ items, ∀ t, parseIso rt item.tsIso = some (.aware t) →
      Reached rt state' t :=
    fun item hitem t ht =>
      reached_of_covers (hremembered.moved.covers _ (Or.inr ⟨item, hitem, ht⟩))
  rcases updateCursors_ok h with ⟨hempty, rfl⟩ | ⟨hne, c, hall, rfl⟩
  · exact ⟨hnodup, fun _ => rfl, fun hne => absurd hempty hne, Or.inl rfl, hforward, hcovers⟩
  · have horder : c.seenIds = processingOrder state items :=
      processAll_seenIds hall (List.dedup_eq_self.mpr hnodup).symm
    have hwindow := lastOf_window (limit state) (processingOrder state items)
    rw [← horder] at hwindow
    refine ⟨?_, fun heq => absurd heq hne, fun _ => ?_, processAll_maxIso hall, hforward,
      hcovers⟩
    · refine List.Nodup.sublist hwindow.1.sublist ?_
      rw [horder]
      exact List.nodup_dedup _
    · rw [← horder]
      exact hwindow

theorem Aware.comparable_after (h : Aware rt state items)
    (hmoved : Moved rt items (parseIso rt state.lastCursorIso) (parseIso rt state'.lastCursorIso))
    {item : Item} (hitem : item ∈ items) :
    BothComparable (parseIso rt item.tsIso) (parseIso rt state'.lastCursorIso) := by
  intro itemTs hts last hlast
  rcases hmoved.reached last hlast with hold | ⟨other, hother, hsame⟩
  · exact h.comparable.1 item hitem itemTs hts last hold
  · exact h.comparable.2 item hitem other hother itemTs hts last hsame

theorem later_iff_timeless (h : Aware rt state items) (hupdated : Updated rt state state' items)
    {item : Item} (hitem : item ∈ items) :
    Later (parseIso rt state'.lastCursorIso) (parseIso rt item.tsIso) ↔
      parseIso rt item.tsIso = none := by
  constructor
  · intro hlater
    by_contra htimed
    obtain ⟨itemTs, hts⟩ := Option.ne_none_iff_exists'.mp htimed
    obtain ⟨utc, rfl⟩ := h.items item hitem itemTs hts
    obtain ⟨last, hlast, hle⟩ := hupdated.covers item hitem utc hts
    have hlt : last < utc := hlater _ hlast _ hts
    omega
  · intro htimeless cursor _ itemTs hts
    cases htimeless.symm.trans hts

/-- When the processed identifiers fit in the window they are all there. -/
theorem mem_window (hupdated : Updated rt state state' items)
    (hfits : (items.map Item.itemId).dedup.length ≤ limit state) {item : Item}
    (hitem : item ∈ items) : item.itemId ∈ state'.seenIds := by
  have hne : items ≠ [] := List.ne_nil_of_mem hitem
  obtain ⟨hsuffix, hlength⟩ := hupdated.window hne
  have hprocessed : (items.map Item.itemId).dedup <:+ processingOrder state items :=
    dedup_suffix_append _ _
  have hle := hprocessed.length_le
  have hwithin : (items.map Item.itemId).dedup <:+ state'.seenIds :=
    List.suffix_of_suffix_length_le hprocessed hsuffix (by omega)
  exact hwithin.subset (List.mem_dedup.mpr (List.mem_map_of_mem hitem))

theorem filterNewItems_after (h : Aware rt state items) (hnodup : state.seenIds.Nodup)
    (hupdate : updateCursors rt state items = .ok state') :
    ∃ kept, filterNewItems rt state' items = .ok kept ∧ Refiltered rt state' items kept := by
  have hupdated := updateCursors_updated hnodup hupdate
  have hremembered := updateCursors_remembers hupdate
  have htotal : ∀ item ∈ items, ∃ new, isNew rt state' item = .ok new :=
    fun item hitem => isNew_comparable (h.comparable_after hremembered.moved hitem)
  obtain ⟨kept, hkept⟩ := filterNewItems_total htotal
  have htimeless : ∀ item, item ∈ kept ↔
      item ∈ items ∧ parseIso rt item.tsIso = none ∧ item.itemId ∉ state'.seenIds := by
    intro item
    rw [mem_filterNewItems hkept]
    refine and_congr_right fun hitem => ?_
    obtain ⟨new, hnew⟩ := htotal item hitem
    have hiff := isNew_iff hnew
    rw [later_iff_timeless h hupdated hitem] at hiff
    rw [hnew, Except.ok.injEq, hiff, and_comm]
  refine ⟨kept, hkept, htimeless, ?_⟩
  intro hfits
  have hlimit : limit state' = limit state := by rw [limit, hremembered.limit, limit]
  rw [hlimit] at hfits
  refine List.eq_nil_iff_forall_not_mem.mpr ?_
  intro item hitem
  obtain ⟨hmem, -, hunseen⟩ := (htimeless item).mp hitem
  exact hunseen (mem_window hupdated hfits hmem)

end Update

/-- With aware times and distinct seen identifiers an update succeeds, keeps the newest
identifiers and the latest time, and leaves new only what has no time and fell out. -/
theorem update_then_filter (rt : Runtime) (state : RuleState) (items : List Item)
    (hnodup : state.seenIds.Nodup) (haware : Aware rt state items) :
    ∃ state', updateCursors rt state items = .ok state' ∧ Updated rt state state' items ∧
      ∃ kept, filterNewItems rt state' items = .ok kept ∧ Refiltered rt state' items kept := by
  obtain ⟨state', hupdate⟩ := updateCursors_total haware.comparable.1 haware.comparable.2
  exact ⟨state', hupdate, updateCursors_updated hnodup hupdate,
    filterNewItems_after haware hnodup hupdate⟩

def crowded : RuleState := { RuleState.initial with seenIds := ["a", "b"], seenIdsMax := 1 }

def seenRuntime : Runtime := AssistantState.exampleRuntime (fun _ => .returned "") fun _ => none

def timed : Item := ⟨"b", some "1970-01-04T00:00:00+00:00", "due"⟩

def repeated : List Item := [timed, ⟨"c", none, ""⟩, ⟨"b", none, ""⟩]

theorem timed_time : parseIso seenRuntime timed.tsIso = some (.aware 259200000000) := by decide

theorem repeated_aware : Aware seenRuntime crowded repeated where
  cursor _ ht := nomatch ht
  items := by
    intro item hitem t ht
    simp only [repeated, List.mem_cons, List.not_mem_nil, or_false] at hitem
    rcases hitem with rfl | rfl | rfl
    · cases timed_time.symm.trans ht
      exact ⟨259200000000, rfl⟩
    · cases ht
    · cases ht

theorem update_then_filter_repeated :
    ∃ state', updateCursors seenRuntime crowded repeated = .ok state' ∧
      Updated seenRuntime crowded state' repeated ∧
      ∃ kept, filterNewItems seenRuntime state' repeated = .ok kept ∧
        Refiltered seenRuntime state' repeated kept :=
  update_then_filter seenRuntime crowded repeated (by decide) repeated_aware

theorem idle_aware : Aware seenRuntime crowded [] where
  cursor _ ht := nomatch ht
  items _ hitem := nomatch hitem

/-- An update by no items leaves more identifiers than the limit. -/
theorem idle_update_overfull :
    crowded.seenIds.Nodup ∧ Aware seenRuntime crowded [] ∧
      updateCursors seenRuntime crowded [] = .ok crowded ∧
      limit crowded < crowded.seenIds.length :=
  ⟨by decide, idle_aware, rfl, by decide⟩

end SeenWindow
