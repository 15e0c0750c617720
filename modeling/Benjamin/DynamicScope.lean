import Mathlib.Data.List.Basic

/-!
# Names that blocks bind

A program of nested blocks, each of which gives values to some names for the time of its
body. `reads` follows what is bound wherever the program looks: a block may replace all
bindings by its own, or be pushed on the blocks around it, of which the innermost that
gives a name decides. `replaced_eq_iff` says when the two show the same.
-/
namespace DynamicScope

variable {κ β ε σ τ : Type}

abbrev Bindings (κ β : Type) := κ → Option β

inductive Code (κ β ε : Type) where
  | done
  | look
  | raise (e : ε)
  | seq (first second : Code κ β ε)
  | block (given : Bindings κ β) (body : Code κ β ε)
  | recover (body : Code κ β ε) (handler : ε → Code κ β ε)

namespace Code

/-- How a program ends. What it looks at decides nothing. -/
def outcome : Code κ β ε → Except ε Unit
  | .done | .look => .ok ()
  | .raise e => .error e
  | .seq first second =>
    match outcome first with
    | .ok _ => outcome second
    | .error e => .error e
  | .block _ body => outcome body
  | .recover body handler =>
    match outcome body with
    | .ok _ => .ok ()
    | .error e => outcome (handler e)

/-- The scopes in which a run looks at the bindings. -/
def reads (enter : Bindings κ β → σ → σ) : σ → Code κ β ε → List σ
  | _, .done | _, .raise _ => []
  | s, .look => [s]
  | s, .seq first second =>
    reads enter s first ++
      match outcome first with
      | .ok _ => reads enter s second
      | .error _ => []
  | s, .block given body => reads enter (enter given s) body
  | s, .recover body handler =>
    reads enter s body ++
      match outcome body with
      | .ok _ => []
      | .error e => reads enter s (handler e)

def LooksHere : Code κ β ε → Prop
  | .done | .raise _ | .block _ _ => False
  | .look => True
  | .seq first second => LooksHere first ∨ outcome first = .ok () ∧ LooksHere second
  | .recover body handler =>
    LooksHere body ∨ ∃ e, outcome body = .error e ∧ LooksHere (handler e)

end Code

open Code

def innermost (blocks : List (Bindings κ β)) : Bindings κ β := fun name =>
  blocks.findSome? fun given => given name

def Regives (given : Bindings κ β) (blocks : List (Bindings κ β)) : Prop :=
  ∀ name, given name = none → innermost blocks name = none

/-- Every block in whose own body a run looks gives the names that have a value around it. -/
def Regiven : List (Bindings κ β) → Code κ β ε → Prop
  | _, .done | _, .look | _, .raise _ => True
  | blocks, .seq first second =>
    Regiven blocks first ∧ (outcome first = .ok () → Regiven blocks second)
  | blocks, .block given body =>
    (LooksHere body → Regives given blocks) ∧ Regiven (given :: blocks) body
  | blocks, .recover body handler =>
    Regiven blocks body ∧ ∀ e, outcome body = .error e → Regiven blocks (handler e)

theorem innermost_cons (given : Bindings κ β) (blocks : List (Bindings κ β)) (name : κ) :
    innermost (given :: blocks) name = (given name).or (innermost blocks name) := by
  cases hgiven : given name <;> simp [innermost, hgiven]

theorem regives_iff (given : Bindings κ β) (blocks : List (Bindings κ β)) :
    Regives given blocks ↔ given = innermost (given :: blocks) := by
  constructor
  · intro h
    funext name
    rw [innermost_cons]
    cases hgiven : given name with
    | none => simp [h name hgiven]
    | some value => rfl
  · intro h name hgiven
    have hname := congrFun h name
    rw [innermost_cons, hgiven] at hname
    simpa using hname.symm

theorem length_reads (enter : Bindings κ β → σ → σ) (enter' : Bindings κ β → τ → τ)
    (code : Code κ β ε) (s : σ) (t : τ) :
    (reads enter s code).length = (reads enter' t code).length := by
  induction code generalizing s t with
  | done => rfl
  | look => rfl
  | raise e => rfl
  | seq first second ihfirst ihsecond =>
    rw [reads, reads, List.length_append, List.length_append, ihfirst s t]
    cases outcome first with
    | ok u => rw [ihsecond s t]
    | error e => rfl
  | block given body ih => exact ih (enter given s) (enter' given t)
  | recover body handler ihbody ihhandler =>
    rw [reads, reads, List.length_append, List.length_append, ihbody s t]
    cases outcome body with
    | ok u => rfl
    | error e => rw [ihhandler e s t]

/-- What a run sees where each block replaces the bindings. -/
def replaced (bindings : Bindings κ β) (code : Code κ β ε) : List (Bindings κ β) :=
  reads (fun given _ => given) bindings code

/-- What a run sees where the bindings around a block are inherited. -/
def inherited (blocks : List (Bindings κ β)) (code : Code κ β ε) : List (Bindings κ β) :=
  (reads List.cons blocks code).map innermost

theorem length_replaced (bindings : Bindings κ β) (blocks : List (Bindings κ β))
    (code : Code κ β ε) : (replaced bindings code).length = (inherited blocks code).length := by
  rw [replaced, inherited, List.length_map]
  exact length_reads ..

/-- Both runs see the same in a sequence if they do in its parts: they look equally often. -/
theorem seq_eq_iff (first second : Code κ β ε) (bindings : Bindings κ β)
    (blocks : List (Bindings κ β)) :
    replaced bindings (.seq first second) = inherited blocks (.seq first second) ↔
      replaced bindings first = inherited blocks first ∧
        (outcome first = .ok () → replaced bindings second = inherited blocks second) := by
  have hlength := length_replaced bindings blocks first
  cases hend : outcome first with
  | ok u =>
    simp only [replaced, inherited, reads, hend, List.map_append] at hlength ⊢
    rw [List.append_eq_append_iff_of_size_eq_left hlength]
    simp
  | error e => simp [replaced, inherited, reads, hend]

theorem recover_eq_iff (body : Code κ β ε) (handler : ε → Code κ β ε) (bindings : Bindings κ β)
    (blocks : List (Bindings κ β)) :
    replaced bindings (.recover body handler) = inherited blocks (.recover body handler) ↔
      replaced bindings body = inherited blocks body ∧ ∀ e, outcome body = .error e →
        replaced bindings (handler e) = inherited blocks (handler e) := by
  have hlength := length_replaced bindings blocks body
  cases hend : outcome body with
  | ok u => simp [replaced, inherited, reads, hend]
  | error e =>
    simp only [replaced, inherited, reads, hend, List.map_append] at hlength ⊢
    rw [List.append_eq_append_iff_of_size_eq_left hlength]
    simp

/-- Replaced bindings show what inherited ones show if the two agree where a run looks
outside of blocks, and the blocks give again what is around them. -/
theorem replaced_eq_iff (code : Code κ β ε) (bindings : Bindings κ β)
    (blocks : List (Bindings κ β)) :
    replaced bindings code = inherited blocks code ↔
      (LooksHere code → bindings = innermost blocks) ∧ Regiven blocks code := by
  induction code generalizing bindings blocks with
  | done => simp [replaced, inherited, reads, LooksHere, Regiven]
  | look => simp [replaced, inherited, reads, LooksHere, Regiven]
  | raise e => simp [replaced, inherited, reads, LooksHere, Regiven]
  | seq first second ihfirst ihsecond =>
    rw [seq_eq_iff, ihfirst, ihsecond]
    simp only [LooksHere, Regiven]
    constructor
    · rintro ⟨⟨hfirst, hregiven⟩, hsecond⟩
      refine ⟨?_, hregiven, fun hend => (hsecond hend).2⟩
      rintro (hlooks | ⟨hend, hlooks⟩)
      · exact hfirst hlooks
      · exact (hsecond hend).1 hlooks
    · rintro ⟨hlooks, hregiven, hsecond⟩
      exact ⟨⟨fun h => hlooks (.inl h), hregiven⟩,
        fun hend => ⟨fun h => hlooks (.inr ⟨hend, h⟩), hsecond hend⟩⟩
  | block given body ih =>
    -- the body of a block sees what the block gives, and nothing else of the bindings
    have henter : replaced bindings (.block given body) = inherited blocks (.block given body) ↔
        replaced given body = inherited (given :: blocks) body := Iff.rfl
    rw [henter, ih, ← regives_iff]
    simp [LooksHere, Regiven]
  | recover body handler ihbody ihhandler =>
    rw [recover_eq_iff, ihbody]
    simp only [ihhandler, LooksHere, Regiven]
    constructor
    · rintro ⟨⟨hbody, hregiven⟩, hhandler⟩
      refine ⟨?_, hregiven, fun e he => (hhandler e he).2⟩
      rintro (hlooks | ⟨e, he, hlooks⟩)
      · exact hbody hlooks
      · exact (hhandler e he).1 hlooks
    · rintro ⟨hlooks, hregiven, hhandler⟩
      exact ⟨⟨fun h => hlooks (.inl h), hregiven⟩,
        fun e he => ⟨fun h => hlooks (.inr ⟨e, he, h⟩), hhandler e he⟩⟩

end DynamicScope
