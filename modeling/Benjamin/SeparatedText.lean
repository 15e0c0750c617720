import Mathlib.Data.List.Basic

/-!
# Texts that are read off the front

A reader that meets one text after another has to know where each one ends. A text is read
off if, whatever follows behind a stop, no text of another value begins the same way. Lists
of such texts between separators and a closing bracket are read off item by item.
-/
namespace SeparatedText

variable {κ α : Type*}

def Stopped (stop : κ → Prop) (rest : List κ) : Prop := ∀ c ∈ rest.head?, stop c

/-- The text of `x` tells what it is the text of, up to `R`, and where it ends. -/
def ReadOff (stop : κ → Prop) (text : α → List κ) (P : α → Prop) (R : α → α → Prop) (x : α) :
    Prop :=
  ∀ y, P y → ∀ r s, Stopped stop r → Stopped stop s → text x ++ r = text y ++ s → R x y ∧ r = s

def following (separator : κ) (text : α → List κ) (xs : List α) : List κ :=
  xs.flatMap fun x => separator :: text x

def joined (separator : κ) (text : α → List κ) : List α → List κ
  | [] => []
  | x :: xs => text x ++ following separator text xs

theorem joined_map (separator : κ) (text : α → List κ) (xs : List α) :
    joined separator text xs = joined separator id (xs.map text) := by
  cases xs with
  | nil => rfl
  | cons x xs => simp [joined, following, List.flatMap_map]

def Begins (other : κ) (cs : List κ) : Prop := ∃ c rest, cs = c :: rest ∧ c ≠ other

section Words

variable {stop : κ → Prop} {w v r s : List κ}

theorem stopped_cons {c : κ} {rest : List κ} (h : stop c) : Stopped stop (c :: rest) := by
  intro d hd
  cases hd
  exact h

theorem word_readOff [DecidablePred stop] (hw : ∀ c ∈ w, ¬ stop c) (hv : ∀ c ∈ v, ¬ stop c)
    (hr : Stopped stop r) (hs : Stopped stop s) (h : w ++ r = v ++ s) : w = v ∧ r = s := by
  have hword : ∀ {u t : List κ}, (∀ c ∈ u, ¬ stop c) → Stopped stop t →
      (u ++ t).takeWhile (fun c => !decide (stop c)) = u := by
    intro u t hu ht
    rw [List.takeWhile_append_of_pos fun c hc => by simpa using hu c hc]
    cases t with
    | nil => simp
    | cons c rest =>
      have hstop : stop c := ht c rfl
      rw [List.takeWhile_cons_of_neg (by simpa using hstop), List.append_nil]
  have hsame : w = v := by
    rw [← hword hw hr, h, hword hv hs]
  subst hsame
  exact ⟨rfl, List.append_cancel_left h⟩

end Words

section Lists

variable {stop : κ → Prop} {text : α → List κ} {P : α → Prop} {R : α → α → Prop}
  {separator close : κ} {xs ys : List α} {r s : List κ}

theorem stopped_following (hseparator : stop separator) (hclose : stop close) (xs : List α)
    (r : List κ) : Stopped stop (following separator text xs ++ close :: r) := by
  cases xs with
  | nil => exact stopped_cons hclose
  | cons x xs => exact stopped_cons hseparator

theorem following_cons (x : α) :
    following separator text (x :: xs) = separator :: (text x ++ following separator text xs) :=
  rfl

theorem following_readOff (hseparator : stop separator) (hclose : stop close)
    (hne : separator ≠ close) (hxs : ∀ x ∈ xs, ReadOff stop text P R x) (hys : ∀ y ∈ ys, P y)
    (h : following separator text xs ++ close :: r = following separator text ys ++ close :: s) :
    List.Forall₂ R xs ys ∧ r = s := by
  induction xs generalizing ys with
  | nil =>
    cases ys with
    | nil => exact ⟨.nil, (List.cons.inj h).2⟩
    | cons y ys => exact absurd (List.cons.inj h).1.symm hne
  | cons x xs ih =>
    cases ys with
    | nil => exact absurd (List.cons.inj h).1 hne
    | cons y ys =>
      rw [following_cons, following_cons, List.cons_append, List.cons_append, List.append_assoc,
        List.append_assoc] at h
      obtain ⟨hx, hrest⟩ := hxs x List.mem_cons_self y (hys y List.mem_cons_self) _ _
        (stopped_following hseparator hclose xs r) (stopped_following hseparator hclose ys s)
        (List.cons.inj h).2
      obtain ⟨hall, hend⟩ := ih (fun z hz => hxs z (List.mem_cons_of_mem _ hz))
        (fun z hz => hys z (List.mem_cons_of_mem _ hz)) hrest
      exact ⟨.cons hx hall, hend⟩

/-- A list up to its closing bracket is read off, where no item begins with the bracket. -/
theorem joined_readOff (hseparator : stop separator) (hclose : stop close)
    (hne : separator ≠ close) (hxs : ∀ x ∈ xs, ReadOff stop text P R x) (hys : ∀ y ∈ ys, P y)
    (hbegin : ∀ x ∈ xs, Begins close (text x)) (hbegin' : ∀ y ∈ ys, Begins close (text y))
    (h : joined separator text xs ++ close :: r = joined separator text ys ++ close :: s) :
    List.Forall₂ R xs ys ∧ r = s := by
  cases xs with
  | nil =>
    cases ys with
    | nil => exact ⟨.nil, (List.cons.inj h).2⟩
    | cons y ys =>
      obtain ⟨c, rest, hc, hother⟩ := hbegin' y List.mem_cons_self
      rw [joined, joined, hc] at h
      exact absurd (List.cons.inj h).1.symm hother
  | cons x xs =>
    cases ys with
    | nil =>
      obtain ⟨c, rest, hc, hother⟩ := hbegin x List.mem_cons_self
      rw [joined, joined, hc] at h
      exact absurd (List.cons.inj h).1 hother
    | cons y ys =>
      rw [joined, joined, List.append_assoc, List.append_assoc] at h
      obtain ⟨hx, hrest⟩ := hxs x List.mem_cons_self y (hys y List.mem_cons_self) _ _
        (stopped_following hseparator hclose xs r) (stopped_following hseparator hclose ys s) h
      obtain ⟨hall, hend⟩ := following_readOff hseparator hclose hne
        (fun z hz => hxs z (List.mem_cons_of_mem _ hz))
        (fun z hz => hys z (List.mem_cons_of_mem _ hz)) hrest
      exact ⟨.cons hx hall, hend⟩

end Lists

end SeparatedText
