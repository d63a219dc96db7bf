import Mathlib

/-!
# First match with rules that may be skipped

A packet filter walks a list of matching rules and stops at the first one that takes effect.  A *hard* hit always
takes effect; a *soft* hit takes effect only while its limiter at position `p` is under its rate, and is passed
over otherwise.  Which hits there are does not depend on the limiters, so a walk is the function `decide` of its
list of hits, and two walks are enough to know all of them: the one where every limiter is under its rate
(`allUnder`, the verdict of the first hit) and the one where every limiter is over it (`allOver`, the verdict of the first
hard hit).  `accept_stable_iff` is the resulting test: if soft hits never give the verdict `a`, then whether the walk
ends in `a` is independent of the limiters exactly when `allOver = a` implies `allUnder = a`.
-/

inductive Hit (π ν : Type) where
  | soft (p : π) (v : ν)
  | hard (v : ν)

namespace Hit

variable {π ν : Type}

def verdict : Hit π ν → ν
  | soft _ v => v
  | hard v => v

def hard? : Hit π ν → Option ν
  | soft _ _ => none
  | hard v => some v

/-- The first hit that takes effect under the limiter assignment `lim`. -/
def decide (lim : π → Bool) : List (Hit π ν) → Option ν
  | [] => none
  | hard v :: _ => some v
  | soft p v :: hs => if lim p then some v else decide lim hs

/-- The verdict when every limiter is under its rate. -/
def allUnder (hs : List (Hit π ν)) : Option ν := hs.head?.map verdict

/-- The verdict when every limiter is over its rate. -/
def allOver (hs : List (Hit π ν)) : Option ν := hs.findSome? hard?

theorem decide_true (hs : List (Hit π ν)) : decide (fun _ => true) hs = allUnder hs := by
  cases hs with
  | nil => rfl
  | cons h hs => cases h <;> rfl

theorem decide_false (hs : List (Hit π ν)) : decide (fun _ => false) hs = allOver hs := by
  induction hs with
  | nil => rfl
  | cons h hs ih =>
    cases h with
    | hard v => rfl
    | soft p v =>
      simp only [decide, Bool.false_eq_true, if_false, ih, allOver, List.findSome?_cons, hard?]

theorem decide_append (lim : π → Bool) (hs ks : List (Hit π ν)) :
    decide lim (hs ++ ks) = (decide lim hs).or (decide lim ks) := by
  induction hs with
  | nil => simp [decide]
  | cons h hs ih =>
    cases h with
    | hard v => rfl
    | soft p v =>
      simp only [List.cons_append, decide]
      split
      · rfl
      · exact ih

theorem decide_flatMap {ρ : Type} (lim : π → Bool) (l : List ρ) (f : ρ → List (Hit π ν)) :
    decide lim (l.flatMap f) = l.findSome? fun r => decide lim (f r) := by
  induction l with
  | nil => rfl
  | cons r l ih =>
    rw [List.flatMap_cons, decide_append, ih, List.findSome?_cons]
    cases decide lim (f r) <;> rfl

/-- No soft hit of the list gives the verdict `a`. -/
def SoftAvoids (a : ν) (hs : List (Hit π ν)) : Prop := ∀ p v, soft p v ∈ hs → v ≠ a

/-- A walk ends as with all limiters exhausted, or at a soft hit. -/
private theorem decide_eq_allOver_or_soft (lim : π → Bool) (hs : List (Hit π ν)) :
    decide lim hs = allOver hs ∨ ∃ p v, soft p v ∈ hs ∧ decide lim hs = some v := by
  induction hs with
  | nil => exact Or.inl rfl
  | cons h hs ih =>
    cases h with
    | hard v => exact Or.inl rfl
    | soft p v =>
      by_cases hp : lim p
      · exact Or.inr ⟨p, v, by simp, by simp [decide, hp]⟩
      · have hd : decide lim (soft p v :: hs) = decide lim hs := by simp [decide, hp]
        rw [hd]
        rcases ih with ih | ⟨q, u, hm, hu⟩
        · exact Or.inl ih
        · exact Or.inr ⟨q, u, List.mem_cons_of_mem _ hm, hu⟩

/-- A list whose first hit gives `a`, which no soft hit does, ends in `a` for every assignment. -/
theorem decide_of_allUnder {a : ν} {hs : List (Hit π ν)} (hsoft : SoftAvoids a hs)
    (h : allUnder hs = some a) (lim : π → Bool) : decide lim hs = some a := by
  cases hs with
  | nil => cases h
  | cons k hs =>
    cases k with
    | hard v => exact h
    | soft p v =>
      have hv : v = a := by simpa [allUnder, verdict] using h
      exact absurd hv (hsoft p v (by simp))

theorem allOver_eq_of_decide {a : ν} {hs : List (Hit π ν)} (hsoft : SoftAvoids a hs) {lim : π → Bool}
    (h : decide lim hs = some a) : allOver hs = some a := by
  rcases decide_eq_allOver_or_soft lim hs with h' | ⟨p, v, hm, h'⟩
  · rw [← h', h]
  · rw [h] at h'
    exact absurd (Option.some.inj h').symm (hsoft p v hm)

/-- Ending in `a` is independent of the limiters exactly when the walk that skips every soft hit ends in `a` only
if the walk that skips none does. -/
theorem accept_stable_iff {a : ν} {hs : List (Hit π ν)} (hsoft : SoftAvoids a hs) :
    (∀ lim₁ lim₂ : π → Bool, decide lim₁ hs = some a ↔ decide lim₂ hs = some a) ↔
      (allOver hs = some a → allUnder hs = some a) := by
  constructor
  · intro h hover
    have := h (fun _ => true) (fun _ => false)
    rw [decide_true, decide_false] at this
    exact this.2 hover
  · intro h
    have key : ∀ lim : π → Bool, decide lim hs = some a ↔ allOver hs = some a := fun lim =>
      ⟨allOver_eq_of_decide hsoft, fun hover => decide_of_allUnder hsoft (h hover) lim⟩
    intro lim₁ lim₂
    rw [key lim₁, key lim₂]

end Hit

namespace FirstMatch

/-- The first match is good exactly when every bad match stands behind a good one. -/
theorem forall_find?_iff {α : Type} {matching : α → Bool} {good : α → Prop} {l : List α} :
    (∀ x, l.find? matching = some x → good x) ↔
      ∀ front x back, l = front ++ x :: back → matching x → ¬ good x → ∃ y ∈ front, matching y ∧ good y := by
  constructor
  · rintro h front x back rfl hx hbad
    cases hfront : front.find? matching with
    | none =>
      refine absurd (h x ?_) hbad
      rw [List.find?_append, hfront, Option.none_or, List.find?_cons_of_pos hx]
    | some y =>
      refine ⟨y, List.mem_of_find?_eq_some hfront, List.find?_some hfront, h y ?_⟩
      rw [List.find?_append, hfront, Option.some_or]
  · intro h x hx
    obtain ⟨hmatching, front, back, rfl, hfront⟩ := List.find?_eq_some_iff_append.1 hx
    by_contra hbad
    obtain ⟨y, hy, hmatch, -⟩ := h front x back rfl hmatching hbad
    have hnot := hfront y hy
    rw [hmatch] at hnot
    cases hnot

end FirstMatch
