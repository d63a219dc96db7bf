import QubesSnitch.Lib.Computation

/-!
# Calls in a history

A history is the sequence of the shared states, one section after the other, of whatever thread.  The sections of a call
take place at increasing moments of it (`Call`), with those of other threads between them.

A record is `Grounded` when every section in it has its ground in the sections before it.  In a history the ground of a
section then lies at earlier moments (`Call.earlier`), which is what an induction over the history needs.
-/

namespace Thread

variable {σ ε ω α β : Type}

/-- Every section has its ground in those before it. -/
inductive Grounded (G : List (σ × σ) → σ × σ → Prop) : List (σ × σ) → Prop
  | nil : Grounded G []
  | next {ss : List (σ × σ)} {p : σ × σ} (h : Grounded G ss) (hp : G ss p) : Grounded G (ss ++ [p])

theorem Grounded.ground {G : List (σ × σ) → σ × σ → Prop} {ss : List (σ × σ)} (h : Grounded G ss) {i : Nat} {p : σ × σ}
    (hp : ss[i]? = some p) : G (ss.take i) p := by
  induction h with
  | nil => cases hp
  | @next ss q h hq ih =>
    obtain ⟨hi, -⟩ := List.getElem?_eq_some_iff.1 hp
    rw [List.length_append, List.length_singleton] at hi
    by_cases hlast : i = ss.length
    · subst hlast
      rw [List.getElem?_concat_length, Option.some.injEq] at hp
      rw [List.take_left, ← hp]
      exact hq
    · have hlt : i < ss.length := by omega
      rw [List.getElem?_append_left hlt] at hp
      rw [List.take_append_of_le_length hlt.le]
      exact ih hp

/-- A traversal keeps what every element keeps, and its results are those of the elements. -/
theorem Spec.mapM {f : β → Thread σ ε ω α} {P : List (σ × σ) → List ω → Prop} {E : ε → List (σ × σ) → List ω → Prop}
    {R : β → α → Prop} (l : List β) (h : ∀ b ∈ l, Spec P (f b) (fun a ss os => P ss os ∧ R b a) E) :
    Spec P (l.mapM f) (fun as ss os => P ss os ∧ List.Forall₂ R l as) E := by
  induction l with
  | nil => exact .pure fun _ _ hP => ⟨hP, .nil⟩
  | cons b l ih =>
    rw [List.mapM_cons]
    refine .bind (h b (by simp)) fun a => .assumed fun hab => ?_
    exact .bind (ih fun c hc => h c (by simp [hc])) fun as => .assumed fun has => .pure fun _ _ hP => ⟨hP, .cons hab has⟩

/-- A run of a call among the states of a history. -/
structure Call (H : Nat → σ) (x : Thread σ ε ω α) where
  world : World σ ε ω
  fresh : world.sections = []
  /-- When the sections take place. -/
  moment : Nat → Nat
  ordered : StrictMono moment
  takesPlace : ∀ i p, (x.leaves world).sections[i]? = some p → p = (H (moment i), H (moment i + 1))

namespace Call

variable {H : Nat → σ} {x : Thread σ ε ω α}

def sections (c : Call H x) : List (σ × σ) := (x.leaves c.world).sections

/-- The moments of the sections before the `i`-th are earlier. -/
theorem earlier (c : Call H x) {i : Nat} {q : σ × σ} (hq : q ∈ c.sections.take i) :
    ∃ m, c.moment 0 ≤ m ∧ m < c.moment i ∧ q = (H m, H (m + 1)) := by
  obtain ⟨j, hj⟩ := List.mem_iff_getElem?.1 hq
  have hji : j < i := by
    obtain ⟨hlt, -⟩ := List.getElem?_eq_some_iff.1 hj
    rw [List.length_take] at hlt
    omega
  rw [List.getElem?_take_of_lt hji] at hj
  exact ⟨c.moment j, c.ordered.monotone (Nat.zero_le j), c.ordered hji, c.takesPlace j q hj⟩

end Call

end Thread
