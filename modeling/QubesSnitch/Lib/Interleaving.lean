import QubesSnitch.Lib.Computation

/-!
# Threads side by side

The states of `Interleaved start calls` are those that come about when calls run side by side, any number of them and in
any order of their sections: at each access a call may find any of these states.  An invariant of the sections of every
call (`Keeps`) is an invariant of all these states (`Interleaved.invariant`).
-/

namespace Thread

variable {σ ε ω α β : Type}

/-- The other threads leave only states with `I`, and so did the sections so far. -/
def Within (I : σ → Prop) (w : World σ ε ω) : Prop := (∀ n s, I (w.others n s)) ∧ ∀ p ∈ w.sections, I p.2

/-- Among states with `I` the sections of a thread leave such states, and its result satisfies `Q`. -/
def Keeps (I : σ → Prop) (x : Thread σ ε ω α) (Q : α → Prop) : Prop :=
  Triple (Within I) x (fun a w => Within I w ∧ Q a) fun _ => Within I

namespace Keeps

variable {I : σ → Prop} {Q Q' : α → Prop} {x : Thread σ ε ω α}

theorem pure {a : α} (h : Q a) : Keeps I (pure a : Thread σ ε ω α) Q := Triple.pure fun _ hw => ⟨hw, h⟩

theorem throw {e : ε} : Keeps I (throw e : Thread σ ε ω α) Q := Triple.throw fun _ hw => hw

theorem bind {f : α → Thread σ ε ω β} {R : β → Prop} (hx : Keeps I x Q) (hf : ∀ a, Q a → Keeps I (f a) R) :
    Keeps I (x >>= f) R :=
  Triple.bind hx fun a w hw => hf a hw.2 w hw.1

theorem conseq (h : Keeps I x Q) (hQ : ∀ a, Q a → Q' a) : Keeps I x Q' :=
  Triple.conseq h (fun _ hw => hw) (fun a _ hw => ⟨hw.1, hQ a hw.2⟩) fun _ _ hw => hw

/-- A section that keeps `I`. -/
theorem atomically {f : EStateM ε σ α} (hI : ∀ s, I s → I (f.leaves s))
    (hQ : ∀ s a s', I s → f.run s = .ok a s' → Q a) : Keeps I (atomically f : Thread σ ε ω α) Q := by
  intro w hw
  have hfound := hw.1 w.accesses w.shared
  have hleft := hI _ hfound
  have hsections : ∀ s', I s' → ∀ p ∈ w.sections ++ [(w.others w.accesses w.shared, s')], I p.2 := by
    intro s' hs' p hp
    rcases List.mem_append.1 hp with hp | hp
    · exact hw.2 p hp
    · rw [List.mem_singleton.1 hp]
      exact hs'
  cases hrun : f.run (w.others w.accesses w.shared) with
  | ok a s' =>
    rw [EStateM.leaves_of_ok hrun] at hleft
    rw [run_atomically_of_ok hrun]
    exact ⟨⟨hw.1, hsections s' hleft⟩, hQ _ a s' hfound hrun⟩
  | error e s' =>
    rw [EStateM.leaves_of_error hrun] at hleft
    rw [run_atomically_of_error hrun]
    exact ⟨hw.1, hsections s' hleft⟩

theorem peek {f : σ → Except ε α} (hQ : ∀ s a, I s → f s = .ok a → Q a) : Keeps I (peek f : Thread σ ε ω α) Q := by
  intro w hw
  rw [run_peek]
  cases hf : f (w.others w.accesses w.shared) with
  | ok a => exact ⟨hw, hQ _ a (hw.1 _ _) hf⟩
  | error e => exact hw

theorem external : Keeps I (external : Thread σ ε ω Unit) fun _ => True := by
  intro w hw
  rw [run_external]
  cases w.faults w.calls with
  | none => exact ⟨hw, trivial⟩
  | some e => exact hw

theorem emit (o : ω) : Keeps I (emit o : Thread σ ε ω Unit) fun _ => True := fun _ hw => ⟨hw, trivial⟩

theorem attempted (h : Keeps I x fun _ => True) : Keeps I (attempt x : Thread σ ε ω (Except ε α)) fun _ => True := by
  refine Triple.conseq (Triple.attempted h) (fun _ hw => hw) (fun r w hw => ?_) fun _ _ he => he.elim
  cases r with
  | ok a => exact hw
  | error e => exact ⟨hw, trivial⟩

/-- One thread for each element of a list, one after the other. -/
theorem mapM {f : β → Thread σ ε ω α} (l : List β) (h : ∀ b ∈ l, Keeps I (f b) fun _ => True) :
    Keeps I (l.mapM f) fun _ => True := by
  induction l with
  | nil => exact pure trivial
  | cons b l ih =>
    rw [List.mapM_cons]
    exact bind (h b (by simp)) fun _ _ => bind (ih fun c hc => h c (by simp [hc])) fun _ _ => pure trivial

end Keeps

/-- The states that calls come to which run side by side: a section finds some of them and leaves another. -/
inductive Interleaved (start : σ → Prop) (calls : (ω α : Type) → Thread σ ε ω α → Prop) : σ → Prop
  | start {s : σ} (h : start s) : Interleaved start calls s
  | call {ω α : Type} {x : Thread σ ε ω α} {w : World σ ε ω} {p : σ × σ} (hx : calls ω α x) (hsections : w.sections = [])
      (hothers : ∀ n s, Interleaved start calls (w.others n s)) (hp : p ∈ (x.leaves w).sections) :
      Interleaved start calls p.2

theorem Interleaved.invariant {start : σ → Prop} {calls : (ω α : Type) → Thread σ ε ω α → Prop} {I : σ → Prop}
    (hstart : ∀ s, start s → I s) (hcalls : ∀ ω α x, calls ω α x → Keeps I x fun _ => True) {s : σ}
    (h : Interleaved start calls s) : I s := by
  induction h with
  | start h => exact hstart _ h
  | @call ω α x w p hx hsections _ hp ih =>
    have hkeeps := hcalls ω α x hx w ⟨ih, fun p hp => by rw [hsections] at hp; cases hp⟩
    cases hrun : x.run w with
    | ok a w' =>
      rw [hrun] at hkeeps
      rw [EStateM.leaves_of_ok hrun] at hp
      exact hkeeps.1.2 p hp
    | error e w' =>
      rw [hrun] at hkeeps
      rw [EStateM.leaves_of_error hrun] at hp
      exact hkeeps.2 p hp

end Thread
