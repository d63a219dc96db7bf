import Mathlib

/-!
# Computations with state and exceptions

`EStateM ε σ` is a computation on a state that may raise and then keeps the state it has reached, as a Python
function does.  `Triple P x Q E` says what holds after `x` when it returns (`Q`) and when it raises (`E`).

A `Thread` is such a computation on a `World`: a state shared with other threads, which act on it whenever this
thread takes no lock.  A critical section (`atomically`) therefore finds a state about which nothing is known from
before, and what it finds and leaves is recorded, so that a statement about a call can say in which section a fact was
seen.  Calls outside the model (`external`) change nothing that is modelled but may raise anything.
-/

theorem Except.bind_eq_ok_iff {ε α β : Type} {x : Except ε α} {f : α → Except ε β} {b : β} :
    x >>= f = .ok b ↔ ∃ a, x = .ok a ∧ f a = .ok b := by
  cases x with
  | error e => simp [bind, Except.bind]
  | ok a => simp [bind, Except.bind]

theorem Except.exists_of_bind_eq_ok {ε α β : Type} {x : Except ε α} {f : α → Except ε β} {b : β}
    (h : x >>= f = .ok b) : ∃ a, x = .ok a ∧ f a = .ok b :=
  bind_eq_ok_iff.1 h

theorem Except.mapError_eq_ok_iff {ε ε' α : Type} {x : Except ε α} {f : ε → ε'} {a : α} :
    x.mapError f = .ok a ↔ x = .ok a := by
  cases x with
  | error e => simp [Except.mapError]
  | ok b => simp [Except.mapError]

theorem Except.of_bind_eq_error {ε α β : Type} {x : Except ε α} {f : α → Except ε β} {e : ε}
    (h : x >>= f = .error e) : x = .error e ∨ ∃ a, x = .ok a ∧ f a = .error e := by
  cases x with
  | error e' =>
    cases h
    exact .inl rfl
  | ok a => exact .inr ⟨a, rfl, h⟩

/-- An error of a sequence is that of its first part, or of what follows. -/
theorem Except.bind_errors {ε α β : Type} {P : ε → Prop} {x : Except ε α} {f : α → Except ε β}
    (hx : ∀ e, x = .error e → P e) (hf : ∀ a, x = .ok a → ∀ e, f a = .error e → P e) :
    ∀ e, x >>= f = .error e → P e := by
  intro e h
  rcases of_bind_eq_error h with hfirst | ⟨a, ha, hrest⟩
  · exact hx e hfirst
  · exact hf a ha e hrest

/-- What is checked holds where nothing is raised. -/
theorem Except.of_check_eq_ok {ε α : Type} {p : Prop} [Decidable p] {x : Except ε α} {e : ε} {a : α}
    (h : (if p then x else .error e) = .ok a) : p := by
  by_contra hnot
  rw [if_neg hnot] at h
  cases h

/-- A traversal returns exactly when every element is accepted, and then returns their images in order. -/
theorem Except.mapM_eq_ok_iff {ε α β : Type} {f : α → Except ε β} {l : List α} {l' : List β} :
    l.mapM f = .ok l' ↔ List.Forall₂ (fun a b => f a = .ok b) l l' := by
  induction l generalizing l' with
  | nil =>
    rw [List.mapM_nil, List.forall₂_nil_left_iff]
    exact ⟨fun h => (Except.ok.inj h).symm, fun h => h ▸ rfl⟩
  | cons a l ih =>
    rw [List.mapM_cons, List.forall₂_cons_left_iff]
    constructor
    · intro h
      obtain ⟨b, hb, h⟩ := exists_of_bind_eq_ok h
      obtain ⟨bs, hbs, h⟩ := exists_of_bind_eq_ok h
      exact ⟨b, bs, hb, ih.1 hbs, (Except.ok.inj h).symm⟩
    · rintro ⟨b, bs, hb, hbs, rfl⟩
      rw [hb, ih.2 hbs]
      rfl

theorem List.Forall₂.exists_of_mem_right {α β : Type} {R : α → β → Prop} {l : List α} {l' : List β}
    (h : List.Forall₂ R l l') {b : β} (hb : b ∈ l') : ∃ a ∈ l, R a b := by
  induction h with
  | nil => cases hb
  | @cons a c l l' hac _ ih =>
    rcases List.mem_cons.1 hb with rfl | hb
    · exact ⟨a, by simp, hac⟩
    · obtain ⟨a', ha', hR⟩ := ih hb
      exact ⟨a', List.mem_cons_of_mem _ ha', hR⟩

theorem List.Forall₂.exists_of_mem_left {α β : Type} {R : α → β → Prop} {l : List α} {l' : List β}
    (h : List.Forall₂ R l l') {a : α} (ha : a ∈ l) : ∃ b ∈ l', R a b := h.flip.exists_of_mem_right ha

/-- What a traversal returns comes from an element. -/
theorem Except.exists_of_mem_mapM {ε α β : Type} {f : α → Except ε β} {l : List α} {l' : List β}
    (h : l.mapM f = .ok l') {b : β} (hb : b ∈ l') : ∃ a ∈ l, f a = .ok b :=
  (mapM_eq_ok_iff.1 h).exists_of_mem_right hb

/-- Every element of a traversed list has its image in the result. -/
theorem Except.exists_mem_of_mapM {ε α β : Type} {f : α → Except ε β} {l : List α} {l' : List β}
    (h : l.mapM f = .ok l') {a : α} (ha : a ∈ l) : ∃ b ∈ l', f a = .ok b :=
  (mapM_eq_ok_iff.1 h).exists_of_mem_left ha

/-- A traversal returns when every element is accepted. -/
theorem Except.exists_mapM_eq_ok {ε α β : Type} {f : α → Except ε β} {l : List α}
    (h : ∀ a ∈ l, ∃ b, f a = .ok b) : ∃ l', l.mapM f = .ok l' := by
  induction l with
  | nil => exact ⟨[], rfl⟩
  | cons a l ih =>
    obtain ⟨b, hb⟩ := h a (by simp)
    obtain ⟨bs, hbs⟩ := ih fun c hc => h c (List.mem_cons_of_mem _ hc)
    exact ⟨b :: bs, mapM_eq_ok_iff.2 (.cons hb (mapM_eq_ok_iff.1 hbs))⟩

/-- A traversal of a list that ends with `a` ends with the image of `a`. -/
theorem Except.mapM_concat {ε α β : Type} {f : α → Except ε β} {l : List α} {a : α} {l' : List β}
    (h : (l ++ [a]).mapM f = .ok l') : ∃ l₀ b, l.mapM f = .ok l₀ ∧ f a = .ok b ∧ l' = l₀ ++ [b] := by
  rw [List.mapM_append] at h
  obtain ⟨l₀, hl₀, h⟩ := exists_of_bind_eq_ok h
  obtain ⟨l₁, hl₁, h⟩ := exists_of_bind_eq_ok h
  rw [List.mapM_cons] at hl₁
  obtain ⟨b, hb, hl₁⟩ := exists_of_bind_eq_ok hl₁
  cases hl₁
  cases h
  exact ⟨l₀, b, hl₀, hb, rfl⟩

/-- What every step of a traversal keeps is the same list before and after. -/
theorem Except.map_eq_of_mapM {ε α β κ : Type} {f : α → Except ε β} {g : α → κ} {g' : β → κ} {l : List α}
    {l' : List β} (h : l.mapM f = .ok l') (hf : ∀ a b, f a = .ok b → g' b = g a) : l'.map g' = l.map g := by
  rw [mapM_eq_ok_iff] at h
  induction h with
  | nil => rfl
  | cons hab _ ih => rw [List.map_cons, List.map_cons, hf _ _ hab, ih]

theorem EStateM.Result.exists_ok_of {ε σ : Type} {x : EStateM.Result ε σ Unit} {p : σ → Bool}
    (h : (match x with
      | .ok _ s => p s
      | .error _ _ => false) = true) : ∃ s, x = .ok () s ∧ p s = true := by
  cases x with
  | ok a s => exact ⟨s, rfl, h⟩
  | error e s => cases h

theorem EStateM.Result.exists_error_eq {ε σ α : Type} [DecidableEq ε] {x : EStateM.Result ε σ α} {e : ε}
    (h : (match x with
      | .ok _ _ => false
      | .error e' _ => decide (e' = e)) = true) : ∃ s, x = .error e s := by
  cases x with
  | ok a s => cases h
  | error e' s => exact ⟨s, by rw [of_decide_eq_true h]⟩

/-- The state that a computation leaves, whether it returns or raises. -/
def EStateM.leaves {ε σ α : Type} (x : EStateM ε σ α) (s : σ) : σ :=
  match x.run s with
  | .ok _ s' => s'
  | .error _ s' => s'

section Leaves

variable {ε σ α β : Type} {x : EStateM ε σ α} {s s' : σ}

theorem EStateM.leaves_of_ok {a : α} (h : x.run s = .ok a s') : x.leaves s = s' := by rw [leaves, h]

theorem EStateM.leaves_of_error {e : ε} (h : x.run s = .error e s') : x.leaves s = s' := by rw [leaves, h]

theorem EStateM.exists_of_bind_eq_ok {f : α → EStateM ε σ β} {b : β} (h : (x >>= f).run s = .ok b s') :
    ∃ a t, x.run s = .ok a t ∧ (f a).run t = .ok b s' := by
  simp only [EStateM.run, bind, EStateM.bind] at h
  cases hx : x s with
  | ok a t =>
    rw [hx] at h
    exact ⟨a, t, hx, h⟩
  | error e t =>
    rw [hx] at h
    cases h

theorem EStateM.run_bind_of_ok {a : α} (h : x.run s = .ok a s') (f : α → EStateM ε σ β) :
    (x >>= f).run s = (f a).run s' := by
  rw [EStateM.run] at h
  simp only [EStateM.run, bind, EStateM.bind, h]

/-- What follows starts where the first part returned. -/
theorem EStateM.leaves_bind_of_ok {a : α} (h : x.run s = .ok a s') (f : α → EStateM ε σ β) :
    (x >>= f).leaves s = (f a).leaves s' := by
  rw [EStateM.run] at h
  simp only [leaves, EStateM.run, bind, EStateM.bind, h]

theorem EStateM.leaves_bind_of_error {e : ε} (h : x.run s = .error e s') (f : α → EStateM ε σ β) :
    (x >>= f).leaves s = s' := by
  rw [EStateM.run] at h
  simp only [leaves, EStateM.run, bind, EStateM.bind, h]

theorem EStateM.leaves_bind_pure (x : EStateM ε σ α) (b : β) (s : σ) :
    (x >>= fun _ => (pure b : EStateM ε σ β)).leaves s = x.leaves s := by
  simp only [leaves, EStateM.run, bind, EStateM.bind]
  cases x s <;> rfl

end Leaves

section Triple

variable {ε σ α β : Type}

def Triple (P : σ → Prop) (x : EStateM ε σ α) (Q : α → σ → Prop) (E : ε → σ → Prop) : Prop :=
  ∀ s, P s → match x.run s with
    | .ok a s' => Q a s'
    | .error e s' => E e s'

namespace Triple

variable {P P' : σ → Prop} {Q Q' : α → σ → Prop} {E E' : ε → σ → Prop}

theorem of_ok {x : EStateM ε σ α} {s s' : σ} {a : α} (h : Triple P x Q E) (hs : P s) (hrun : x.run s = .ok a s') :
    Q a s' := by
  have hx := h s hs
  rwa [hrun] at hx

theorem of_error {x : EStateM ε σ α} {s s' : σ} {e : ε} (h : Triple P x Q E) (hs : P s)
    (hrun : x.run s = .error e s') : E e s' := by
  have hx := h s hs
  rwa [hrun] at hx

theorem pure {a : α} (h : ∀ s, P s → Q a s) : Triple P (pure a : EStateM ε σ α) Q E := h

theorem throw {e : ε} (h : ∀ s, P s → E e s) : Triple P (throw e : EStateM ε σ α) Q E := h

theorem bind {x : EStateM ε σ α} {f : α → EStateM ε σ β} {R : β → σ → Prop} (hx : Triple P x Q E)
    (hf : ∀ a, Triple (Q a) (f a) R E) : Triple P (x >>= f) R E := by
  intro s hs
  have h := hx s hs
  have hrun : (x >>= f).run s = match x.run s with
      | .ok a s' => (f a).run s'
      | .error e s' => .error e s' := rfl
  rw [hrun]
  rcases hxs : x.run s with ⟨a, s'⟩ | ⟨e, s'⟩
  · rw [hxs] at h
    exact hf a s' h
  · rw [hxs] at h
    exact h

theorem conseq {x : EStateM ε σ α} (h : Triple P x Q E) (hP : ∀ s, P' s → P s) (hQ : ∀ a s, Q a s → Q' a s)
    (hE : ∀ e s, E e s → E' e s) : Triple P' x Q' E' := by
  intro s hs
  have := h s (hP s hs)
  split at this
  · exact hQ _ _ this
  · exact hE _ _ this

/-- What holds however a computation ends, holds of what it leaves. -/
theorem leaves {x : EStateM ε σ α} {R : σ → Prop} (h : Triple P x (fun _ => R) fun _ => R) {s : σ} (hs : P s) :
    R (x.leaves s) := by
  have hx := h s hs
  unfold EStateM.leaves
  cases hrun : x.run s with
  | ok a s' =>
    rw [hrun] at hx
    exact hx
  | error e s' =>
    rw [hrun] at hx
    exact hx

/-- A fact that the state does not matter for. -/
theorem assume {p : Prop} {x : EStateM ε σ α} (h : p → Triple P x Q E) : Triple (fun s => p ∧ P s) x Q E :=
  fun s hs => h hs.1 s hs.2

/-- A loop keeps what each round keeps. -/
theorem forM {f : β → EStateM ε σ PUnit} {I : σ → Prop} (l : List β)
    (hf : ∀ b ∈ l, Triple I (f b) (fun _ => I) E) : Triple I (l.forM f) (fun _ => I) E := by
  induction l with
  | nil => exact Triple.pure fun _ h => h
  | cons b l ih =>
    show Triple I (f b >>= fun _ => l.forM f) (fun _ => I) E
    exact bind (hf b (by simp)) fun _ => ih fun c hc => hf c (by simp [hc])

end Triple

/-- Run `x` and hand over its exception instead of raising it. -/
def attempt (x : EStateM ε σ α) : EStateM ε σ (Except ε α) := fun s =>
  match x.run s with
  | .ok a s' => .ok (.ok a) s'
  | .error e s' => .ok (.error e) s'

/-- Return or raise what `attempt` handed over. -/
def resume : Except ε α → EStateM ε σ α
  | .ok a => pure a
  | .error e => throw e

theorem Triple.attempted {P : σ → Prop} {Q : α → σ → Prop} {E : ε → σ → Prop} {x : EStateM ε σ α}
    (h : Triple P x Q E) : @Triple ε σ (Except ε α) P (attempt x)
      (fun r s => match r with | .ok a => Q a s | .error e => E e s) (fun _ _ => False) := by
  intro s hs
  have := h s hs
  simp only [attempt, EStateM.run] at this ⊢
  split at this <;> simp_all

end Triple

/-! ### Threads -/

structure World (σ ε ω : Type) where
  shared : σ
  /-- What the other threads do to the shared state before the `n`-th access of this thread. -/
  others : Nat → σ → σ
  /-- The exception raised by the `n`-th external call, if it raises. -/
  faults : Nat → Option ε
  accesses : Nat := 0
  calls : Nat := 0
  /-- The state found and the state left by each critical section, in order. -/
  sections : List (σ × σ) := []
  /-- What this thread has sent out, in order. -/
  output : List ω := []

abbrev Thread (σ ε ω α : Type) := EStateM ε (World σ ε ω) α

namespace Thread

variable {σ ε ω α : Type}

/-- Run `f` on the shared state under the lock. -/
def atomically (f : EStateM ε σ α) : Thread σ ε ω α := fun w =>
  let s := w.others w.accesses w.shared
  match f.run s with
  | .ok a s' =>
    .ok a { w with shared := s', accesses := w.accesses + 1, sections := w.sections ++ [(s, s')] }
  | .error e s' =>
    .error e { w with shared := s', accesses := w.accesses + 1, sections := w.sections ++ [(s, s')] }

/-- Read the shared state without the lock. -/
def peek (f : σ → Except ε α) : Thread σ ε ω α := fun w =>
  let s := w.others w.accesses w.shared
  let w := { w with shared := s, accesses := w.accesses + 1 }
  match f s with
  | .ok a => .ok a w
  | .error e => .error e w

/-- A call that changes nothing in the model and may raise. -/
def external : Thread σ ε ω Unit := fun w =>
  let w' := { w with calls := w.calls + 1 }
  match w.faults w.calls with
  | none => .ok () w'
  | some e => .error e w'

def emit (o : ω) : Thread σ ε ω Unit := fun w => .ok () { w with output := w.output ++ [o] }

/-! How the steps run. -/

theorem run_atomically_of_ok {f : EStateM ε σ α} {w : World σ ε ω} {a : α} {s : σ}
    (h : f.run (w.others w.accesses w.shared) = .ok a s) :
    (atomically f).run w = .ok a { w with
      shared := s
      accesses := w.accesses + 1
      sections := w.sections ++ [(w.others w.accesses w.shared, s)] } := by
  simp only [EStateM.run, atomically] at h ⊢
  rw [h]

theorem run_atomically_of_error {f : EStateM ε σ α} {w : World σ ε ω} {e : ε} {s : σ}
    (h : f.run (w.others w.accesses w.shared) = .error e s) :
    (atomically f).run w = .error e { w with
      shared := s
      accesses := w.accesses + 1
      sections := w.sections ++ [(w.others w.accesses w.shared, s)] } := by
  simp only [EStateM.run, atomically] at h ⊢
  rw [h]

theorem run_peek (f : σ → Except ε α) (w : World σ ε ω) : (peek f).run w = match f (w.others w.accesses w.shared) with
    | .ok a => .ok a { w with shared := w.others w.accesses w.shared, accesses := w.accesses + 1 }
    | .error e => .error e { w with shared := w.others w.accesses w.shared, accesses := w.accesses + 1 } := rfl

theorem run_external (w : World σ ε ω) : external.run w = match w.faults w.calls with
    | none => .ok () { w with calls := w.calls + 1 }
    | some e => .error e { w with calls := w.calls + 1 } := rfl

/-! What a thread's steps do to the record of sections and to the output; nothing else of a world is needed. -/

variable {P : List (σ × σ) → List ω → Prop} {Q : α → List (σ × σ) → List ω → Prop}
  {E : ε → List (σ × σ) → List ω → Prop}

/-- A triple about the sections and the output of a thread. -/
def Spec (P : List (σ × σ) → List ω → Prop) (x : Thread σ ε ω α) (Q : α → List (σ × σ) → List ω → Prop)
    (E : ε → List (σ × σ) → List ω → Prop) : Prop :=
  Triple (fun w => P w.sections w.output) x (fun a w => Q a w.sections w.output)
    fun e w => E e w.sections w.output

/-- A section may find any state. -/
theorem Spec.atomically {f : EStateM ε σ α}
    (h : ∀ ss os, P ss os → ∀ s, match f.run s with
      | .ok a s' => Q a (ss ++ [(s, s')]) os
      | .error e s' => E e (ss ++ [(s, s')]) os) : Spec P (atomically f) Q E := by
  intro w hw
  have := h w.sections w.output hw (w.others w.accesses w.shared)
  simp only [Thread.atomically, EStateM.run] at this ⊢
  split at this <;> simp_all

theorem Spec.peek {f : σ → Except ε α}
    (h : ∀ ss os, P ss os → ∀ s, match f s with
      | .ok a => Q a ss os
      | .error e => E e ss os) : Spec P (peek f) Q E := by
  intro w hw
  have := h w.sections w.output hw (w.others w.accesses w.shared)
  simp only [Thread.peek, EStateM.run] at this ⊢
  split at this <;> simp_all

theorem Spec.external {Q : Unit → List (σ × σ) → List ω → Prop} (hQ : ∀ ss os, P ss os → Q () ss os)
    (hE : ∀ e ss os, P ss os → E e ss os) : Spec P external Q E := by
  intro w hw
  simp only [Thread.external, EStateM.run]
  cases w.faults w.calls with
  | none => exact hQ _ _ hw
  | some e => exact hE e _ _ hw

theorem Spec.emit {o : ω} {Q : Unit → List (σ × σ) → List ω → Prop}
    (h : ∀ ss os, P ss os → Q () ss (os ++ [o])) : Spec P (emit o) Q E := fun _ hw => h _ _ hw

theorem Spec.pure {a : α} (h : ∀ ss os, P ss os → Q a ss os) : Spec P (pure a) Q E :=
  Triple.pure fun _ hw => h _ _ hw

theorem Spec.throw {e : ε} (h : ∀ ss os, P ss os → E e ss os) : Spec P (throw e : Thread σ ε ω α) Q E :=
  Triple.throw fun _ hw => h _ _ hw

theorem Spec.bind {β : Type} {x : Thread σ ε ω α} {f : α → Thread σ ε ω β}
    {R : β → List (σ × σ) → List ω → Prop} (hx : Spec P x Q E) (hf : ∀ a, Spec (Q a) (f a) R E) :
    Spec P (x >>= f) R E := Triple.bind hx hf

theorem Spec.conseq {P' : List (σ × σ) → List ω → Prop} {Q' : α → List (σ × σ) → List ω → Prop}
    {E' : ε → List (σ × σ) → List ω → Prop} {x : Thread σ ε ω α} (h : Spec P x Q E)
    (hP : ∀ ss os, P' ss os → P ss os) (hQ : ∀ a ss os, Q a ss os → Q' a ss os)
    (hE : ∀ e ss os, E e ss os → E' e ss os) : Spec P' x Q' E' :=
  Triple.conseq h (fun _ => hP _ _) (fun _ _ => hQ _ _ _) fun _ _ => hE _ _ _

/-- A fact about the result that the record does not matter for. -/
theorem Spec.assumed {p : Prop} {x : Thread σ ε ω α} (h : p → Spec P x Q E) : Spec (fun ss os => P ss os ∧ p) x Q E :=
  fun w hw => h hw.2 w hw.1

/-- What a computation keeps, whether it returns or raises, an attempt of it keeps. -/
theorem Spec.attempted {x : Thread σ ε ω α} (h : Spec P x (fun _ => P) fun _ => P)
    {E : ε → List (σ × σ) → List ω → Prop} : Spec P (attempt x) (fun _ => P) E := by
  refine Triple.conseq (Triple.attempted h) (fun _ hw => hw) (fun r w hw => ?_) fun _ _ he => he.elim
  cases r <;> exact hw

/-- Whether a section of the record was the run of `f` with the result `a`. -/
def Seen (f : EStateM ε σ α) (a : α) (ss : List (σ × σ)) : Prop := ∃ p ∈ ss, f.run p.1 = .ok a p.2

/-- A fact about the record that more sections do not change. -/
def Lasting (C : List (σ × σ) → Prop) : Prop := ∀ ss p, C ss → C (ss ++ [p])

theorem Lasting.and {C D : List (σ × σ) → Prop} (hC : Lasting C) (hD : Lasting D) :
    Lasting fun ss => C ss ∧ D ss := fun ss p h => ⟨hC ss p h.1, hD ss p h.2⟩

theorem lasting_mem (C : σ × σ → Prop) : Lasting fun ss => ∃ p ∈ ss, C p := fun _ _ ⟨p, hp, h⟩ =>
  ⟨p, List.mem_append_left _ hp, h⟩

theorem lasting_head (C : σ × σ → Prop) : Lasting fun ss => ∃ p, ss.head? = some p ∧ C p := fun _ _ ⟨p, hp, h⟩ =>
  ⟨p, by rw [List.head?_append, hp]; rfl, h⟩

/-- A section adds itself to what is known from before. -/
theorem Spec.seen {C : List (σ × σ) → Prop} (hC : Lasting C) (f : EStateM ε σ α) {O : List ω → Prop} :
    Spec (fun ss os => O os ∧ C ss) (Thread.atomically f) (fun a ss os => O os ∧ C ss ∧ Seen f a ss)
      fun _ ss os => O os ∧ C ss := by
  refine .atomically fun ss os h s => ?_
  split
  · rename_i a s' hrun
    exact ⟨h.1, hC _ _ h.2, (s, s'), by simp, hrun⟩
  · exact ⟨h.1, hC _ _ h.2⟩

end Thread
