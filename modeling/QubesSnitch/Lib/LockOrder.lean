import Mathlib

/-!
# Locks taken in order

Any number of strands run programs that take locks by blocks, sleep on the condition of one of the locks, and wait for
workers they have started.  A program is `Safe` if every lock that it takes is above all locks it holds, if it sleeps
and waits without other locks, and if the shared state of the condition changes only under its lock, with a wake-up
wherever the change may end a sleep.

Safety is a check of the text of each program.  From it follow, for any interleaving and with exceptions anywhere:

* no two strands hold one lock (`exclusive`),
* a strand that is not asleep and not done can step, or waits for one that can (`progress`),
* nobody sleeps while there is what it sleeps for, if only one strand ever sleeps (`awake_of_ready`).
-/

namespace Locking

variable {ι σ L : Type}

/-! ### Programs -/

/-- The part of a program that has to do with locks. -/
inductive Prog (σ L : Type) where
  | skip
  /-- Change the shared state, and say whether that wakes a sleeper. -/
  | act (f : σ → σ → Bool → Prop)
  | seq (p q : Prog σ L)
  | choice (p q : Prog σ L)
  | loop (p : Prog σ L)
  /-- `with l: p` -/
  | hold (l : L) (p : Prog σ L)
  /-- Sleep until the shared state is ready. -/
  | await
  /-- Run `p` on any number of workers and wait for them. -/
  | spawn (p : Prog σ L)

/-- The lock of the condition, and what a sleeper sleeps for. -/
structure Condition (σ L : Type) where
  lock : L
  ready : σ → Prop

namespace Prog

/-- A worker neither sleeps nor starts workers. -/
def Leaf : Prog σ L → Prop
  | skip | act _ => True
  | seq p q | choice p q => p.Leaf ∧ q.Leaf
  | loop p | hold _ p => p.Leaf
  | await | spawn _ => False

/-- A program that never sleeps. -/
def Wakeful : Prog σ L → Prop
  | skip | act _ => True
  | seq p q | choice p q => p.Wakeful ∧ q.Wakeful
  | loop p | hold _ p | spawn p => p.Wakeful
  | await => False

def Safe [LT L] (c : Condition σ L) : List L → Prog σ L → Prop
  | _, skip => True
  | held, act f => c.lock ∈ held ∧ (∀ s, ∃ s' wakes, f s s' wakes) ∧ ∀ s s', f s s' false → c.ready s' → c.ready s
  | held, seq p q | held, choice p q => p.Safe c held ∧ q.Safe c held
  | held, loop p => p.Safe c held
  | held, hold l p => (∀ m ∈ held, m < l) ∧ p.Safe c (l :: held)
  | held, await => held = [c.lock]
  | held, spawn p => held = [] ∧ p.Leaf ∧ p.Safe c []

theorem Leaf.wakeful {p : Prog σ L} (h : p.Leaf) : p.Wakeful := by
  induction p with
  | skip => trivial
  | act f => trivial
  | seq p q hp hq => exact ⟨hp h.1, hq h.2⟩
  | choice p q hp hq => exact ⟨hp h.1, hq h.2⟩
  | loop p hp => exact hp h
  | hold l p hp => exact hp h
  | await => exact h
  | spawn p hp => exact h.elim

end Prog

/-! ### Strands -/

/-- What a strand has still to do: run a program, leave a block, wake up with the lock of the condition, or wait for its
workers. -/
inductive Frame (σ L : Type) where
  | run (p : Prog σ L)
  | release (l : L)
  | wake
  | join

structure Strand (ι σ L : Type) where
  stack : List (Frame σ L) := []
  held : List L := []
  asleep : Bool := false
  parent : Option ι := none

structure State (ι σ L : Type) where
  shared : σ
  strands : ι → Strand ι σ L

namespace Frame

def Leaf : Frame σ L → Prop
  | run p => p.Leaf
  | release _ => True
  | wake | join => False

def Wakeful : Frame σ L → Prop
  | run p => p.Wakeful
  | release _ | join => True
  | wake => False

def isRelease : Frame σ L → Bool
  | release _ => true
  | _ => false

end Frame

namespace State

variable [DecidableEq ι]

def put (s : State ι σ L) (t : ι) (strand : Strand ι σ L) : State ι σ L :=
  { s with strands := Function.update s.strands t strand }

/-- No strand holds the lock. -/
def Free (s : State ι σ L) (l : L) : Prop := ∀ u, l ∉ (s.strands u).held

/-- A sleeper is woken, if there is one. -/
inductive Notified (s : State ι σ L) : State ι σ L → Prop
  | none (h : ∀ u, (s.strands u).asleep = false) : Notified s s
  | one (u : ι) (h : (s.strands u).asleep) : Notified s (s.put u { s.strands u with asleep := false })

theorem exists_notified (s : State ι σ L) : ∃ s', s.Notified s' := by
  by_cases h : ∃ u, (s.strands u).asleep
  · obtain ⟨u, hu⟩ := h
    exact ⟨_, .one u hu⟩
  · exact ⟨s, .none fun u => Bool.eq_false_iff.2 fun hu => h ⟨u, hu⟩⟩

theorem put_self (s : State ι σ L) (t : ι) (strand : Strand ι σ L) : (s.put t strand).strands t = strand :=
  Function.update_self ..

theorem put_ne (s : State ι σ L) {t u : ι} (strand : Strand ι σ L) (h : u ≠ t) :
    (s.put t strand).strands u = s.strands u := Function.update_of_ne h ..

end State

/-! ### Steps -/

section Steps

variable [DecidableEq ι] (c : Condition σ L)

/-- A step of the strand `t`, apart from calls and exceptions. -/
inductive Step (t : ι) (s : State ι σ L) : State ι σ L → Prop
  | skip {k} (h : (s.strands t).stack = .run .skip :: k) : Step t s (s.put t { s.strands t with stack := k })
  | act {f k x wakes s'} (h : (s.strands t).stack = .run (.act f) :: k) (hf : f s.shared x wakes)
      (hs : let changed := { s.put t { s.strands t with stack := k } with shared := x }
        if wakes then changed.Notified s' else s' = changed) : Step t s s'
  | seq {p q k} (h : (s.strands t).stack = .run (.seq p q) :: k) :
      Step t s (s.put t { s.strands t with stack := .run p :: .run q :: k })
  | left {p q k} (h : (s.strands t).stack = .run (.choice p q) :: k) :
      Step t s (s.put t { s.strands t with stack := .run p :: k })
  | right {p q k} (h : (s.strands t).stack = .run (.choice p q) :: k) :
      Step t s (s.put t { s.strands t with stack := .run q :: k })
  | again {p k} (h : (s.strands t).stack = .run (.loop p) :: k) :
      Step t s (s.put t { s.strands t with stack := .run p :: .run (.loop p) :: k })
  | leave {p k} (h : (s.strands t).stack = .run (.loop p) :: k) : Step t s (s.put t { s.strands t with stack := k })
  | acquire {l p k} (h : (s.strands t).stack = .run (.hold l p) :: k) (hfree : s.Free l) :
      Step t s (s.put t { s.strands t with stack := .run p :: .release l :: k, held := l :: (s.strands t).held })
  | release {l k} (h : (s.strands t).stack = .release l :: k) :
      Step t s (s.put t { s.strands t with stack := k, held := (s.strands t).held.tail })
  | pass {k} (h : (s.strands t).stack = .run .await :: k) (hready : c.ready s.shared) :
      Step t s (s.put t { s.strands t with stack := k })
  | sleep {k} (h : (s.strands t).stack = .run .await :: k) (hready : ¬ c.ready s.shared) :
      Step t s (s.put t { s.strands t with
        stack := .wake :: .run .await :: k, held := (s.strands t).held.tail, asleep := true })
  | wake {k} (h : (s.strands t).stack = .wake :: k) (hawake : (s.strands t).asleep = false) (hfree : s.Free c.lock) :
      Step t s (s.put t { s.strands t with stack := k, held := c.lock :: (s.strands t).held })
  | fork {p k} (h : (s.strands t).stack = .run (.spawn p) :: k) (u : ι) (hidle : (s.strands u).stack = []) :
      Step t s (s.put u { stack := [.run p], parent := some t })
  | join {p k} (h : (s.strands t).stack = .run (.spawn p) :: k) : Step t s (s.put t { s.strands t with stack := .join :: k })
  | joined {k} (h : (s.strands t).stack = .join :: k)
      (hdone : ∀ u, (s.strands u).parent = some t → (s.strands u).stack = []) :
      Step t s (s.put t { s.strands t with stack := k })

/-- A step, a call of one of the programs of an idle strand, or an exception, which leaves the blocks it is in. -/
inductive Moves (calls : ι → Prog σ L → Prop) (s : State ι σ L) : State ι σ L → Prop
  | step {t s'} (h : Step c t s s') : Moves calls s s'
  | call {t p} (hidle : (s.strands t).stack = []) (hcall : calls t p) : Moves calls s (s.put t { stack := [.run p] })
  | raises {t p k} (h : (s.strands t).stack = .run p :: k) :
      Moves calls s (s.put t { s.strands t with stack := k.filter Frame.isRelease })

end Steps

/-! ### What holds of every strand -/

section Invariant

variable [LinearOrder L] {c : Condition σ L}

/-- The stack of a strand is safe with the locks that it holds, and gives them all back. -/
def Fits (c : Condition σ L) : List L → List (Frame σ L) → Prop
  | held, [] => held = []
  | held, .run p :: k => p.Safe c held ∧ Fits c held k
  | held, .release l :: k => ∃ rest, held = l :: rest ∧ (∀ m ∈ rest, m < l) ∧ Fits c rest k
  | held, .wake :: k => held = [] ∧ Fits c [c.lock] k
  | held, .join :: k => held = [] ∧ Fits c [] k

/-- Without its programs a strand still gives back its locks. -/
theorem Fits.unwind {held : List L} {k : List (Frame σ L)} (h : Fits c held k) (hwake : Frame.wake ∉ k) :
    Fits c held (k.filter Frame.isRelease) := by
  induction k generalizing held with
  | nil => exact h
  | cons frame k ih =>
    have hrest : Frame.wake ∉ k := fun hmem => hwake (List.mem_cons_of_mem _ hmem)
    cases frame with
    | run p => exact ih h.2 hrest
    | release l =>
      obtain ⟨rest, hheld, hlt, hk⟩ := h
      exact ⟨rest, hheld, hlt, ih hk hrest⟩
    | wake => exact absurd (List.mem_cons_self ..) hwake
    | join => exact h.1 ▸ ih h.2 hrest

/-- What holds of the strand `t` in every state, where only the strand `sleeper` ever sleeps. -/
structure Sound (c : Condition σ L) (sleeper : ι) (shared : σ) (t : ι) (strand : Strand ι σ L) : Prop where
  fits : Fits c strand.held strand.stack
  /-- Only the first frame is one of a sleeper. -/
  wake : ∀ frame k, strand.stack = frame :: k → Frame.wake ∉ k
  asleep : strand.asleep → (∃ k, strand.stack = .wake :: k) ∧ ¬ c.ready shared
  leaf : strand.parent ≠ none → ∀ frame ∈ strand.stack, frame.Leaf
  wakeful : t ≠ sleeper → ∀ frame ∈ strand.stack, frame.Wakeful

structure Orderly (c : Condition σ L) (sleeper : ι) (s : State ι σ L) : Prop where
  sound : ∀ t, Sound c sleeper s.shared t (s.strands t)
  exclusive : ∀ t u l, l ∈ (s.strands t).held → l ∈ (s.strands u).held → t = u

variable {sleeper t : ι} {shared : σ} {strand : Strand ι σ L}

/-- A sound strand may go on with a part of its stack that fits the locks. -/
theorem Sound.goOn (h : Sound c sleeper shared t strand) (new : List (Frame σ L)) {frame : Frame σ L}
    {k : List (Frame σ L)} {held : List L} (hstack : strand.stack = frame :: k)
    (hframe : frame = .wake → strand.asleep = false) (hfits : Fits c held (new ++ k)) (hwake : Frame.wake ∉ new)
    (hleaf : frame.Leaf → ∀ f ∈ new, f.Leaf) (hwakeful : frame.Wakeful → ∀ f ∈ new, f.Wakeful) :
    Sound c sleeper shared t { strand with stack := new ++ k, held := held } := by
  have hk := h.wake frame k hstack
  refine ⟨hfits, ?_, ?_, ?_, ?_⟩
  · intro f k' hnew hmem
    have hnew : new ++ k = f :: k' := hnew
    have hmem : Frame.wake ∈ new ++ k := hnew ▸ List.mem_cons_of_mem _ hmem
    exact (List.mem_append.1 hmem).elim hwake hk
  · intro hasleep
    have hasleep : strand.asleep = true := hasleep
    obtain ⟨⟨k', hk'⟩, -⟩ := h.asleep hasleep
    rw [hstack] at hk'
    rw [hframe (List.cons.inj hk').1] at hasleep
    cases hasleep
  · intro hparent f hf
    have hall : ∀ f ∈ frame :: k, f.Leaf := hstack ▸ h.leaf hparent
    rcases List.mem_append.1 hf with hf | hf
    · exact hleaf (hall frame (List.mem_cons_self ..)) f hf
    · exact hall f (List.mem_cons_of_mem _ hf)
  · intro ht f hf
    have hall : ∀ f ∈ frame :: k, f.Wakeful := hstack ▸ h.wakeful ht
    rcases List.mem_append.1 hf with hf | hf
    · exact hwakeful (hall frame (List.mem_cons_self ..)) f hf
    · exact hall f (List.mem_cons_of_mem _ hf)

variable {s : State ι σ L}

/-- The shared state may change if nobody then sleeps for what is there. -/
theorem Orderly.share (h : Orderly c sleeper s) {x : σ} (hx : ∀ u, (s.strands u).asleep → ¬ c.ready x) :
    Orderly c sleeper { s with shared := x } where
  sound u :=
    let hu := h.sound u
    ⟨hu.fits, hu.wake, fun hasleep => ⟨(hu.asleep hasleep).1, hx u hasleep⟩, hu.leaf, hu.wakeful⟩
  exclusive := h.exclusive

theorem Orderly.eq_sleeper (h : Orderly c sleeper s) {u : ι} (hasleep : (s.strands u).asleep) : u = sleeper := by
  by_contra hu
  obtain ⟨⟨k, hk⟩, -⟩ := (h.sound u).asleep hasleep
  exact (h.sound u).wakeful hu .wake (hk ▸ List.mem_cons_self ..)

/-- Nobody sleeps while the shared state is ready. -/
theorem Orderly.awake_of_ready (h : Orderly c sleeper s) (hready : c.ready s.shared) (t : ι) :
    (s.strands t).asleep = false := by
  by_contra hasleep
  exact ((h.sound t).asleep (by simpa using hasleep)).2 hready

/-- Nobody does anything. -/
def State.idle (shared : σ) : State ι σ L := ⟨shared, fun _ => {}⟩

theorem orderly_idle (shared : σ) : Orderly c sleeper (State.idle shared : State ι σ L) where
  sound _ := ⟨rfl, (fun _ _ hk => by cases hk), (fun hasleep => by cases hasleep), (fun _ _ hf => by cases hf),
    fun _ _ hf => by cases hf⟩
  exclusive _ _ _ hl := by cases hl

variable [DecidableEq ι]

/-- A strand may change if it stays sound and takes only free locks. -/
theorem Orderly.put (h : Orderly c sleeper s) (hsound : Sound c sleeper s.shared t strand)
    (hheld : ∀ l ∈ strand.held, l ∈ (s.strands t).held ∨ s.Free l) : Orderly c sleeper (s.put t strand) := by
  have hothers : ∀ u l, u ≠ t → l ∈ strand.held → l ∉ (s.strands u).held := by
    intro u l hu hl hmem
    rcases hheld l hl with hown | hfree
    · exact hu (h.exclusive u t l hmem hown)
    · exact hfree u hmem
  constructor
  · intro u
    by_cases hu : u = t
    · subst hu
      rw [s.put_self]
      exact hsound
    · rw [s.put_ne _ hu]
      exact h.sound u
  · intro u v l hu hv
    by_cases htu : u = t <;> by_cases htv : v = t
    · rw [htu, htv]
    · subst htu
      rw [s.put_self] at hu
      rw [s.put_ne _ htv] at hv
      exact absurd hv (hothers v l htv hu)
    · subst htv
      rw [s.put_self] at hv
      rw [s.put_ne _ htu] at hu
      exact absurd hu (hothers u l htu hv)
    · rw [s.put_ne _ htu] at hu
      rw [s.put_ne _ htv] at hv
      exact h.exclusive u v l hu hv

/-- After a wake-up nobody sleeps. -/
theorem Orderly.notified (h : Orderly c sleeper s) {x : σ} {s' : State ι σ L}
    (hs : State.Notified { s with shared := x } s') : Orderly c sleeper s' := by
  cases hs with
  | none hnone =>
    refine h.share fun u hasleep => ?_
    rw [show (s.strands u).asleep = false from hnone u] at hasleep
    cases hasleep
  | one u hu =>
    have hsleeper := h.eq_sleeper hu
    have hsound := h.sound u
    have hwoken : Orderly c sleeper (s.put u { s.strands u with asleep := false }) :=
      h.put ⟨hsound.fits, hsound.wake, (fun hasleep => by cases hasleep), hsound.leaf, hsound.wakeful⟩ fun l hl => .inl hl
    refine hwoken.share fun v hasleep => ?_
    obtain rfl : v = u := (hwoken.eq_sleeper hasleep).trans hsleeper.symm
    rw [s.put_self] at hasleep
    cases hasleep

private theorem forall_mem_pair {α : Type} {p : α → Prop} {a b : α} (ha : p a) (hb : p b) : ∀ x ∈ [a, b], p x := by
  simp [ha, hb]

theorem Orderly.step (h : Orderly c sleeper s) {s' : State ι σ L} (hstep : Step c t s s') : Orderly c sleeper s' := by
  have hs := h.sound t
  -- what the first frame says about the locks
  have hfits : ∀ {frame k}, (s.strands t).stack = frame :: k → Fits c (s.strands t).held (frame :: k) :=
    fun hk => hk ▸ hs.fits
  cases hstep with
  | skip hk => exact h.put (hs.goOn [] hk (by simp) (hfits hk).2 (by simp) (by simp) (by simp)) fun _ => .inl
  | act hk hf hs' =>
    rename_i f k x wakes
    have hput : Orderly c sleeper (s.put t { s.strands t with stack := k }) :=
      h.put (hs.goOn [] hk (by simp) (hfits hk).2 (by simp) (by simp) (by simp)) fun _ => .inl
    obtain ⟨-, -, hquiet⟩ := (hfits hk).1
    cases wakes with
    | true => exact hput.notified hs'
    | false =>
      obtain rfl : s' = _ := hs'
      exact hput.share fun u hasleep hready =>
        ((hput.sound u).asleep hasleep).2 (hquiet _ _ hf hready)
  | seq hk =>
    obtain ⟨⟨hp, hq⟩, hrest⟩ := hfits hk
    exact h.put (hs.goOn [.run _, .run _] hk (by simp) ⟨hp, hq, hrest⟩ (by simp)
      (fun hf => forall_mem_pair hf.1 hf.2) fun hf => forall_mem_pair hf.1 hf.2) fun _ => .inl
  | left hk =>
    exact h.put (hs.goOn [.run _] hk (by simp) ⟨(hfits hk).1.1, (hfits hk).2⟩ (by simp)
      (fun hf => List.forall_mem_singleton.2 hf.1) fun hf => List.forall_mem_singleton.2 hf.1) fun _ => .inl
  | right hk =>
    exact h.put (hs.goOn [.run _] hk (by simp) ⟨(hfits hk).1.2, (hfits hk).2⟩ (by simp)
      (fun hf => List.forall_mem_singleton.2 hf.2) fun hf => List.forall_mem_singleton.2 hf.2) fun _ => .inl
  | again hk =>
    obtain ⟨hp, hrest⟩ := hfits hk
    exact h.put (hs.goOn [.run _, .run (.loop _)] hk (by simp) ⟨hp, hp, hrest⟩ (by simp)
      (fun hf => forall_mem_pair hf hf) fun hf => forall_mem_pair hf hf) fun _ => .inl
  | leave hk => exact h.put (hs.goOn [] hk (by simp) (hfits hk).2 (by simp) (by simp) (by simp)) fun _ => .inl
  | acquire hk hfree =>
    obtain ⟨⟨hlt, hp⟩, hrest⟩ := hfits hk
    refine h.put (hs.goOn [.run _, .release _] hk (by simp) ⟨hp, _, rfl, hlt, hrest⟩ (by simp)
      (fun hf => forall_mem_pair hf trivial) fun hf => forall_mem_pair hf trivial) ?_
    intro m hm
    rcases List.mem_cons.1 hm with rfl | hm
    · exact .inr hfree
    · exact .inl hm
  | release hk =>
    obtain ⟨rest, hheld, -, hrest⟩ := hfits hk
    have htail : (s.strands t).held.tail = rest := by rw [hheld, List.tail_cons]
    refine h.put (hs.goOn [] hk (by simp) (htail ▸ hrest) (by simp) (by simp) (by simp)) ?_
    exact fun m hm => .inl (List.mem_of_mem_tail hm)
  | pass hk hready => exact h.put (hs.goOn [] hk (by simp) (hfits hk).2 (by simp) (by simp) (by simp)) fun _ => .inl
  | sleep hk hready =>
    obtain ⟨hheld, hrest⟩ := hfits hk
    have hheld : (s.strands t).held = [c.lock] := hheld
    have hmem : ∀ {frame : Frame σ L}, frame = .run .await → frame ∈ (s.strands t).stack :=
      fun hframe => hk ▸ hframe ▸ List.mem_cons_self ..
    refine h.put ⟨⟨by rw [hheld, List.tail_cons], rfl, hheld ▸ hrest⟩, ?_, fun _ => ⟨⟨_, rfl⟩, hready⟩, ?_, ?_⟩
      fun m hm => .inl (List.mem_of_mem_tail hm)
    · rintro frame k' hk' hwake
      obtain ⟨-, rfl⟩ := List.cons.inj hk'
      exact hs.wake _ _ hk (by simpa using hwake)
    · exact fun hparent => (hs.leaf hparent _ (hmem rfl)).elim
    · exact fun ht => (hs.wakeful ht _ (hmem rfl)).elim
  | wake hk hawake hfree =>
    obtain ⟨hheld, hrest⟩ := hfits hk
    refine h.put (hs.goOn [] hk (fun _ => hawake) (hheld ▸ hrest) (by simp) (by simp) (by simp)) ?_
    intro m hm
    rcases List.mem_cons.1 hm with rfl | hm
    · exact .inr hfree
    · exact .inl hm
  | fork hk u hidle =>
    rename_i p k
    obtain ⟨⟨-, hworker, hp⟩, -⟩ := hfits hk
    refine h.put ⟨⟨hp, rfl⟩, ?_, (fun hasleep => by cases hasleep), ?_, ?_⟩ fun m hm => by cases hm
    · rintro frame k' hk' hmem
      obtain ⟨-, rfl⟩ := List.cons.inj hk'
      cases hmem
    · exact fun _ => List.forall_mem_singleton.2 hworker
    · exact fun _ => List.forall_mem_singleton.2 hworker.wakeful
  | join hk =>
    obtain ⟨⟨hheld, -⟩, hrest⟩ := hfits hk
    exact h.put (hs.goOn [.join] hk (by simp) ⟨hheld, hheld ▸ hrest⟩ (by simp) (fun hf => hf.elim)
      fun _ => List.forall_mem_singleton.2 trivial) fun _ => .inl
  | joined hk hdone =>
    obtain ⟨hheld, hrest⟩ := hfits hk
    exact h.put (hs.goOn [] hk (by simp) (hheld ▸ hrest) (by simp) (by simp) (by simp)) fun _ => .inl

/-- A program that a strand may be asked to run. -/
def Callable (c : Condition σ L) (sleeper t : ι) (p : Prog σ L) : Prop := p.Safe c [] ∧ (t ≠ sleeper → p.Wakeful)

theorem Orderly.moves (h : Orderly c sleeper s) {calls : ι → Prog σ L → Prop}
    (hcalls : ∀ t p, calls t p → Callable c sleeper t p) {s' : State ι σ L} (hmoves : Moves c calls s s') :
    Orderly c sleeper s' := by
  cases hmoves with
  | step hstep => exact h.step hstep
  | call hidle hcall =>
    obtain ⟨hsafe, hwakeful⟩ := hcalls _ _ hcall
    refine h.put ⟨⟨hsafe, rfl⟩, ?_, (fun hasleep => by cases hasleep), ?_, ?_⟩ fun m hm => by cases hm
    · rintro frame k' hk' hmem
      obtain ⟨-, rfl⟩ := List.cons.inj hk'
      cases hmem
    · exact fun hparent => absurd rfl hparent
    · exact fun ht => List.forall_mem_singleton.2 (hwakeful ht)
  | raises hk =>
    rename_i t p k
    have hs := h.sound t
    have hrest := hs.wake _ _ hk
    have hkeep : ∀ f ∈ k.filter Frame.isRelease, f.isRelease = true ∧ f ∈ (s.strands t).stack := fun f hf =>
      ⟨(List.mem_filter.1 hf).2, hk ▸ List.mem_cons_of_mem _ (List.mem_filter.1 hf).1⟩
    have hfits : Fits c (s.strands t).held (.run p :: k) := hk ▸ hs.fits
    refine h.put ⟨hfits.2.unwind hrest, ?_, ?_, ?_, ?_⟩ fun _ => .inl
    · intro frame k' hk' hmem
      have hk' : k.filter Frame.isRelease = frame :: k' := hk'
      exact hrest (List.mem_filter.1 (hk' ▸ List.mem_cons_of_mem _ hmem)).1
    · intro hasleep
      obtain ⟨⟨k', hk'⟩, -⟩ := hs.asleep hasleep
      rw [hk] at hk'
      cases hk'
    · exact fun hparent f hf => hs.leaf hparent f (hkeep f hf).2
    · exact fun ht f hf => hs.wakeful ht f (hkeep f hf).2

/-! ### Runs -/

theorem Orderly.run {calls : ι → Prog σ L → Prop} (hcalls : ∀ t p, calls t p → Callable c sleeper t p) {shared : σ}
    (hrun : Relation.ReflTransGen (Moves c calls) (State.idle shared) s) : Orderly c sleeper s := by
  induction hrun with
  | refl => exact orderly_idle shared
  | tail _ hmoves ih => exact ih.moves hcalls hmoves

/-! ### Progress -/

/-- A program goes on, or waits for a lock. -/
theorem Orderly.run_steps (h : Orderly c sleeper s) {p : Prog σ L} {k : List (Frame σ L)}
    (hk : (s.strands t).stack = .run p :: k) : (∃ s', Step c t s s') ∨ ∃ l q, p = .hold l q ∧ ¬ s.Free l := by
  have hfits : Fits c (s.strands t).held (.run p :: k) := hk ▸ (h.sound t).fits
  cases p with
  | skip => exact .inl ⟨_, .skip hk⟩
  | act f =>
    obtain ⟨-, htotal, -⟩ := hfits.1
    obtain ⟨x, wakes, hx⟩ := htotal s.shared
    let changed : State ι σ L := { s.put t { s.strands t with stack := k } with shared := x }
    obtain ⟨s', hs'⟩ : ∃ s', if wakes then changed.Notified s' else s' = changed := by
      cases wakes with
      | true => exact changed.exists_notified
      | false => exact ⟨_, rfl⟩
    exact .inl ⟨s', .act hk hx hs'⟩
  | seq p q => exact .inl ⟨_, .seq hk⟩
  | choice p q => exact .inl ⟨_, .left hk⟩
  | loop p => exact .inl ⟨_, .leave hk⟩
  | hold l p =>
    by_cases hfree : s.Free l
    · exact .inl ⟨_, .acquire hk hfree⟩
    · exact .inr ⟨l, p, rfl, hfree⟩
  | await =>
    by_cases hready : c.ready s.shared
    · exact .inl ⟨_, .pass hk hready⟩
    · exact .inl ⟨_, .sleep hk hready⟩
  | spawn p => exact .inl ⟨_, .join hk⟩

/-- A strand waits for the holder of a lock that it is to take, or for a worker. -/
inductive Waits (c : Condition σ L) (s : State ι σ L) (t u : ι) : Prop
  | lock {l p k} (h : (s.strands t).stack = .run (.hold l p) :: k) (hu : l ∈ (s.strands u).held)
  | wake {k} (h : (s.strands t).stack = .wake :: k) (hu : c.lock ∈ (s.strands u).held)
  | worker {k} (h : (s.strands t).stack = .join :: k) (hparent : (s.strands u).parent = some t)
      (hbusy : (s.strands u).stack ≠ [])

/-- At the end of the waiting somebody can step. -/
def Resolves (c : Condition σ L) (s : State ι σ L) (t : ι) : Prop :=
  ∃ u, Relation.ReflTransGen (Waits c s) t u ∧ ∃ s', Step c u s s'

omit [LinearOrder L] in
theorem Resolves.of_step {s' : State ι σ L} (h : Step c t s s') : Resolves c s t := ⟨t, .refl, s', h⟩

omit [LinearOrder L] in
theorem Resolves.of_waits {u : ι} (hwaits : Waits c s t u) (h : Resolves c s u) : Resolves c s t := by
  obtain ⟨v, hchain, hstep⟩ := h
  exact ⟨v, .head hwaits hchain, hstep⟩

/-- The holder of a lock can step, or waits for ever higher locks up to somebody who can. -/
theorem Orderly.holder_resolves [WellFoundedGT L] (h : Orderly c sleeper s) (l : L) :
    ∀ u, l ∈ (s.strands u).held → Resolves c s u := by
  induction l using WellFoundedGT.induction with
  | ind l ih =>
    intro u hu
    have hfits := (h.sound u).fits
    cases hk : (s.strands u).stack with
    | nil =>
      rw [hk] at hfits
      rw [show (s.strands u).held = [] from hfits] at hu
      cases hu
    | cons frame k =>
      rw [hk] at hfits
      cases frame with
      | run p =>
        rcases h.run_steps hk with ⟨s', hstep⟩ | ⟨m, q, rfl, hblocked⟩
        · exact .of_step hstep
        · obtain ⟨⟨hlt, -⟩, -⟩ := hfits
          obtain ⟨v, hv⟩ := not_forall_not.1 hblocked
          exact .of_waits (.lock hk hv) (ih m (hlt l hu) v hv)
      | release m => exact .of_step (.release hk)
      | wake =>
        rw [show (s.strands u).held = [] from hfits.1] at hu
        cases hu
      | join =>
        rw [show (s.strands u).held = [] from hfits.1] at hu
        cases hu

/-- There is no deadlock: a strand that is not done and does not sleep can step, or waits for one that can. -/
theorem Orderly.progress [WellFoundedGT L] (h : Orderly c sleeper s) (hawake : (s.strands t).asleep = false)
    (hbusy : (s.strands t).stack ≠ []) : Resolves c s t := by
  have hrun : ∀ {u p k}, (s.strands u).stack = .run p :: k → Resolves c s u := by
    intro u p k hk
    rcases h.run_steps hk with ⟨s', hstep⟩ | ⟨l, q, rfl, hblocked⟩
    · exact .of_step hstep
    · obtain ⟨v, hv⟩ := not_forall_not.1 hblocked
      exact .of_waits (.lock hk hv) (h.holder_resolves l v hv)
  cases hk : (s.strands t).stack with
  | nil => exact absurd hk hbusy
  | cons frame k =>
    cases frame with
    | run p => exact hrun hk
    | release l => exact .of_step (.release hk)
    | wake =>
      by_cases hfree : s.Free c.lock
      · exact .of_step (.wake hk hawake hfree)
      · obtain ⟨v, hv⟩ := not_forall_not.1 hfree
        exact .of_waits (.wake hk hv) (h.holder_resolves c.lock v hv)
    | join =>
      by_cases hdone : ∀ u, (s.strands u).parent = some t → (s.strands u).stack = []
      · exact .of_step (.joined hk hdone)
      · -- a worker that is not done runs a program or leaves a block
        simp only [not_forall] at hdone
        obtain ⟨u, hparent, hworker⟩ := hdone
        refine .of_waits (.worker hk hparent hworker) ?_
        cases hku : (s.strands u).stack with
        | nil => exact absurd hku hworker
        | cons worker rest =>
          have hleaf : worker.Leaf := (h.sound u).leaf (by simp [hparent]) worker (hku ▸ List.mem_cons_self ..)
          cases worker with
          | run p => exact hrun hku
          | release l => exact .of_step (.release hku)
          | wake => exact hleaf.elim
          | join => exact hleaf.elim

end Invariant

end Locking
