import QubesSnitch.Queue

/-!
# Runs of the prompt queue

The functions of the queue may be called in any order, by any number of connections, with any arguments (`QueueEvent`),
and each is one step.  `save_pending_decision` is taken with any functions to save a rule and to load the table; the calls
of the first are written down (`logged`), so that a run says which answers were applied.

A run keeps the queue valid, and the queue only evolves (`state_evolves`).  So a prompt id stays with its prompt as
long as it is in the queue and is gone for good after that; an answer that is applied takes the id out of the queue
(`Applied`), which makes it the last one for this prompt.
-/

namespace QubesSnitch

variable {σ : Type}

/-- A policy state with the calls of `append_rule` so far. -/
structure Logged (σ : Type) where
  state : σ
  calls : List (Request × Decision)

def Logged.lift {α : Type} (x : EStateM PyError σ α) (call : List (Request × Decision)) :
    EStateM PyError (Logged σ) α := fun s =>
  match x.run s.state with
  | .ok a state => .ok a ⟨state, s.calls ++ call⟩
  | .error e state => .error e ⟨state, s.calls ++ call⟩

/-- `append_rule`, with a note of the call. -/
def logged (appendRule : Request → Decision → EStateM PyError σ Unit) (request : Request) (decision : Decision) :
    EStateM PyError (Logged σ) Unit := Logged.lift (appendRule request decision) [(request, decision)]

inductive QueueEvent where
  | queueQuestion (request : Request)
  | nextPendingRequest
  | removePendingForSource (source : String)
  | discardPendingDecision (key : QuestionKey) (request : Request)
  | savePendingDecision (key : QuestionKey) (request : Request) (decision : Decision)

section Run

variable (config : Config) (appendRule : Request → Decision → EStateM PyError σ Unit)
  (loadNft : EStateM PyError σ Unit)

/-- What one call leaves. -/
def QueueEvent.apply (s : Shared (Logged σ)) : QueueEvent → Shared (Logged σ)
  | queueQuestion request => { s with queue := (QubesSnitch.queueQuestion request config s.queue).2 }
  | nextPendingRequest => fetchPrompt.leaves s
  | removePendingForSource source => { s with queue := QubesSnitch.removePendingForSource source s.queue }
  | discardPendingDecision key request => { s with queue := QubesSnitch.discardPendingDecision key request s.queue }
  | savePendingDecision key request decision =>
    (saveSection (logged appendRule) (Logged.lift loadNft []) key request decision).leaves s

/-- The state before the `n`-th call. -/
def queueRun (start : σ) (events : Nat → QueueEvent) : Nat → Shared (Logged σ)
  | 0 => ⟨Queue.initial, ⟨start, []⟩⟩
  | n + 1 => (events n).apply config appendRule loadNft (queueRun start events n)

end Run

/-! ### One step -/

theorem fetchPrompt_leaves (s : Shared σ) : fetchPrompt.leaves s = s := by
  unfold EStateM.leaves EStateM.run fetchPrompt
  cases nextPendingRequest s.queue <;> rfl

theorem logged_leaves (appendRule : Request → Decision → EStateM PyError σ Unit) (loadNft : EStateM PyError σ Unit)
    (request : Request) (decision : Decision) (s : Logged σ) :
    ((do logged appendRule request decision; Logged.lift loadNft [] : EStateM PyError (Logged σ) Unit).leaves s).calls =
      s.calls ++ [(request, decision)] := by
  simp only [EStateM.leaves, EStateM.run, bind, EStateM.bind, logged, Logged.lift]
  cases appendRule request decision s.state with
  | ok a state => cases h : loadNft state <;> simp [h]
  | error e state => rfl

/-- What the section of an answer does to the queue and to the policy state. -/
theorem saveSection_leaves (appendRule : Request → Decision → EStateM PyError σ Unit) (loadNft : EStateM PyError σ Unit)
    (key : QuestionKey) (request : Request) (decision : Decision) (s : Shared σ) :
    (promptCurrent key request s.queue = false ∧
      (saveSection appendRule loadNft key request decision).leaves s = s) ∨
    (promptCurrent key request s.queue ∧ ∃ keys,
      ((saveSection appendRule loadNft key request decision).leaves s).queue = s.queue.dropAll (key :: keys) ∧
      (((saveSection appendRule loadNft key request decision).leaves s).ctx = s.ctx ∨
        ((saveSection appendRule loadNft key request decision).leaves s).ctx =
          (do appendRule request decision; loadNft : EStateM PyError σ Unit).leaves s.ctx)) := by
  unfold EStateM.leaves EStateM.run saveSection
  cases hc : promptCurrent key request s.queue with
  | false => exact Or.inl ⟨rfl, rfl⟩
  | true =>
    refine Or.inr ⟨rfl, ?_⟩
    simp only [Bool.not_true, Bool.false_eq_true, if_false]
    cases hr : removePendingHostnameSet request decision (s.queue.drop key) with
    | error e => exact ⟨[], rfl, Or.inl rfl⟩
    | ok queue =>
      obtain ⟨keys, rfl⟩ := removePendingHostnameSet_ok hr
      refine ⟨keys, ?_, Or.inr ?_⟩ <;>
        · simp only [onCtx, EStateM.run]
          cases (do appendRule request decision; loadNft : EStateM PyError σ Unit) s.ctx <;> rfl

section Steps

variable (config : Config) (appendRule : Request → Decision → EStateM PyError σ Unit) (loadNft : EStateM PyError σ Unit)

theorem QueueEvent.apply_evolves (s : Shared (Logged σ)) (event : QueueEvent) :
    s.queue.Evolves (event.apply config appendRule loadNft s).queue := by
  cases event with
  | queueQuestion request => exact queueQuestion_evolves request config s.queue
  | nextPendingRequest =>
    rw [apply, fetchPrompt_leaves]
    exact .refl _
  | removePendingForSource source => exact .dropAll _ _
  | discardPendingDecision key request => exact discardPendingDecision_evolves key request s.queue
  | savePendingDecision key request decision =>
    rcases saveSection_leaves (logged appendRule) (Logged.lift loadNft []) key request decision s with
      ⟨-, hs⟩ | ⟨-, keys, hq, -⟩
    · rw [apply, hs]
      exact .refl _
    · rw [apply, hq]
      exact .dropAll _ _

theorem QueueEvent.apply_valid {s : Shared (Logged σ)} (h : s.queue.Valid config.pendingQueueSize)
    (event : QueueEvent) : (event.apply config appendRule loadNft s).queue.Valid config.pendingQueueSize := by
  cases event with
  | queueQuestion request => exact queueQuestion_valid h request
  | nextPendingRequest =>
    rw [apply, fetchPrompt_leaves]
    exact h
  | removePendingForSource source => exact h.dropAll _
  | discardPendingDecision key request => exact discardPendingDecision_valid h key request
  | savePendingDecision key request decision =>
    rcases saveSection_leaves (logged appendRule) (Logged.lift loadNft []) key request decision s with
      ⟨-, hs⟩ | ⟨-, keys, hq, -⟩
    · rw [apply, hs]
      exact h
    · rw [apply, hq]
      exact h.dropAll _

/-- A call of `append_rule` is for the prompt that waits under the key, which it takes out of the queue. -/
theorem QueueEvent.apply_calls (s : Shared (Logged σ)) (event : QueueEvent) :
    (event.apply config appendRule loadNft s).ctx.calls = s.ctx.calls ∨
    ∃ key request decision keys, event = .savePendingDecision key request decision ∧
      promptCurrent key request s.queue ∧
      (event.apply config appendRule loadNft s).queue = s.queue.dropAll (key :: keys) ∧
      (event.apply config appendRule loadNft s).ctx.calls = s.ctx.calls ++ [(request, decision)] := by
  cases event with
  | queueQuestion request => exact Or.inl rfl
  | nextPendingRequest =>
    rw [apply, fetchPrompt_leaves]
    exact Or.inl rfl
  | removePendingForSource source => exact Or.inl rfl
  | discardPendingDecision key request => exact Or.inl rfl
  | savePendingDecision key request decision =>
    rcases saveSection_leaves (logged appendRule) (Logged.lift loadNft []) key request decision s with
      ⟨-, hs⟩ | ⟨hc, keys, hq, hctx | hctx⟩
    · exact Or.inl (by rw [apply, hs])
    · exact Or.inl (by rw [apply, hctx])
    · exact Or.inr ⟨key, request, decision, keys, rfl, hc, hq, by rw [apply, hctx, logged_leaves]⟩

end Steps

/-! ### Runs -/

/-- Every answer that was applied was for an id that is out of the queue now, each for another one. -/
structure Applied (s : Shared (Logged σ)) : Prop where
  once : (s.ctx.calls.map fun call => call.1.promptId).Nodup
  gone : ∀ call ∈ s.ctx.calls, ∃ id, call.1.promptId = some id ∧ id < s.queue.next ∧
    ∀ key, s.queue.ids.get? key ≠ some id

section Runs

variable (config : Config) (appendRule : Request → Decision → EStateM PyError σ Unit) (loadNft : EStateM PyError σ Unit)

theorem Applied.step {s : Shared (Logged σ)} (hv : s.queue.Valid config.pendingQueueSize) (h : Applied s)
    (event : QueueEvent) : Applied (event.apply config appendRule loadNft s) := by
  have hevolves := event.apply_evolves config appendRule loadNft s
  have hold : ∀ call ∈ s.ctx.calls, ∃ id, call.1.promptId = some id ∧
      id < (event.apply config appendRule loadNft s).queue.next ∧
      ∀ key, (event.apply config appendRule loadNft s).queue.ids.get? key ≠ some id := by
    intro call hcall
    obtain ⟨id, hid, hlt, hgone⟩ := h.gone call hcall
    exact ⟨id, hid, Nat.lt_of_lt_of_le hlt hevolves.next, fun key hkey =>
      hgone key (hevolves.kept key id hkey hlt).1⟩
  rcases event.apply_calls config appendRule loadNft s with
    hcalls | ⟨key, request, decision, keys, -, hc, hqueue, hcalls⟩
  · exact ⟨hcalls ▸ h.once, hcalls ▸ hold⟩
  · obtain ⟨id, hid, hget⟩ := id_of_promptCurrent hv hc
    refine ⟨?_, fun call hcall => ?_⟩
    · rw [hcalls, List.map_append, List.nodup_append]
      refine ⟨h.once, List.nodup_singleton _, ?_⟩
      rintro _ hmem _ hnew rfl
      obtain ⟨call, hcall, hcallId⟩ := List.mem_map.1 hmem
      obtain ⟨id', hid', -, hgone⟩ := h.gone call hcall
      have hsame : some id' = some id :=
        (hid'.symm.trans hcallId).trans ((List.mem_singleton.1 hnew).trans hid)
      exact hgone key (Option.some.inj hsame ▸ hget)
    · rw [hcalls] at hcall
      rcases List.mem_append.1 hcall with hcall | hcall
      · exact hold call hcall
      · rw [List.mem_singleton.1 hcall]
        refine ⟨id, hid, Nat.lt_of_lt_of_le (hv.fresh key id hget) hevolves.next, fun key' hkey' => ?_⟩
        rw [hqueue, TicketQueue.ids_dropAll] at hkey'
        split at hkey'
        · cases hkey'
        · rename_i hmem
          exact hmem (List.mem_cons.2 (Or.inl (hv.ids_injective hkey' hget)))

variable (start : σ) (events : Nat → QueueEvent)

theorem queueRun_valid (n : Nat) :
    (queueRun config appendRule loadNft start events n).queue.Valid config.pendingQueueSize := by
  induction n with
  | zero => exact Queue.valid_initial _
  | succ n ih => exact QueueEvent.apply_valid _ _ _ ih (events n)

theorem queueRun_applied (n : Nat) : Applied (queueRun config appendRule loadNft start events n) := by
  induction n with
  | zero => exact ⟨List.nodup_nil, by simp [queueRun]⟩
  | succ n ih => exact ih.step _ _ _ (queueRun_valid _ _ _ start events n) (events n)

theorem queueRun_evolves (n : Nat) : (queueRun config appendRule loadNft start events n).queue.Evolves
    (queueRun config appendRule loadNft start events (n + 1)).queue := (events n).apply_evolves _ _ _ _

end Runs

/-- What holds in a run of the queue functions. -/
structure AnsweredOnce (capacity : Nat) (events : Nat → QueueEvent) (run : Nat → Shared (Logged σ)) : Prop where
  /-- The two dictionaries have the same keys, within the capacity, with ids that grow along the queue. -/
  valid : ∀ n, (run n).queue.Valid capacity
  /-- An id is never used for another prompt, and what has left the queue does not come back. -/
  stable : ∀ i j key key' id, i ≤ j → (run i).queue.ids.get? key = some id → (run j).queue.ids.get? key' = some id →
    key' = key ∧ ∀ n, i ≤ n → n ≤ j → (run n).queue.ids.get? key = some id
  /-- The prompt that is shown is the one that has waited longest. -/
  fifo : ∀ n key request, nextPendingRequest (run n).queue = .ok (some (key, request)) →
    ∃ id, request.promptId = some id ∧ (run n).queue.ids.get? key = some id ∧
      ∀ key' id', (run n).queue.ids.get? key' = some id' → id ≤ id'
  /-- An answer to a prompt shown at `i` is applied at `j` only if the prompt has waited all the time between. -/
  current : ∀ i j key request answered decision, i ≤ j →
    nextPendingRequest (run i).queue = .ok (some (key, request)) →
    events j = .savePendingDecision key answered decision → answered.promptId = request.promptId →
    (run (j + 1)).ctx.calls ≠ (run j).ctx.calls →
    ∀ n, i ≤ n → n ≤ j → (run n).queue.ids.get? key = request.promptId
  /-- No two answers are applied for one id. -/
  once : ∀ n, ((run n).ctx.calls.map fun call => call.1.promptId).Nodup

private theorem answeredOnce_queueRun (config : Config) (appendRule : Request → Decision → EStateM PyError σ Unit)
    (loadNft : EStateM PyError σ Unit) (start : σ) (events : Nat → QueueEvent) :
    AnsweredOnce config.pendingQueueSize events (queueRun config appendRule loadNft start events) := by
  have hvalid := queueRun_valid config appendRule loadNft start events
  have hevolves := queueRun_evolves config appendRule loadNft start events
  have hbetween : ∀ i j key id, id < (queueRun config appendRule loadNft start events i).queue.next →
      (queueRun config appendRule loadNft start events j).queue.ids.get? key = some id →
      ∀ n, i ≤ n → n ≤ j → (queueRun config appendRule loadNft start events n).queue.ids.get? key = some id :=
    fun i j key id hid hj => TicketQueue.Evolves.between
      (Q := fun n => (queueRun config appendRule loadNft start events n).queue) hevolves hid hj
  refine ⟨hvalid, ?_, ?_, ?_, fun n => (queueRun_applied _ _ _ start events n).once⟩
  · intro i j key key' id hij hi hj
    have hkept := hbetween i j key' id ((hvalid i).fresh key id hi) hj
    have hkey : key' = key := (hvalid i).ids_injective (hkept i (Nat.le_refl i) hij) hi
    exact ⟨hkey, hkey ▸ hkept⟩
  · intro n key request hnext
    obtain ⟨id, pending, rfl, -, hid, hle⟩ := nextPendingRequest_some (hvalid n) hnext
    exact ⟨id, rfl, hid, hle⟩
  · intro i j key request answered decision hij hnext hevent hanswered hcalls
    obtain ⟨id, pending, rfl, -, hid, -⟩ := nextPendingRequest_some (hvalid i) hnext
    rcases (events j).apply_calls config appendRule loadNft
      (queueRun config appendRule loadNft start events j) with hsame | ⟨key', request', decision', _, he, hc, -, -⟩
    · exact absurd hsame hcalls
    · rw [hevent] at he
      cases he
      obtain ⟨id', hid', hget⟩ := id_of_promptCurrent (hvalid j) hc
      have hsame : id' = id := by
        rw [hanswered] at hid'
        exact (Option.some.inj hid').symm
      exact hbetween i j key id ((hvalid i).fresh key id hid) (hsame ▸ hget)

/-- A thread that takes no section and leaves the shared state as it is. -/
def LeavesAlone (x : Thread (Shared σ) PyError Empty Unit) : Prop :=
  ∀ w, (x.leaves w).shared = w.shared ∧ (x.leaves w).sections = w.sections

theorem answerPrompt_leavesAlone (lib : DnsPython) (resolver : Resolver)
    (appendRule : Request → Decision → EStateM PyError σ Unit) (loadNft : EStateM PyError σ Unit) (key : QuestionKey)
    (request : Request) {reply : CliReply} (h : reply.decision? = none) :
    LeavesAlone (answerPrompt lib resolver appendRule loadNft key request reply) := by
  intro w
  have hexternal : ((Thread.external : Thread (Shared σ) PyError Empty Unit).leaves w).shared = w.shared ∧
      ((Thread.external : Thread (Shared σ) PyError Empty Unit).leaves w).sections = w.sections := by
    simp only [EStateM.leaves, EStateM.run, Thread.external]
    cases w.faults w.calls <;> exact ⟨rfl, rfl⟩
  cases reply with
  | osError => exact hexternal
  | undecodable error => exact ⟨rfl, rfl⟩
  | line text =>
    have hname : Decision.ofName? text = none := h
    rw [answerPrompt, hname]
    exact hexternal

/-- A connection that shows a prompt and ends without a decision leaves the state that it found when it took the prompt
and what the enrichment has done since. -/
def EndsUnanswered (enrichRequest : Request → Thread (Shared σ) PyError Empty (Option Request))
    (x : Thread (Shared σ) PyError Empty Unit) : Prop :=
  ∀ w w₁ w₂ key request enriched, (Thread.atomically fetchPrompt).run w = .ok (some (key, request)) w₁ →
    (enrichRequest request).run w₁ = .ok (some enriched) w₂ →
    w₁.shared = w.others w.accesses w.shared ∧ (x.leaves w).shared = w₂.shared ∧ (x.leaves w).sections = w₂.sections

theorem handleCliConnection_endsUnanswered (lib : DnsPython) (resolver : Resolver)
    (appendRule : Request → Decision → EStateM PyError σ Unit) (loadNft : EStateM PyError σ Unit)
    (enrichRequest : Request → Thread (Shared σ) PyError Empty (Option Request)) {reply : CliReply}
    (h : reply.decision? = none) : EndsUnanswered enrichRequest
      (handleCliConnection lib resolver appendRule loadNft enrichRequest reply) := by
  intro w w₁ w₂ key request enriched hfetch henrich
  have hfound : w₁.shared = w.others w.accesses w.shared := by
    have hleaves := fetchPrompt_leaves (w.others w.accesses w.shared)
    cases hrun : fetchPrompt.run (w.others w.accesses w.shared) with
    | ok found s =>
      rw [Thread.run_atomically_of_ok hrun] at hfetch
      cases hfetch
      exact (EStateM.leaves_of_ok hrun).symm.trans hleaves
    | error e s =>
      rw [Thread.run_atomically_of_error hrun] at hfetch
      cases hfetch
  have hrest : (handleCliConnection lib resolver appendRule loadNft enrichRequest reply).leaves w =
      (answerPrompt lib resolver appendRule loadNft key enriched reply).leaves w₂ := by
    rw [handleCliConnection, EStateM.leaves_bind_of_ok hfetch]
    dsimp only
    rw [EStateM.leaves_bind_of_ok henrich]
  rw [hrest]
  exact ⟨hfound, answerPrompt_leavesAlone lib resolver appendRule loadNft key enriched h w₂⟩

/-- An answer is applied at most once, and only to the prompt that was shown.  Showing a prompt, and ending without a
decision, change nothing. -/
theorem cli_answer_applied_once (config : Config) (appendRule : Request → Decision → EStateM PyError σ Unit)
    (loadNft : EStateM PyError σ Unit) (start : σ) (events : Nat → QueueEvent) :
    AnsweredOnce config.pendingQueueSize events (queueRun config appendRule loadNft start events) ∧
      (∀ s : Shared σ, fetchPrompt.leaves s = s) ∧
      ∀ lib resolver reply, reply.decision? = none →
        (∀ key request, LeavesAlone (answerPrompt lib resolver appendRule loadNft key request reply)) ∧
        ∀ enrichRequest, EndsUnanswered enrichRequest
          (handleCliConnection lib resolver appendRule loadNft enrichRequest reply) :=
  ⟨answeredOnce_queueRun config appendRule loadNft start events, fetchPrompt_leaves,
    fun lib resolver _ h => ⟨fun key request => answerPrompt_leavesAlone lib resolver appendRule loadNft key request h,
      fun enrichRequest => handleCliConnection_endsUnanswered lib resolver appendRule loadNft enrichRequest h⟩⟩

end QubesSnitch
