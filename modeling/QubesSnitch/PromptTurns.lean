import QubesSnitch.QueueRuns

/-!
# Every prompt gets its turn

In a run of the queue functions (`queueRun`), with calls in any order and from any number of connections, a prompt leaves
the queue only by an answer or a discard for its own id, by a host-name answer to another prompt that covers it, or
because its source is gone (`Leaves`).

No prompt is overtaken: a connection that shows a prompt and then answers or discards it takes one away from the prompts
before (`Session`).  So after as many connections as there were prompts before it a prompt is the one that is shown, and
the capacity of the queue bounds them (`prompt_turns`).
-/

namespace QubesSnitch

variable {σ : Type}

/-! ### Leaving -/

/-- The event takes the prompt with the id out of the queue. -/
inductive Leaves (q : Queue) (key : QuestionKey) (id : Nat) : QueueEvent → Prop
  | answered {request : Request} {decision : Decision} (h : request.promptId = some id) :
      Leaves q key id (.savePendingDecision key request decision)
  | covered {other : QuestionKey} {request pending : Request} {decision : Decision} {ips : List IPv4}
      (hcurrent : promptCurrent other request q) (hhost : decision.isHostname) (hips : request.resolvedDests = some ips)
      (hpending : q.items.get? key = some pending) (h : isSibling request ips pending) :
      Leaves q key id (.savePendingDecision other request decision)
  | discarded {request : Request} (h : request.promptId = some id) : Leaves q key id (.discardPendingDecision key request)
  | source : Leaves q key id (.removePendingForSource key.source)

section Step

variable (config : Config) (appendRule : Request → Decision → EStateM PyError σ Unit) (loadNft : EStateM PyError σ Unit)

/-- An answer takes its prompt, and those that it covers. -/
theorem saveSection_items {s : Shared (Logged σ)} {key other : QuestionKey} {request pending : Request}
    {decision : Decision} (hcurrent : promptCurrent other request s.queue) (hne : key ≠ other)
    (hpending : s.queue.items.get? key = some pending)
    (hgone : ((saveSection (logged appendRule) (Logged.lift loadNft []) other request decision).leaves s).queue.items.get?
      key = none) :
    decision.isHostname ∧ ∃ ips, request.resolvedDests = some ips ∧ isSibling request ips pending := by
  have hdropped : (s.queue.drop other).items.get? key = some pending := by
    rw [TicketQueue.drop, Dict.get?_erase, if_neg hne, hpending]
  unfold EStateM.leaves EStateM.run saveSection at hgone
  rw [hcurrent] at hgone
  simp only [Bool.not_true, Bool.false_eq_true, if_false] at hgone
  cases hremoved : removePendingHostnameSet request decision (s.queue.drop other) with
  | error e =>
    rw [hremoved] at hgone
    change (s.queue.drop other).items.get? key = none at hgone
    rw [hdropped] at hgone
    cases hgone
  | ok queue =>
    rw [hremoved] at hgone
    have hqueue : queue.items.get? key = none := by
      rw [← hgone]
      simp only [onCtx, EStateM.run]
      cases (do logged appendRule request decision; Logged.lift loadNft [] : EStateM PyError (Logged σ) Unit) s.ctx <;>
        rfl
    by_contra hnot
    have hkept := (removePendingHostnameSet_items hremoved key pending).2 ⟨hdropped, fun hhost ips hips => by
      by_contra hsibling
      exact hnot ⟨hhost, ips, hips, by simpa using hsibling⟩⟩
    rw [hqueue] at hkept
    cases hkept

theorem leaves_of_gone {s : Shared (Logged σ)} (hv : s.queue.Valid config.pendingQueueSize) {event : QueueEvent}
    {key : QuestionKey} {id : Nat} (hid : s.queue.ids.get? key = some id)
    (hgone : (event.apply config appendRule loadNft s).queue.ids.get? key ≠ some id) : Leaves s.queue key id event := by
  obtain ⟨pending, hpending⟩ := Dict.mem_keys_iff.1 (hv.mem_keys.2 ⟨id, hid⟩)
  cases event with
  | queueQuestion request =>
    refine absurd ?_ hgone
    change (queueQuestion request config s.queue).2.ids.get? key = some id
    unfold queueQuestion
    dsimp only
    split
    · exact hid
    · rename_i hkey
      split
      · exact hid
      · -- a new question has another key
        have hne : key ≠ questionKey (requestWithoutBody request) := by
          rintro rfl
          exact hkey (Dict.mem_keys_of_get? hpending)
        change (s.queue.ids.set _ _).get? key = some id
        rw [Dict.get?_set_of_ne _ _ hne, hid]
  | nextPendingRequest =>
    rw [QueueEvent.apply, fetchPrompt_leaves] at hgone
    exact absurd hid hgone
  | removePendingForSource source =>
    rw [QueueEvent.apply, removePendingForSource, TicketQueue.ids_dropAll] at hgone
    split at hgone
    · rename_i hmem
      obtain rfl : key.source = source := of_decide_eq_true (List.mem_filter.1 hmem).2
      exact .source
    · exact absurd hid hgone
  | discardPendingDecision other request =>
    rw [QueueEvent.apply, discardPendingDecision] at hgone
    split at hgone
    · rename_i hcurrent
      by_cases hkey : key = other
      · subst hkey
        obtain ⟨id', hid', hget⟩ := id_of_promptCurrent hv hcurrent
        rw [hid, Option.some.injEq] at hget
        exact .discarded (hget ▸ hid')
      · refine absurd ?_ hgone
        change (s.queue.ids.erase other).get? key = some id
        rw [Dict.get?_erase, if_neg hkey, hid]
    · exact absurd hid hgone
  | savePendingDecision other request decision =>
    cases hcurrent : promptCurrent other request s.queue with
    | false =>
      refine absurd ?_ hgone
      rcases saveSection_leaves (logged appendRule) (Logged.lift loadNft []) other request decision s with
        ⟨-, hsame⟩ | ⟨hc, -⟩
      · rw [QueueEvent.apply, hsame, hid]
      · rw [hcurrent] at hc
        cases hc
    | true =>
      by_cases hkey : key = other
      · subst hkey
        obtain ⟨id', hid', hget⟩ := id_of_promptCurrent hv hcurrent
        rw [hid, Option.some.injEq] at hget
        exact .answered (hget ▸ hid')
      · rcases saveSection_leaves (logged appendRule) (Logged.lift loadNft []) other request decision s with
          ⟨hc, -⟩ | ⟨-, keys, hqueue, -⟩
        · rw [hcurrent] at hc
          cases hc
        rw [QueueEvent.apply, hqueue, TicketQueue.ids_dropAll] at hgone
        have hmem : key ∈ other :: keys := by
          by_contra hnot
          rw [if_neg hnot] at hgone
          exact hgone hid
        have hitems : ((saveSection (logged appendRule) (Logged.lift loadNft []) other request decision).leaves s
            ).queue.items.get? key = none := by
          rw [hqueue, TicketQueue.items_dropAll, if_pos hmem]
        obtain ⟨hhost, ips, hips, hsibling⟩ := saveSection_items appendRule loadNft hcurrent hkey hpending hitems
        exact .covered hcurrent hhost hips hpending hsibling

end Step

/-! ### Turns -/

/-- A connection shows the prompt that is first at `i`, and at `j` it answers or discards it. -/
structure Session (events : Nat → QueueEvent) (run : Nat → Shared (Logged σ)) (i j : Nat) : Prop where
  ordered : i ≤ j
  ends : ∃ key request answered, nextPendingRequest (run i).queue = .ok (some (key, request)) ∧
    answered.promptId = request.promptId ∧
    ((∃ decision, events j = .savePendingDecision key answered decision) ∨ events j = .discardPendingDecision key answered)

/-- Between `n` and `m` there are `k` connections one after the other. -/
inductive Sessions (events : Nat → QueueEvent) (run : Nat → Shared (Logged σ)) (n : Nat) : Nat → Nat → Prop
  | start : Sessions events run n n 0
  | wait {m k : Nat} (h : Sessions events run n m k) : Sessions events run n (m + 1) k
  | serve {i j k : Nat} (h : Sessions events run n i k) (hnext : Session events run i j) :
      Sessions events run n (j + 1) (k + 1)

section Runs

variable {config : Config} {appendRule : Request → Decision → EStateM PyError σ Unit} {loadNft : EStateM PyError σ Unit}
  {start : σ} {events : Nat → QueueEvent}

theorem Sessions.le {run : Nat → Shared (Logged σ)} {n m k : Nat} (h : Sessions events run n m k) : n ≤ m := by
  induction h with
  | start => exact Nat.le_refl _
  | wait _ ih => omega
  | serve _ hnext ih =>
    have := hnext.ordered
    omega

/-- The prompt that a connection has shown is not there when it has ended. -/
theorem Session.gone {i j : Nat} (h : Session events (queueRun config appendRule loadNft start events) i j) :
    ∃ key id, (queueRun config appendRule loadNft start events i).queue.ids.get? key = some id ∧
      (∀ key' id', (queueRun config appendRule loadNft start events i).queue.ids.get? key' = some id' → id ≤ id') ∧
      ∀ key', (queueRun config appendRule loadNft start events (j + 1)).queue.ids.get? key' ≠ some id := by
  obtain ⟨hij, key, request, answered, hnext, hanswered, hend⟩ := h
  have hvalid := queueRun_valid config appendRule loadNft start events
  have hevolves := queueRun_evolves config appendRule loadNft start events
  obtain ⟨id, pending, rfl, -, hid, hle⟩ := nextPendingRequest_some (hvalid i) hnext
  refine ⟨key, id, hid, hle, fun key' hkey' => ?_⟩
  have hlt := (hvalid i).fresh key id hid
  -- what is there at the end was there all the time, under the key that was shown
  have hbetween := fun n => TicketQueue.Evolves.between
    (Q := fun n => (queueRun config appendRule loadNft start events n).queue) hevolves hlt hkey' n
  obtain rfl : key' = key := (hvalid i).ids_injective (hbetween i (Nat.le_refl i) (by omega)) hid
  have hj : (queueRun config appendRule loadNft start events j).queue.ids.get? key' = some id :=
    hbetween j hij (Nat.le_succ j)
  have hcurrent : promptCurrent key' answered (queueRun config appendRule loadNft start events j).queue := by
    rw [promptCurrent, Bool.and_eq_true, decide_eq_true_iff, decide_eq_true_iff]
    exact ⟨(hvalid j).mem_keys.2 ⟨id, hj⟩, hj.trans hanswered.symm⟩
  rcases hend with ⟨decision, hevent⟩ | hevent
  · rw [queueRun, hevent, QueueEvent.apply] at hkey'
    rcases saveSection_leaves (logged appendRule) (Logged.lift loadNft []) key' answered decision
      (queueRun config appendRule loadNft start events j) with ⟨hc, -⟩ | ⟨-, keys, hqueue, -⟩
    · rw [hcurrent] at hc
      cases hc
    · rw [hqueue, TicketQueue.ids_dropAll, if_pos (List.mem_cons_self ..)] at hkey'
      cases hkey'
  · rw [queueRun, hevent, QueueEvent.apply, discardPendingDecision, if_pos hcurrent] at hkey'
    change (Dict.erase _ key').get? key' = some id at hkey'
    rw [Dict.get?_erase_self] at hkey'
    cases hkey'

/-- Each connection takes one prompt from before those that wait all the time. -/
theorem Sessions.ahead_le {n m k : Nat} (h : Sessions events (queueRun config appendRule loadNft start events) n m k)
    {key : QuestionKey} {id : Nat} (hn : (queueRun config appendRule loadNft start events n).queue.ids.get? key = some id)
    (hm : (queueRun config appendRule loadNft start events m).queue.ids.get? key = some id) :
    k + (queueRun config appendRule loadNft start events m).queue.ahead id ≤
      (queueRun config appendRule loadNft start events n).queue.ahead id := by
  have hvalid := queueRun_valid config appendRule loadNft start events
  have hevolves := queueRun_evolves config appendRule loadNft start events
  have hlt := (hvalid n).fresh key id hn
  have hbetween : ∀ {m}, (queueRun config appendRule loadNft start events m).queue.ids.get? key = some id →
      ∀ l, n ≤ l → l ≤ m → (queueRun config appendRule loadNft start events l).queue.ids.get? key = some id :=
    fun hm => TicketQueue.Evolves.between
      (Q := fun n => (queueRun config appendRule loadNft start events n).queue) hevolves hlt hm
  induction h with
  | start => omega
  | wait h ih =>
    rename_i m k
    have hbefore := hbetween hm m h.le (Nat.le_succ m)
    have hfewer := (hevolves m).ahead_le (hvalid (m + 1)) (Nat.le_of_lt ((hvalid m).fresh key id hbefore))
    have := ih hbefore
    omega
  | serve h hnext ih =>
    rename_i i j k
    have hij := hnext.ordered
    have hbefore := hbetween hm i h.le (by omega)
    obtain ⟨first, head, hhead, hle, hgone⟩ := hnext.gone
    have hne : head ≠ id := fun heq => hgone key (heq ▸ hm)
    have hlt' : head < id := Nat.lt_of_le_of_ne (hle key id hbefore) hne
    have hall := TicketQueue.Evolves.history
      (Q := fun n => (queueRun config appendRule loadNft start events n).queue) hevolves (show i ≤ j + 1 by omega)
    have hfewer := hall.ahead_lt (hvalid i) (hvalid (j + 1)) (Nat.le_of_lt ((hvalid i).fresh key id hbefore)) hhead hlt'
      hgone
    have := ih hbefore
    omega

end Runs

/-- How prompts wait in a run of the queue functions. -/
structure TakesTurns (capacity : Nat) (events : Nat → QueueEvent) (run : Nat → Shared (Logged σ)) : Prop where
  /-- A prompt that is there goes on waiting unless the event takes it out. -/
  leaves : ∀ n key id, (run n).queue.ids.get? key = some id → (run (n + 1)).queue.ids.get? key ≠ some id →
    Leaves (run n).queue key id (events n)
  /-- A prompt that waits through `k` connections that answer or discard what they show had `k` others before it, and they
  are gone. -/
  turns : ∀ n m k key id, Sessions events run n m k → (run n).queue.ids.get? key = some id →
    (run m).queue.ids.get? key = some id → k + (run m).queue.ahead id ≤ (run n).queue.ahead id ∧ k < capacity
  /-- A prompt with none before it is the one that is shown. -/
  shown : ∀ n key id, (run n).queue.ids.get? key = some id → (run n).queue.ahead id = 0 →
    ∃ request, nextPendingRequest (run n).queue = .ok (some (key, request)) ∧ request.promptId = some id

/-- A prompt with no smaller id before it is first. -/
theorem nextPendingRequest_of_ahead {capacity : Nat} {q : Queue} (hv : q.Valid capacity) {key : QuestionKey} {id : Nat}
    (hid : q.ids.get? key = some id) (hnone : q.ahead id = 0) :
    ∃ request, nextPendingRequest q = .ok (some (key, request)) ∧ request.promptId = some id := by
  obtain ⟨prompt, hprompt⟩ := nextPendingRequest_ok hv
  cases prompt with
  | none =>
    obtain ⟨pending, hpending⟩ := Dict.mem_keys_iff.1 (hv.mem_keys.2 ⟨id, hid⟩)
    have hmem := Dict.get?_eq_some_iff.1 hpending
    unfold nextPendingRequest at hprompt
    split at hprompt
    · rename_i hentries
      rw [hentries] at hmem
      cases hmem
    · split at hprompt <;> cases hprompt
  | some prompt =>
    obtain ⟨first, request⟩ := prompt
    obtain ⟨head, pending, rfl, -, hhead, hle⟩ := nextPendingRequest_some hv hprompt
    have hsame : head = id := by
      refine Nat.le_antisymm (hle key id hid) (Nat.le_of_not_lt fun hlt => ?_)
      have hmem : head ∈ q.ids.values.filter (· < id) :=
        List.mem_filter.2 ⟨TicketQueue.mem_values_ids.2 ⟨first, hhead⟩, decide_eq_true hlt⟩
      rw [List.eq_nil_of_length_eq_zero hnone] at hmem
      cases hmem
    subst hsame
    obtain rfl := hv.ids_injective hhead hid
    exact ⟨_, hprompt, rfl⟩

/-- Prompts are asked in turn.  Whatever calls come in whatever order, a prompt leaves the queue only by its own answer or
discard, an answer that covers it, or with its source; and it waits for at most the prompts that were there before it,
of which every connection that answers or discards what it has shown takes one. -/
theorem prompt_turns (config : Config) (appendRule : Request → Decision → EStateM PyError σ Unit)
    (loadNft : EStateM PyError σ Unit) (start : σ) (events : Nat → QueueEvent) :
    TakesTurns config.pendingQueueSize events (queueRun config appendRule loadNft start events) := by
  have hvalid := queueRun_valid config appendRule loadNft start events
  refine ⟨?_, ?_, ?_⟩
  · intro n key id hid hgone
    exact leaves_of_gone config appendRule loadNft (hvalid n) hid hgone
  · intro n m k key id hsessions hn hm
    have hle := hsessions.ahead_le hn hm
    have hlt := (hvalid n).ahead_lt_capacity hn
    exact ⟨hle, by omega⟩
  · intro n key id hid hnone
    exact nextPendingRequest_of_ahead (hvalid n) hid hnone

end QubesSnitch
