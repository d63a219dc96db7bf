import QubesSnitch.Policy
import QubesSnitch.Lib.TicketQueue

/-!
# The prompt queue

Questions without an answer wait in a queue with tickets, the prompt ids; a CLI connection shows the first of them and
brings an answer back later, when the queue may be a different one.  `saveSection` is what is done with an answer under
the two locks, over any policy state and any functions that save a rule and load the table.

`AnsweredOnce` says what holds in every run of the queue functions, in any order and with any arguments:
the queue stays a valid queue with tickets, and an answer is applied at most once, to the prompt that was shown.
-/

namespace QubesSnitch

/-! ### Questions -/

/-- The tuple that identifies a question. -/
inductive QuestionKey where
  | dns (source qtype qname : String)
  | net (source : String) (dst : IPv4) (proto : Proto) (port : Option Nat)
  deriving DecidableEq, Repr

/-- `key[0]` -/
def QuestionKey.source : QuestionKey → String
  | dns source _ _ => source
  | net source _ _ _ => source

def questionKey (request : Request) : QuestionKey :=
  match request.kind with
  | .dns qname qtype => .dns request.source qtype qname
  | _ => .net request.source request.dst request.proto (requestPort request)

/-- `PENDING_QUESTIONS` (items), `PENDING_PROMPT_IDS` (ids) and the next of `NEXT_PROMPT_ID`. -/
abbrev Queue := TicketQueue QuestionKey Request

def Queue.initial : Queue := ⟨.empty, .empty, 1⟩

inductive QueueResult where
  | full
  | queued
  | duplicate
  deriving DecidableEq, Repr

def queueQuestion (request : Request) (config : Config) (q : Queue) : QueueResult × Queue :=
  let promptRequest := requestWithoutBody request
  let key := questionKey promptRequest
  if key ∈ q.items.keys then (.duplicate, q)
  else if q.items.size ≥ config.pendingQueueSize then (.full, q)
  else (.queued, q.push key promptRequest)

/-- The first question with its id and the number of the others; `none` while there is nothing to show. -/
def nextPendingRequest (q : Queue) : Except PyError (Option (QuestionKey × Request)) :=
  match q.items.entries with
  | [] => .ok none
  | (key, request) :: _ =>
    match q.ids.get? key with
    | none => .error (.keyError "PENDING_PROMPT_IDS")
    | some id => .ok (some (key, { request with promptId := id, remaining := some (q.items.size - 1) }))

def removePendingForSource (source : String) (q : Queue) : Queue :=
  q.dropAll (q.items.keys.filter fun key => key.source = source)

/-- Whether the prompt that was shown is still the one that waits. -/
def promptCurrent (key : QuestionKey) (request : Request) (q : Queue) : Bool :=
  key ∈ q.items.keys && q.ids.get? key = request.promptId

def discardPendingDecision (key : QuestionKey) (request : Request) (q : Queue) : Queue :=
  if promptCurrent key request q then q.drop key else q

def prepareHostnameDecision (lib : DnsPython) (resolver : Resolver) (request : Request) (decision : Decision) :
    Except PyError Request :=
  if !decision.isHostname then .ok request
  else match trustedHost request.host with
    | none => .error (.systemExit "refusing hostname rule without trusted A-cache hint")
    | some host => do
      let hostname ← validateDestDnsName lib "prompt" (.str host)
      let resolved ← resolveDestDns resolver "prompt" hostname
      if resolved.length ≤ 1 || request.dst ∉ resolved then
        .error (.systemExit "refusing hostname rule without multi-IP DNS set containing current destination")
      else .ok { request with resolvedDests := resolved }

def Kind.isDns : Kind → Bool
  | dns _ _ => true
  | _ => false

/-- Whether a pending request asks about the same traffic to one of the addresses. -/
def isSibling (request : Request) (resolved : List IPv4) (pending : Request) : Bool :=
  !pending.kind.isDns && pending.source = request.source && pending.proto = request.proto &&
    requestPort pending = requestPort request && pending.dst ∈ resolved

def removePendingHostnameSet (request : Request) (decision : Decision) (q : Queue) : Except PyError Queue :=
  if !decision.isHostname then .ok q
  else match request.resolvedDests with
    | none => .error (.keyError "_resolved_dests")
    | some resolved =>
      .ok (q.dropAll ((q.items.entries.filter fun entry => isSibling request resolved entry.2).map Prod.fst))

/-! ### Answers -/

/-- What the two locks protect: the queue and the state that policy works on. -/
structure Shared (σ : Type) where
  queue : Queue
  ctx : σ

section Answers

variable {σ : Type}

def onQueue (f : Queue → Queue) : EStateM PyError (Shared σ) Unit := modify fun s => { s with queue := f s.queue }

def onCtx {α : Type} (f : EStateM PyError σ α) : EStateM PyError (Shared σ) α := fun s =>
  match f.run s.ctx with
  | .ok a ctx => .ok a { s with ctx }
  | .error e ctx => .error e { s with ctx }

theorem onCtx_leaves {α : Type} (f : EStateM PyError σ α) (s : Shared σ) :
    (onCtx f).leaves s = { s with ctx := f.leaves s.ctx } := by
  simp only [EStateM.leaves, EStateM.run, onCtx]
  cases f s.ctx <;> rfl

/-- The locked part of `save_pending_decision`. -/
def saveSection (appendRule : Request → Decision → EStateM PyError σ Unit) (loadNft : EStateM PyError σ Unit)
    (key : QuestionKey) (request : Request) (decision : Decision) : EStateM PyError (Shared σ) Unit := fun s =>
  if !promptCurrent key request s.queue then .ok () s
  else match removePendingHostnameSet request decision (s.queue.drop key) with
    | .error e => .error e { s with queue := s.queue.drop key }
    | .ok queue =>
      (onCtx do
        appendRule request decision
        loadNft).run { s with queue }

def savePendingDecision (lib : DnsPython) (resolver : Resolver)
    (appendRule : Request → Decision → EStateM PyError σ Unit) (loadNft : EStateM PyError σ Unit)
    (key : QuestionKey) (request : Request) (decision : Decision) : Thread (Shared σ) PyError Empty Unit :=
  match prepareHostnameDecision lib resolver request decision with
  | .error e => throw e
  | .ok request => Thread.atomically (saveSection appendRule loadNft key request decision)

def Decision.ofName? (text : String) : Option Decision :=
  [allow, allowDns, reject, rejectDns].find? fun decision => decision.name = text

/-- How sending the question and reading the answer line ends; what is read may not be UTF-8. -/
inductive CliReply where
  | osError
  | undecodable (error : String)
  | line (text : String)
  deriving DecidableEq, Repr

def CliReply.decision? : CliReply → Option Decision
  | line text => Decision.ofName? text
  | _ => none

/-- `handle_cli_connection` from the sending of the question on; the `UnicodeDecodeError` of the answer is a `ValueError`,
which is not caught. -/
def answerPrompt (lib : DnsPython) (resolver : Resolver) (appendRule : Request → Decision → EStateM PyError σ Unit)
    (loadNft : EStateM PyError σ Unit) (key : QuestionKey) (request : Request) (reply : CliReply) :
    Thread (Shared σ) PyError Empty Unit :=
  match reply with
  | .osError => Thread.external
  | .undecodable error => throw (.valueError error)
  | .line text =>
    match Decision.ofName? text with
    | none => Thread.external
    | some decision => savePendingDecision lib resolver appendRule loadNft key request decision

def fetchPrompt : EStateM PyError (Shared σ) (Option (QuestionKey × Request)) := fun s =>
  match nextPendingRequest s.queue with
  | .ok prompt => .ok prompt s
  | .error e => .error e s

/-- `handle_cli_connection`; with an empty queue it is still waiting. -/
def handleCliConnection (lib : DnsPython) (resolver : Resolver)
    (appendRule : Request → Decision → EStateM PyError σ Unit) (loadNft : EStateM PyError σ Unit)
    (enrichRequest : Request → Thread (Shared σ) PyError Empty (Option Request)) (reply : CliReply) :
    Thread (Shared σ) PyError Empty Unit := do
  match ← Thread.atomically fetchPrompt with
  | none => return ()
  | some (key, request) =>
    match ← enrichRequest request with
    | none => Thread.atomically (onQueue (discardPendingDecision key request))
    | some request => answerPrompt lib resolver appendRule loadNft key request reply

end Answers

/-! ### The functions on a valid queue -/

section Specs

variable {capacity : Nat} {q : Queue}

theorem Queue.valid_initial (capacity : Nat) : Queue.initial.Valid capacity := .empty capacity 1

theorem queueQuestion_valid {config : Config} (h : q.Valid config.pendingQueueSize) (request : Request) :
    (queueQuestion request config q).2.Valid config.pendingQueueSize := by
  unfold queueQuestion
  dsimp only
  split
  · exact h
  · rename_i hkey
    split
    · exact h
    · exact h.push _ hkey (by omega)

theorem queueQuestion_evolves (request : Request) (config : Config) (q : Queue) :
    q.Evolves (queueQuestion request config q).2 := by
  unfold queueQuestion
  dsimp only
  split
  · exact .refl q
  · split
    · exact .refl q
    · exact .push q _ _

theorem discardPendingDecision_valid (h : q.Valid capacity) (key : QuestionKey) (request : Request) :
    (discardPendingDecision key request q).Valid capacity := by
  unfold discardPendingDecision
  split
  · exact h.drop key
  · exact h

theorem discardPendingDecision_evolves (key : QuestionKey) (request : Request) (q : Queue) :
    q.Evolves (discardPendingDecision key request q) := by
  unfold discardPendingDecision
  split
  · exact .drop q key
  · exact .refl q

/-- What is left after a host-name answer is left of the queue, with nothing new. -/
theorem removePendingHostnameSet_ok {request : Request} {decision : Decision} {q' : Queue}
    (h : removePendingHostnameSet request decision q = .ok q') : ∃ keys, q' = q.dropAll keys := by
  unfold removePendingHostnameSet at h
  split at h
  · cases h
    exact ⟨[], rfl⟩
  · split at h
    · cases h
    · cases h
      exact ⟨_, rfl⟩

/-- A host-name answer leaves what is not a sibling. -/
theorem removePendingHostnameSet_items {request : Request} {decision : Decision} {q' : Queue}
    (h : removePendingHostnameSet request decision q = .ok q') (key : QuestionKey) (pending : Request) :
    q'.items.get? key = some pending ↔ q.items.get? key = some pending ∧ (decision.isHostname →
      ∀ resolved, request.resolvedDests = some resolved → isSibling request resolved pending = false) := by
  unfold removePendingHostnameSet at h
  split at h
  · rename_i hhost
    cases h
    simp [Bool.eq_false_of_not_eq_true' hhost]
  · rename_i hhost
    split at h
    · cases h
    · rename_i resolved hresolved
      cases h
      have hmem : (key ∈ (q.items.entries.filter fun entry => isSibling request resolved entry.2).map Prod.fst) ↔
          ∃ r, q.items.get? key = some r ∧ isSibling request resolved r := by
        simp [Dict.get?_eq_some_iff]
      rw [TicketQueue.items_dropAll]
      split
      · rename_i hdropped
        obtain ⟨r, hr, hsibling⟩ := hmem.1 hdropped
        simp only [reduceCtorEq, false_iff, not_and]
        intro hget hkeep
        rw [hr] at hget
        cases hget
        rw [hkeep (by simpa using hhost) resolved hresolved] at hsibling
        cases hsibling
      · rename_i hkept
        refine ⟨fun hget => ⟨hget, fun _ found hfound => ?_⟩, And.left⟩
        rw [hresolved] at hfound
        cases hfound
        by_contra hsibling
        exact hkept (hmem.2 ⟨pending, hget, by simpa using hsibling⟩)

/-- A prompt that is shown is the head of the queue, with its id. -/
private theorem nextPendingRequest_head {key : QuestionKey} {request : Request}
    (hnext : nextPendingRequest q = .ok (some (key, request))) :
    ∃ id pending rest, request = { pending with promptId := some id, remaining := some (q.items.size - 1) } ∧
      q.items.entries = (key, pending) :: rest ∧ q.ids.get? key = some id := by
  unfold nextPendingRequest at hnext
  split at hnext
  · cases hnext
  · rename_i key' pending rest hentries
    split at hnext
    · cases hnext
    · rename_i id hid
      cases hnext
      exact ⟨id, pending, rest, rfl, hentries, hid⟩

/-- A prompt that is shown is one that waits, with its id. -/
theorem nextPendingRequest_shown {key : QuestionKey} {request : Request}
    (hnext : nextPendingRequest q = .ok (some (key, request))) :
    ∃ id pending, request = { pending with promptId := some id, remaining := some (q.items.size - 1) } ∧
      q.items.get? key = some pending ∧ q.ids.get? key = some id := by
  obtain ⟨id, pending, rest, hrequest, hentries, hid⟩ := nextPendingRequest_head hnext
  exact ⟨id, pending, hrequest, Dict.get?_eq_some_iff.2 (by simp [hentries]), hid⟩

/-- A prompt that is shown is the oldest, with its id. -/
theorem nextPendingRequest_some (h : q.Valid capacity) {key : QuestionKey} {request : Request}
    (hnext : nextPendingRequest q = .ok (some (key, request))) :
    ∃ id pending, request = { pending with promptId := some id, remaining := some (q.items.size - 1) } ∧
      q.items.get? key = some pending ∧ q.ids.get? key = some id ∧
        ∀ key' id', q.ids.get? key' = some id' → id ≤ id' := by
  obtain ⟨id, pending, rest, hrequest, hentries, hid⟩ := nextPendingRequest_head hnext
  obtain ⟨id', hid', hle⟩ := h.head_le hentries
  obtain rfl : id = id' := Option.some.inj (hid.symm.trans hid')
  exact ⟨id, pending, hrequest, Dict.get?_eq_some_iff.2 (by simp [hentries]), hid, hle⟩

theorem nextPendingRequest_ok (h : q.Valid capacity) : ∃ prompt, nextPendingRequest q = .ok prompt := by
  unfold nextPendingRequest
  split
  · exact ⟨_, rfl⟩
  · rename_i hentries
    obtain ⟨id, hid, -⟩ := h.head_le hentries
    exact ⟨_, by rw [hid]⟩

/-- A prompt that is current has the id of the answer. -/
theorem id_of_promptCurrent (h : q.Valid capacity) {key : QuestionKey} {request : Request}
    (hc : promptCurrent key request q) : ∃ id, request.promptId = some id ∧ q.ids.get? key = some id := by
  unfold promptCurrent at hc
  rw [Bool.and_eq_true, decide_eq_true_iff, decide_eq_true_iff] at hc
  obtain ⟨id, hid⟩ := h.mem_keys.1 hc.1
  exact ⟨id, hc.2 ▸ hid, hid⟩

end Specs

end QubesSnitch
