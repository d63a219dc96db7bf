import QubesSnitch.Queue
import QubesSnitch.Lib.LockOrder

/-!
# The locks of the daemon

What the functions of the daemon do with `POLICY_LOCK`, `PENDING_CONDITION` and `DNS_CACHE_LOCK`: for each of them the
blocks it enters and what it calls there.  Whatever takes no lock is `skip`, branches on data are choices, and what
happens to the prompt queue is what the functions of the queue do.

`POLICY_LOCK` is taken before the others and never inside of them, so there is no deadlock; a prompt that is queued
wakes the CLI connection that waits for one (`locks_resolve`).
-/

namespace QubesSnitch

open Locking

inductive LockName where
  | policy
  | pending
  | dnsCache
  deriving DecidableEq

def LockName.rank : LockName → Nat
  | policy => 0
  | pending => 1
  | dnsCache => 2

theorem LockName.rank_injective : Function.Injective LockName.rank := by
  intro l m h
  cases l <;> cases m <;> first | rfl | cases h

instance : LinearOrder LockName := LinearOrder.lift' LockName.rank LockName.rank_injective

instance : Finite LockName := Finite.of_injective (fun l => Fin.ofNat 3 l.rank) fun l m h => by
  cases l <;> cases m <;> first | rfl | cases h

instance : WellFoundedGT LockName := Finite.to_wellFoundedGT

/-- `PENDING_CONDITION`: a CLI connection waits for a prompt. -/
def pendingCondition : Condition Queue LockName where
  lock := .pending
  ready q := nextPendingRequest q ≠ .ok none

namespace Locks

abbrev Code := Prog Queue LockName

/-! ### The queue -/

/-- It notifies exactly where it has queued the question. -/
def queueQuestion : Code :=
  .hold .pending (.act fun q q' wakes => ∃ request config,
    q' = (QubesSnitch.queueQuestion request config q).2 ∧
      wakes = decide ((QubesSnitch.queueQuestion request config q).1 = .queued))

def nextPendingRequest : Code := .hold .pending .await

def removePendingForSource : Code :=
  .hold .pending (.act fun q q' wakes => wakes = false ∧ ∃ source, q' = QubesSnitch.removePendingForSource source q)

def discardPendingDecision : Code :=
  .hold .pending (.act fun q q' wakes =>
    wakes = false ∧ ∃ key request, q' = QubesSnitch.discardPendingDecision key request q)

/-- A stale answer changes nothing. -/
def savePendingDecision : Code :=
  .hold .policy (.seq
    (.hold .pending (.act fun q q' wakes => wakes = false ∧ (q' = q ∨ ∃ key request decision,
      promptCurrent key request q ∧ removePendingHostnameSet request decision (q.drop key) = .ok q')))
    .skip)

/-! ### Policy -/

def cleanupDisposableRuleEntries : Code := .loop (.seq removePendingForSource (.hold .dnsCache .skip))

def cleanupReusedNumberedDispvmEntries : Code := .loop (.seq removePendingForSource (.hold .dnsCache .skip))

def matchingAction : Code := .hold .policy .skip

def refreshSourcesAndNft : Code :=
  .choice .skip (.hold .policy (.choice .skip (.seq cleanupReusedNumberedDispvmEntries cleanupDisposableRuleEntries)))

def refreshSourcesRequired : Code := .hold .policy cleanupDisposableRuleEntries

/-! ### DNS hints -/

def storeDnsLabels : Code := .hold .dnsCache .skip

def refreshDnsRule : Code := .choice .skip storeDnsLabels

def allowedDnsHintRules : Code := .hold .policy .skip

def freshResponseLabel : Code := .hold .dnsCache .skip

def staleResponseRule : Code := .hold .dnsCache .skip

def cachedQnameLabels : Code := .hold .dnsCache .skip

/-- The pool of workers, and the wait for their results. -/
def refreshDnsRules : Code := .choice .skip (.spawn refreshDnsRule)

def lazyDnsName : Code :=
  .seq staleResponseRule (.seq (.choice .skip refreshDnsRule) (.choice .skip
    (.seq allowedDnsHintRules (.seq (.loop cachedQnameLabels) refreshDnsRules))))

def enrichPromptRequest : Code := .choice .skip lazyDnsName

/-! ### Packets -/

def queuePrompt : Code := .hold .policy (.choice .skip queueQuestion)

def addRuntimeRequestFields : Code :=
  .seq (.hold .policy .skip) (.choice (.hold .policy .skip) (.seq refreshSourcesAndNft (.hold .policy .skip)))

def handleDnsDomain : Code := .choice .skip (.seq matchingAction (.choice .skip queuePrompt))

def handleDnsTransport : Code :=
  .seq matchingAction (.choice .skip (.choice (.seq queuePrompt (.choice .skip handleDnsDomain)) handleDnsDomain))

def handleFlowPacket : Code := .seq freshResponseLabel (.seq matchingAction (.choice .skip queuePrompt))

def handlePacket : Code :=
  .choice .skip (.seq addRuntimeRequestFields (.choice .skip (.choice handleDnsTransport handleFlowPacket)))

/-! ### The CLI -/

def enrichRequest : Code := .seq (.hold .policy .skip) (.choice .skip (.seq enrichPromptRequest (.hold .policy .skip)))

def handleCliConnection : Code :=
  .seq nextPendingRequest (.seq enrichRequest (.choice discardPendingDecision (.choice .skip savePendingDecision)))

/-! ### Threads -/

/-- The thread of `cli_server`. -/
def cliServer : Nat := 0

/-- What the threads call, each function any number of times.  Only the CLI server waits for prompts. -/
inductive Calls : Nat → Code → Prop
  | packet (t : Nat) : Calls t handlePacket
  | required (t : Nat) : Calls t refreshSourcesRequired
  | watcher (t : Nat) : Calls t refreshSourcesAndNft
  | cli : Calls cliServer handleCliConnection

/-! ### Safety -/

theorem nextPendingRequest_none {q : Queue} : QubesSnitch.nextPendingRequest q = .ok none ↔ ∀ key, q.items.get? key = none := by
  unfold QubesSnitch.nextPendingRequest
  split
  · rename_i hentries
    simp [Dict.get?_eq_none_iff, Dict.keys, hentries]
  · rename_i key request rest hentries
    have hget : q.items.get? key = some request := Dict.get?_eq_some_iff.2 (by simp [hentries])
    refine iff_of_false (fun h => ?_) fun h => by simp [h] at hget
    cases hid : q.ids.get? key with
    | none => simp [hid] at h
    | some id => simp [hid] at h

/-- Dropping prompts brings none. -/
theorem nextPendingRequest_dropAll {q : Queue} (h : QubesSnitch.nextPendingRequest q = .ok none) (keys : List QuestionKey) :
    QubesSnitch.nextPendingRequest (q.dropAll keys) = .ok none := by
  rw [nextPendingRequest_none] at h ⊢
  intro key
  rw [TicketQueue.items_dropAll, h key, ite_self]

section Safety

variable {held : List LockName}

theorem dnsCache_safe (h : ∀ m ∈ held, m < .dnsCache) : (Prog.hold .dnsCache .skip : Code).Safe pendingCondition held :=
  ⟨h, trivial⟩

theorem policy_safe : (Prog.hold .policy .skip : Code).Safe pendingCondition [] := ⟨by simp, trivial⟩

/-- The queue is changed under its lock, and a change without a wake-up brings no prompt. -/
theorem pending_safe (h : ∀ m ∈ held, m < .pending) {f : Queue → Queue → Bool → Prop} (htotal : ∀ q, ∃ q' wakes, f q q' wakes)
    (hquiet : ∀ q q', f q q' false → QubesSnitch.nextPendingRequest q = .ok none →
      QubesSnitch.nextPendingRequest q' = .ok none) : (Prog.hold .pending (.act f) : Code).Safe pendingCondition held :=
  ⟨h, List.mem_cons_self .., htotal, fun q q' hf hready hnone => hready (hquiet q q' hf hnone)⟩

/-- A question that is not queued leaves the queue as it is. -/
theorem queueQuestion_of_not_queued {request : Request} {config : Config} {q : Queue}
    (h : (QubesSnitch.queueQuestion request config q).1 ≠ .queued) :
    (QubesSnitch.queueQuestion request config q).2 = q := by
  unfold QubesSnitch.queueQuestion at h ⊢
  dsimp only at h ⊢
  split
  · rfl
  · split
    · rfl
    · rename_i hkey hroom
      rw [if_neg hkey, if_neg hroom] at h
      exact absurd rfl h

theorem queueQuestion_safe (h : ∀ m ∈ held, m < .pending) : queueQuestion.Safe pendingCondition held := by
  let request : Request := ⟨⟨⟨0, 0, 0, 0⟩, ⟨0, 0, 0, 0⟩, .flow .icmp, none, none, none, none⟩, "", "", none, none, .flow, none,
    none, none⟩
  refine pending_safe h (fun q => ⟨_, _, request, default, rfl, rfl⟩) ?_
  rintro q q' ⟨request, config, rfl, hwakes⟩ hnone
  rwa [queueQuestion_of_not_queued (of_decide_eq_false hwakes.symm)]

theorem removePendingForSource_safe (h : ∀ m ∈ held, m < .pending) : removePendingForSource.Safe pendingCondition held := by
  refine pending_safe h (fun q => ⟨_, _, rfl, "", rfl⟩) ?_
  rintro q q' ⟨-, source, rfl⟩ hnone
  exact nextPendingRequest_dropAll hnone _

theorem discardPendingDecision_safe : discardPendingDecision.Safe pendingCondition [] := by
  refine pending_safe (by simp) (fun q => ⟨_, _, rfl, .dns "" "" "", ?_, rfl⟩) ?_
  · exact ⟨⟨⟨0, 0, 0, 0⟩, ⟨0, 0, 0, 0⟩, .flow .icmp, none, none, none, none⟩, "", "", none, none, .flow, none, none, none⟩
  · rintro q q' ⟨-, key, request, rfl⟩ hnone
    unfold QubesSnitch.discardPendingDecision
    split
    · exact nextPendingRequest_dropAll hnone [key]
    · exact hnone

theorem nextPendingRequest_safe : nextPendingRequest.Safe pendingCondition [] := ⟨by simp, rfl⟩

theorem savePendingDecision_safe : savePendingDecision.Safe pendingCondition [] := by
  refine ⟨by simp, pending_safe (by decide) (fun q => ⟨q, _, rfl, .inl rfl⟩) ?_, trivial⟩
  rintro q q' ⟨-, rfl | ⟨key, request, decision, -, hremoved⟩⟩ hnone
  · exact hnone
  · obtain ⟨keys, rfl⟩ := removePendingHostnameSet_ok hremoved
    exact nextPendingRequest_dropAll (nextPendingRequest_dropAll hnone [key]) keys

/-- What a cleanup does for one source, under the policy lock. -/
theorem purge_safe :
    (Prog.seq removePendingForSource (.hold .dnsCache .skip) : Code).Safe pendingCondition [.policy] :=
  ⟨removePendingForSource_safe (by decide), dnsCache_safe (by decide)⟩

theorem refreshSourcesAndNft_safe : refreshSourcesAndNft.Safe pendingCondition [] :=
  ⟨trivial, by simp, trivial, purge_safe, purge_safe⟩

theorem refreshSourcesRequired_safe : refreshSourcesRequired.Safe pendingCondition [] := ⟨by simp, purge_safe⟩

theorem lazyDnsName_safe : lazyDnsName.Safe pendingCondition [] :=
  have hdns : (Prog.hold .dnsCache .skip : Code).Safe pendingCondition [] := dnsCache_safe (by simp)
  ⟨hdns, ⟨trivial, trivial, hdns⟩, trivial, policy_safe, hdns, trivial, rfl, ⟨trivial, trivial⟩, trivial, hdns⟩

theorem queuePrompt_safe : queuePrompt.Safe pendingCondition [] :=
  ⟨by simp, trivial, queueQuestion_safe (by decide)⟩

theorem handleDnsDomain_safe : handleDnsDomain.Safe pendingCondition [] :=
  ⟨trivial, policy_safe, trivial, queuePrompt_safe⟩

theorem handlePacket_safe : handlePacket.Safe pendingCondition [] :=
  have htransport : handleDnsTransport.Safe pendingCondition [] :=
    ⟨policy_safe, trivial, ⟨queuePrompt_safe, trivial, handleDnsDomain_safe⟩, handleDnsDomain_safe⟩
  have hflow : handleFlowPacket.Safe pendingCondition [] := ⟨dnsCache_safe (by simp), policy_safe, trivial, queuePrompt_safe⟩
  ⟨trivial, ⟨policy_safe, policy_safe, refreshSourcesAndNft_safe, policy_safe⟩, trivial, htransport, hflow⟩

theorem handleCliConnection_safe : handleCliConnection.Safe pendingCondition [] :=
  ⟨nextPendingRequest_safe, ⟨policy_safe, trivial, ⟨trivial, lazyDnsName_safe⟩, policy_safe⟩,
    discardPendingDecision_safe, trivial, savePendingDecision_safe⟩

end Safety

theorem calls_callable {t : Nat} {code : Code} (h : Calls t code) : Callable pendingCondition cliServer t code := by
  cases h with
  | packet => exact ⟨handlePacket_safe, fun _ => by simp [Prog.Wakeful, handlePacket, addRuntimeRequestFields,
      refreshSourcesAndNft, cleanupReusedNumberedDispvmEntries, cleanupDisposableRuleEntries, removePendingForSource,
      handleDnsTransport, handleFlowPacket, handleDnsDomain, matchingAction, queuePrompt, queueQuestion, freshResponseLabel]⟩
  | required => exact ⟨refreshSourcesRequired_safe, fun _ => ⟨trivial, trivial⟩⟩
  | watcher => exact ⟨refreshSourcesAndNft_safe, fun _ => ⟨trivial, trivial, ⟨trivial, trivial⟩, trivial, trivial⟩⟩
  | cli => exact ⟨handleCliConnection_safe, fun h => absurd rfl h⟩

end Locks

/-- However many packets, refreshes and CLI connections there are and whatever raises: two threads never hold one lock; a
thread that is in a call and does not wait for a prompt can go on, or waits for one that can; and the CLI server does not
sleep while there is a prompt to show. -/
theorem locks_resolve {queue : Queue} {s : Locking.State Nat Queue LockName}
    (hrun : Relation.ReflTransGen (Moves pendingCondition Locks.Calls) (State.idle queue) s) :
    (∀ t u l, l ∈ (s.strands t).held → l ∈ (s.strands u).held → t = u) ∧
    (∀ t, (s.strands t).asleep = false → (s.strands t).stack ≠ [] → Resolves pendingCondition s t) ∧
    (nextPendingRequest s.shared ≠ .ok none → ∀ t, (s.strands t).asleep = false) := by
  have h := Orderly.run (fun t p => Locks.calls_callable) hrun
  exact ⟨h.exclusive, fun t => h.progress, h.awake_of_ready⟩

/-- The watcher cleans up with the policy lock, and the packet that waits for it can go on. -/
theorem locks_resolve_contended : ∃ s : Locking.State Nat Queue LockName,
    Relation.ReflTransGen (Moves pendingCondition Locks.Calls) (State.idle .initial) s ∧
    (s.strands 1).held = [.policy] ∧ (∃ p k, (s.strands 2).stack = .run (.hold .policy p) :: k) ∧
    (s.strands 2).held = [] ∧ Resolves pendingCondition s 2 := by
  obtain ⟨watching, hwatching, hheld, hothers⟩ : ∃ s : Locking.State Nat Queue LockName,
      Relation.ReflTransGen (Moves pendingCondition Locks.Calls) (State.idle .initial) s ∧
      (s.strands 1).held = [.policy] ∧ s.strands 2 = {} := by
    have hcalled := Relation.ReflTransGen.single (Moves.call (c := pendingCondition) (s := State.idle .initial) rfl
      (Locks.Calls.watcher 1))
    have hdue := hcalled.tail (.step (.right (t := 1) rfl))
    have hlocked := hdue.tail (.step (.acquire (t := 1) rfl fun u => by
      by_cases hu : u = 1
      · subst hu
        simp [State.put_self, State.idle]
      · simp [State.put_ne _ _ hu, State.idle]))
    exact ⟨_, hlocked, rfl, rfl⟩
  have hidle : (watching.strands 2).stack = [] := by rw [hothers]
  have hcalled := hwatching.tail (.call hidle (.packet 2))
  have hhandled := ((hcalled.tail (.step (.right (t := 2) rfl))).tail (.step (.seq (t := 2) rfl))).tail
    (.step (.seq (t := 2) rfl))
  exact ⟨_, hhandled, hheld, ⟨_, _, rfl⟩, rfl, (locks_resolve hhandled).2.1 2 rfl (by simp [State.put_self])⟩

end QubesSnitch
