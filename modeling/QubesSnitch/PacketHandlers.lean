import QubesSnitch.SourcesRuntime

/-!
# Packet handlers

`handlePacket` is the callback for a queued packet.  It runs as a thread beside the others: between two of its sections
they may replace the sources and the rules, and whatever it calls outside of the model, log lines, notifications, the
socket, may raise.

The callback gives at most one verdict, and one if it returns.  It accepts a packet only on what it has seen itself
(`Mediated`): a well-formed packet of a source that was known from the beginning, whose policy allowed the flow, and the
question if it is one.
-/

namespace QubesSnitch

/-- The verdicts of NFQUEUE. -/
inductive PacketVerdict where
  | accept
  | drop
  deriving DecidableEq, Repr

abbrev Handler (α : Type) := Thread Daemon PyError PacketVerdict α

variable (sv : Services) (lib : DnsPython) (io : Io)

/-! ### Sections -/

/-- `policy_runtime.matching_action` -/
def currentAction (request : Request) : EStateM PyError Daemon (Option Action) := fun d =>
  match matchingAction sv request d.ctx.rules with
  | .ok action => .ok action d
  | .error e => .error e d

def sourceKnown (src : IPv4) : EStateM PyError Daemon Bool := fun d => .ok (decide (src ∈ d.ctx.sources.byIp.keys)) d

/-- The section of `add_runtime_request_fields` that names the source. -/
def identifySource (parsed : ParsedPacket) : EStateM PyError Daemon Request := fun d =>
  match d.ctx.sources.byIp.get? parsed.src with
  | none => .error (.keyError parsed.src.text) d
  | some source =>
    match (onCtx (ensureRuleEntry sv lib source)).run d with
    | .error e d => .error e d
    | .ok _ d => .ok
      { toParsedPacket := parsed
        source := source
        displaySource := (d.ctx.sources.displayByIp.get? parsed.src).getD source
        sourceLabel := d.ctx.sources.labels.get? source } d

/-! ### Handlers -/

/-- `queue_prompt`; what it logs and shows comes after its section. -/
def prompt (request : Request) : Handler (Option Action) := do
  match ← Thread.atomically (queuePrompt sv lib request) with
  | some action => return some action
  | none => do
    Thread.external
    return none

def addRuntimeRequestFields (now : Rat) (answer : Except PyError String) (parsed : ParsedPacket) :
    Handler (Option Request) := do
  match ← Thread.atomically (sourceKnown parsed.src) with
  | true => return some (← Thread.atomically (identifySource sv lib parsed))
  | false => do
    let _ ← refreshSourcesAndNft sv lib io now answer true
    match ← Thread.atomically (sourceKnown parsed.src) with
    | true => do
      -- the map is read without the lock here, only for the log line
      let _ ← Thread.peek fun d => match d.ctx.sources.byIp.get? parsed.src with
        | some source => .ok source
        | none => .error (.keyError parsed.src.text)
      Thread.external
      return none
    | false => do
      Thread.external
      throw (.systemExit ("source IP unknown to Qubes SRC=" ++ parsed.src.text ++ " DST=" ++ parsed.dst.text ++
        " PROTO=" ++ parsed.proto.name))

def applyFlowVerdict (decision : Action) : Handler Unit :=
  match decision with
  | .allow => Thread.emit .accept
  | .reject => Thread.emit .drop

/-- `answer_rejected_dns`: the packet is dropped also where REFUSED cannot be sent. -/
def answerRejectedDns : Handler Unit := do
  Thread.external
  match ← attempt Thread.external with
  | .error (.osError _) => do
    let noted ← attempt Thread.external
    Thread.emit .drop
    resume noted
  | sent => do
    Thread.emit .drop
    resume sent

/-- Log, then drop. -/
def logAndDrop : Handler Unit := do
  Thread.external
  Thread.emit .drop

def handleDnsQuestion (request : Request) : Handler Unit := do
  match ← Thread.atomically (currentAction sv request) with
  | some .allow => Thread.emit .accept
  | some .reject => answerRejectedDns
  | none =>
    match ← prompt sv lib request with
    | some .allow => Thread.emit .accept
    | some .reject => answerRejectedDns
    | none => Thread.emit .drop

def handleDnsDomain (request : Request) : Handler Unit :=
  match addDnsQueryFields lib request with
  | (false, _) => Thread.emit .drop
  | (true, request) =>
    match request.kind with
    | .dnsError reason _ => if "unsupported-".toList.isPrefixOf reason.toList then answerRejectedDns else logAndDrop
    | _ => handleDnsQuestion sv lib request

def handleDnsTransport (request : Request) : Handler Unit := do
  match ← Thread.atomically (currentAction sv request) with
  | some .reject => logAndDrop
  | some .allow => handleDnsDomain sv lib request
  | none =>
    match ← prompt sv lib request with
    | some .allow => handleDnsDomain sv lib request
    | some .reject => logAndDrop
    | none => Thread.emit .drop

/-- `cached_dns_name` -/
def cachedDnsName (now : Rat) (source : String) (ip : IPv4) (ctx : Runtime) : Option String :=
  match ctx.dnsResponseCache.get? (source, ip) with
  | some entry => if now < entry.expiresAt && entry.label ≠ "" then some ("A " ++ entry.label) else none
  | none => none

/-- The request with the name that `add_cached_dns_name` found. -/
def withCachedDnsName (name : Option String) (request : Request) : Request :=
  { request with host := name <|> request.host }

def handleFlowPacket (now : Rat) (request : Request) : Handler Unit := do
  let name ← Thread.peek fun d => .ok (cachedDnsName now request.source request.dst d.ctx)
  let flowRequest := withCachedDnsName name (requestWithoutBody request)
  match ← Thread.atomically (currentAction sv flowRequest) with
  | some action => applyFlowVerdict action
  | none =>
    match ← prompt sv lib flowRequest with
    | some action => applyFlowVerdict action
    | none => Thread.emit .drop

/-- `handle_packet`, at the time `now`, with dom0's answer in case it is asked. -/
def handlePacket (now : Rat) (answer : Except PyError String) (payload : List UInt8) : Handler Unit :=
  match parsePacket payload with
  | .error e => throw e
  | .ok none => logAndDrop
  | .ok (some parsed) => do
    match ← addRuntimeRequestFields sv lib io now answer parsed with
    | none => Thread.emit .drop
    | some request =>
      if request.malformed.isSome then logAndDrop
      else if request.proto = .flow .udp && request.dport = some 53 then handleDnsTransport sv lib request
      else handleFlowPacket sv lib now request

/-! ### What a section saw -/

variable {sv lib io}

theorem currentAction_ok {request : Request} {action : Option Action} {d d' : Daemon}
    (h : (currentAction sv request).run d = .ok action d') :
    matchingAction sv request d'.ctx.rules = .ok action := by
  unfold EStateM.run currentAction at h
  split at h
  · rename_i found hfound
    cases h
    exact hfound
  · cases h

theorem queuePrompt_some {request : Request} {action : Action} {d d' : Daemon}
    (h : (queuePrompt sv lib request).run d = .ok (some action) d') :
    matchingAction sv request d'.ctx.rules = .ok (some action) := by
  unfold EStateM.run queuePrompt at h
  split at h
  · cases h
  · split at h
    · cases h
    · split at h
      · cases h
      · rename_i found hfound
        cases h
        exact hfound
      · cases h

theorem identifySource_ok {parsed : ParsedPacket} {request : Request} {d d' : Daemon}
    (h : (identifySource sv lib parsed).run d = .ok request d') :
    request.toParsedPacket = parsed ∧ request.kind = .flow ∧
      d.ctx.sources.byIp.get? parsed.src = some request.source := by
  unfold EStateM.run identifySource at h
  split at h
  · cases h
  · rename_i source hsource
    split at h
    · cases h
    · cases h
      exact ⟨rfl, rfl, hsource⟩

/-! ### Mediation -/

/-- Whether a section of the record had the action for the request. -/
def Answered (sv : Services) (request : Request) (action : Action) (ss : List (Daemon × Daemon)) : Prop :=
  ∃ p ∈ ss, matchingAction sv request p.2.ctx.rules = .ok (some action)

/-- What an accepted packet rests on, in the sections of its handler. -/
structure Mediated (sv : Services) (lib : DnsPython) (payload : List UInt8) (ss : List (Daemon × Daemon))
    (parsed : ParsedPacket) (request : Request) : Prop where
  wellFormed : parsePacket payload = .ok (some parsed) ∧ parsed.malformed = none
  /-- The source was known at the first lookup. -/
  known : ∃ p, ss.head? = some p ∧ parsed.src ∈ p.1.ctx.sources.byIp.keys
  /-- The request is the packet, with the source that a section of this call had for its address. -/
  source : request.toParsedPacket = parsed ∧ request.kind = .flow ∧
    ∃ p ∈ ss, p.1.ctx.sources.byIp.get? parsed.src = some request.source
  flow : Answered sv request .allow ss
  /-- A question is allowed as well, for the same source. -/
  dns : parsed.proto = .flow .udp → parsed.dport = some 53 → ∃ qname qtype,
    addDnsQueryFields lib request = (true, { request with kind := .dns qname qtype }) ∧
      Answered sv { request with kind := .dns qname qtype } .allow ss

/-- At most one verdict, one if the handler returns, and an accept only of a mediated packet. -/
def Mediates (sv : Services) (lib : DnsPython) (payload : List UInt8) :
    EStateM.Result PyError (World Daemon PyError PacketVerdict) Unit → Prop
  | .ok _ w => w.output.length = 1 ∧
    (.accept ∈ w.output → ∃ parsed request, Mediated sv lib payload w.sections parsed request)
  | .error _ w => w.output.length ≤ 1 ∧
    (.accept ∈ w.output → ∃ parsed request, Mediated sv lib payload w.sections parsed request)

/-- No verdict yet. -/
def Waiting (C : List (Daemon × Daemon) → Prop) (ss : List (Daemon × Daemon)) (os : List PacketVerdict) : Prop :=
  os = [] ∧ C ss

/-- One verdict, which is an accept only with `G`. -/
def Decided (G : List (Daemon × Daemon) → Prop) (ss : List (Daemon × Daemon)) (os : List PacketVerdict) : Prop :=
  ∃ v, os = [v] ∧ (v = .accept → G ss)

/-- Where a handler may raise. -/
def Broken (G : List (Daemon × Daemon) → Prop) (ss : List (Daemon × Daemon)) (os : List PacketVerdict) : Prop :=
  os = [] ∨ Decided G ss os

/-- A handler that decides, and accepts only with `G`. -/
def Decides (C : List (Daemon × Daemon) → Prop) (x : Handler Unit) (G : List (Daemon × Daemon) → Prop) : Prop :=
  Thread.Spec (Waiting C) x (fun _ => Decided G) fun _ => Broken G

section Rules

variable {C D G : List (Daemon × Daemon) → Prop} {x : Handler Unit} {α : Type}

theorem Decides.weaken (h : Decides D x G) (hC : ∀ ss, C ss → D ss) : Decides C x G :=
  Thread.Spec.conseq h (fun _ _ hw => ⟨hw.1, hC _ hw.2⟩) (fun _ _ _ hd => hd) fun _ _ _ hb => hb

theorem Decides.accepts {G' : List (Daemon × Daemon) → Prop} (h : Decides C x G) (hG : ∀ ss, G ss → G' ss) :
    Decides C x G' :=
  Thread.Spec.conseq h (fun _ _ hw => hw) (fun _ _ _ ⟨v, hv, hg⟩ => ⟨v, hv, fun he => hG _ (hg he)⟩)
    fun _ _ _ hb => hb.imp id fun ⟨v, hv, hg⟩ => ⟨v, hv, fun he => hG _ (hg he)⟩

/-- A fact that the record does not matter for. -/
theorem Decides.assume {p : Prop} (h : p → Decides C x G) : Decides (fun ss => p ∧ C ss) x G :=
  fun w hw => h hw.2.1 w ⟨hw.1, hw.2.2⟩

theorem decides_drop : Decides C (Thread.emit .drop) G :=
  .emit fun _ _ hw => ⟨.drop, by rw [hw.1]; rfl, fun he => by cases he⟩

theorem decides_accept (h : ∀ ss, C ss → G ss) : Decides C (Thread.emit .accept) G :=
  .emit fun _ _ hw => ⟨.accept, by rw [hw.1]; rfl, fun _ => h _ hw.2⟩

theorem decides_throw (e : PyError) : Decides C (throw e) G := .throw fun _ _ hw => Or.inl hw.1

theorem Decides.external (h : Decides C x G) : Decides C (Thread.external >>= fun _ => x) G :=
  .bind (.external (fun _ _ hw => hw) fun _ _ _ hw => Or.inl hw.1) fun _ => h

theorem Decides.peek {f : Daemon → Except PyError α} {k : α → Handler Unit} (h : ∀ a, Decides C (k a) G) :
    Decides C (Thread.peek f >>= k) G := by
  refine .bind (.peek fun _ _ hw s => ?_) h
  split
  · exact hw
  · exact Or.inl hw.1

/-- After a section more is known. -/
theorem Decides.atomically (hC : Thread.Lasting C) {f : EStateM PyError Daemon α} {k : α → Handler Unit}
    (h : ∀ a, Decides (fun ss => C ss ∧ Thread.Seen f a ss) (k a) G) : Decides C (Thread.atomically f >>= k) G :=
  .bind (.conseq (.seen hC f) (fun _ _ hw => hw) (fun _ _ _ hq => hq) fun _ _ _ he => Or.inl he.1) h

theorem logAndDrop_decides : Decides C logAndDrop G := decides_drop.external

theorem answerRejectedDns_decides : Decides C answerRejectedDns G := by
  have hexternal : Thread.Spec (Waiting C) (attempt Thread.external : Handler (Except PyError Unit))
      (fun _ => Waiting C) fun _ => Broken G := .attempted (.external (fun _ _ h => h) fun _ _ _ h => h)
  have hdrop : ∀ result : Except PyError Unit, Decides C (do Thread.emit .drop; resume result) G := by
    intro result
    refine .bind (Q := fun _ => Decided G) decides_drop fun _ => ?_
    cases result with
    | ok _ => exact .pure fun _ _ h => h
    | error e => exact .throw fun _ _ h => Or.inr h
  refine Decides.external (.bind hexternal fun sent => ?_)
  split
  · exact .bind hexternal hdrop
  · exact hdrop _

theorem lasting_answered (sv : Services) (request : Request) (action : Action) :
    Thread.Lasting (Answered sv request action) := Thread.lasting_mem _

/-- The answer of the policy, as it was seen. -/
theorem Decides.currentAction (hC : Thread.Lasting C) {request : Request} {k : Option Action → Handler Unit}
    (hnone : Decides C (k none) G)
    (hsome : ∀ action, Decides (fun ss => C ss ∧ Answered sv request action ss) (k (some action)) G) :
    Decides C (Thread.atomically (QubesSnitch.currentAction sv request) >>= k) G := by
  refine .atomically hC fun found => ?_
  cases found with
  | none => exact hnone.weaken fun _ h => h.1
  | some action => exact (hsome action).weaken fun ss ⟨hc, p, hp, h⟩ => ⟨hc, p, hp, currentAction_ok h⟩

/-- The answer that is there when the prompt is to be queued. -/
theorem Decides.prompt (hC : Thread.Lasting C) {request : Request} {k : Option Action → Handler Unit}
    (hnone : Decides C (k none) G)
    (hsome : ∀ action, Decides (fun ss => C ss ∧ Answered sv request action ss) (k (some action)) G) :
    Decides C (QubesSnitch.prompt sv lib request >>= k) G := by
  rw [QubesSnitch.prompt, bind_assoc]
  refine .atomically hC fun found => ?_
  cases found with
  | none =>
    simp only [bind_assoc, pure_bind]
    exact Decides.weaken (D := C) hnone.external fun _ h => h.1
  | some action => exact (hsome action).weaken fun ss ⟨hc, p, hp, h⟩ => ⟨hc, p, hp, queuePrompt_some h⟩

end Rules

section Handlers

variable {C : List (Daemon × Daemon) → Prop} (hC : Thread.Lasting C) (request : Request)

include hC

theorem handleDnsQuestion_decides :
    Decides C (handleDnsQuestion sv lib request) fun ss => C ss ∧ Answered sv request .allow ss := by
  refine .currentAction hC (.prompt hC decides_drop ?_) ?_ <;>
    · rintro (_ | _)
      · exact decides_accept fun _ h => h
      · exact answerRejectedDns_decides

/-- A question is accepted if it is classified as one and allowed. -/
theorem handleDnsDomain_decides (hkind : request.kind = .flow) :
    Decides C (handleDnsDomain sv lib request) fun ss => C ss ∧ ∃ qname qtype,
      addDnsQueryFields lib request = (true, { request with kind := .dns qname qtype }) ∧
        Answered sv { request with kind := .dns qname qtype } .allow ss := by
  unfold handleDnsDomain
  split
  · exact decides_drop
  · rename_i question hfields
    split
    · split
      · exact answerRejectedDns_decides
      · exact logAndDrop_decides
    · rename_i hnot
      obtain ⟨qname, qtype, rfl⟩ := addDnsQueryFields_question hfields hkind hnot
      exact (handleDnsQuestion_decides hC _).accepts fun ss h => ⟨h.1, qname, qtype, hfields, h.2⟩

theorem handleDnsTransport_decides (hkind : request.kind = .flow) :
    Decides C (handleDnsTransport sv lib request) fun ss => (C ss ∧ Answered sv request .allow ss) ∧
      ∃ qname qtype, addDnsQueryFields lib request = (true, { request with kind := .dns qname qtype }) ∧
        Answered sv { request with kind := .dns qname qtype } .allow ss := by
  refine .currentAction hC (.prompt hC decides_drop ?_) ?_ <;>
    · rintro (_ | _)
      · exact handleDnsDomain_decides (hC.and (lasting_answered sv request .allow)) request hkind
      · exact logAndDrop_decides

theorem handleFlowPacket_decides (now : Rat) :
    Decides C (handleFlowPacket sv lib now request) fun ss => C ss ∧ Answered sv request .allow ss := by
  refine .peek fun name => ?_
  -- the hint and the body make no difference to policy
  have hsame : ∀ action ss, Answered sv (withCachedDnsName name (requestWithoutBody request)) action ss →
      Answered sv request action ss := by
    rintro action ss ⟨p, hp, h⟩
    have hpolicy : matchingAction sv request p.2.ctx.rules =
        matchingAction sv (withCachedDnsName name (requestWithoutBody request)) p.2.ctx.rules :=
      matchingAction_congr _ rfl rfl rfl rfl rfl
    exact ⟨p, hp, hpolicy.trans h⟩
  refine .currentAction hC (.prompt hC decides_drop ?_) ?_ <;>
    · rintro (_ | _)
      · exact decides_accept fun ss h => ⟨h.1, hsame _ ss h.2⟩
      · exact decides_drop

end Handlers

/-- What the fields of a packet say about its source. -/
structure Identified (parsed : ParsedPacket) (request : Request) (ss : List (Daemon × Daemon)) : Prop where
  known : ∃ p, ss.head? = some p ∧ parsed.src ∈ p.1.ctx.sources.byIp.keys
  source : ∃ p ∈ ss, p.1.ctx.sources.byIp.get? parsed.src = some request.source

theorem lasting_identified (parsed : ParsedPacket) (request : Request) :
    Thread.Lasting (Identified parsed request) := fun ss p h =>
  ⟨Thread.lasting_head _ ss p h.known, Thread.lasting_mem _ ss p h.source⟩

theorem refresh_waits {now : Rat} {answer : Except PyError String} {C G : List (Daemon × Daemon) → Prop}
    (hC : Thread.Lasting C) : Thread.Spec (Waiting C)
      (refreshSourcesAndNft sv lib io now answer true : Handler Bool) (fun _ => Waiting C) fun _ => Broken G := by
  refine .bind (Q := fun _ => Waiting C) (.peek fun _ _ hw _ => hw) fun last => ?_
  refine .bind (Q := fun _ => Waiting C) (.peek fun _ _ hw _ => hw) fun config => ?_
  split
  · rename_i e _
    unfold sourceRefreshFailed
    split
    · exact .bind (Q := fun _ => Waiting C) (.external (fun _ _ hw => hw) fun _ _ _ hw => Or.inl hw.1) fun _ =>
        .throw fun _ _ hw => Or.inl hw.1
    · exact .throw fun _ _ hw => Or.inl hw.1
  · exact .conseq (.seen hC _) (fun _ _ hw => hw) (fun _ _ _ hw => ⟨hw.1, hw.2.1⟩) fun _ _ _ hw => Or.inl hw.1

/-- A source is attributed only to an address that was known at the first lookup. -/
theorem addRuntimeRequestFields_waits {now : Rat} {answer : Except PyError String} {parsed : ParsedPacket}
    {G : List (Daemon × Daemon) → Prop} : Thread.Spec (Waiting fun ss => ss = [])
      (addRuntimeRequestFields sv lib io now answer parsed)
      (fun found => Waiting fun ss => ∀ request, found = some request →
        request.toParsedPacket = parsed ∧ request.kind = .flow ∧ Identified parsed request ss)
      fun _ => Broken G := by
  have htrue : Thread.Lasting fun _ : List (Daemon × Daemon) => True := fun _ _ _ => trivial
  have hfirst : Thread.Spec (Waiting fun ss => ss = []) (Thread.atomically (sourceKnown parsed.src) : Handler Bool)
      (fun known => Waiting fun ss => known = true →
        ∃ p, ss.head? = some p ∧ parsed.src ∈ p.1.ctx.sources.byIp.keys) fun _ => Broken G := by
    refine .atomically fun ss os ⟨hos, hss⟩ d => ⟨hos, fun hknown => ⟨(d, d), by rw [hss]; rfl, ?_⟩⟩
    exact of_decide_eq_true hknown
  refine .bind hfirst fun known => ?_
  cases known with
  | true =>
    refine .bind (.conseq (.seen (Thread.lasting_head fun p => parsed.src ∈ p.1.ctx.sources.byIp.keys) _)
      (fun _ _ hw => ⟨hw.1, hw.2 rfl⟩) (fun _ _ _ hw => hw) fun _ _ _ hw => Or.inl hw.1) fun request => ?_
    refine .pure fun ss os ⟨hos, hknown, p, hp, hrun⟩ => ⟨hos, ?_⟩
    rintro _ ⟨⟩
    obtain ⟨hparsed, hkind, hsource⟩ := identifySource_ok hrun
    exact ⟨hparsed, hkind, hknown, p, hp, hsource⟩
  | false =>
    -- an unknown source: a refresh, a second lookup and an alert in either case
    refine .bind (.conseq (refresh_waits htrue) (fun _ _ hw => ⟨hw.1, trivial⟩) (fun _ _ _ hw => hw)
      fun _ _ _ hw => hw) fun _ => ?_
    refine .bind (.conseq (.seen htrue _) (fun _ _ hw => hw) (fun _ _ _ hw => hw) fun _ _ _ hw => Or.inl hw.1)
      fun known => ?_
    cases known with
    | true =>
      refine .bind (Q := fun _ => Waiting fun _ => True) (.peek fun _ _ hw d => ?_) fun _ => ?_
      · split
        · exact ⟨hw.1, trivial⟩
        · exact Or.inl hw.1
      · refine .bind (Q := fun _ => Waiting fun _ => True) (.external (fun _ _ hw => hw) fun _ _ _ hw => Or.inl hw.1)
          fun _ => .pure fun _ _ hw => ⟨hw.1, fun _ he => by cases he⟩
    | false =>
      exact .bind (Q := fun _ => Waiting fun _ => True) (.external (fun _ _ hw => ⟨hw.1, trivial⟩)
        fun _ _ _ hw => Or.inl hw.1) fun _ => .throw fun _ _ hw => Or.inl hw.1

theorem handlePacket_decides (now : Rat) (answer : Except PyError String) (payload : List UInt8) :
    Decides (fun ss => ss = []) (handlePacket sv lib io now answer payload) fun ss =>
      ∃ parsed request, Mediated sv lib payload ss parsed request := by
  unfold handlePacket
  split
  · exact decides_throw _
  · exact logAndDrop_decides
  · rename_i parsed hparse
    refine .bind addRuntimeRequestFields_waits fun found => ?_
    cases found with
    | none => exact decides_drop
    | some request =>
      refine Decides.weaken (D := fun ss => (request.toParsedPacket = parsed ∧ request.kind = .flow) ∧
        Identified parsed request ss) (.assume fun ⟨hparsed, hkind⟩ => ?_) fun ss h => and_assoc.2 (h request rfl)
      have hlasting := lasting_identified parsed request
      dsimp only
      split
      · exact logAndDrop_decides
      · rename_i hmalformed
        have hwell : parsed.malformed = none := by
          rw [← hparsed]
          simpa using hmalformed
        split
        · refine (handleDnsTransport_decides hlasting request hkind).accepts ?_
          rintro ss ⟨⟨hid, hflow⟩, hdns⟩
          exact ⟨parsed, request, ⟨hparse, hwell⟩, hid.known, ⟨hparsed, hkind, hid.source⟩, hflow, fun _ _ => hdns⟩
        · rename_i hnot
          refine (handleFlowPacket_decides hlasting request now).accepts ?_
          rintro ss ⟨hid, hflow⟩
          refine ⟨parsed, request, ⟨hparse, hwell⟩, hid.known, ⟨hparsed, hkind, hid.source⟩, hflow, ?_⟩
          intro hudp hport
          exact absurd (by simp [hparsed, hudp, hport]) hnot

/-- Complete mediation: whatever the other threads do and whatever fails, the handler gives at most one verdict, exactly
one if it returns, and accepts only what it has seen allowed. -/
theorem handlePacket_mediates (sv : Services) (lib : DnsPython) (io : Io) (now : Rat) (answer : Except PyError String)
    (payload : List UInt8) (d : Daemon) (others : Nat → Daemon → Daemon) (faults : Nat → Option PyError) :
    Mediates sv lib payload ((handlePacket sv lib io now answer payload).run { shared := d, others, faults }) := by
  have h := @handlePacket_decides sv lib io now answer payload { shared := d, others, faults } ⟨rfl, rfl⟩
  have hdecided : ∀ w : World Daemon PyError PacketVerdict, Decided (fun ss => ∃ parsed request,
      Mediated sv lib payload ss parsed request) w.sections w.output → w.output.length = 1 ∧ (.accept ∈ w.output →
        ∃ parsed request, Mediated sv lib payload w.sections parsed request) := by
    rintro w ⟨v, hv, hg⟩
    exact ⟨by rw [hv]; rfl, fun hmem => hg (List.mem_singleton.1 (hv ▸ hmem)).symm⟩
  unfold Mediates
  split at h
  · rename_i w hrun
    rw [hrun]
    exact hdecided w h
  · rename_i e w hrun
    rw [hrun]
    rcases h with hnone | h
    · dsimp only
      rw [hnone]
      exact ⟨Nat.zero_le 1, fun hmem => by cases hmem⟩
    · exact ⟨Nat.le_of_eq (hdecided w h).1, (hdecided w h).2⟩

end QubesSnitch
