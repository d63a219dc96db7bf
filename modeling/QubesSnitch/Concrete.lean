import QubesSnitch.DaemonRuns
import QubesSnitch.DnsLanguage
import QubesSnitch.Enrichment
import QubesSnitch.QueueRuns

/-!
# What becomes policy

The threads of the daemon handle packets, connections of the CLI and news from dom0 side by side (`DaemonCall`).  In every
state that they come to, a prompt is about the concrete traffic of a whole packet (`ConcreteRequest`), and the rules of a
source are those that were loaded, if its policy has not been taken since, followed by rules that answers to such
prompts made (`Grown`).

No assumption is made about packets, answers, the resolver, dom0, nft and the file system.
-/

namespace QubesSnitch

variable (sv : Services) (lib : DnsPython)

/-! ### Calls -/

/-- The calls that the daemon's threads make, with whatever the outside gives to them. -/
inductive DaemonCall : (ω α : Type) → Thread Daemon PyError ω α → Prop
  | packet (io : Io) (now : Rat) (answer : Except PyError String) (payload : List UInt8) :
      DaemonCall PacketVerdict Unit (handlePacket sv lib io now answer payload)
  | cli (io : Io) (lookups : Lookups) (reply : CliReply) :
      DaemonCall Empty Unit
        (handleCliConnection lib io.resolver (saveRule sv lib io) (loadNft sv io) (enrichRequest lookups) reply)
  | refresh (io : Io) (now : Rat) (answer : Except PyError String) (force : Bool) :
      DaemonCall Empty Bool (refreshSourcesAndNft sv lib io now answer force)
  | required (io : Io) (now : Rat) (answer : Except PyError String) :
      DaemonCall Empty Unit (refreshSourcesRequired sv lib io now answer)

/-- The states of a daemon that has loaded its policy. -/
abbrev DaemonComesTo (ctx : Runtime) : Daemon → Prop :=
  Thread.Interleaved (fun d => d = (System.start ctx).daemon) (DaemonCall sv lib)

variable {sv lib}

/-! ### Concrete traffic -/

/-- The fields of a whole, supported packet, with or without its body. -/
def OfPacket (request : Request) : Prop :=
  ∃ payload parsed, parsePacket payload = .ok (some parsed) ∧ parsed.malformed = none ∧
    { request.toParsedPacket with body := parsed.body } = parsed

/-- A port between 1 and 65535, or `any` where the protocol has no ports. -/
def ConcretePort (proto : FlowProto) (port : String) : Prop :=
  (proto = .icmp ∧ port = "any") ∨
    (proto ≠ .icmp ∧ ∃ n, 1 ≤ n ∧ n ≤ 65535 ∧ port = String.ofList (Py.decimal n))

structure ConcreteQuestion (qname qtype : String) : Prop where
  live : liveDnsQnameSupported qname qtype
  supported : qtype ∈ supportedDnsQtypes
  wildcard : isWildcard qname.toList = false

/-- A flow of a whole packet, or a question. -/
structure ConcreteRequest (request : Request) : Prop where
  packet : OfPacket request
  malformed : request.malformed = none
  port : ∃ proto, request.proto = .flow proto ∧ ConcretePort proto (portText (requestPort request))
  kind : request.kind = .flow ∨ ∃ qname qtype, request.kind = .dns qname qtype ∧ ConcreteQuestion qname qtype

/-- The destination that was prompted, or a name whose addresses it is one of. -/
def ConcreteDest (dst : IPv4) (dest : Dest) : Prop :=
  dest = .network (.host dst) ∨
    ∃ qname ips, dest = .dns qname (some ips) ∧ ConcreteQuestion qname "A" ∧ 2 ≤ ips.length ∧ ips.Nodup ∧ dst ∈ ips

/-- A rule that an answer to a concrete prompt of the source made. -/
def ConcreteFlowRule (source : String) (rule : FlowRule) : Prop :=
  ∃ request : Request, ConcreteRequest request ∧ request.kind = .flow ∧ request.source = source ∧
    request.proto = .flow rule.proto ∧ rule.port = portText (requestPort request) ∧
    ConcretePort rule.proto rule.port ∧ ConcreteDest request.dst rule.dest

/-- The rules that were loaded for the source, or none, followed by rules that the daemon appended. -/
def Grown (loaded : Rules) (source : String) (sourceRules : SourceRules) : Prop :=
  ∃ base : SourceRules, (base = loaded.ofSource source ∨ base = ⟨[], []⟩) ∧ ∃ ip dns,
    sourceRules = ⟨base.ip ++ ip, base.dns ++ dns⟩ ∧ (∀ rule ∈ ip, ConcreteFlowRule source rule) ∧
      ∀ rule ∈ dns, ConcreteQuestion rule.qname rule.qtype

/-! ### Requests -/

theorem OfPacket.wellFormed {request : Request} (h : OfPacket request) :
    request.malformed = none ∧ request.toParsedPacket.WellFormed := by
  obtain ⟨payload, parsed, hparse, hmalformed, hpacket⟩ := h
  have hwell := parsePacket_wellFormed hparse hmalformed
  rw [← hpacket] at hmalformed hwell
  exact ⟨hmalformed, hwell⟩

theorem concretePort_of_wellFormed {request : Request} (h : request.toParsedPacket.WellFormed) :
    ∃ proto, request.proto = .flow proto ∧ ConcretePort proto (portText (requestPort request)) := by
  obtain ⟨proto, hproto, ⟨hicmp, hnone⟩ | ⟨hne, n, hn, -, hlow, hhigh⟩⟩ := requestPort_wellFormed h
  · exact ⟨proto, hproto, .inl ⟨hicmp, by rw [hnone]; rfl⟩⟩
  · exact ⟨proto, hproto, .inr ⟨hne, n, hlow, hhigh, by rw [hn]; rfl⟩⟩

/-- What is not written in the packet is its kind. -/
theorem OfPacket.concrete {request : Request} (h : OfPacket request)
    (hkind : request.kind = .flow ∨ ∃ qname qtype, request.kind = .dns qname qtype ∧ ConcreteQuestion qname qtype) :
    ConcreteRequest request :=
  ⟨h, h.wellFormed.1, concretePort_of_wellFormed h.wellFormed.2, hkind⟩

theorem Built.concrete {request : Request} (h : Built lib request) : ConcreteRequest request := by
  obtain ⟨payload, parsed, hparse, hmalformed, hpacket, hkind⟩ := h
  refine OfPacket.concrete ⟨payload, parsed, hparse, hmalformed, hpacket⟩ (hkind.imp id ?_)
  rintro ⟨qname, qtype, hdns, hfields⟩
  obtain ⟨-, hsupported, hlive, -⟩ := addDnsQueryFields_dns hfields rfl rfl
  exact ⟨qname, qtype, hdns, hlive, hsupported, (canonical_of_live hsupported hlive).2⟩

namespace ConcreteRequest

variable {request request' : Request}

theorem wellFormed (h : ConcreteRequest request) : request.WellFormed := by
  refine ⟨h.packet.wellFormed.2, h.kind.imp id ?_⟩
  rintro ⟨qname, qtype, hdns, hq⟩
  exact ⟨qname, qtype, hdns, canonical_of_live hq.supported hq.live⟩

/-- Neither the body nor the texts around a request matter. -/
theorem congr (h : ConcreteRequest request)
    (hpacket : { request'.toParsedPacket with body := none } = { request.toParsedPacket with body := none })
    (hkind : request'.kind = request.kind) : ConcreteRequest request' := by
  obtain ⟨payload, parsed, hparse, hmalformed, hfields⟩ := h.packet
  have hbody := congrArg (fun p : ParsedPacket => { p with body := parsed.body }) hpacket
  exact OfPacket.concrete ⟨payload, parsed, hparse, hmalformed, hbody.trans hfields⟩ (hkind ▸ h.kind)

theorem enriched (h : ConcreteRequest request) (he : Enriches request request') : ConcreteRequest request' := by
  rcases he with rfl | ⟨-, name, rfl⟩
  · exact h
  · exact h.congr rfl rfl

theorem shown {q : Queue} {key : QuestionKey} (hq : ∀ k r, q.items.get? k = some r → ConcreteRequest r)
    (h : nextPendingRequest q = .ok (some (key, request))) : ConcreteRequest request := by
  obtain ⟨id, pending, rfl, hpending, -⟩ := nextPendingRequest_shown h
  exact (hq key pending hpending).congr rfl rfl

end ConcreteRequest

/-! ### Rules -/

/-- The addresses that a host-name answer comes with. -/
def ResolvedSet (request : Request) : Prop :=
  ∃ ips, request.resolvedDests = some ips ∧ 2 ≤ ips.length ∧ ips.Nodup ∧ request.dst ∈ ips

theorem prepareHostnameDecision_resolved {resolver : Resolver} {request prepared : Request} {decision : Decision}
    (h : prepareHostnameDecision lib resolver request decision = .ok prepared) (hhost : decision.isHostname) :
    ResolvedSet prepared := by
  unfold prepareHostnameDecision at h
  split at h
  · rename_i hplain
    simp [hhost] at hplain
  · split at h
    · cases h
    · obtain ⟨qname, -, h⟩ := Except.exists_of_bind_eq_ok h
      obtain ⟨resolved, hresolved, h⟩ := Except.exists_of_bind_eq_ok h
      split at h
      · cases h
      · rename_i hmulti
        cases h
        simp only [Bool.or_eq_true, decide_eq_true_eq, not_or, not_not, not_le] at hmulti
        exact ⟨resolved, rfl, hmulti.1, addressesOf_nodup ((resolveDestDns_eq_ok _).1 hresolved), hmulti.2⟩

theorem Answers.concrete {request : Request} {decision : Decision} {rule : FlowRule} (h : Answers request decision rule)
    (hrequest : ConcreteRequest request) (hflow : request.kind = .flow)
    (hresolved : decision.isHostname → ResolvedSet request) : ConcreteFlowRule request.source rule := by
  obtain ⟨proto, hproto, hport⟩ := hrequest.port
  obtain rfl : proto = rule.proto := Proto.flow.inj (hproto.symm.trans h.proto)
  refine ⟨request, hrequest, hflow, rfl, h.proto, h.port, h.port ▸ hport, ?_⟩
  rcases h.dest with ⟨-, hdest⟩ | ⟨hhost, qname, x, xs, hdest, hcanonical, hwild, hsame⟩
  · exact .inl hdest
  · obtain ⟨ips, hips, htwo, hnodup, hmem⟩ := hresolved hhost
    have hne : ips ≠ [] := List.ne_nil_of_mem hmem
    rw [← hsame ips hips hne] at hdest
    exact .inr ⟨qname, ips, hdest, ⟨live_of_canonical hcanonical hwild, hcanonical.supported, hwild⟩, htwo, hnodup, hmem⟩

namespace Grown

variable {loaded : Rules} {source : String} {sourceRules : SourceRules}

theorem empty : Grown loaded source ⟨[], []⟩ :=
  ⟨⟨[], []⟩, .inr rfl, [], [], rfl, fun _ h => (List.not_mem_nil h).elim, fun _ h => (List.not_mem_nil h).elim⟩

theorem refl : Grown loaded source (loaded.ofSource source) := by
  refine ⟨_, .inl rfl, [], [], ?_, fun _ h => (List.not_mem_nil h).elim, fun _ h => (List.not_mem_nil h).elim⟩
  rw [List.append_nil, List.append_nil]

theorem appendFlow (h : Grown loaded source sourceRules) {rule : FlowRule} (hrule : ConcreteFlowRule source rule) :
    Grown loaded source { sourceRules with ip := sourceRules.ip ++ [rule] } := by
  obtain ⟨base, hbase, ip, dns, rfl, hip, hdns⟩ := h
  refine ⟨base, hbase, ip ++ [rule], dns, ?_, fun r hr => ?_, hdns⟩
  · simp only [List.append_assoc]
  · rcases List.mem_append.1 hr with hr | hr
    · exact hip r hr
    · rw [List.mem_singleton.1 hr]
      exact hrule

theorem appendDns (h : Grown loaded source sourceRules) {rule : DnsRule} (hrule : ConcreteQuestion rule.qname rule.qtype) :
    Grown loaded source { sourceRules with dns := sourceRules.dns ++ [rule] } := by
  obtain ⟨base, hbase, ip, dns, rfl, hip, hdns⟩ := h
  refine ⟨base, hbase, ip, dns ++ [rule], ?_, hip, fun r hr => ?_⟩
  · simp only [List.append_assoc]
  · rcases List.mem_append.1 hr with hr | hr
    · exact hdns r hr
    · rw [List.mem_singleton.1 hr]
      exact hrule

end Grown

/-- All entries of the rules have grown so. -/
def AllGrown (loaded rules : Rules) : Prop := ∀ s sourceRules, rules.get? s = some sourceRules → Grown loaded s sourceRules

theorem AllGrown.ofSource {loaded rules : Rules} (h : AllGrown loaded rules) (s : String) :
    Grown loaded s (rules.ofSource s) := by
  unfold Rules.ofSource
  cases hget : rules.get? s with
  | none => exact .empty
  | some sourceRules => exact h s sourceRules hget

theorem AllGrown.set {loaded rules : Rules} (h : AllGrown loaded rules) {source : String} {sourceRules : SourceRules}
    (hnew : Grown loaded source sourceRules) : AllGrown loaded (rules.set source sourceRules) := by
  intro s r hget
  rw [Dict.get?_set] at hget
  split at hget
  · rename_i hs
    cases hget
    exact hs ▸ hnew
  · exact h s r hget

/-- An answer to a concrete prompt adds one rule to those of its source. -/
theorem AllGrown.appendDecision {loaded rules rules' : Rules} (h : AllGrown loaded rules) {io : Io} {request : Request}
    {decision : Decision} {data data' : RuleFile} (hrequest : ConcreteRequest request)
    (hresolved : decision.isHostname → ResolvedSet request)
    (happend : QubesSnitch.appendDecision lib io request decision data rules = .ok (data', rules')) :
    AllGrown loaded rules' := by
  have hsource := h.ofSource request.source
  unfold QubesSnitch.appendDecision at happend
  rcases hrequest.kind with hflow | ⟨qname, qtype, hdns, hq⟩
  · rw [hflow] at happend
    obtain ⟨rule, hrule, -, rfl⟩ := appendFlowRule_ok hrequest.wellFormed happend
    exact h.set (hsource.appendFlow (hrule.concrete hrequest hflow hresolved))
  · rw [hdns] at happend
    obtain ⟨-, -, rfl⟩ := appendDnsRule_ok (canonical_of_live hq.supported hq.live).1 happend
    exact h.set (hsource.appendDns hq)

/-! ### Sections -/

structure ConcreteInvariant (sv : Services) (lib : DnsPython) (config : Config) (loaded : Rules) (d : Daemon) : Prop
    extends Invariant sv lib config d where
  prompts : ∀ key request, d.queue.items.get? key = some request → ConcreteRequest request
  grown : AllGrown loaded d.ctx.rules

namespace ConcreteInvariant

variable {config : Config} {loaded : Rules} {d : Daemon} {io : Io} {new : SourceMap}

theorem ignoresCaches : IgnoresCaches (ConcreteInvariant sv lib config loaded) := by
  intro d ctx hctx h
  rw [CachesOnly] at hctx
  rw [hctx]
  exact ⟨⟨h.configured, h.sources, h.known, h.stored, h.pending⟩, h.prompts, h.grown⟩

theorem queuePrompt (h : ConcreteInvariant sv lib config loaded d) {request : Request} (hr : Promptable lib request) :
    ConcreteInvariant sv lib config loaded ((queuePrompt sv lib request).leaves d) := by
  have hinvariant := h.toInvariant.queuePrompt hr
  rcases queuePrompt_leaves h.known request with hsame | ⟨-, -, hqueue⟩
  · rw [hsame]
    exact h
  · rw [hqueue] at hinvariant ⊢
    refine ⟨hinvariant, fun key r hget => ?_, h.grown⟩
    rcases queueQuestion_items hget with hold | ⟨rfl, -⟩
    · exact h.prompts key r hold
    · exact hr.1.concrete.congr rfl rfl

theorem fewer (h : ConcreteInvariant sv lib config loaded d) {queue : Queue}
    (hq : ∀ key request, queue.items.get? key = some request → d.queue.items.get? key = some request) :
    ConcreteInvariant sv lib config loaded { d with queue } :=
  ⟨h.toInvariant.fewer hq, fun key request hget => h.prompts key request (hq key request hget), h.grown⟩

theorem reloaded (h : ConcreteInvariant sv lib config loaded d) :
    ConcreteInvariant sv lib config loaded (reloaded sv io d) := by
  have hinvariant : Invariant sv lib config (QubesSnitch.reloaded sv io d) := h.toInvariant.reloaded
  obtain ⟨text, htext⟩ := loadNft_leaves sv io d.ctx
  rw [QubesSnitch.reloaded, htext] at hinvariant ⊢
  exact ⟨hinvariant, h.prompts, h.grown⟩

theorem saveDecision (h : ConcreteInvariant sv lib config loaded d) {key : QuestionKey} {prepared : Request}
    {decision : Decision} (hq : Question key prepared) (hp : Prepared lib prepared decision)
    (hrequest : ConcreteRequest prepared) (hresolved : decision.isHostname → ResolvedSet prepared) :
    ConcreteInvariant sv lib config loaded ((saveDecision sv lib io key prepared decision).leaves d) := by
  have hinvariant : Invariant sv lib config ((QubesSnitch.saveDecision sv lib io key prepared decision).leaves d) :=
    h.toInvariant.saveDecision hq hp
  rcases saveDecision_leaves sv io d key hp with
    ⟨-, hsame⟩ | ⟨-, queue, hqueue, ⟨-, hleaves⟩ | ⟨ctx', hsave, hleaves⟩⟩
  · rw [hsame]
    exact h
  · rw [hleaves]
    exact h.fewer fun k r hget => ((answered_items hqueue k r).1 hget).1
  · obtain ⟨text, htext⟩ := loadNft_leaves sv io ctx'
    rw [hleaves, QubesSnitch.reloaded, htext] at hinvariant ⊢
    refine ⟨hinvariant, fun k r hget => h.prompts k r ((answered_items hqueue k r).1 hget).1, ?_⟩
    rcases saveRule_ok hsave with rfl | ⟨-, happend⟩
    · exact h.grown
    · obtain ⟨data, rules, hdecided, rfl⟩ := appendRule_ok happend
      obtain ⟨current, appended, -, hdecision, -⟩ := decidedPolicy_ok hdecided
      exact h.grown.appendDecision hrequest hresolved hdecision

theorem refreshed (h : ConcreteInvariant sv lib config loaded d)
    (hnew : new.Consistent config.defaultDisposableVmName) (now : Rat) (gone : List String) :
    ConcreteInvariant sv lib config loaded (refreshed new now gone d) := by
  let d₁ : Daemon := { d with ctx.lastSourceRefresh := now, ctx.sources := new }
  refine ⟨h.toInvariant.refreshed hnew now gone, fun key request hget => ?_, fun s sourceRules hget => ?_⟩
  · have hget : (purgeAll d₁ gone).queue.items.get? key = some request := hget
    rw [purgeAll_items] at hget
    split at hget
    · cases hget
    · exact h.prompts key request hget
  · have hget : ((purgeAll d₁ gone).ctx.rules.cover (purgeAll d₁ gone).ctx.sources.byName.keys).get? s =
        some sourceRules := hget
    rw [Rules.cover_get?, purgeAll_rules, Option.or_eq_some_iff] at hget
    rcases hget with hold | ⟨-, hempty⟩
    · split at hold
      · cases hold
      · exact h.grown s sourceRules hold
    · split at hempty
      · cases hempty
        exact .empty
      · cases hempty

theorem publishSources (h : ConcreteInvariant sv lib config loaded d) {answer : Except PyError String}
    (hquery : queryDom0Sources answer config = .ok new) (io : Io) (now : Rat) :
    ConcreteInvariant sv lib config loaded ((publishSources sv lib io new now).leaves d) := by
  rcases publishSources_leaves sv lib io fun _ => h.stored.no_file with hsame | ⟨gone, hleaves⟩
  · rw [hsame]
    exact ⟨⟨h.configured, h.sources, h.known, h.stored, h.pending⟩, h.prompts, h.grown⟩
  · rw [hleaves]
    exact (h.refreshed (queryDom0Sources_consistent hquery) now gone).reloaded

theorem publishRequiredSources (h : ConcreteInvariant sv lib config loaded d) {answer : Except PyError String}
    (hquery : queryDom0Sources answer config = .ok new) (io : Io) (now : Rat) :
    ConcreteInvariant sv lib config loaded ((publishRequiredSources sv lib io new now).leaves d) := by
  obtain ⟨gone, hleaves⟩ := publishRequiredSources_leaves sv lib io fun _ => h.stored.no_file
  rw [hleaves]
  exact (h.refreshed (queryDom0Sources_consistent hquery) now gone).reloaded

end ConcreteInvariant

/-! ### Packets -/

section Handlers

variable {config : Config} {loaded : Rules} {io : Io}

/-- What a section does that only reads. -/
private theorem reads_keeps {ω α : Type} {I : Daemon → Prop} {f : EStateM PyError Daemon α} (hf : ∀ d, f.leaves d = d)
    {Q : α → Prop} (hQ : ∀ d a d', I d → f.run d = .ok a d' → Q a) :
    Thread.Keeps I (Thread.atomically f : Thread Daemon PyError ω α) Q :=
  .atomically (fun d hd => (hf d).symm ▸ hd) hQ

theorem currentAction_keeps {ω : Type} {I : Daemon → Prop} (request : Request) :
    Thread.Keeps I (Thread.atomically (currentAction sv request) : Thread Daemon PyError ω (Option Action))
      fun _ => True := by
  refine reads_keeps (fun d => ?_) fun _ _ _ _ _ => trivial
  unfold EStateM.leaves EStateM.run currentAction
  cases matchingAction sv request d.ctx.rules <;> rfl

theorem sourceKnown_keeps {ω : Type} {I : Daemon → Prop} (src : IPv4) :
    Thread.Keeps I (Thread.atomically (sourceKnown src) : Thread Daemon PyError ω Bool) fun _ => True :=
  reads_keeps (fun _ => rfl) fun _ _ _ _ _ => trivial

theorem logAndDrop_keeps {I : Daemon → Prop} : Thread.Keeps I logAndDrop fun _ => True :=
  .bind .external fun _ _ => .emit _

theorem answerRejectedDns_keeps {I : Daemon → Prop} : Thread.Keeps I answerRejectedDns fun _ => True := by
  have hdrop : ∀ result : Except PyError Unit,
      Thread.Keeps I (do Thread.emit .drop; resume result : Handler Unit) fun _ => True := by
    intro result
    refine .bind (.emit _) fun _ _ => ?_
    cases result with
    | ok _ => exact .pure trivial
    | error e => exact .throw
  refine .bind .external fun _ _ => .bind (.attempted .external) fun sent _ => ?_
  split
  · exact .bind (.attempted .external) fun noted _ => hdrop noted
  · exact hdrop _

theorem applyFlowVerdict_keeps {I : Daemon → Prop} (decision : Action) :
    Thread.Keeps I (applyFlowVerdict decision) fun _ => True := by
  cases decision <;> exact .emit _

theorem prompt_keeps {request : Request} (hr : Promptable lib request) :
    Thread.Keeps (ConcreteInvariant sv lib config loaded) (prompt sv lib request) fun _ => True := by
  refine .bind (.atomically (fun d hd => hd.queuePrompt hr) fun _ _ _ _ _ => trivial) fun found _ => ?_
  cases found with
  | some action => exact .pure trivial
  | none => exact .bind .external fun _ _ => .pure trivial

theorem handleDnsQuestion_keeps {request : Request} (hr : Promptable lib request) :
    Thread.Keeps (ConcreteInvariant sv lib config loaded) (handleDnsQuestion sv lib request) fun _ => True := by
  refine .bind (currentAction_keeps request) fun found _ => ?_
  rcases found with _ | _ | _
  · refine .bind (prompt_keeps hr) fun found _ => ?_
    rcases found with _ | _ | _
    · exact .emit _
    · exact .emit _
    · exact answerRejectedDns_keeps
  · exact .emit _
  · exact answerRejectedDns_keeps

/-- A request as the packet path makes it. -/
structure Fresh (parsed : ParsedPacket) (request : Request) : Prop where
  packet : request.toParsedPacket = parsed
  kind : request.kind = .flow
  host : request.host = none

theorem identifySource_fresh {parsed : ParsedPacket} {request : Request} {d d' : Daemon}
    (h : (identifySource sv lib parsed).run d = .ok request d') : Fresh parsed request := by
  unfold EStateM.run identifySource at h
  split at h
  · cases h
  · split at h
    · cases h
    · cases h
      exact ⟨rfl, rfl, rfl⟩

section Fresh

variable {payload : List UInt8} {parsed : ParsedPacket} {request : Request}
  (hparse : parsePacket payload = .ok (some parsed)) (hmalformed : parsed.malformed = none) (hfresh : Fresh parsed request)

include hparse hmalformed hfresh

theorem Fresh.promptable : Promptable lib request := by
  obtain ⟨rfl, hkind, hhost⟩ := hfresh
  exact ⟨⟨payload, request.toParsedPacket, hparse, hmalformed, rfl, .inl hkind⟩, fun _ => hhost⟩

/-- Of the bodies only questions get to policy. -/
theorem handleDnsDomain_keeps : Thread.Keeps (ConcreteInvariant sv lib config loaded) (handleDnsDomain sv lib request)
    fun _ => True := by
  obtain ⟨rfl, hkind, hhost⟩ := hfresh
  unfold handleDnsDomain
  split
  · exact .emit _
  · rename_i question hfields
    split
    · split
      · exact answerRejectedDns_keeps
      · exact logAndDrop_keeps
    · rename_i hnot
      obtain ⟨qname, qtype, rfl⟩ := addDnsQueryFields_question hfields hkind hnot
      refine handleDnsQuestion_keeps ⟨⟨payload, request.toParsedPacket, hparse, hmalformed, rfl,
        .inr ⟨qname, qtype, rfl, ?_⟩⟩, fun _ => hhost⟩
      have hsame : { request with kind := .flow } = request := by rw [← hkind]
      show addDnsQueryFields lib { request with kind := .flow } = (true, { request with kind := .dns qname qtype })
      rw [hsame]
      exact hfields

theorem handleDnsTransport_keeps : Thread.Keeps (ConcreteInvariant sv lib config loaded)
    (handleDnsTransport sv lib request) fun _ => True := by
  have hdomain : Thread.Keeps (ConcreteInvariant sv lib config loaded) (handleDnsDomain sv lib request)
      fun _ => True := handleDnsDomain_keeps hparse hmalformed hfresh
  refine .bind (currentAction_keeps request) fun found _ => ?_
  rcases found with _ | _ | _
  · refine .bind (prompt_keeps (Fresh.promptable hparse hmalformed hfresh)) fun found _ => ?_
    rcases found with _ | _ | _
    · exact .emit _
    · exact hdomain
    · exact logAndDrop_keeps
  · exact hdomain
  · exact logAndDrop_keeps

theorem handleFlowPacket_keeps (now : Rat) : Thread.Keeps (ConcreteInvariant sv lib config loaded)
    (handleFlowPacket sv lib now request) fun _ => True := by
  obtain ⟨rfl, hkind, -⟩ := hfresh
  refine .bind (Q := fun _ => True) (.peek fun _ _ _ _ => trivial) fun name _ => ?_
  have hr : Promptable lib (withCachedDnsName name (requestWithoutBody request)) := by
    refine ⟨⟨payload, request.toParsedPacket, hparse, hmalformed, rfl, .inl hkind⟩, fun hdns => ?_⟩
    have hkind : (withCachedDnsName name (requestWithoutBody request)).kind = .flow := hkind
    rw [hkind] at hdns
    cases hdns
  refine .bind (currentAction_keeps _) fun found _ => ?_
  cases found with
  | some action => exact applyFlowVerdict_keeps action
  | none =>
    refine .bind (prompt_keeps hr) fun found _ => ?_
    cases found with
    | some action => exact applyFlowVerdict_keeps action
    | none => exact .emit _

end Fresh

/-- A refresh publishes a map that dom0 gave. -/
private theorem publish_keeps {ω α : Type} {answer : Except PyError String}
    {publish : SourceMap → EStateM PyError Daemon α}
    (hpublish : ∀ new d, ConcreteInvariant sv lib config loaded d → queryDom0Sources answer config = .ok new →
      ConcreteInvariant sv lib config loaded ((publish new).leaves d)) :
    Thread.Keeps (ConcreteInvariant sv lib config loaded)
      (do
        let config ← Thread.peek fun d => .ok d.ctx.config
        match queryDom0Sources answer config with
        | .error e => sourceRefreshFailed e
        | .ok new => Thread.atomically (publish new) : Thread Daemon PyError ω α) fun _ => True := by
  refine .bind (Q := fun found => found = config) (.peek fun d found hd hfound => ?_) fun found hfound => ?_
  · cases hfound
    exact hd.configured
  · subst hfound
    split
    · unfold sourceRefreshFailed
      split
      · exact .bind .external fun _ _ => .throw
      · exact .throw
    · rename_i new hquery
      exact .atomically (fun d hd => hpublish new d hd hquery) fun _ _ _ _ _ => trivial

theorem forceSourceRefresh_keeps {ω : Type} (now : Rat) (answer : Except PyError String) :
    Thread.Keeps (ConcreteInvariant sv lib config loaded)
      (forceSourceRefresh sv lib io now answer : Thread Daemon PyError ω Bool) fun _ => True :=
  publish_keeps fun _ _ hd hquery => hd.publishSources hquery io now

theorem refreshSourcesAndNft_keeps {ω : Type} (now : Rat) (answer : Except PyError String) (force : Bool) :
    Thread.Keeps (ConcreteInvariant sv lib config loaded)
      (refreshSourcesAndNft sv lib io now answer force : Thread Daemon PyError ω Bool) fun _ => True := by
  refine .bind (Q := fun _ => True) (.peek fun _ _ _ _ => trivial) fun last _ => ?_
  split
  · exact .pure trivial
  · exact forceSourceRefresh_keeps now answer

theorem refreshSourcesRequired_keeps {ω : Type} (now : Rat) (answer : Except PyError String) :
    Thread.Keeps (ConcreteInvariant sv lib config loaded)
      (refreshSourcesRequired sv lib io now answer : Thread Daemon PyError ω Unit) fun _ => True :=
  publish_keeps fun _ _ hd hquery => hd.publishRequiredSources hquery io now

theorem addRuntimeRequestFields_keeps (now : Rat) (answer : Except PyError String) (parsed : ParsedPacket) :
    Thread.Keeps (ConcreteInvariant sv lib config loaded) (addRuntimeRequestFields sv lib io now answer parsed)
      fun found => ∀ request, found = some request → Fresh parsed request := by
  have hnone : ∀ request, (none : Option Request) = some request → Fresh parsed request := fun _ h => by cases h
  refine .bind (sourceKnown_keeps parsed.src) fun known _ => ?_
  cases known with
  | true =>
    refine .bind (Q := Fresh parsed) (.atomically (fun d hd => ?_) fun d request d' hd hrun => ?_) fun request hr => ?_
    · rw [identifySource_leaves hd.sources hd.known]
      exact hd
    · exact identifySource_fresh hrun
    · refine .pure ?_
      rintro _ ⟨⟩
      exact hr
  | false =>
    refine .bind (refreshSourcesAndNft_keeps now answer true) fun _ _ => ?_
    refine .bind (sourceKnown_keeps parsed.src) fun known _ => ?_
    cases known with
    | true =>
      refine .bind (Q := fun _ => True) (.peek fun _ _ _ _ => trivial) fun _ _ => ?_
      exact .bind .external fun _ _ => .pure hnone
    | false => exact .bind .external fun _ _ => .throw

theorem handlePacket_keeps (now : Rat) (answer : Except PyError String) (payload : List UInt8) :
    Thread.Keeps (ConcreteInvariant sv lib config loaded) (handlePacket sv lib io now answer payload) fun _ => True := by
  unfold handlePacket
  split
  · exact .throw
  · exact logAndDrop_keeps
  · rename_i parsed hparse
    refine .bind (addRuntimeRequestFields_keeps now answer parsed) fun found hfound => ?_
    cases found with
    | none => exact .emit _
    | some request =>
      have hfresh := hfound request rfl
      dsimp only
      split
      · exact logAndDrop_keeps
      · rename_i hwell
        have hmalformed : parsed.malformed = none := by
          rw [← hfresh.packet]
          simpa using hwell
        split
        · exact handleDnsTransport_keeps hparse hmalformed hfresh
        · exact handleFlowPacket_keeps hparse hmalformed hfresh now

/-! ### Answers -/

theorem savePendingDecision_keeps {key : QuestionKey} {request enriched : Request} (hq : Question key request)
    (hrequest : ConcreteRequest request) (he : Enriches request enriched) (decision : Decision) :
    Thread.Keeps (ConcreteInvariant sv lib config loaded)
      (savePendingDecision lib io.resolver (saveRule sv lib io) (loadNft sv io) key enriched decision) fun _ => True := by
  unfold savePendingDecision
  split
  · exact .throw
  · rename_i prepared hprepare
    have henriched := hq.enriched he
    obtain ⟨hkey, hprepared⟩ := hq.prepared he hprepare
    obtain ⟨found, rfl⟩ := (prepareHostnameDecision_ok henriched.wellFormed henriched.host hprepare).1
    have hconcrete : ConcreteRequest { enriched with resolvedDests := found } := (hrequest.enriched he).congr rfl rfl
    exact .atomically (fun d hd => hd.saveDecision hkey hprepared hconcrete (prepareHostnameDecision_resolved hprepare))
      fun _ _ _ _ _ => trivial

theorem handleCliConnection_keeps (lookups : Lookups) (reply : CliReply) :
    Thread.Keeps (ConcreteInvariant sv lib config loaded)
      (handleCliConnection lib io.resolver (saveRule sv lib io) (loadNft sv io) (enrichRequest lookups) reply)
      fun _ => True := by
  have hfetch : Thread.Keeps (ConcreteInvariant sv lib config loaded)
      (Thread.atomically fetchPrompt : Thread Daemon PyError Empty (Option (QuestionKey × Request)))
      fun found => ∀ key request, found = some (key, request) → Question key request ∧ ConcreteRequest request := by
    refine reads_keeps fetchPrompt_leaves fun d found d' hd hrun key request hfound => ?_
    subst hfound
    have hnext : nextPendingRequest d.queue = .ok (some (key, request)) := by
      unfold EStateM.run fetchPrompt at hrun
      split at hrun
      · rename_i shown hshown
        cases hrun
        exact hshown
      · cases hrun
    exact ⟨nextPendingRequest_question (fun k r hget => (hd.pending k r hget).toQuestion) hnext, .shown hd.prompts hnext⟩
  refine .bind hfetch fun found hfound => ?_
  rcases found with _ | ⟨key, request⟩
  · exact .pure trivial
  · obtain ⟨hq, hrequest⟩ := hfound key request rfl
    refine .bind (enrichRequest_keeps ConcreteInvariant.ignoresCaches request) fun enriched henriched => ?_
    cases enriched with
    | none =>
      exact .atomically (fun d hd => hd.fewer fun k r hget => discardPendingDecision_items hget)
        fun _ _ _ _ _ => trivial
    | some enriched =>
      show Thread.Keeps _ (answerPrompt lib io.resolver _ _ key enriched reply) _
      unfold answerPrompt
      split
      · exact .external
      · exact .throw
      · split
        · exact .external
        · exact savePendingDecision_keeps hq hrequest (henriched enriched rfl) _

theorem DaemonCall.keeps {ω α : Type} {x : Thread Daemon PyError ω α} (hx : DaemonCall sv lib ω α x) :
    Thread.Keeps (ConcreteInvariant sv lib config loaded) x fun _ => True := by
  cases hx with
  | packet io now answer payload => exact handlePacket_keeps now answer payload
  | cli io lookups reply => exact handleCliConnection_keeps lookups reply
  | refresh io now answer force => exact refreshSourcesAndNft_keeps now answer force
  | required io now answer => exact refreshSourcesRequired_keeps now answer

end Handlers

/-- In every state that a daemon comes to, whatever packets, answers and maps it gets in whatever order, each prompt is
concrete, and every source has in memory and in its file the rules that were loaded for it, or none, and after them only
rules that answers to concrete prompts made. -/
theorem only_concrete {config : Config} {io : Io} {dir : RulesDir} {ctx : Runtime} {d : Daemon}
    (hload : (loadPolicyWithoutSources sv lib io config).run (Runtime.initial dir) = .ok () ctx)
    (h : DaemonComesTo sv lib ctx d) :
    (∀ key request, d.queue.items.get? key = some request → ConcreteRequest request) ∧
    (∀ s sourceRules, d.ctx.rules.get? s = some sourceRules → Grown ctx.rules s sourceRules) ∧
    ∀ s text, d.ctx.rulesDir.get? s = some text → ∃ sourceRules, Grown ctx.rules s sourceRules ∧
      readRuleFile sv lib s text = .ok sourceRules.stored := by
  have hstart : ∀ d, d = (System.start ctx).daemon → ConcreteInvariant sv lib config ctx.rules d := by
    rintro _ rfl
    refine ⟨(invariant_start hload).toInvariant, fun key request hget => (by cases hget), fun s sourceRules hget => ?_⟩
    have hsource : ctx.rules.ofSource s = sourceRules := by
      rw [Rules.ofSource, show ctx.rules.get? s = some sourceRules from hget]
      rfl
    exact hsource ▸ .refl
  have hd : ConcreteInvariant sv lib config ctx.rules d := h.invariant hstart fun _ _ _ hx => hx.keeps
  refine ⟨hd.prompts, hd.grown, fun s text hget => ?_⟩
  obtain ⟨sourceRules, hrules, hholds⟩ := hd.stored.saved s text hget
  exact ⟨sourceRules, hd.grown s sourceRules hrules, hholds.read⟩

namespace Sample

/-- A call that finds one state all the time, and whose calls outside do not raise. -/
def alone (ω : Type) (d : Daemon) : World Daemon PyError ω where
  shared := d
  others := fun _ _ => d
  faults := fun _ => none

theorem comesTo_mapped : DaemonComesTo .empty dnspython loaded mapped.daemon := by
  let start := (System.start loaded).daemon
  have hrun : (refreshSourcesRequired .empty dnspython works 0 (.ok "work|10.137.0.5|green|AppVM|-")).run
      (alone Empty start) =
      .ok () { alone Empty start with shared := mapped.daemon, accesses := 2, sections := [(start, mapped.daemon)] } := by
    rw [refreshSourcesRequired, EStateM.run_bind, Thread.run_peek]
    show (match queryDom0Sources (.ok "work|10.137.0.5|green|AppVM|-") Sample.config with
      | .error e => sourceRefreshFailed e
      | .ok new => Thread.atomically (publishRequiredSources .empty dnspython works new 0) :
        Thread Daemon PyError Empty Unit).run _ = _
    rw [query_oneVm]
    exact Thread.run_atomically_of_ok rfl
  have hsection : (start, mapped.daemon) ∈
      ((refreshSourcesRequired .empty dnspython works 0 (.ok "work|10.137.0.5|green|AppVM|-")).leaves
        (alone Empty start)).sections := by
    rw [EStateM.leaves_of_ok hrun]
    exact List.mem_singleton.2 rfl
  exact .call (.required works 0 _) rfl (fun _ _ => .start rfl) hsection

/-- The request of the handler. -/
def handled : Request := { requestWithoutBody request with sourceLabel := some "green" }

theorem comesTo_handled :
    DaemonComesTo .empty dnspython loaded ((queuePrompt .empty dnspython handled).leaves mapped.daemon) := by
  have hparse : parsePacket payload = .ok (some request.toParsedPacket) := by decide +kernel
  have hsection : (mapped.daemon, (queuePrompt .empty dnspython handled).leaves mapped.daemon) ∈
      ((handlePacket .empty dnspython works 0 (.ok "") payload).leaves (alone PacketVerdict mapped.daemon)).sections := by
    rw [handlePacket, hparse]
    exact List.mem_of_getLast? rfl
  exact .call (.packet works 0 (.ok "") payload) rfl (fun _ _ => comesTo_mapped) hsection

/-- A flow that was asked about. -/
theorem only_concrete_handled : ConcreteRequest handled :=
  (only_concrete load_empty comesTo_handled).1 (questionKey handled) _ rfl

end Sample

end QubesSnitch
