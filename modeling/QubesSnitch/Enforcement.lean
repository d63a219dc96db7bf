import QubesSnitch.DaemonRuns
import QubesSnitch.Nft.FailClosed
import QubesSnitch.PacketFormat

/-!
# Enforcement

A forwarded packet gets through where the kernel accepts it, or queues it and the packet handler accepts it.  Where the
kernel has the policy as it is meant (`PolicyKept`), it accepts only what the first matching rule allows, DNS only as a
reply, and replies to known VMs that policy says nothing about (`Rendered.accept_allowed`); the handler accepts only what
it has seen allowed (`handlePacket_mediates`).  Since the table in the kernel is that of the policy in memory, both halves
speak about the policy of a run (`passes_only_allowed`).
-/

namespace QubesSnitch

namespace Nft

variable {sv : Services} {sources : SourceMap} {rules : Rules}

/-! ### The kernel -/

/-- Why the kernel lets a packet pass: the first rule of the policy that matches it is an allow, and it is DNS only as a
reply to a known VM; or it is a reply to a known VM from an unknown address, and the policy says nothing about it. -/
inductive KernelAllowed (sv : Services) (sources : SourceMap) (rules : Rules) (packet : Packet) : Prop
  | policy {saddr daddr : IPv4} (haddrs : packet.addrs = some (saddr, daddr))
      (hanswer : policyAnswer sv sources rules packet = .ok (some .allow))
      (hdns : IsDns packet → RepliesToKnown sources packet daddr)
  | reply {saddr daddr : IPv4} (haddrs : packet.addrs = some (saddr, daddr))
      (hreply : RepliesToKnown sources packet daddr) (hunknown : sources.byIp.get? saddr = none)
      (hanswer : policyAnswer sv sources rules packet = .ok none)

/-- For this packet the kernel has the policy as it is meant: nft reads the destinations of the rules as the checks do,
a known sender has a chain of its own, and no limiter is exhausted, or none makes a difference. -/
structure PolicyKept (sv : Services) (sources : SourceMap) (rules : Rules) (lim : Table.Limiter → Bool)
    (packet : Packet) : Prop where
  alike : policyAlike sources.byName rules
  own : ∀ saddr daddr source, packet.addrs = some (saddr, daddr) → sources.byIp.get? saddr = some source →
    chainOwner sources.byName source = source
  limiters : (∀ l, lim l = true) ∨ ¬ ShadowedAccept (policyPath sv sources rules packet)

namespace PolicyKept

variable {lim : Table.Limiter → Bool} {packet : Packet} {dflt : String} (h : PolicyKept sv sources rules lim packet)
  (hm : sources.Consistent dflt)

include h hm

theorem known_head? {x : IPv4} {source : String} (hx : sources.byIp.get? x = some source) (flow : Option Flow) :
    (matched sv (rules.ofSource source).ip flow).head? = (flowAnswer sv rules source flow).map Action.verdict := by
  obtain ⟨ips, hips, -⟩ := (hm.byIp_iff x source).1 hx
  rw [matched_head?, flowAnswer_asRead h.alike (Dict.mem_keys_of_get? hips)]

/-- What the mirrored rules say of the packet. -/
theorem replyPath_head? (saddr daddr : IPv4) : (replyPath sv sources rules packet saddr daddr).head? =
    (if IsReply packet then (sources.byIp.get? daddr).bind fun source =>
      flowAnswer sv rules source (answered packet saddr) else none).map Action.verdict := by
  unfold replyPath
  cases hd : sources.byIp.get? daddr with
  | none => simp
  | some source =>
    by_cases hr : IsReply packet
    · simp only [if_pos hr, Option.bind_some]
      exact h.known_head? hm hd _
    · simp [hr]

/-- Behind the mirrored rules replies of unknown senders pass, and what the policy of a known sender allows, but no
DNS. -/
theorem senderPath_accept {saddr daddr : IPv4} (ha : packet.addrs = some (saddr, daddr))
    (haccept : (senderPath sv sources rules packet saddr daddr).head? = some .accept) :
    (sources.byIp.get? saddr = none ∧ RepliesToKnown sources packet daddr) ∨
      ∃ source, sources.byIp.get? saddr = some source ∧ ¬ IsDns packet ∧
        flowAnswer sv rules source (outgoing packet daddr) = some .allow := by
  unfold senderPath at haccept
  cases hs : sources.byIp.get? saddr with
  | none =>
    simp only [hs] at haccept
    have hr : IsReply packet ∧ (sources.byIp.get? daddr).isSome := by
      by_contra hr
      simp [hr] at haccept
    exact .inl ⟨rfl, hr.1, Option.isSome_iff_ne_none.1 hr.2⟩
  | some source =>
    simp only [hs, h.own saddr daddr source ha hs, chainPath] at haccept
    refine .inr ⟨source, rfl, ?_⟩
    by_cases hinvalid : packet.ctState = .invalid
    · simp [hinvalid] at haccept
    · by_cases hdns : IsDns packet
      · simp [hinvalid, hdns] at haccept
      · refine ⟨hdns, ?_⟩
        rw [if_neg hinvalid, if_neg hdns, List.nil_append, List.head?_append, h.known_head? hm hs] at haccept
        cases hflow : flowAnswer sv rules source (outgoing packet daddr) with
        | none => simp [hflow] at haccept
        | some action => cases action <;> simp_all [Action.verdict]

end PolicyKept

/-- A packet whose path begins with an accept is allowed by the policy. -/
theorem kernelAllowed_of_path {dflt : String} (hm : sources.Consistent dflt) (hk : Known sv sources.byName rules)
    {lim : Table.Limiter → Bool} {packet : Packet} (hkept : PolicyKept sv sources rules lim packet)
    (h : (policyPath sv sources rules packet).head? = some .accept) : KernelAllowed sv sources rules packet := by
  unfold policyPath at h
  cases ha : packet.addrs with
  | none => simp [ha] at h
  | some addrs =>
    obtain ⟨saddr, daddr⟩ := addrs
    have hanswer := hk.policyAnswer_eq hm ha
    simp only [ha, List.head?_append, hkept.replyPath_head? hm] at h
    cases hmirror : (if IsReply packet then (sources.byIp.get? daddr).bind fun source =>
        flowAnswer sv rules source (answered packet saddr) else none) with
    | some action =>
      rw [hmirror] at h hanswer
      obtain rfl : action = .allow := by cases action <;> simp_all [Action.verdict]
      refine .policy ha hanswer fun _ => ?_
      by_cases hr : IsReply packet
      · refine ⟨hr, fun hnone => ?_⟩
        simp [hnone] at hmirror
      · simp [hr] at hmirror
    | none =>
      rw [hmirror, Option.none_or] at hanswer
      rw [hmirror, Option.map_none, Option.none_or] at h
      rcases hkept.senderPath_accept hm ha h with ⟨hs, hreply⟩ | ⟨source, hs, hdns, hallow⟩
      · rw [hs] at hanswer
        exact .reply ha hreply hs hanswer
      · rw [hs, Option.bind_some, hallow] at hanswer
        exact .policy ha hanswer fun hd => absurd hd hdns

/-- Where the kernel has the policy as it is meant, it accepts only what the policy allows. -/
theorem Rendered.accept_allowed {table : Table} (h : Rendered sv sources rules table) {dflt : String}
    (hm : sources.Consistent dflt) (hk : Known sv sources.byName rules) {lim : Table.Limiter → Bool} {packet : Packet}
    (hkept : PolicyKept sv sources rules lim packet) (haccept : table.eval lim .forward packet = some .accept) :
    KernelAllowed sv sources rules packet := by
  refine kernelAllowed_of_path hm hk hkept ?_
  rw [h.eval_eq] at haccept
  split at haccept
  · rename_i hread
    have hdecide : Hit.decide lim (hookHits table .forward packet) = some .accept := by
      cases hd : Hit.decide lim (hookHits table .forward packet) with
      | none =>
        rw [hd] at haccept
        cases haccept
      | some v =>
        rw [hd] at haccept
        exact haccept
    rcases hkept.limiters with hunder | hfree
    · obtain rfl : lim = fun _ => true := funext hunder
      rw [Hit.decide_true, h.allUnder_eq hread] at hdecide
      exact hdecide
    · have hover := Hit.allOver_eq_of_decide (softAvoids_hits _ _ _ (by decide)) hdecide
      rw [h.allOver_eq hread] at hover
      exact not_shadowed_iff.1 hfree hover
  · cases haccept

end Nft

variable {sv : Services} {lib : DnsPython} {config : Config}

/-! ### The handler -/

open Wire in
/-- The kernel and the handler look at one packet: the kernel reads the addresses and the protocol of the IPv4 header,
and the destination port behind it. -/
def Carries (payload : List UInt8) (packet : Nft.Packet) : Prop :=
  20 ≤ payload.length → version payload = 4 →
    packet.addrs = some (address payload 12, address payload 16) ∧ packet.proto = .ofNumber (protocol payload) ∧
      (protocol payload ≠ 1 → packet.dport = word payload (headerLength payload + 2))

/-- Why the handler lets a packet pass: it comes from an address that was known when the handler began, and sections of
this call saw the policy of its source allow the flow and, for DNS over UDP, the question. -/
structure HandlerAllowed (sv : Services) (lib : DnsPython) (ss : List (Daemon × Daemon)) (packet : Nft.Packet)
    (request : Request) : Prop where
  flow : ∃ saddr daddr proto, packet.addrs = some (saddr, daddr) ∧ packet.proto = .flow proto ∧
    request.src = saddr ∧ Nft.Asks request request.source daddr proto packet.dport
  known : ∃ p, ss.head? = some p ∧ request.src ∈ p.1.ctx.sources.byIp.keys
  source : ∃ p ∈ ss, p.1.ctx.sources.byIp.get? request.src = some request.source
  allowed : Answered sv request .allow ss
  dns : Nft.IsDns packet → ∃ qname qtype,
    addDnsQueryFields lib request = (true, { request with kind := .dns qname qtype }) ∧
      Answered sv { request with kind := .dns qname qtype } .allow ss

open Wire in
/-- What the handler reads in a well-formed packet is what the kernel reads. -/
theorem Carries.fields {payload : List UInt8} {packet : Nft.Packet} (h : Carries payload packet) {parsed : ParsedPacket}
    (hparse : parsePacket payload = .ok (some parsed)) (hwell : parsed.malformed = none) :
    packet.addrs = some (parsed.src, parsed.dst) ∧ packet.proto = parsed.proto ∧ ∃ proto, parsed.proto = .flow proto ∧
      parsed.dport = if proto = .icmp then none else some packet.dport := by
  obtain ⟨hnone, -⟩ | ⟨p, hp, ⟨hlen, hversion⟩, hread⟩ := parsePacket_reads payload
  · rw [hparse] at hnone
    cases hnone
  · obtain rfl : p = parsed := by
      rw [hparse] at hp
      exact (Option.some.inj (Except.ok.inj hp)).symm
    obtain ⟨haddrs, hproto, hport⟩ := h hlen hversion
    obtain ⟨-, htransport⟩ := hread.accepted.1 hwell
    have hfields := hread.fields hwell
    refine ⟨by rw [haddrs, hread.src, hread.dst], by rw [hproto, hread.proto], ?_⟩
    rcases htransport with ⟨hicmp, -⟩ | ⟨htcp, -⟩ | ⟨hudp, -⟩
    · obtain ⟨hflow, -, hnone, -⟩ := hfields.icmp hicmp
      exact ⟨.icmp, hflow, hnone⟩
    · obtain ⟨hflow, -, hsome, -⟩ := hfields.tcp htcp
      exact ⟨.tcp, hflow, by rw [hsome, hport (by simp [htcp])]; rfl⟩
    · obtain ⟨hflow, -, hsome, -⟩ := hfields.udp hudp
      exact ⟨.udp, hflow, by rw [hsome, hport (by simp [hudp])]; rfl⟩

theorem Mediated.handlerAllowed {payload : List UInt8} {ss : List (Daemon × Daemon)} {parsed : ParsedPacket}
    {request : Request} (h : Mediated sv lib payload ss parsed request) {packet : Nft.Packet}
    (hcarries : Carries payload packet) : HandlerAllowed sv lib ss packet request := by
  obtain ⟨hparse, hwell⟩ := h.wellFormed
  obtain ⟨rfl, hkind, hsource⟩ := h.source
  obtain ⟨haddrs, hproto, proto, hflow, hport⟩ := hcarries.fields hparse hwell
  refine ⟨⟨_, _, proto, haddrs, hproto.trans hflow, rfl, rfl, hkind, rfl, hport, hflow⟩, h.known, hsource, h.flow,
    fun hdns => ?_⟩
  have hudp : request.proto = .flow .udp := hproto ▸ hdns.1
  obtain rfl : proto = .udp := by
    rw [hflow] at hudp
    exact Proto.flow.inj hudp
  refine h.dns hudp ?_
  rw [hport, hdns.2]
  rfl

/-- What a handler accepts, it has seen allowed. -/
theorem handlerAllowed_of_accept {io : Io} {now : Rat} {answer : Except PyError String} {payload : List UInt8}
    {w : World Daemon PyError PacketVerdict} (hw : w.output = [] ∧ w.sections = []) {packet : Nft.Packet}
    (hcarries : Carries payload packet)
    (haccept : .accept ∈ ((handlePacket sv lib io now answer payload).leaves w).output) :
    ∃ request, HandlerAllowed sv lib ((handlePacket sv lib io now answer payload).leaves w).sections packet request := by
  have hdecided : ∀ w : World Daemon PyError PacketVerdict, Decided (fun ss => ∃ parsed request,
      Mediated sv lib payload ss parsed request) w.sections w.output → .accept ∈ w.output →
        ∃ request, HandlerAllowed sv lib w.sections packet request := by
    rintro w ⟨v, hv, hg⟩ hmem
    obtain ⟨parsed, request, hmediated⟩ := hg (List.mem_singleton.1 (hv ▸ hmem)).symm
    exact ⟨request, hmediated.handlerAllowed hcarries⟩
  have hends : Triple (fun w => w.output = [] ∧ w.sections = []) (handlePacket sv lib io now answer payload)
      (fun _ w => .accept ∈ w.output → ∃ request, HandlerAllowed sv lib w.sections packet request)
      fun _ w => .accept ∈ w.output → ∃ request, HandlerAllowed sv lib w.sections packet request := by
    refine Triple.conseq (handlePacket_decides now answer payload) (fun _ h => h) (fun _ w h => hdecided w h) ?_
    rintro e w (hnone | h) hmem
    · rw [hnone] at hmem
      cases hmem
    · exact hdecided w h hmem
  exact hends.leaves hw haccept

/-! ### Both -/

/-- After the first refresh the table in the kernel is that of the policy in memory. -/
theorem run_installed {dir : RulesDir} {ctx : Runtime} {s s' : System} {first : Io} {answer : Except PyError String}
    {new : SourceMap} {now : Rat}
    (hload : (loadPolicyWithoutSources sv lib first config).run (Runtime.initial dir) = .ok () ctx)
    (hrun : Reaches sv lib Io.Works (System.start ctx) s) (hfirst : first.Works)
    (hquery : queryDom0Sources answer s.daemon.ctx.config = .ok new)
    (hrun' : Reaches sv lib Io.Works (s.after (publishRequiredSources sv lib first new now)) s') :
    SystemInvariant sv lib config s' ∧ Installed sv s'.daemon.ctx := by
  have h := (invariant_start hload).run hrun
  induction hrun' with
  | refl =>
    obtain ⟨d', hd', hleaves⟩ := h.toInvariant.publishesRequired hquery first now
    refine ⟨h.step (.require now hfirst hquery), ?_⟩
    rw [System.after, hleaves]
    exact hd'.installed_reloaded hfirst
  | tail _ hlast ih => exact ⟨ih.1.step hlast, ih.2.step ih.1 hlast⟩

/-- Only what policy allows gets through.  In every state of a run after the first refresh the kernel has the table of
the policy in memory.  A packet that this table accepts is allowed by the policy, where the kernel has the policy as it
is meant; and a packet that the handler accepts, which the table only queues, was seen allowed by it, whenever and beside
whatever other threads it runs. -/
theorem passes_only_allowed {dir : RulesDir} {ctx : Runtime} {s s' : System} {first : Io} {answer : Except PyError String}
    {new : SourceMap} {now : Rat}
    (hload : (loadPolicyWithoutSources sv lib first config).run (Runtime.initial dir) = .ok () ctx)
    (hrun : Reaches sv lib Io.Works (System.start ctx) s) (hfirst : first.Works)
    (hquery : queryDom0Sources answer s.daemon.ctx.config = .ok new)
    (hrun' : Reaches sv lib Io.Works (s.after (publishRequiredSources sv lib first new now)) s') :
    ∃ table, Nft.renderNft sv s'.daemon.ctx.sources.byName s'.daemon.ctx.rules s'.daemon.ctx.config nftTable queueNum =
        .ok table ∧ s'.daemon.ctx.nftText = some table.text ∧
      (∀ lim packet, table.eval lim .forward packet = some .accept →
        Nft.PolicyKept sv s'.daemon.ctx.sources s'.daemon.ctx.rules lim packet →
          Nft.KernelAllowed sv s'.daemon.ctx.sources s'.daemon.ctx.rules packet) ∧
      ∀ packet payload, Carries payload packet →
        ∀ io when dom0 (w : World Daemon PyError PacketVerdict), w.output = [] ∧ w.sections = [] →
          .accept ∈ ((handlePacket sv lib io when dom0 payload).leaves w).output → ∃ request,
            HandlerAllowed sv lib ((handlePacket sv lib io when dom0 payload).leaves w).sections packet request := by
  obtain ⟨hinv, table, htable, htext⟩ := run_installed hload hrun hfirst hquery hrun'
  obtain ⟨table', htable', hspec⟩ := Nft.renderNft_spec hinv.sources hinv.known_sound s'.daemon.ctx.config nftTable queueNum
  obtain rfl : table' = table := Except.ok.inj (htable'.symm.trans htable)
  refine ⟨table', htable, htext, fun lim packet haccept hkept => ?_, fun packet payload hcarries io when dom0 w hw => ?_⟩
  · exact hspec.accept_allowed hinv.sources hinv.known_sound hkept haccept
  · exact handlerAllowed_of_accept hw hcarries

namespace Sample

/-- The packet of the sample run, as the kernel sees it. -/
def kernelPacket : Nft.Packet := Nft.Sample.packet work server .new .original

theorem carries_payload : Carries payload kernelPacket := fun _ _ => by decide +kernel

theorem passes_answered : ∃ table,
    Nft.renderNft .empty answered.daemon.ctx.sources.byName answered.daemon.ctx.rules answered.daemon.ctx.config nftTable
      queueNum = .ok table ∧ table.eval (fun _ => true) .forward kernelPacket = some .accept := by
  have h := ((invariant_start load_empty).run (Relation.ReflTransGen.single (mapped_step works_works))).run
    (reaches_answered works_works)
  obtain ⟨table, htable, hspec⟩ := Nft.renderNft_spec h.sources h.known_sound answered.daemon.ctx.config nftTable queueNum
  refine ⟨table, htable, ?_⟩
  have hread : Nft.policyReadable answered.daemon.ctx.sources.byName answered.daemon.ctx.rules := by decide +kernel
  have hpath : Nft.hookPath .empty answered.daemon.ctx.sources answered.daemon.ctx.rules .forward kernelPacket =
      [.accept, .queue] := by decide +kernel
  rw [hspec.eval_eq, if_pos hread, Hit.decide_true, hspec.allUnder_eq hread, hpath]
  rfl

theorem kept_answered : Nft.PolicyKept .empty answered.daemon.ctx.sources answered.daemon.ctx.rules (fun _ => true)
    kernelPacket where
  alike := by decide +kernel
  own saddr daddr source haddrs hs := by
    obtain ⟨rfl, rfl⟩ : work = saddr ∧ server = daddr := Prod.mk.inj (Option.some.inj haddrs)
    obtain rfl : "work" = source := Option.some.inj hs
    decide +kernel
  limiters := .inl fun _ => rfl

theorem handled_answered : .accept ∈ ((handlePacket .empty dnspython works 0 (.ok "") payload).leaves
    { shared := answered.daemon, others := fun _ d => d, faults := fun _ => none }).output := by
  have hparse : parsePacket payload = .ok (some request.toParsedPacket) := by decide +kernel
  rw [handlePacket, hparse]
  exact List.mem_singleton.2 rfl

end Sample

/-- The packet that the user has allowed gets through by the rule that was saved, in the kernel and in the handler. -/
theorem passes_only_allowed_sample :
    Nft.KernelAllowed .empty Sample.answered.daemon.ctx.sources Sample.answered.daemon.ctx.rules Sample.kernelPacket ∧
      ∃ ss request, HandlerAllowed .empty Sample.dnspython ss Sample.kernelPacket request := by
  obtain ⟨table, htable, -, hkernel, hhandler⟩ := passes_only_allowed Sample.load_empty .refl Sample.works_works
    Sample.query_oneVm (Sample.reaches_answered Sample.works_works)
  obtain ⟨table', htable', haccept⟩ := Sample.passes_answered
  obtain rfl : table = table' := Except.ok.inj (htable.symm.trans htable')
  refine ⟨hkernel _ _ haccept Sample.kept_answered, ?_⟩
  obtain ⟨request, hrequest⟩ := hhandler Sample.kernelPacket Sample.payload Sample.carries_payload Sample.works 0 (.ok "")
    { shared := Sample.answered.daemon, others := fun _ d => d, faults := fun _ => none } ⟨rfl, rfl⟩
    Sample.handled_answered
  exact ⟨_, request, hrequest⟩

end QubesSnitch
