import QubesSnitch.Nft.Reading

/-!
# What a rendered line does to a packet

Two limiter assignments say all about a chain: the one with every limiter under its rate and the one with every
limiter over it.  For such a uniform assignment `b` the position of a rule plays no role, and a chain is the first
verdict among its rules (`evalChain_uniform`), where a rejecting rule counts as passed over when `b` is `false`
(`limited`).

The lines that a rule of the policy is rendered to, in the chain of its source (`renderRule_lines`) and mirrored for
replies (`renderReplyRules_lines`), give the action of the rule on the flows that the rule covers for nft
(`FlowRule.asRead`) and nothing on others.
-/

namespace QubesSnitch

/-- The verdict that carries out an action. -/
def Action.verdict : Action → Nft.Verdict
  | allow => .accept
  | reject => .reject

namespace Nft

/-- A verdict that is passed over where it is a reject and the limiters are over their rate. -/
def limited (b : Bool) (v : Verdict) : Option Verdict := if v = .reject && !b then none else some v

@[simp] theorem limited_accept (b : Bool) : limited b .accept = some .accept := rfl

@[simp] theorem limited_queue (b : Bool) : limited b .queue = some .queue := rfl

/-! ### Uniform limiters -/

namespace Table

/-- What one rule of a chain does to the walk. -/
def step (table : Table) (b : Bool) (packet : Packet) (depth : Nat) (rule : Rule) : Option Verdict :=
  if !rule.applies packet then none
  else match rule.statement with
    | .accept => some .accept
    | .queue _ => some .queue
    | .jump chain => table.evalChain (fun _ => b) packet depth chain
    | .reject _ _ _ => limited b .reject

theorem evalChain_uniform (table : Table) (b : Bool) (packet : Packet) (depth : Nat) (name : String) :
    table.evalChain (fun _ => b) packet (depth + 1) name =
      (table.chainRules name).findSome? (table.step b packet depth) := by
  rw [evalChain]
  conv_rhs => rw [← List.zipIdx_map_fst 0 (table.chainRules name), List.findSome?_map]
  congr 1
  funext entry
  obtain ⟨rule, i⟩ := entry
  simp only [step, Function.comp_apply]
  split
  · rfl
  · cases rule.statement <;> cases b <;> simp [limited]

end Table

/-- What a rule that does not jump does to the walk. -/
def Rule.verdict (b : Bool) (packet : Packet) (rule : Rule) : Option Verdict :=
  if !rule.applies packet then none
  else match rule.statement with
    | .accept => some .accept
    | .queue _ => some .queue
    | .jump _ => none
    | .reject _ _ _ => limited b .reject

def Statement.isJump : Statement → Bool
  | jump _ => true
  | _ => false

theorem Table.step_eq_verdict (table : Table) (b : Bool) (packet : Packet) (depth : Nat) {rule : Rule}
    (h : rule.statement.isJump = false) : table.step b packet depth rule = rule.verdict b packet := by
  rcases rule with ⟨conds, statement⟩
  cases statement with
  | jump chain => cases h
  | accept => rfl
  | queue num => rfl
  | reject rate burst logPrefix => rfl

/-- The action of a rule, as the verdict of the lines it is rendered to. -/
theorem verdict_action (b : Bool) (packet : Packet) (conds : List Match) (action : Action) (source : String)
    (config : Config) : Rule.verdict b packet ⟨conds, actionStatement source config action⟩ =
      if conds.all (Match.holds packet) then limited b action.verdict else none := by
  cases action <;> cases h : conds.all (Match.holds packet) <;>
    simp [Rule.verdict, Rule.applies, h, Action.verdict, actionStatement, ruleReject, rejectLog]

/-! ### Operands -/

/-- The operand for the destination of a resolved rule. -/
def destOperand : Dest → Option Operand
  | .any => none
  | .network n => some (.one n.value.text)
  | .dns _ ips => some (ipOperand (ips.getD []))

theorem nftDestMatchValue_resolved {dest : Dest}
    (h : ∀ qname ips, dest = .dns qname ips → ∃ x xs, ips = some (x :: xs)) :
    nftDestMatchValue dest = .ok (destOperand dest) := by
  cases dest with
  | any => rfl
  | network n => rfl
  | dns qname ips =>
    obtain ⟨x, xs, rfl⟩ := h qname ips rfl
    rfl

private theorem contains_ips (ips : List IPv4) (x : IPv4) :
    (ips.map IPv4.text).any (fun text => (readPrefix text).any fun n => n.contains x) = decide (x ∈ ips) := by
  induction ips with
  | nil => simp
  | cons ip ips ih =>
    have hhost : (Cidr.host ip).contains x = decide (x = ip) := by
      rw [Bool.eq_iff_iff, Cidr.contains_host, decide_eq_true_iff]
    rw [List.map_cons, List.any_cons, ih, readPrefix_ip, Option.any_some, hhost]
    by_cases hx : x = ip <;> simp [hx]

theorem texts_ipOperand (ips : List IPv4) : (ipOperand ips).texts = ips.map IPv4.text := by
  unfold ipOperand
  split <;> rfl

theorem contains_ip (ip x : IPv4) : (Operand.one ip.text).contains x = decide (x = ip) := by
  have := contains_ips [ip] x
  simpa [Operand.contains, Operand.texts] using this

theorem destConds_loads (dest : Dest) : (destConds (destOperand dest)).all Match.loads = destReadable dest := by
  cases dest with
  | any => rfl
  | network n => simp [destConds, destOperand, destReadable, Match.loads, Operand.loads, Operand.texts]
  | dns qname ips =>
    simp [destConds, destOperand, destReadable, Match.loads, Operand.loads, texts_ipOperand, readPrefix_ip]

theorem destConds_holds {dest : Dest} (h : destReadable dest) {packet : Packet} {saddr daddr : IPv4}
    (ha : packet.addrs = some (saddr, daddr)) :
    (destConds (destOperand dest)).all (Match.holds packet) = dest.asRead.covers daddr := by
  cases dest with
  | any => rfl
  | network n => simp [destConds, destOperand, Match.holds, ha, contains_network h]
  | dns qname ips =>
    have := contains_ips (ips.getD []) daddr
    simp only [destConds, destOperand, Option.map_some, Option.toList_some, List.all_cons, List.all_nil, Match.holds,
      ha, Option.any_some, Operand.contains, texts_ipOperand, this, Dest.asRead, Dest.covers, Bool.and_true]

/-! ### Ports -/

/-- The port by which a flow with the remote port `port` is known. -/
def remotePort (proto : FlowProto) (port : Nat) : Option Nat := if proto = .icmp ∨ port = 0 then none else some port

/-- A flow of the packet, with its remote address and port. -/
def flowTo (packet : Packet) (remote : IPv4) (port : Nat) : Option Flow :=
  match packet.proto with
  | .flow proto => some ⟨remote, proto, remotePort proto port⟩
  | .number _ => none

/-- The flow of a packet from a VM. -/
def outgoing (packet : Packet) (daddr : IPv4) : Option Flow := flowTo packet daddr packet.dport

/-- The flow that a packet to a VM answers. -/
def answered (packet : Packet) (saddr : IPv4) : Option Flow := flowTo packet saddr packet.sport

private theorem covers_zero {p : NormPort} (h : p.Bounded) : p.covers (some 0) = p.covers none := by
  cases p with
  | any => rfl
  | one n =>
    have : ¬ 0 = n := fun he => absurd h.1 (by omega)
    simp [NormPort.covers, this]
  | range lo hi =>
    have : ¬ lo ≤ 0 := fun he => absurd h.1 (by omega)
    simp [NormPort.covers, this]

theorem nftPort_ok {sv : Services} {rule : FlowRule} {p : NormPort}
    (h : normalizePort sv (.str rule.port) rule.proto = .ok p) :
    nftPort sv rule = .ok (if p = .any then none else some p) := by
  rw [nftPort, h]
  cases p <;> simp [bind, Except.bind, pure, Except.pure]

theorem protoConds_loads {field : FlowProto → NormPort → Match} (hf : ∀ proto port, (field proto port).loads = true)
    (proto : FlowProto) (port : Option NormPort) : (protoConds field proto port).all Match.loads = true := by
  cases proto <;> cases port <;> first | rfl | simp [protoConds, hf]

/-- The protocol part of a match holds on the protocol and the ports of the rule. -/
theorem protoConds_holds {sv : Services} {rule : FlowRule} (h : rule.Valid sv) {p : NormPort}
    (hp : normalizePort sv (.str rule.port) rule.proto = .ok p) {packet : Packet} (ha : packet.addrs.isSome)
    (field : FlowProto → NormPort → Match) {n : Nat}
    (hf : ∀ proto port, (field proto port).holds packet = (packet.proto = .flow proto && port.covers (some n))) :
    (protoConds field rule.proto (if p = .any then none else some p)).all (Match.holds packet) =
      (packet.proto = .flow rule.proto && rule.portCovers sv (remotePort rule.proto n)) := by
  have hcovers : rule.portCovers sv (remotePort rule.proto n) = p.covers (remotePort rule.proto n) := by
    rw [FlowRule.portCovers, hp]
  rw [hcovers]
  by_cases hicmp : rule.proto = .icmp
  · have hany : p = .any := by
      rw [h.icmp hicmp, normalizePort_any] at hp
      exact (Except.ok.inj hp).symm
    simp [hicmp, hany, protoConds, Match.holds, ha, NormPort.covers]
  · have hport : p.covers (remotePort rule.proto n) = p.covers (some n) := by
      by_cases hn : n = 0
      · subst hn
        rw [covers_zero (normalizePort_bounded hp)]
        simp [remotePort]
      · simp [remotePort, hicmp, hn]
    rw [hport]
    by_cases hany : p = .any
    · cases hproto : rule.proto <;> simp_all [protoConds, Match.holds, NormPort.covers]
    · cases hproto : rule.proto <;> simp_all [protoConds]

/-! ### The lines of a rule -/

theorem covers_flowTo (sv : Services) (rule : FlowRule) (packet : Packet) (remote : IPv4) (n : Nat) :
    (flowTo packet remote n).any (rule.asRead.covers sv) = (decide (packet.proto = .flow rule.proto) &&
      (rule.dest.asRead.covers remote && rule.portCovers sv (remotePort rule.proto n))) := by
  unfold flowTo
  cases hproto : packet.proto with
  | number k => simp
  | flow proto =>
    by_cases hp : proto = rule.proto
    · subst hp
      simp [FlowRule.covers]
    · simp [FlowRule.covers, hp]

/-- The action of a rule, where it covers the flow for nft. -/
def actionOn (sv : Services) (b : Bool) (rule : FlowRule) (flow : Option Flow) : Option Verdict :=
  if flow.any (rule.asRead.covers sv) then limited b rule.action.verdict else none

/-- Whether the packet is a DNS query by its port. -/
def IsDns (packet : Packet) : Prop := packet.proto = .flow .udp ∧ packet.dport = 53

instance (packet : Packet) : Decidable (IsDns packet) := inferInstanceAs (Decidable (_ ∧ _))

/-- Whether the packet belongs to a connection that is known, and runs against its direction. -/
def IsReply (packet : Packet) : Prop :=
  (packet.ctState = .established ∨ packet.ctState = .related) ∧ packet.ctDirection = .reply

instance (packet : Packet) : Decidable (IsReply packet) := inferInstanceAs (Decidable (_ ∧ _))

/-- Rendered lines that load exactly if `readable`, do not jump, and then do to the packets of `dom` what `verdict`
says. -/
structure Lines (lines : List Rule) (readable : Bool) (dom : Packet → Prop)
    (verdict : Bool → Packet → Option Verdict) : Prop where
  jump : ∀ line ∈ lines, line.statement.isJump = false
  loads : (lines.all fun line => line.conds.all Match.loads) = readable
  walk : readable → ∀ b packet, dom packet → lines.findSome? (Rule.verdict b packet) = verdict b packet

variable {sv : Services} {rule : FlowRule}

/-- The match of a rule in the chain of its source. -/
private theorem renderMatch_usable (h : rule.Usable sv) : ∃ conds, renderMatch sv rule = .ok conds ∧
    conds.all Match.loads = destReadable rule.dest ∧
    (destReadable rule.dest → ∀ packet, conds.all (Match.holds packet) =
      packet.addrs.any fun a => (outgoing packet a.2).any (rule.asRead.covers sv)) := by
  obtain ⟨p, hp⟩ := h.port
  refine ⟨[.metaNfprotoIpv4] ++ destConds (destOperand rule.dest) ++
    protoConds .dport rule.proto (if p = .any then none else some p), ?_, ?_, ?_⟩
  · rw [renderMatch, nftDestMatchValue_resolved h.resolved, nftPort_ok hp]
    rfl
  · rw [List.all_append, List.all_append, destConds_loads, protoConds_loads (fun _ _ => rfl)]
    simp [Match.loads]
  · intro hread packet
    cases ha : packet.addrs with
    | none => simp [Match.holds, ha]
    | some a =>
      have hip : [Match.metaNfprotoIpv4].all (Match.holds packet) = true := by simp [Match.holds, ha]
      rw [List.all_append, List.all_append, destConds_holds hread ha,
        protoConds_holds h.toValid hp (by rw [ha]; rfl) .dport (fun _ _ => rfl), hip, Bool.true_and,
        Option.any_some, outgoing, covers_flowTo, Bool.and_left_comm]

/-- The queue line in front of a broad UDP allow never applies to a packet that is no DNS query. -/
private theorem queueLine_verdict {packet : Packet} (hdns : ¬ IsDns packet) (b : Bool) (conds : List Match)
    (queueNum : Nat) : Rule.verdict b packet ⟨conds ++ [.dport .udp (.one 53)], .queue queueNum⟩ = none := by
  have : Match.holds packet (.dport .udp (.one 53)) = false := by
    simp only [Match.holds, NormPort.covers, Option.some.injEq, Bool.and_eq_false_imp, decide_eq_true_eq,
      decide_eq_false_iff_not]
    exact fun hproto hport => hdns ⟨hproto, hport⟩
  simp [Rule.verdict, Rule.applies, this]

private theorem udpRuleIncludesDns_usable {p : NormPort} (hp : normalizePort sv (.str rule.port) rule.proto = .ok p) :
    udpRuleIncludesDns sv rule = .ok (decide (rule.proto = .udp) && p.covers (some 53)) := by
  unfold udpRuleIncludesDns
  by_cases hudp : rule.proto = .udp
  · rw [hudp] at hp
    rw [hp]
    cases p <;> simp [hudp, bind, Except.bind, pure, Except.pure, NormPort.covers, eq_comm]
  · simp [hudp]

/-- What the chain of a source does by the rule. -/
def forwardVerdict (sv : Services) (rule : FlowRule) (b : Bool) (packet : Packet) : Option Verdict :=
  packet.addrs.bind fun a => actionOn sv b rule (outgoing packet a.2)

private theorem lines_single {conds : List Match} (source : String) (config : Config)
    (hloads : conds.all Match.loads = destReadable rule.dest)
    (hholds : destReadable rule.dest → ∀ packet, conds.all (Match.holds packet) =
      packet.addrs.any fun a => (outgoing packet a.2).any (rule.asRead.covers sv)) :
    Lines [⟨conds, actionStatement source config rule.action⟩] (destReadable rule.dest)
      (fun packet => ¬ IsDns packet) (forwardVerdict sv rule) := by
  refine ⟨?_, by simpa using hloads, ?_⟩
  · intro line hline
    obtain rfl := List.mem_singleton.1 hline
    cases rule.action <;> rfl
  · intro hread b packet _
    rw [List.findSome?_singleton, verdict_action, hholds hread]
    cases ha : packet.addrs <;> simp [forwardVerdict, actionOn, ha]

/-- A queue line for DNS in front changes nothing for other packets. -/
private theorem lines_queue {lines : List Rule} (queueNum : Nat)
    (h : Lines lines (destReadable rule.dest) (fun packet => ¬ IsDns packet) (forwardVerdict sv rule))
    {conds : List Match} (hconds : conds.all Match.loads = destReadable rule.dest) :
    Lines (⟨conds ++ [.dport .udp (.one 53)], .queue queueNum⟩ :: lines) (destReadable rule.dest)
      (fun packet => ¬ IsDns packet) (forwardVerdict sv rule) := by
  refine ⟨?_, ?_, ?_⟩
  · intro line hline
    rcases List.mem_cons.1 hline with rfl | hline
    · rfl
    · exact h.jump line hline
  · rw [List.all_cons, h.loads, List.all_append, hconds]
    simp [Match.loads]
  · intro hread b packet hdns
    rw [List.findSome?_cons, queueLine_verdict hdns]
    exact h.walk hread b packet hdns

/-- A rule for port 53 alone says nothing to packets that are no DNS query. -/
private theorem forwardVerdict_dns (hp : normalizePort sv (.str rule.port) rule.proto = .ok (.one 53))
    (hudp : rule.proto = .udp) {packet : Packet} (hdns : ¬ IsDns packet) (b : Bool) :
    forwardVerdict sv rule b packet = none := by
  cases ha : packet.addrs with
  | none => simp [forwardVerdict, ha]
  | some a =>
    have hcovers : (outgoing packet a.2).any (rule.asRead.covers sv) = false := by
      rw [outgoing, covers_flowTo, Bool.and_eq_false_imp]
      intro hproto
      have hproto : packet.proto = .flow .udp := by rw [← hudp]; exact of_decide_eq_true hproto
      have hport : packet.dport ≠ 53 := fun hport => hdns ⟨hproto, hport⟩
      rw [FlowRule.portCovers, hp]
      by_cases h0 : packet.dport = 0 <;> simp [remotePort, hudp, h0, NormPort.covers, hport]
    simp [forwardVerdict, ha, actionOn, hcovers]

/-- The line for the DNS that a broad UDP allow includes. -/
def dnsQueueLine (dest : Dest) (queueNum : Nat) : Rule :=
  ⟨[.metaNfprotoIpv4] ++ destConds (destOperand dest) ++ [.dport .udp (.one 53)], .queue queueNum⟩

theorem renderAllow_usable (h : rule.Usable sv) {p : NormPort}
    (hp : normalizePort sv (.str rule.port) rule.proto = .ok p) (conds : List Match) (queueNum : Nat) :
    renderAllow sv rule conds queueNum = .ok (if rule.proto = .udp ∧ p.covers (some 53) then
      if p = .one 53 then [dnsQueueLine rule.dest queueNum] else [dnsQueueLine rule.dest queueNum, ⟨conds, .accept⟩]
      else [⟨conds, .accept⟩]) := by
  have hqueue : renderDnsQueueMatch rule =
      .ok ([.metaNfprotoIpv4] ++ destConds (destOperand rule.dest) ++ [.dport .udp (.one 53)]) := by
    rw [renderDnsQueueMatch, nftDestMatchValue_resolved h.resolved]
    rfl
  rw [renderAllow, udpRuleIncludesDns_usable hp]
  by_cases hudp : rule.proto = .udp
  · rw [hudp] at hp
    cases hc : p.covers (some 53)
    · simp [hudp, bind, Except.bind, pure, Except.pure]
    · by_cases h53 : p = .one 53 <;>
        simp [hudp, bind, Except.bind, pure, Except.pure, hqueue, hp, h53, dnsQueueLine]
  · simp [hudp, bind, Except.bind, pure, Except.pure]

/-- The lines of a usable rule in the chain of its source. -/
theorem renderRule_lines (h : rule.Usable sv) (source : String) (config : Config) (queueNum : Nat) :
    ∃ lines, renderRule sv source rule config queueNum = .ok lines ∧
      Lines lines (destReadable rule.dest) (fun packet => ¬ IsDns packet) (forwardVerdict sv rule) := by
  obtain ⟨conds, hconds, hloads, hholds⟩ := renderMatch_usable h
  obtain ⟨p, hp⟩ := h.port
  have hsingle := lines_single source config hloads hholds
  have hloads' : ([Match.metaNfprotoIpv4] ++ destConds (destOperand rule.dest)).all Match.loads =
      destReadable rule.dest := by
    rw [List.all_append, destConds_loads]
    simp [Match.loads]
  cases haction : rule.action with
  | reject =>
    rw [haction] at hsingle
    exact ⟨_, by rw [renderRule, hconds, haction]; rfl, hsingle⟩
  | allow =>
    rw [haction] at hsingle
    have hrender : renderRule sv source rule config queueNum = renderAllow sv rule conds queueNum := by
      rw [renderRule, hconds, haction]
      rfl
    rw [hrender, renderAllow_usable h hp]
    refine ⟨_, rfl, ?_⟩
    split
    · rename_i hudp
      split
      · rename_i h53
        subst h53
        refine ⟨?_, ?_, fun _ b packet hdns => ?_⟩
        · simp [dnsQueueLine, Statement.isJump]
        · rw [List.all_cons, dnsQueueLine, List.all_append, hloads']
          simp [Match.loads]
        · rw [List.findSome?_singleton, dnsQueueLine, queueLine_verdict hdns, forwardVerdict_dns hp hudp.1 hdns]
      · exact lines_queue queueNum hsingle hloads'
    · exact hsingle

/-! ### Mirrored lines -/

/-- What the mirrored lines of a rule do for the address `ip` of its source. -/
def replyVerdict (sv : Services) (ip : IPv4) (rule : FlowRule) (b : Bool) (packet : Packet) : Option Verdict :=
  packet.addrs.bind fun a => if IsReply packet ∧ a.2 = ip then actionOn sv b rule (answered packet a.1) else none

/-- The remote addresses of the mirrored lines of a resolved rule. -/
def replySources : Dest → List (Option String)
  | .dns _ ips => (ips.getD []).map fun ip => some ip.text
  | dest => [nftValue dest]

theorem nftReplySources_resolved {dest : Dest}
    (h : ∀ qname ips, dest = .dns qname ips → ∃ x xs, ips = some (x :: xs)) :
    nftReplySources dest = .ok (replySources dest) := by
  cases dest with
  | any => rfl
  | network n => rfl
  | dns qname ips =>
    obtain ⟨x, xs, rfl⟩ := h qname ips rfl
    rfl

private def saddrConds (replySource : Option String) : List Match :=
  (replySource.map fun addr => Match.ipSaddr (.one addr)).toList

private theorem replySources_load (dest : Dest) :
    ((replySources dest).all fun source => (saddrConds source).all Match.loads) = destReadable dest := by
  cases dest with
  | any => rfl
  | network n => simp [replySources, nftValue, saddrConds, Match.loads, Operand.loads, Operand.texts, destReadable]
  | dns qname ips =>
    simp [replySources, saddrConds, Match.loads, Operand.loads, Operand.texts, destReadable, readPrefix_ip]

private theorem replySources_hold {dest : Dest} (h : destReadable dest) {packet : Packet} {saddr daddr : IPv4}
    (ha : packet.addrs = some (saddr, daddr)) :
    ((replySources dest).any fun source => (saddrConds source).all (Match.holds packet)) =
      dest.asRead.covers saddr := by
  cases dest with
  | any => rfl
  | network n => simp [replySources, nftValue, saddrConds, Match.holds, ha, contains_network h]
  | dns qname ips =>
    have := contains_ips (ips.getD []) saddr
    rw [List.any_map] at this
    simp only [replySources, saddrConds, Dest.asRead, Dest.covers, List.any_map, Function.comp_def, Option.map_some,
      Option.toList_some, List.all_cons, List.all_nil, Match.holds, ha, Option.any_some, Operand.contains,
      Operand.texts, List.any_cons, List.any_nil, Bool.or_false, Bool.and_true]
    exact this

private theorem findSome?_const {α β : Type} (l : List α) (p : α → Bool) (v : Option β) :
    (l.findSome? fun a => if p a then v else none) = if l.any p then v else none := by
  induction l with
  | nil => simp
  | cons a l ih =>
    rw [List.findSome?_cons, ih]
    cases hp : p a <;> cases v <;> simp [hp]

/-- The part of a mirrored match that is the same for every remote address. -/
private def replyConds (ip : IPv4) (proto : FlowProto) (port : Option NormPort) : List Match :=
  [.ipDaddr (.one ip.text)] ++ protoConds .sport proto port ++
    [.ctState [.established, .related], .ctDirection .reply]

private theorem replyConds_load (ip : IPv4) (proto : FlowProto) (port : Option NormPort) :
    (replyConds ip proto port).all Match.loads = true := by
  rw [replyConds, List.all_append, List.all_append, protoConds_loads (fun _ _ => rfl)]
  simp [Match.loads, Operand.loads, Operand.texts, readPrefix_ip]

private theorem replyConds_hold (h : rule.Usable sv) {p : NormPort}
    (hp : normalizePort sv (.str rule.port) rule.proto = .ok p) (ip : IPv4) {packet : Packet} {saddr daddr : IPv4}
    (ha : packet.addrs = some (saddr, daddr)) :
    (replyConds ip rule.proto (if p = .any then none else some p)).all (Match.holds packet) =
      (decide (IsReply packet ∧ daddr = ip) && (decide (packet.proto = .flow rule.proto) &&
        rule.portCovers sv (remotePort rule.proto packet.sport))) := by
  rw [replyConds, List.all_append, List.all_append,
    protoConds_holds h.toValid hp (by rw [ha]; rfl) .sport (fun _ _ => rfl), Bool.eq_iff_iff]
  simp only [List.all_cons, List.all_nil, Match.holds, ha, Option.any_some, contains_ip, Bool.and_true,
    Bool.and_eq_true, decide_eq_true_eq, List.mem_cons, List.not_mem_nil, or_false]
  unfold IsReply
  tauto

private def replyLine (source : String) (config : Config) (ip : IPv4) (rule : FlowRule) (port : Option NormPort)
    (replySource : Option String) : Rule :=
  ⟨[.metaNfprotoIpv4] ++ saddrConds replySource ++ replyConds ip rule.proto port,
    actionStatement source config rule.action⟩

/-- One mirrored line acts where its remote address and the common part hold. -/
private theorem replyLine_verdict (source : String) (config : Config) (ip : IPv4) (rule : FlowRule)
    (port : Option NormPort) {packet : Packet} (ha : packet.addrs.isSome) (b : Bool) (replySource : Option String) :
    (replyLine source config ip rule port replySource).verdict b packet =
      if (saddrConds replySource).all (Match.holds packet) then
        if (replyConds ip rule.proto port).all (Match.holds packet) then limited b rule.action.verdict else none
      else none := by
  have hip : [Match.metaNfprotoIpv4].all (Match.holds packet) = true := by simp [Match.holds, ha]
  rw [replyLine, verdict_action, List.all_append, List.all_append, hip, Bool.true_and]
  cases (saddrConds replySource).all (Match.holds packet) <;> simp

/-- The mirrored lines of a usable rule for one address of its source. -/
theorem renderReplyRules_lines (h : rule.Usable sv) (source : String) (ip : IPv4) (config : Config) :
    ∃ lines, renderEstablishedReplyRules sv source ip rule config = .ok lines ∧
      Lines lines (destReadable rule.dest) (fun _ => True) (replyVerdict sv ip rule) := by
  obtain ⟨p, hp⟩ := h.port
  refine ⟨(replySources rule.dest).map (replyLine source config ip rule (if p = .any then none else some p)),
    ?_, ?_, ?_, ?_⟩
  · rw [renderEstablishedReplyRules, nftReplySources_resolved h.resolved]
    show (replySources rule.dest).mapM (renderEstablishedReplyRule sv source ip rule config) = _
    rw [Except.mapM_eq_ok_iff, List.forall₂_map_right_iff, List.forall₂_same]
    intro replySource _
    rw [renderEstablishedReplyRule, nftPort_ok hp]
    simp [bind, Except.bind, pure, Except.pure, replyLine, replyConds, saddrConds]
  · intro line hline
    obtain ⟨replySource, -, rfl⟩ := List.mem_map.1 hline
    rw [replyLine]
    cases rule.action <;> rfl
  · rw [← replySources_load rule.dest, List.all_map]
    congr 1
    funext replySource
    simp [replyLine, replyConds_load, Match.loads]
  · intro hread b packet _
    rw [List.findSome?_map]
    cases ha : packet.addrs with
    | none => simp [replyVerdict, ha, Rule.verdict, Rule.applies, Match.holds, replyLine]
    | some a =>
      simp only [Function.comp_def, replyLine_verdict source config ip rule _ (by rw [ha]; rfl) b]
      rw [findSome?_const, replySources_hold hread ha, replyConds_hold h hp ip ha]
      simp only [replyVerdict, ha, Option.bind_some, actionOn, answered, covers_flowTo]
      by_cases hreply : IsReply packet ∧ a.2 = ip <;> cases rule.dest.asRead.covers a.1 <;> simp [hreply]

end Nft

end QubesSnitch
