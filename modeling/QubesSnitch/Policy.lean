import QubesSnitch.RulesDir

/-!
# Policy

`matchingAction` is the first-match policy: the action of the first rule of the request's source that matches.  Under
it stands the abstract reading of a rule, the set of flows that it covers (`FlowRule.covers`); on rules that are valid
and resolved the Python matcher raises nothing and is the first covering rule (`matchingAction_flow`).

The second half is how an answer becomes a rule (`appendDnsRule`, `appendFlowRule`).
-/

namespace QubesSnitch

/-! ### The matcher -/

def portMatches (sv : Services) (request : Request) (rule : FlowRule) (proto : FlowProto) : Except PyError Bool := do
  match ← normalizePort sv (.str rule.port) proto, requestPort request with
  | .any, _ => return true
  | _, none => return false
  | .range start stop, some port => return start ≤ port && port ≤ stop
  | .one n, some port => return port = n

def destMatches (dest : Dest) (dst : IPv4) : Except PyError Bool :=
  match dest with
  | .any => .ok true
  | .network n => .ok (n.cidr.contains dst)
  | .dns _ (some ips) => .ok (dst ∈ ips)
  | .dns _ none => .error (.keyError "_resolved_dests")

def flowRuleMatches (sv : Services) (request : Request) (rule : FlowRule) : Except PyError Bool := do
  if request.proto ≠ .flow rule.proto then return false
  if !(← destMatches rule.dest request.dst) then return false
  portMatches sv request rule rule.proto

/-- The loop over the flow rules of a source. -/
def firstFlowAction (sv : Services) (request : Request) : List FlowRule → Except PyError (Option Action)
  | [] => .ok none
  | rule :: rules => do
    if ← flowRuleMatches sv request rule then return some rule.action
    firstFlowAction sv request rules

/-- The loop over the DNS rules of a source. -/
def firstDnsAction (qname qtype : String) (rules : List DnsRule) : Option Action :=
  (rules.find? (dnsRuleMatches qname qtype)).map DnsRule.action

def matchingAction (sv : Services) (request : Request) (rules : Rules) : Except PyError (Option Action) :=
  match rules.get? request.source with
  | none => .ok none
  | some sourceRules =>
    match request.kind with
    | .dns qname qtype => .ok (firstDnsAction qname qtype sourceRules.dns)
    | _ => firstFlowAction sv request sourceRules.ip

/-! ### Rules as sets of flows -/

/-- What policy looks at: the remote address, the protocol and the remote port, `none` where there is no port. -/
structure Flow where
  dst : IPv4
  proto : FlowProto
  port : Option Nat
  deriving DecidableEq, Repr

def Dest.covers : Dest → IPv4 → Bool
  | any, _ => true
  | network n, dst => n.cidr.contains dst
  | dns _ ips, dst => dst ∈ ips.getD []

/-- The ports of a rule. -/
def FlowRule.portCovers (sv : Services) (rule : FlowRule) (port : Option Nat) : Bool :=
  match normalizePort sv (.str rule.port) rule.proto with
  | .ok p => p.covers port
  | .error _ => false

def FlowRule.covers (sv : Services) (rule : FlowRule) (flow : Flow) : Bool :=
  flow.proto = rule.proto && rule.dest.covers flow.dst && rule.portCovers sv flow.port

/-- The first-match policy of a rule list. -/
def firstAction (sv : Services) (rules : List FlowRule) (flow : Flow) : Option Action :=
  (rules.find? fun rule => rule.covers sv flow).map FlowRule.action

/-- A rule that may be matched and rendered: valid, and with addresses where it has a name. -/
structure FlowRule.Usable (sv : Services) (rule : FlowRule) : Prop extends rule.Valid sv where
  resolved : ∀ qname ips, rule.dest = .dns qname ips → ∃ x xs, ips = some (x :: xs)

def SourceRules.Usable (sv : Services) (rules : SourceRules) : Prop := ∀ rule ∈ rules.ip, rule.Usable sv

/-- The rules of a source as the daemon keeps them: usable, with canonical questions. -/
structure SourceRules.Sound (sv : Services) (rules : SourceRules) : Prop where
  usable : rules.Usable sv
  dns : ∀ rule ∈ rules.dns, CanonicalQuestion rule.qname rule.qtype

theorem SourceRules.Sound.empty (sv : Services) : SourceRules.Sound sv ⟨[], []⟩ :=
  ⟨List.forall_mem_nil _, List.forall_mem_nil _⟩

/-- Sound rules make a valid file. -/
theorem SourceRules.Sound.valid_stored {sv : Services} {rules : SourceRules} (h : rules.Sound sv) :
    rules.stored.Valid sv := by
  refine ⟨fun rule hrule => ?_, h.dns⟩
  obtain ⟨rule', hrule', rfl⟩ := List.mem_map.1 hrule
  exact ⟨FlowRule.valid_stored.2 (h.usable rule' hrule').toValid, rule'.stored_stored⟩

/-- The flow of a request for TCP, UDP or ICMP. -/
def Request.HasFlow (request : Request) (flow : Flow) : Prop :=
  request.dst = flow.dst ∧ request.proto = .flow flow.proto ∧ requestPort request = flow.port

variable {sv : Services}

theorem portMatches_covers {request : Request} {rule : FlowRule} {p : NormPort}
    (h : normalizePort sv (.str rule.port) rule.proto = .ok p) :
    portMatches sv request rule rule.proto = .ok (p.covers (requestPort request)) := by
  rw [portMatches, h]
  cases p with
  | any => rfl
  | one n => cases hport : requestPort request <;> simp [bind, Except.bind, pure, Except.pure, NormPort.covers]
  | range lo hi => cases hport : requestPort request <;> simp [bind, Except.bind, pure, Except.pure, NormPort.covers]

theorem destMatches_covers {dest : Dest} (h : ∀ qname ips, dest = .dns qname ips → ∃ x xs, ips = some (x :: xs))
    (dst : IPv4) : destMatches dest dst = .ok (dest.covers dst) := by
  cases dest with
  | any => rfl
  | network n => rfl
  | dns qname ips =>
    obtain ⟨x, xs, rfl⟩ := h qname ips rfl
    rfl

theorem flowRuleMatches_covers {rule : FlowRule} (h : rule.Usable sv) {request : Request} {flow : Flow}
    (hf : request.HasFlow flow) : flowRuleMatches sv request rule = .ok (rule.covers sv flow) := by
  obtain ⟨hdst, hproto, hport⟩ := hf
  obtain ⟨p, hp⟩ := h.port
  have hcovers : rule.portCovers sv flow.port = p.covers flow.port := by rw [FlowRule.portCovers, hp]
  by_cases hpr : flow.proto = rule.proto
  · have hmatch : request.proto = .flow rule.proto := by rw [hproto, hpr]
    rw [flowRuleMatches, if_neg (not_not.2 hmatch), destMatches_covers h.resolved, hdst]
    cases hd : rule.dest.covers flow.dst with
    | false => simp [bind, Except.bind, pure, Except.pure, FlowRule.covers, hd]
    | true => simp [bind, Except.bind, FlowRule.covers, hd, hpr, portMatches_covers hp, hport, hcovers]
  · have hmatch : request.proto ≠ .flow rule.proto := by
      rw [hproto]
      exact fun he => hpr (Proto.flow.inj he)
    rw [flowRuleMatches, if_pos hmatch]
    simp [pure, Except.pure, FlowRule.covers, hpr]

theorem firstFlowAction_eq {rules : List FlowRule} (h : ∀ rule ∈ rules, rule.Usable sv) {request : Request}
    {flow : Flow} (hf : request.HasFlow flow) :
    firstFlowAction sv request rules = .ok (firstAction sv rules flow) := by
  induction rules with
  | nil => rfl
  | cons rule rules ih =>
    rw [firstFlowAction, flowRuleMatches_covers (h rule (by simp)) hf, ih fun r hr => h r (by simp [hr])]
    cases hc : rule.covers sv flow <;> simp [firstAction, hc, bind, Except.bind, pure, Except.pure]

/-- On usable rules the matcher is the first-match policy of the source. -/
theorem matchingAction_flow {rules : Rules} {request : Request} {sourceRules : SourceRules} {flow : Flow}
    (hget : rules.get? request.source = some sourceRules) (h : sourceRules.Usable sv) (hf : request.HasFlow flow)
    (hkind : request.kind = .flow) :
    matchingAction sv request rules = .ok (firstAction sv sourceRules.ip flow) := by
  rw [matchingAction, hget]
  simp only [hkind]
  exact firstFlowAction_eq h hf

/-- Usable rules match without raising, whatever is asked. -/
theorem firstFlowAction_total {rules : List FlowRule} (h : ∀ rule ∈ rules, rule.Usable sv) (request : Request) :
    ∃ action, firstFlowAction sv request rules = .ok action := by
  induction rules with
  | nil => exact ⟨none, rfl⟩
  | cons rule rules ih =>
    obtain ⟨action, hrest⟩ := ih fun r hr => h r (by simp [hr])
    by_cases hproto : request.proto = .flow rule.proto
    · have hmatch : flowRuleMatches sv request rule =
          .ok (rule.covers sv ⟨request.dst, rule.proto, requestPort request⟩) :=
        flowRuleMatches_covers (h rule (by simp)) ⟨rfl, hproto, rfl⟩
      rw [firstFlowAction, hmatch, hrest]
      cases rule.covers sv ⟨request.dst, rule.proto, requestPort request⟩ <;>
        simp [bind, Except.bind, pure, Except.pure]
    · rw [firstFlowAction, flowRuleMatches, if_pos hproto, hrest]
      exact ⟨action, rfl⟩

theorem matchingAction_total {rules : Rules} {request : Request}
    (h : ∀ sourceRules, rules.get? request.source = some sourceRules → sourceRules.Usable sv) :
    ∃ action, matchingAction sv request rules = .ok action := by
  unfold matchingAction
  cases hget : rules.get? request.source with
  | none => exact ⟨none, rfl⟩
  | some sourceRules =>
    cases request.kind with
    | dns qname qtype => exact ⟨_, rfl⟩
    | flow => exact firstFlowAction_total (h sourceRules hget) request
    | dnsError reason fields => exact firstFlowAction_total (h sourceRules hget) request

/-- Policy looks at the source, the kind, the destination, the protocol and the port of a request. -/
theorem matchingAction_congr {request request' : Request} (rules : Rules) (hsource : request'.source = request.source)
    (hkind : request'.kind = request.kind) (hdst : request'.dst = request.dst)
    (hproto : request'.proto = request.proto) (hport : requestPort request' = requestPort request) :
    matchingAction sv request' rules = matchingAction sv request rules := by
  have hrule : flowRuleMatches sv request' = flowRuleMatches sv request := by
    funext rule
    simp only [flowRuleMatches, portMatches, hdst, hproto, hport]
  have hflow : ∀ list, firstFlowAction sv request' list = firstFlowAction sv request list := by
    intro list
    induction list with
    | nil => rfl
    | cons rule list ih => rw [firstFlowAction, firstFlowAction, hrule, ih]
  simp only [matchingAction, hsource, hkind, hflow]

/-! ### Answers as rules -/

/-- The rules of a source; a new source gets the shape of an empty rule file. -/
def Rules.ofSource (rules : Rules) (source : String) : SourceRules := (rules.get? source).getD ⟨[], []⟩

/-- The name in a host text that comes from the A cache. -/
def trustedHost (host : Option String) : Option String :=
  host.bind fun text => if "A ".toList.isPrefixOf text.toList then some (String.ofList (text.toList.drop 2)) else none

/-- `host or "no PTR"`, or the name itself for a host-name answer. -/
def promptPtr (request : Request) (decision : Decision) : String :=
  match if decision.isHostname then trustedHost request.host else none with
  | some name => name
  | none => if request.host.getD "" = "" then "no PTR" else request.host.getD ""

/-- `append_dns_rule`.  File and memory share the new rule, so it is in both as the check of the file leaves it. -/
def appendDnsRule (lib : DnsPython) (path : String) (request : Request) (decision : Decision) (qname qtype : String)
    (data : RuleFile) (rules : Rules) : Except PyError (RuleFile × Rules) := do
  let action ← validateAction path ": invalid DNS action: " (.str decision.name)
  let question ← validateDnsRule lib path (.str qname) (.str qtype)
  let rule : DnsRule := { qname := question.1, qtype := question.2, action }
  let sourceRules := rules.ofSource request.source
  return ({ data with dns := data.dns ++ [rule] },
    rules.set request.source { sourceRules with dns := sourceRules.dns ++ [rule] })

/-- `request.get("_resolved_dests") or config.resolve_dest_dns("prompt", qname)` -/
def promptAddresses (resolver : Resolver) (request : Request) (qname : String) : Except PyError (List IPv4) :=
  match request.resolvedDests with
  | some (ip :: ips) => .ok (ip :: ips)
  | _ => resolveDestDns resolver "prompt" qname

/-- The destination of a saved answer: the observed address, or the name shown with it. -/
def promptDest (lib : DnsPython) (resolver : Resolver) (request : Request) (decision : Decision) :
    Except PyError Dest :=
  if decision.isHostname then
    match trustedHost request.host with
    | none => .error (.systemExit "refusing hostname rule without trusted A-cache hint")
    | some host => do
      let qname ← validateDestDnsName lib "prompt" (.str host)
      return .dns qname (← promptAddresses resolver request qname)
  else .ok (.network (.host request.dst))

def promptPort (request : Request) : Except PyError String :=
  if (request.proto = .flow .tcp || request.proto = .flow .udp) && requestPort request = none then
    .error (.systemExit ("refusing to persist malformed " ++ request.proto.name ++ " flow without destination port"))
  else .ok (portText (requestPort request))

/-- `append_flow_rule`.  Only TCP, UDP and ICMP pass the check of the file afterwards, which is made here. -/
def appendFlowRule (lib : DnsPython) (resolver : Resolver) (path : String) (request : Request) (decision : Decision)
    (data : RuleFile) (rules : Rules) : Except PyError (RuleFile × Rules) := do
  let port ← promptPort request
  let dest ← promptDest lib resolver request decision
  let proto ← validateProto path (.str request.proto.name)
  let rule : FlowRule := { ptr := .str (promptPtr request decision), dest, proto, port, action := decision.action }
  let sourceRules := rules.ofSource request.source
  return ({ data with rules4 := data.rules4 ++ [rule.stored] },
    rules.set request.source { sourceRules with ip := sourceRules.ip ++ [rule] })

end QubesSnitch
