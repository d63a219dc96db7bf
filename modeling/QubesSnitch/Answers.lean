import QubesSnitch.PolicyRuntime

/-!
# What an answer decides

An answer to a prompt becomes a rule at the end of the rules of its source.  For the requests that packet handling builds
(`Built`) the rule decides what the prompt asked and nothing else: an `allow` or `reject` exactly the requests with the
same question key, a host-name answer exactly the flows to the addresses that are stored with the rule (`Covered`).
Requests that were decided before are decided as before (`appendRule_exact`).

So the key of a question is as fine as policy is: requests with one key always get one action
(`matchingAction_of_questionKey`).
-/

namespace QubesSnitch

variable {sv : Services} {lib : DnsPython} {io : Io}

/-! ### Requests from packets -/

/-- A request with the fields of a well-formed packet, about the flow or about the question in its body.  The source, the
texts that are shown and what the CLI adds may be anything. -/
def Built (lib : DnsPython) (request : Request) : Prop :=
  ∃ payload parsed, parsePacket payload = .ok (some parsed) ∧ parsed.malformed = none ∧
    { request.toParsedPacket with body := parsed.body } = parsed ∧
    (request.kind = .flow ∨ ∃ qname qtype, request.kind = .dns qname qtype ∧
      addDnsQueryFields lib { request with body := parsed.body, kind := .flow } =
        (true, { request with body := parsed.body, kind := .dns qname qtype }))

/-- What policy and its files rely on in a request. -/
structure Request.WellFormed (request : Request) : Prop where
  packet : request.toParsedPacket.WellFormed
  kind : request.kind = .flow ∨ ∃ qname qtype, request.kind = .dns qname qtype ∧ CanonicalQuestion qname qtype ∧
    isWildcard qname.toList = false

theorem Built.wellFormed {request : Request} (h : Built lib request) : request.WellFormed := by
  obtain ⟨payload, parsed, hparse, hmalformed, hpacket, hkind⟩ := h
  refine ⟨?_, hkind.imp id ?_⟩
  · have := parsePacket_wellFormed hparse hmalformed
    rw [← hpacket] at this
    exact this
  · rintro ⟨qname, qtype, hq, hfields⟩
    obtain ⟨-, hsupported, hlive, -⟩ := addDnsQueryFields_dns hfields rfl rfl
    exact ⟨qname, qtype, hq, canonical_of_live hsupported hlive⟩

/-! ### One more rule -/

theorem Rules.ofSource_set (rules : Rules) (source s : String) (sourceRules : SourceRules) :
    Rules.ofSource (rules.set source sourceRules) s = if s = source then sourceRules else rules.ofSource s := by
  rw [Rules.ofSource, Dict.get?_set]
  by_cases h : s = source <;> simp [h, Rules.ofSource]

/-- A source without rules is one with no rules. -/
theorem matchingAction_ofSource (request : Request) (rules : Rules) : matchingAction sv request rules =
    match request.kind with
    | .dns qname qtype => .ok (firstDnsAction qname qtype (rules.ofSource request.source).dns)
    | _ => firstFlowAction sv request (rules.ofSource request.source).ip := by
  rw [matchingAction, Rules.ofSource]
  cases rules.get? request.source with
  | some sourceRules => rfl
  | none => cases request.kind <;> rfl

theorem firstFlowAction_append (request : Request) (rules : List FlowRule) (rule : FlowRule) {matched : Bool}
    (h : flowRuleMatches sv request rule = .ok matched) : firstFlowAction sv request (rules ++ [rule]) =
      (firstFlowAction sv request rules).map fun found => found.or (if matched then some rule.action else none) := by
  induction rules with
  | nil =>
    simp only [List.nil_append, firstFlowAction, h]
    cases matched <;> rfl
  | cons first rules ih =>
    rw [List.cons_append, firstFlowAction, firstFlowAction, ih]
    cases flowRuleMatches sv request first with
    | error e => rfl
    | ok b => cases b <;> rfl

theorem firstDnsAction_append (qname qtype : String) (rules : List DnsRule) (rule : DnsRule) :
    firstDnsAction qname qtype (rules ++ [rule]) = (firstDnsAction qname qtype rules).or
      (if dnsRuleMatches qname qtype rule then some rule.action else none) := by
  rw [firstDnsAction, List.find?_append, firstDnsAction]
  cases rules.find? (dnsRuleMatches qname qtype) with
  | some found => rfl
  | none => cases h : dnsRuleMatches qname qtype rule <;> simp [h]

/-- A canonical name stands for itself. -/
theorem dnsRuleMatches_concrete {rule : DnsRule} (h : CanonicalQuestion rule.qname rule.qtype)
    (hw : isWildcard rule.qname.toList = false) (qname qtype : String) :
    dnsRuleMatches qname qtype rule = decide (qname = rule.qname ∧ qtype = rule.qtype) := by
  have hlower : Py.lower rule.qname.toList = rule.qname.toList := by
    rw [← h.stable, Py.lower_lower]
  have hw : "*.".toList.isPrefixOf rule.qname.toList = false := hw
  unfold dnsRuleMatches
  rw [upper_of_supported h.supported, hlower]
  by_cases hq : qtype = rule.qtype
  · rw [if_neg (not_not.2 (String.toList_inj.2 hq))]
    dsimp only
    rw [hw]
    simp [hq, String.toList_inj]
  · rw [if_pos fun he => hq (String.toList_inj.1 he)]
    simp [hq]

/-! ### The rule that an answer makes -/

/-- What the rule of a host-name answer is about: a name, with the addresses that the answer came with. -/
def NamesHost (request : Request) (dest : Dest) : Prop :=
  ∃ qname x xs, dest = .dns qname (some (x :: xs)) ∧ CanonicalQuestion qname "A" ∧ isWildcard qname.toList = false ∧
    ∀ ips, request.resolvedDests = some ips → ips ≠ [] → ips = x :: xs

/-- The flow rule for an answer: for the destination and the port that were asked about, or for a name. -/
structure Answers (request : Request) (decision : Decision) (rule : FlowRule) : Prop where
  proto : request.proto = .flow rule.proto
  port : rule.port = portText (requestPort request)
  action : rule.action = decision.action
  dest : (decision.isHostname = false ∧ rule.dest = .network (.host request.dst)) ∨
    (decision.isHostname ∧ NamesHost request rule.dest)

theorem promptAddresses_ok {resolver : Resolver} {request : Request} {qname : String} {ips : List IPv4}
    (h : promptAddresses resolver request qname = .ok ips) :
    ips ≠ [] ∧ ∀ found, request.resolvedDests = some found → found ≠ [] → found = ips := by
  unfold promptAddresses at h
  split at h
  · rename_i ip rest hresolved
    cases h
    refine ⟨by simp, fun found hfound _ => ?_⟩
    rw [hresolved] at hfound
    exact (Option.some.inj hfound).symm
  · rename_i hnone
    refine ⟨addressesOf_ne_nil ((resolveDestDns_eq_ok _).1 h), fun found hfound hne => ?_⟩
    obtain ⟨ip, rest, rfl⟩ := List.exists_cons_of_ne_nil hne
    exact absurd hfound (hnone ip rest)

theorem promptDest_ok {resolver : Resolver} {request : Request} {decision : Decision} {dest : Dest}
    (h : promptDest lib resolver request decision = .ok dest) :
    (decision.isHostname = false ∧ dest = .network (.host request.dst)) ∨
      (decision.isHostname ∧ NamesHost request dest) := by
  unfold promptDest at h
  split at h
  · rename_i hhost
    split at h
    · cases h
    · obtain ⟨qname, hqname, h⟩ := Except.exists_of_bind_eq_ok h
      obtain ⟨ips, hips, h⟩ := Except.exists_of_bind_eq_ok h
      cases h
      obtain ⟨hcanonical, hwild⟩ := validateDestDnsName_ok hqname
      obtain ⟨hne, hfound⟩ := promptAddresses_ok hips
      obtain ⟨x, xs, rfl⟩ := List.exists_cons_of_ne_nil hne
      exact .inr ⟨hhost, qname, x, xs, rfl, hcanonical, hwild, hfound⟩
  · rename_i hhost
    cases h
    exact .inl ⟨by simpa using hhost, rfl⟩

theorem validateProto_ok {path text : String} {proto : FlowProto} (h : validateProto path (.str text) = .ok proto) :
    text = proto.name := by
  unfold validateProto at h
  split at h
  · cases h
  · split at h
    · rename_i p hp
      cases h
      exact FlowProto.ofName?_eq_some hp
    · cases h

/-- The rule that `append_flow_rule` adds, to the file without its addresses. -/
theorem appendFlowRule_ok {path : String} {request : Request} {decision : Decision} {data data' : RuleFile}
    {rules rules' : Rules} (hw : request.WellFormed)
    (h : appendFlowRule lib io.resolver path request decision data rules = .ok (data', rules')) :
    ∃ rule, Answers request decision rule ∧ data' = { data with rules4 := data.rules4 ++ [rule.stored] } ∧
      rules' = rules.set request.source
        { rules.ofSource request.source with ip := (rules.ofSource request.source).ip ++ [rule] } := by
  obtain ⟨proto, hproto, -⟩ := hw.packet
  obtain ⟨port, hport, h⟩ := Except.exists_of_bind_eq_ok h
  obtain ⟨dest, hdest, h⟩ := Except.exists_of_bind_eq_ok h
  obtain ⟨proto', hproto', h⟩ := Except.exists_of_bind_eq_ok h
  cases h
  refine ⟨_, ⟨?_, ?_, rfl, promptDest_ok hdest⟩, rfl, rfl⟩
  · have hname := validateProto_ok hproto'
    rw [hproto, Proto.name] at hname
    have : FlowProto.ofName? proto.name = FlowProto.ofName? proto'.name := by rw [hname]
    simpa [hproto] using this
  · unfold promptPort at hport
    split at hport
    · cases hport
    · cases hport
      rfl

/-- A DNS answer is saved only as `allow` or `reject`, for the question as it stands. -/
theorem appendDnsRule_ok {path : String} {request : Request} {decision : Decision} {qname qtype : String}
    {data data' : RuleFile} {rules rules' : Rules} (hq : CanonicalQuestion qname qtype)
    (h : appendDnsRule lib path request decision qname qtype data rules = .ok (data', rules')) :
    decision.isHostname = false ∧ data' = { data with dns := data.dns ++ [⟨qname, qtype, decision.action⟩] } ∧
      rules' = rules.set request.source { rules.ofSource request.source with
        dns := (rules.ofSource request.source).dns ++ [⟨qname, qtype, decision.action⟩] } := by
  unfold appendDnsRule at h
  rw [validateDnsRule_canonical lib path hq] at h
  obtain ⟨action, haction, h⟩ := Except.exists_of_bind_eq_ok h
  have hdecision : decision.isHostname = false ∧ action = decision.action := by
    cases decision with
    | allow => exact ⟨rfl, (Except.ok.inj haction).symm⟩
    | reject => exact ⟨rfl, (Except.ok.inj haction).symm⟩
    | allowDns => cases haction
    | rejectDns => cases haction
  obtain ⟨hhost, rfl⟩ := hdecision
  cases h
  exact ⟨hhost, rfl, rfl⟩

/-- Two requests from packets with one protocol ask for the same port or the rule says `any`. -/
theorem portMatches_answer {request r : Request} {decision : Decision} {rule : FlowRule}
    (hrule : Answers request decision rule) (hw : request.WellFormed) (hr : r.WellFormed)
    (hproto : r.proto = .flow rule.proto) :
    portMatches sv r rule rule.proto = .ok (decide (requestPort r = requestPort request)) := by
  obtain ⟨proto, hp, hport⟩ := requestPort_wellFormed hw.packet
  obtain ⟨proto', hp', hport'⟩ := requestPort_wellFormed hr.packet
  have hsame : proto = rule.proto := Proto.flow.inj (hp.symm.trans hrule.proto)
  have hsame' : proto' = rule.proto := Proto.flow.inj (hp'.symm.trans hproto)
  rcases hport with ⟨hicmp, hnone⟩ | ⟨hne, n, hn, -, hlow, hhigh⟩
  · rcases hport' with ⟨-, hnone'⟩ | ⟨hne', -⟩
    · have hany : normalizePort sv (.str rule.port) rule.proto = .ok .any := by rw [hrule.port, hnone]; rfl
      rw [portMatches_covers hany, hnone, hnone']
      rfl
    · exact absurd (hsame'.trans (hsame.symm.trans hicmp)) hne'
  · have hone : normalizePort sv (.str rule.port) rule.proto = .ok (.one n) := by
      rw [hrule.port, hn]
      exact normalizePort_decimal sv _ hlow hhigh
    rw [portMatches_covers hone, hn]
    rfl

theorem flowRuleMatches_answer {request r : Request} {decision : Decision} {rule : FlowRule}
    (hrule : Answers request decision rule) (hw : request.WellFormed) (hr : r.WellFormed) :
    flowRuleMatches sv r rule = .ok (decide (r.proto = request.proto ∧ rule.dest.covers r.dst ∧
      requestPort r = requestPort request)) := by
  unfold flowRuleMatches
  rw [hrule.proto]
  by_cases hproto : r.proto = .flow rule.proto
  · have hresolved : destMatches rule.dest r.dst = .ok (rule.dest.covers r.dst) := by
      rcases hrule.dest with ⟨-, hdest⟩ | ⟨-, qname, x, xs, hdest, -⟩ <;> rw [hdest] <;> rfl
    rw [if_neg (not_not.2 hproto), hresolved, portMatches_answer hrule hw hr hproto]
    cases rule.dest.covers r.dst <;> simp [hproto, bind, Except.bind, pure, Except.pure]
  · rw [if_pos hproto]
    simp [hproto, pure, Except.pure]

/-! ### What is decided -/

theorem questionKey_flow {request : Request} (h : request.kind = .flow) : questionKey request =
    .net request.source request.dst request.proto (requestPort request) := by rw [questionKey, h]

theorem questionKey_dns {request : Request} {qname qtype : String} (h : request.kind = .dns qname qtype) :
    questionKey request = .dns request.source qtype qname := by rw [questionKey, h]

/-- The addresses stored with the last flow rule of a source. -/
def savedAddresses (rules : Rules) (source : String) : List IPv4 :=
  match (rules.ofSource source).ip.getLast?.map FlowRule.dest with
  | some (.dns _ ips) => ips.getD []
  | _ => []

/-- The requests that an answer is about, given the addresses that were stored with it. -/
def Covered (request : Request) (decision : Decision) (saved : List IPv4) (r : Request) : Prop :=
  if decision.isHostname then
    r.kind = .flow ∧ r.source = request.source ∧ r.proto = request.proto ∧ requestPort r = requestPort request ∧
      r.dst ∈ saved
  else questionKey r = questionKey request

instance (request : Request) (decision : Decision) (saved : List IPv4) (r : Request) :
    Decidable (Covered request decision saved r) := by
  unfold Covered
  infer_instance

/-- What an answer leaves of the policy for a request: what was decided, and else what the answer says about it. -/
def afterAnswer (decision : Decision) (covered : Bool) (found : Option Action) : Option Action :=
  found.or (if covered then some decision.action else none)

@[simp] theorem afterAnswer_false (decision : Decision) (found : Option Action) :
    afterAnswer decision false found = found := by simp [afterAnswer]

private theorem map_afterAnswer_false (decision : Decision) (found : Except PyError (Option Action)) :
    found.map (afterAnswer decision false) = found := by
  cases found with
  | error e => rfl
  | ok a => simp [Except.map]

private theorem appendDns_exact {path : String} {request r : Request} {decision : Decision} {qname qtype : String}
    {data data' : RuleFile} {rules rules' : Rules} (hkind : request.kind = .dns qname qtype)
    (hq : CanonicalQuestion qname qtype) (hwild : isWildcard qname.toList = false)
    (h : appendDnsRule lib path request decision qname qtype data rules = .ok (data', rules')) (hr : r.WellFormed) :
    matchingAction sv r rules' = (matchingAction sv r rules).map
      (afterAnswer decision (decide (Covered request decision (savedAddresses rules' request.source) r))) := by
  obtain ⟨hhost, -, hrules⟩ := appendDnsRule_ok hq h
  generalize savedAddresses rules' request.source = saved
  have hcovered : Covered request decision saved r ↔ questionKey r = .dns request.source qtype qname := by
    rw [Covered, if_neg (by simp [hhost]), questionKey_dns hkind]
  rw [matchingAction_ofSource, matchingAction_ofSource, hrules, Rules.ofSource_set]
  rcases hr.kind with hflow | ⟨qname', qtype', hdns, -⟩
  · have hnot : ¬ Covered request decision saved r := by
      rw [hcovered, questionKey_flow hflow]
      simp
    rw [decide_eq_false hnot, map_afterAnswer_false, hflow]
    by_cases hs : r.source = request.source <;> simp [hs]
  · rw [questionKey_dns hdns, QuestionKey.dns.injEq] at hcovered
    by_cases hs : r.source = request.source
    · have hmatch : dnsRuleMatches qname' qtype' ⟨qname, qtype, decision.action⟩ =
          decide (qname' = qname ∧ qtype' = qtype) := dnsRuleMatches_concrete hq hwild qname' qtype'
      have hsaved : decide (Covered request decision saved r) = decide (qtype' = qtype ∧ qname' = qname) :=
        decide_eq_decide.2 (hcovered.trans (and_iff_right hs))
      rw [hsaved, hdns, if_pos hs, hs]
      dsimp only
      rw [firstDnsAction_append, hmatch]
      simp [Except.map, afterAnswer, and_comm]
    · rw [decide_eq_false fun hc => hs (hcovered.1 hc).1, if_neg hs, map_afterAnswer_false]

private theorem covered_flow {request r : Request} {decision : Decision} {rule : FlowRule} {saved : List IPv4}
    (hrule : Answers request decision rule) (hkind : request.kind = .flow) (hr : r.kind = .flow)
    (hsaved : ∀ qname ips, rule.dest = .dns qname (some ips) → saved = ips) :
    Covered request decision saved r ↔ r.source = request.source ∧ r.proto = request.proto ∧
      rule.dest.covers r.dst ∧ requestPort r = requestPort request := by
  unfold Covered
  rcases hrule.dest with ⟨hhost, hdest⟩ | ⟨hhost, qname, x, xs, hdest, -⟩
  · have hcovers : rule.dest.covers r.dst ↔ r.dst = request.dst := by
      rw [hdest]
      exact Cidr.contains_host
    rw [if_neg (by simp [hhost]), questionKey_flow hkind, questionKey_flow hr, QuestionKey.net.injEq, hcovers]
    constructor
    · rintro ⟨hs, hd, hp, hport⟩
      exact ⟨hs, hp, hd, hport⟩
    · rintro ⟨hs, hp, hd, hport⟩
      exact ⟨hs, hd, hp, hport⟩
  · have hcovers : rule.dest.covers r.dst ↔ r.dst ∈ saved := by
      rw [hdest, hsaved qname (x :: xs) hdest]
      simp [Dest.covers]
    rw [if_pos hhost, hcovers]
    constructor
    · rintro ⟨-, hs, hp, hport, hd⟩
      exact ⟨hs, hp, hd, hport⟩
    · rintro ⟨hs, hp, hd, hport⟩
      exact ⟨hr, hs, hp, hport, hd⟩

private theorem appendFlow_exact {path : String} {request r : Request} {decision : Decision} {data data' : RuleFile}
    {rules rules' : Rules} (hw : request.WellFormed) (hkind : request.kind = .flow)
    (h : appendFlowRule lib io.resolver path request decision data rules = .ok (data', rules')) (hr : r.WellFormed) :
    matchingAction sv r rules' = (matchingAction sv r rules).map
      (afterAnswer decision (decide (Covered request decision (savedAddresses rules' request.source) r))) := by
  obtain ⟨rule, hrule, -, hrules⟩ := appendFlowRule_ok hw h
  have hsaved : ∀ qname ips, rule.dest = .dns qname (some ips) → savedAddresses rules' request.source = ips := by
    intro qname ips hdest
    rw [savedAddresses, hrules, Rules.ofSource_set, if_pos rfl, List.getLast?_concat, Option.map_some, hdest]
    rfl
  generalize savedAddresses rules' request.source = saved at hsaved
  rw [matchingAction_ofSource, matchingAction_ofSource, hrules, Rules.ofSource_set]
  rcases hr.kind with hflow | ⟨qname, qtype, hdns, -⟩
  · have hcovered := covered_flow hrule hkind hflow hsaved
    by_cases hs : r.source = request.source
    · rw [decide_eq_decide.2 (hcovered.trans (and_iff_right hs)), hflow, if_pos hs, hs]
      dsimp only
      rw [firstFlowAction_append r _ rule (flowRuleMatches_answer hrule hw hr), hrule.action]
      rfl
    · rw [decide_eq_false fun hc => hs (hcovered.1 hc).1, if_neg hs, map_afterAnswer_false]
  · have hnot : ¬ Covered request decision saved r := by
      unfold Covered
      rw [questionKey_flow hkind, questionKey_dns hdns, hdns]
      simp
    rw [decide_eq_false hnot, map_afterAnswer_false, hdns]
    by_cases hs : r.source = request.source <;> simp [hs]

/-- A saved answer changes nothing that was decided and decides what it covers. -/
theorem appendDecision_exact (sv : Services) {request r : Request} {decision : Decision} {data data' : RuleFile}
    {rules rules' : Rules} (hw : request.WellFormed) (h : appendDecision lib io request decision data rules = .ok (data', rules'))
    (hr : r.WellFormed) : matchingAction sv r rules' = (matchingAction sv r rules).map
      (afterAnswer decision (decide (Covered request decision (savedAddresses rules' request.source) r))) := by
  unfold appendDecision at h
  rcases hw.kind with hflow | ⟨qname, qtype, hdns, hq, hwild⟩
  · rw [hflow] at h
    exact appendFlow_exact hw hflow h hr
  · rw [hdns] at h
    exact appendDns_exact hdns hq hwild h hr

/-- Requests with one question key are answered alike. -/
theorem matchingAction_of_questionKey {r r' : Request} (hr : r.WellFormed) (hr' : r'.WellFormed)
    (h : questionKey r = questionKey r') (rules : Rules) : matchingAction sv r rules = matchingAction sv r' rules := by
  rcases hr.kind with hflow | ⟨qname, qtype, hdns, -⟩ <;> rcases hr'.kind with hflow' | ⟨qname', qtype', hdns', -⟩
  · rw [questionKey_flow hflow, questionKey_flow hflow', QuestionKey.net.injEq] at h
    obtain ⟨hsource, hdst, hproto, hport⟩ := h
    exact matchingAction_congr rules hsource (hflow.trans hflow'.symm) hdst hproto hport
  · rw [questionKey_flow hflow, questionKey_dns hdns'] at h
    cases h
  · rw [questionKey_dns hdns, questionKey_flow hflow'] at h
    cases h
  · rw [questionKey_dns hdns, questionKey_dns hdns', QuestionKey.dns.injEq] at h
    obtain ⟨hsource, rfl, rfl⟩ := h
    rw [matchingAction_ofSource, matchingAction_ofSource, hdns, hdns', hsource]

/-! ### Prompts that an answer decides -/

/-- What `prepare_hostname_decision` has seen to: a host-name answer is about a flow, with a name and its addresses. -/
def Prepared (lib : DnsPython) (request : Request) (decision : Decision) : Prop :=
  decision.isHostname → request.kind = .flow ∧
    (∃ host qname, trustedHost request.host = some host ∧ validateDestDnsName lib "prompt" (.str host) = .ok qname) ∧
    ∃ ips, request.resolvedDests = some ips ∧ request.dst ∈ ips

theorem prepareHostnameDecision_ok {resolver : Resolver} {request prepared : Request} {decision : Decision}
    (hw : request.WellFormed) (hhost : request.kind.isDns → request.host = none)
    (h : prepareHostnameDecision lib resolver request decision = .ok prepared) :
    (∃ found, prepared = { request with resolvedDests := found }) ∧ Prepared lib prepared decision := by
  unfold prepareHostnameDecision at h
  split at h
  · rename_i hplain
    cases h
    exact ⟨⟨request.resolvedDests, rfl⟩, fun hd => by simp [hd] at hplain⟩
  · split at h
    · cases h
    · rename_i host htrusted
      obtain ⟨qname, hqname, h⟩ := Except.exists_of_bind_eq_ok h
      obtain ⟨resolved, -, h⟩ := Except.exists_of_bind_eq_ok h
      split at h
      · cases h
      · rename_i hmulti
        cases h
        have hflow : request.kind = .flow := by
          rcases hw.kind with hflow | ⟨name, qtype, hdns, -⟩
          · exact hflow
          · rw [hhost (by rw [hdns]; rfl)] at htrusted
            cases htrusted
        simp only [Bool.or_eq_true, decide_eq_true_eq, not_or, not_not] at hmulti
        exact ⟨⟨_, rfl⟩, fun _ => ⟨hflow, ⟨host, qname, htrusted, hqname⟩, resolved, rfl, hmulti.2⟩⟩

/-- A question under its key. -/
structure Question (key : QuestionKey) (request : Request) : Prop where
  key : questionKey request = key
  wellFormed : request.WellFormed
  /-- Hints are for flows. -/
  host : request.kind.isDns → request.host = none

/-- What an answer removes from the queue is what it covers. -/
theorem kept_iff {key key' : QuestionKey} {request r : Request} {decision : Decision} {saved : List IPv4}
    (hq : Question key request) (hr : Question key' r) (hp : Prepared lib request decision)
    (hsaved : decision.isHostname → request.resolvedDests = some saved) :
    (key' ≠ key ∧ (decision.isHostname → ∀ resolved, request.resolvedDests = some resolved →
      isSibling request resolved r = false)) ↔ ¬ Covered request decision saved r := by
  unfold Covered
  cases hhost : decision.isHostname with
  | false => simp [hq.key, hr.key]
  | true =>
    obtain ⟨hflow, -, ips, hips, hmem⟩ := hp hhost
    obtain rfl : ips = saved := Option.some.inj (hips.symm.trans (hsaved hhost))
    have hsibling : isSibling request ips r = true ↔ r.kind = .flow ∧ r.source = request.source ∧
        r.proto = request.proto ∧ requestPort r = requestPort request ∧ r.dst ∈ ips := by
      have hkind : r.kind.isDns = false ↔ r.kind = .flow := by
        rcases hr.wellFormed.kind with hk | ⟨qname, qtype, hk, -⟩ <;> simp [hk, Kind.isDns]
      simp [isSibling, hkind, and_assoc]
    have hself : key' = key → isSibling request ips r = true := by
      rintro rfl
      rw [hsibling]
      have hkey := hr.key.trans hq.key.symm
      rcases hr.wellFormed.kind with hk | ⟨qname, qtype, hk, -⟩
      · rw [questionKey_flow hflow, questionKey_flow hk, QuestionKey.net.injEq] at hkey
        exact ⟨hk, hkey.1, hkey.2.2.1, hkey.2.2.2, hkey.2.1 ▸ hmem⟩
      · rw [questionKey_flow hflow, questionKey_dns hk] at hkey
        cases hkey
    rw [if_pos rfl, ← hsibling, Bool.not_eq_true]
    constructor
    · rintro ⟨-, hkeep⟩
      exact hkeep rfl ips hips
    · intro hkeep
      refine ⟨fun he => ?_, fun _ found hfound => ?_⟩
      · rw [hself he] at hkeep
        cases hkeep
      · rw [hips] at hfound
        cases hfound
        exact hkeep

/-- The addresses of a host-name answer are stored with its rule. -/
theorem savedAddresses_ok {request : Request} {decision : Decision} {data data' : RuleFile} {rules rules' : Rules}
    {ips : List IPv4} (hw : request.WellFormed) (hp : Prepared lib request decision) (hhost : decision.isHostname)
    (hips : request.resolvedDests = some ips)
    (h : appendDecision lib io request decision data rules = .ok (data', rules')) :
    savedAddresses rules' request.source = ips := by
  obtain ⟨hflow, -, found, hfound, hmem⟩ := hp hhost
  obtain rfl : found = ips := Option.some.inj (hfound.symm.trans hips)
  unfold appendDecision at h
  rw [hflow] at h
  obtain ⟨rule, hrule, -, hrules⟩ := appendFlowRule_ok hw h
  rcases hrule.dest with ⟨hplain, -⟩ | ⟨-, qname, x, xs, hdest, -, -, hsame⟩
  · rw [hhost] at hplain
    cases hplain
  · rw [savedAddresses, hrules, Rules.ofSource_set, if_pos rfl, List.getLast?_concat, Option.map_some, hdest,
      hsame found hips (List.ne_nil_of_mem hmem)]
    rfl

/-! ### A sample -/

namespace Sample

/-- A TCP packet from 10.137.0.5 to port 443. -/
def payloadTo (dst : IPv4) : List UInt8 :=
  [0x45, 0, 0, 40, 0, 0, 0, 0, 64, 6, 0, 0, 10, 137, 0, 5, dst.a, dst.b, dst.c, dst.d,
    0x30, 0x39, 0x01, 0xbb, 0, 0, 0, 0, 0, 0, 0, 0, 0x50, 2, 0, 0, 0, 0, 0, 0]

def payload : List UInt8 := payloadTo server

def request : Request where
  src := work
  dst := server
  proto := .flow .tcp
  sport := some 12345
  dport := some 443
  source := "work"
  displaySource := "work"

theorem built (lib : DnsPython) : Built lib request :=
  ⟨payload, request.toParsedPacket, by decide +kernel, rfl, rfl, .inl rfl⟩

/-- Everything works, but no name resolves. -/
def works : Io := ⟨fun _ => .error "no answer", fun _ => true, fun _ => true, fun _ => none⟩

def requestTo (dst : IPv4) : Request := { request with dst }

def privateNet : NetworkText where
  value := .str "172.16.0.0/12"
  cidr := ⟨⟨172, 16, 0, 0⟩, 12, by omega⟩
  parses := by decide +kernel
  narrow := by decide

/-- The addresses of example.org when its rule was made. -/
def namedServers : List IPv4 := [⟨5, 6, 7, 8⟩, ⟨5, 6, 7, 9⟩]

/-- A network is rejected, a host name allowed, and of the names below that one all are rejected. -/
def decidedRules : SourceRules where
  ip := [⟨.str "no PTR", .network privateNet, .tcp, "any", .reject⟩,
    ⟨.str "no PTR", .dns "example.org" (some namedServers), .tcp, "443", .allow⟩]
  dns := [⟨"*.example.org", "A", .reject⟩]

def decidedRuntime : Runtime where
  config := config
  sources := oneVm
  rules := ⟨[("work", decidedRules)], by simp⟩
  rulesDir := ⟨[("work", .yaml (.map decidedRules.stored.dump))], by simp⟩
  nftText := none
  dnsResponseCache := .empty
  dnsQnameCache := .empty
  lastSourceRefresh := 0

end Sample

/-! ### Saving an answer -/

/-- Saving an answer is conservative and exact: what was decided stays, and of the rest what the answer covers gets its
action and nothing else does.  So requests with one question key are always answered alike. -/
theorem appendRule_exact {ctx ctx' : Runtime} {request : Request} {decision : Decision} (hq : Built lib request)
    (h : (appendRule sv lib io request decision).run ctx = .ok () ctx') :
    (∀ r, Built lib r →
      (∀ action, matchingAction sv r ctx.rules = .ok (some action) →
        matchingAction sv r ctx'.rules = .ok (some action)) ∧
      (matchingAction sv r ctx.rules = .ok none → matchingAction sv r ctx'.rules =
        .ok (if Covered request decision (savedAddresses ctx'.rules request.source) r then some decision.action
          else none))) ∧
    ∀ r r', Built lib r → Built lib r' → questionKey r = questionKey r' →
      ∀ rules, matchingAction sv r rules = matchingAction sv r' rules := by
  obtain ⟨data, rules, hdecided, rfl⟩ := appendRule_ok h
  obtain ⟨current, appended, -, happend, -⟩ := decidedPolicy_ok hdecided
  refine ⟨fun r hr => ?_, fun r r' hr hr' hkey => matchingAction_of_questionKey hr.wellFormed hr'.wellFormed hkey⟩
  have hexact := appendDecision_exact sv hq.wellFormed happend hr.wellFormed
  refine ⟨fun action haction => ?_, fun hnone => ?_⟩
  · rw [hexact, haction]
    rfl
  · rw [hexact, hnone]
    simp [Except.map, afterAnswer]

theorem appendRule_exact_sample : ∃ ctx',
    (appendRule .empty Sample.dnspython Sample.works Sample.request .allow).run Sample.decidedRuntime = .ok () ctx' ∧
    matchingAction .empty Sample.request ctx'.rules = .ok (some .allow) ∧
    matchingAction .empty (Sample.requestTo ⟨172, 16, 2, 3⟩) ctx'.rules = .ok (some .reject) ∧
    matchingAction .empty (Sample.requestTo ⟨5, 6, 7, 9⟩) ctx'.rules = .ok (some .allow) ∧
    matchingAction .empty (Sample.requestTo ⟨1, 2, 3, 5⟩) ctx'.rules = .ok none := by
  obtain ⟨ctx', h⟩ : ∃ ctx', (appendRule .empty Sample.dnspython Sample.works Sample.request .allow).run
    Sample.decidedRuntime = .ok () ctx' := ⟨_, rfl⟩
  have hbuilt (dst : IPv4) (hparse : parsePacket (Sample.payloadTo dst) =
      .ok (some (Sample.requestTo dst).toParsedPacket)) : Built Sample.dnspython (Sample.requestTo dst) :=
    ⟨_, _, hparse, rfl, rfl, .inl rfl⟩
  have hexact := (appendRule_exact (Sample.built Sample.dnspython) h).1
  refine ⟨ctx', h, ?_, ?_, ?_, ?_⟩
  · exact (hexact _ (Sample.built _)).2 rfl
  · exact (hexact _ (hbuilt ⟨172, 16, 2, 3⟩ (by decide +kernel))).1 _ rfl
  · exact (hexact _ (hbuilt ⟨5, 6, 7, 9⟩ (by decide +kernel))).1 _ rfl
  · exact (hexact _ (hbuilt ⟨1, 2, 3, 5⟩ (by decide +kernel))).2 rfl

end QubesSnitch
