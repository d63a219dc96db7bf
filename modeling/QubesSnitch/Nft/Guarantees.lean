import QubesSnitch.Nft.Chains

/-!
# What the rendered table guarantees

The statements are about any source map that `parseSourcesOutput` accepts with rules that `validateRuleFile` accepts
(`Accepted`), and any packet.

* `accept_limiter_iff`: when it makes no difference to a packet which limiters are exhausted.
* `forward_agrees_iff`: when the chain of a source decides as `matchingAction` does.
* `reply_agrees_iff`: when replies are decided by the policy of the VM they go to.
* `unattributed_iff`: what happens to traffic from nowhere known.

Each is an equivalence with a condition on the input.  A destination that the checks accept and nft cannot read, such
as a network with a netmask, keeps the whole table from being loaded; one that nft reads in another way, such as a network
with a zero in front of its length, is another network in the table (`Rules.asRead`).
-/

namespace QubesSnitch.Nft

/-- A source map from dom0 and, for each source in it, rules from an accepted file, with addresses for their names. -/
structure Accepted (sv : Services) (lib : DnsPython) (defaultDisposableVmName : String) (sources : SourceMap)
    (rules : Rules) : Prop where
  parsed : ∃ text sourceName, parseSourcesOutput text sourceName defaultDisposableVmName = .ok sources
  validated : ∀ s ∈ sources.byName.keys, ∃ path entries data sourceRules,
    validateRuleFile sv lib path entries = .ok data ∧ rules.get? s = some sourceRules ∧
      sourceRules.ip.map FlowRule.stored = data.rules4 ∧ sourceRules.dns = data.dns ∧
      ∀ rule ∈ sourceRules.ip, ∀ qname ips, rule.dest = .dns qname ips → ∃ x xs, ips = some (x :: xs)

variable {sv : Services} {lib : DnsPython} {dflt : String} {sources : SourceMap} {rules : Rules}

theorem Accepted.consistent (h : Accepted sv lib dflt sources rules) : sources.Consistent dflt := by
  obtain ⟨text, sourceName, htext⟩ := h.parsed
  exact parseSourcesOutput_consistent htext

theorem Accepted.known (h : Accepted sv lib dflt sources rules) : Known sv sources.byName rules := by
  intro s hs
  obtain ⟨path, entries, data, sourceRules, hdata, hget, hstored, -, hresolved⟩ := h.validated s hs
  refine ⟨sourceRules, hget, fun rule hrule => ⟨?_, hresolved rule hrule⟩⟩
  have hmem : rule.stored ∈ data.rules4 := hstored ▸ List.mem_map_of_mem hrule
  exact FlowRule.valid_stored.1 ((validateRuleFile_valid hdata).rules4 _ hmem).1

/-- Sound rules are accepted: the file that holds them passes. -/
theorem accepted_of_sound {text sourceName : String} (htext : parseSourcesOutput text sourceName dflt = .ok sources)
    (h : ∀ s ∈ sources.byName.keys, ∃ sourceRules, rules.get? s = some sourceRules ∧ sourceRules.Sound sv) :
    Accepted sv lib dflt sources rules := by
  refine ⟨⟨text, sourceName, htext⟩, fun s hs => ?_⟩
  obtain ⟨sourceRules, hget, hsound⟩ := h s hs
  exact ⟨"", _, _, sourceRules, validateRuleFile_dump lib "" hsound.valid_stored, hget, rfl, rfl,
    fun rule hrule => (hsound.usable rule hrule).resolved⟩

/-! ### A sample -/

namespace Sample

open QubesSnitch.Sample

def workRules (ip : List FlowRule) : Rules := ⟨[("work", ⟨ip, []⟩)], by simp⟩

def rule (dest : Dest) (port : String) (action : Action) : FlowRule := ⟨.str "no PTR", dest, .tcp, port, action⟩

/-- A network that Python reads and nft does not. -/
def netmask : NetworkText where
  value := .str "10.0.0.0/255.0.0.0"
  cidr := ⟨⟨10, 0, 0, 0⟩, 8, by omega⟩
  parses := by decide +kernel
  narrow := by decide

def packet (saddr daddr : IPv4) (ctState : CtState) (ctDirection : CtDirection) : Packet where
  iifname := "vif7.0"
  daddrIsLocal := false
  addrs := some (saddr, daddr)
  proto := .flow .tcp
  sport := 443
  dport := 443
  ctState := ctState
  ctDirection := ctDirection

def request (source : String) (src : IPv4) : Request where
  src := src
  dst := server
  proto := .flow .tcp
  dport := some 443
  source := source
  displaySource := source

theorem usable {dest : Dest} {port : String} {action : Action} (hport : port = "any" ∨ port = "443")
    (hdest : ∀ qname ips, dest ≠ .dns qname ips) : (rule dest port action).Usable .empty := by
  refine ⟨⟨?_, by simp [rule], fun qname ips h => absurd h (hdest qname ips)⟩,
    fun qname ips h => absurd h (hdest qname ips)⟩
  rcases hport with rfl | rfl
  · exact ⟨.any, rfl⟩
  · exact ⟨.one 443, (by decide +kernel : normalizePort .empty (.str "443") .tcp = .ok (.one 443))⟩

theorem accepted {ip : List FlowRule} (h : ∀ rule ∈ ip, rule.Usable .empty) :
    Accepted .empty dnspython "default-dvm" oneVm (workRules ip) := by
  refine accepted_of_sound parse_oneVm fun s hs => ?_
  obtain rfl : s = "work" := by simpa [oneVm, Dict.keys] using hs
  exact ⟨⟨ip, []⟩, rfl, h, by simp⟩

/-- The sample with one allow rule for everything. -/
theorem accepted_allow : Accepted .empty dnspython "default-dvm" oneVm (workRules [rule .any "any" .allow]) :=
  accepted (by simpa using usable (.inl rfl) (by simp))

/-- The sample with a rule for a network that nft cannot read. -/
theorem accepted_netmask :
    Accepted .empty dnspython "default-dvm" oneVm (workRules [rule (.network netmask) "any" .allow]) :=
  accepted (by simpa using usable (.inl rfl) (by simp))

/-- A reject for one server in front of a broad allow. -/
def rejectThenAllow : List FlowRule := [rule (.network (.host server)) "443" .reject, rule .any "any" .allow]

/-- A reject for one server, and an allow for a network that it is not in. -/
def rejectThenInner : List FlowRule :=
  [rule (.network (.host server)) "443" .reject, rule (.network (.ofCidr ⟨⟨10, 0, 0, 0⟩, 8, by decide⟩ (by decide))) "any" .allow]

theorem accepted_rejectThenInner : Accepted .empty dnspython "default-dvm" oneVm (workRules rejectThenInner) := by
  refine accepted fun r hr => ?_
  rcases List.mem_pair.1 hr with rfl | rfl
  · exact usable (.inr rfl) (by simp)
  · exact usable (.inl rfl) (by simp)

theorem accepted_rejectThenAllow : Accepted .empty dnspython "default-dvm" oneVm (workRules rejectThenAllow) := by
  refine accepted fun r hr => ?_
  rcases List.mem_pair.1 hr with rfl | rfl
  · exact usable (.inr rfl) (by simp)
  · exact usable (.inl rfl) (by simp)

end Sample

/-! ### Verdicts and paths -/

namespace Rendered

variable {table : Table} (h : Rendered sv sources rules table) {hook : Hook} {packet : Packet}

/-- The rules that a packet meets at a hook. -/
abbrev hookHits (table : Table) (hook : Hook) (packet : Packet) : List (Hit Table.Limiter Verdict) :=
  table.hits packet Table.maxJumpDepth (hookChain hook).1

include h

theorem eval_eq (lim : Table.Limiter → Bool) : table.eval lim hook packet =
    if policyReadable sources.byName rules then
      some ((Hit.decide lim (hookHits table hook packet)).getD (hookChain hook).2) else none := by
  rw [Table.eval, h.loads, h.base]
  cases policyReadable sources.byName rules
  · rfl
  · simp [Table.evalChain_eq_decide]

/-- With every limiter under its rate, a packet gets the first verdict of its path. -/
theorem allUnder_eq (hread : policyReadable sources.byName rules) :
    Hit.allUnder (hookHits table hook packet) = (hookPath sv sources rules hook packet).head? := by
  rw [← Hit.decide_true, ← Table.evalChain_eq_decide, h.walk hread]
  cases hookPath sv sources rules hook packet <;> simp [limited]

/-- With every limiter over its rate, a packet gets the first verdict that is no reject. -/
theorem allOver_eq (hread : policyReadable sources.byName rules) :
    Hit.allOver (hookHits table hook packet) =
      (hookPath sv sources rules hook packet).find? fun v => v ≠ .reject := by
  rw [← Hit.decide_false, ← Table.evalChain_eq_decide, h.walk hread]
  induction hookPath sv sources rules hook packet with
  | nil => rfl
  | cons v path ih =>
    rw [List.findSome?_cons, List.find?_cons, ih]
    cases v <;> rfl

end Rendered

theorem softAvoids_hits (table : Table) (hook : Hook) (packet : Packet) {v : Verdict} (hv : v ≠ .reject) :
    Hit.SoftAvoids v (Rendered.hookHits table hook packet) := by
  intro p w hmem he
  subst he
  exact hv (table.soft_hits packet hmem)

/-! ### Answers of the policy -/

/-- A request about traffic of `source` with the remote end `remote`, `port`, as packet handling asks it. -/
structure Asks (request : Request) (source : String) (remote : IPv4) (proto : FlowProto) (port : Nat) : Prop where
  source : request.source = source
  kind : request.kind = .flow
  dst : request.dst = remote
  dport : request.dport = if proto = .icmp then none else some port
  proto : request.proto = .flow proto

theorem Asks.hasFlow {request : Request} {source : String} {remote : IPv4} {proto : FlowProto} {port : Nat}
    (h : Asks request source remote proto port) : request.HasFlow ⟨remote, proto, remotePort proto port⟩ := by
  refine ⟨h.dst, h.proto, ?_⟩
  unfold requestPort remotePort
  rw [h.dport]
  by_cases hp : proto = .icmp
  · simp [hp]
  · cases port <;> simp [hp]

theorem Known.asRead (h : Known sv sources.byName rules) : Known sv sources.byName rules.asRead := by
  intro s hs
  obtain ⟨sourceRules, hget, hu⟩ := h s hs
  exact ⟨sourceRules.asRead, by rw [Rules.get?_asRead, hget]; rfl, hu.asRead⟩

/-- The answer of the policy. -/
private theorem Known.matchingAction {source : String} (hk : Known sv sources.byName rules)
    (hs : source ∈ sources.byName.keys) {request : Request} {remote : IPv4} {proto : FlowProto} {port : Nat}
    (hr : Asks request source remote proto port) : matchingAction sv request rules =
      .ok (firstAction sv (rules.ofSource source).ip ⟨remote, proto, remotePort proto port⟩) := by
  obtain ⟨sourceRules, hget, hu⟩ := hk source hs
  rw [matchingAction_flow (hr.source ▸ hget) hu hr.hasFlow hr.kind, Rules.ofSource, hget]
  rfl

/-- What the rules of a source answer to a flow. -/
def flowAnswer (sv : Services) (rules : Rules) (source : String) (flow : Option Flow) : Option Action :=
  flow.bind (firstAction sv (rules.ofSource source).ip)

/-- The rules of a chain answer as the policy with the networks that nft reads. -/
theorem matched_head? (sv : Services) (rules : Rules) (source : String) (flow : Option Flow) :
    (matched sv (rules.ofSource source).ip flow).head? = (flowAnswer sv rules.asRead source flow).map Action.verdict := by
  cases flow with
  | none => simp [matched, flowAnswer]
  | some flow =>
    simp [matched, flowAnswer, firstAction, Rules.ofSource_asRead, SourceRules.asRead, List.head?_filter, Option.map_map,
      Function.comp_def, List.find?_map]

/-- Whether nft reads the destinations in the rules of every source as the checks do. -/
def policyAlike (sources : SourcesByName) (rules : Rules) : Bool :=
  sources.keys.all fun source => (rules.ofSource source).ip.all fun rule => readAlike rule.dest

theorem policyAlike_rule {sources : SourcesByName} (h : policyAlike sources rules) {source : String}
    (hs : source ∈ sources.keys) {rule : FlowRule} (hrule : rule ∈ (rules.ofSource source).ip) : readAlike rule.dest :=
  List.all_eq_true.1 (List.all_eq_true.1 h source hs) rule hrule

theorem policyReadable_of_alike {sources : SourcesByName} (h : policyAlike sources rules) :
    policyReadable sources rules :=
  List.all_eq_true.2 fun _ hs => List.all_eq_true.2 fun _ hrule => readable_of_alike (policyAlike_rule h hs hrule)

/-- Rules that nft reads as they are meant answer alike. -/
theorem flowAnswer_asRead {sources : SourcesByName} (h : policyAlike sources rules) {source : String}
    (hs : source ∈ sources.keys) (flow : Option Flow) :
    flowAnswer sv rules.asRead source flow = flowAnswer sv rules source flow := by
  cases flow with
  | none => rfl
  | some flow =>
    rw [flowAnswer, Rules.ofSource_asRead, Option.bind_some, firstAction_asRead fun _ => policyAlike_rule h hs]
    rfl

/-- The request about the traffic of a source with a remote end, as packet handling makes it. -/
def flowRequest (source : String) (ip remote : IPv4) (proto : Proto) (port : Nat) : Request where
  src := ip
  dst := remote
  proto := proto
  dport := if proto = .flow .icmp then none else some port
  source := source
  displaySource := source

/-- What there is to ask the policy about a forwarded packet: the flow that a reply to a known VM answers, and the flow
of a known sender. -/
def packetRequests (sources : SourceMap) (packet : Packet) : List Request :=
  match packet.addrs with
  | none => []
  | some (saddr, daddr) =>
    (if IsReply packet then (sources.byIp.get? daddr).toList.map fun source =>
        flowRequest source daddr saddr packet.proto packet.sport else []) ++
      (sources.byIp.get? saddr).toList.map fun source => flowRequest source saddr daddr packet.proto packet.dport

/-- The action of the first rule of the policy that a forwarded packet matches. -/
def policyAnswer (sv : Services) (sources : SourceMap) (rules : Rules) (packet : Packet) :
    Except PyError (Option Action) :=
  (packetRequests sources packet).findSomeM? fun request => matchingAction sv request rules

/-- A protocol without rules has no answer. -/
private theorem firstFlowAction_number {request : Request} {k : Nat} (h : request.proto = .number k)
    (rules : List FlowRule) : firstFlowAction sv request rules = .ok none := by
  induction rules with
  | nil => rfl
  | cons rule rules ih =>
    have hne : request.proto ≠ .flow rule.proto := by simp [h]
    rw [firstFlowAction, flowRuleMatches, if_pos hne, ih]
    rfl

private theorem Known.matchingAction_flowRequest {source : String} (hk : Known sv sources.byName rules)
    (hs : source ∈ sources.byName.keys) (ip remote : IPv4) (packet : Packet) (port : Nat) :
    QubesSnitch.matchingAction sv (flowRequest source ip remote packet.proto port) rules =
      .ok (flowAnswer sv rules source (flowTo packet remote port)) := by
  cases hproto : packet.proto with
  | flow proto =>
    rw [hk.matchingAction hs (⟨rfl, rfl, rfl, by simp [flowRequest], rfl⟩ : Asks (flowRequest source ip remote
      (.flow proto) port) source remote proto port), flowAnswer, flowTo, hproto]
    rfl
  | number k =>
    obtain ⟨sourceRules, hget, -⟩ := hk source hs
    have hget : rules.get? (flowRequest source ip remote (.number k) port).source = some sourceRules := hget
    rw [QubesSnitch.matchingAction, hget, flowAnswer, flowTo, hproto]
    exact firstFlowAction_number rfl sourceRules.ip

/-- The answer to a forwarded packet: that of the VM that a reply is for, or else that of the sender. -/
theorem Known.policyAnswer_eq (hk : Known sv sources.byName rules) (hm : sources.Consistent dflt) {packet : Packet}
    {saddr daddr : IPv4} (ha : packet.addrs = some (saddr, daddr)) : policyAnswer sv sources rules packet =
      .ok ((if IsReply packet then (sources.byIp.get? daddr).bind fun source =>
          flowAnswer sv rules source (answered packet saddr) else none).or
        ((sources.byIp.get? saddr).bind fun source => flowAnswer sv rules source (outgoing packet daddr))) := by
  have hasks : ∀ {x : IPv4} {source : String}, sources.byIp.get? x = some source → ∀ ip remote port,
      QubesSnitch.matchingAction sv (flowRequest source ip remote packet.proto port) rules =
        .ok (flowAnswer sv rules source (flowTo packet remote port)) := fun hx ip remote port => by
    obtain ⟨ips, hips, -⟩ := (hm.byIp_iff _ _).1 hx
    exact hk.matchingAction_flowRequest (Dict.mem_keys_of_get? hips) ip remote packet port
  have hsender : ((sources.byIp.get? saddr).toList.map fun source => flowRequest source saddr daddr packet.proto
      packet.dport).findSomeM? (fun request => QubesSnitch.matchingAction sv request rules) =
        .ok ((sources.byIp.get? saddr).bind fun source => flowAnswer sv rules source (outgoing packet daddr)) := by
    cases hs : sources.byIp.get? saddr with
    | none => rfl
    | some source =>
      simp only [Option.toList_some, List.map_cons, List.map_nil, List.findSomeM?_cons, hasks hs, Option.bind_some,
        outgoing]
      cases flowAnswer sv rules source (flowTo packet daddr packet.dport) <;> rfl
  rw [policyAnswer, packetRequests, ha]
  by_cases hr : IsReply packet
  · simp only [if_pos hr]
    cases hd : sources.byIp.get? daddr with
    | none => exact hsender
    | some source =>
      simp only [Option.toList_some, List.map_cons, List.map_nil, List.singleton_append, List.findSomeM?_cons, hasks hd,
        Option.bind_some, answered]
      cases flowAnswer sv rules source (flowTo packet saddr packet.sport) with
      | none => exact hsender
      | some action => rfl
  · simp only [if_neg hr]
    exact hsender

/-! ### Limiters -/

/-- Which limiters are exhausted makes no difference to whether the packet is accepted.  In particular a forwarded
packet whose first matching policy rule is a reject, and a packet from a VM to a local address, are never accepted. -/
structure LimiterSafe (sv : Services) (sources : SourceMap) (rules : Rules) (table : Table) (hook : Hook)
    (packet : Packet) : Prop where
  stable : ∀ lim lim', table.eval lim hook packet = some .accept ↔ table.eval lim' hook packet = some .accept
  reject : hook = .forward → policyAnswer sv sources rules packet = .ok (some .reject) →
    ∀ lim, table.eval lim hook packet ≠ some .accept
  vif : hook = .input → packet.daddrIsLocal → "vif".toList.isPrefixOf packet.iifname.toList →
    ∀ lim, table.eval lim hook packet ≠ some .accept

/-- A path that begins with a reject, behind which the next other verdict is an accept. -/
def ShadowedAccept (path : List Verdict) : Prop :=
  path.head? = some .reject ∧ path.find? (fun v => v ≠ .reject) = some .accept

/-- The packets that pass alike whatever the limiters do: no reject shadows an accept, and where the policy rejects the
packet, the rules that the packet meets do not begin with an accept, as they may for a sender in the chain of another VM
or for a network that nft reads in another way. -/
def LimiterFree (sv : Services) (sources : SourceMap) (rules : Rules) (packet : Packet) : Hook → Prop
  | .forward => ¬ ShadowedAccept (policyPath sv sources rules packet) ∧
    (policyAnswer sv sources rules packet = .ok (some .reject) →
      (policyPath sv sources rules packet).head? ≠ some .accept)
  | .input => ¬ (packet.daddrIsLocal ∧ "vif".toList.isPrefixOf packet.iifname.toList)

theorem not_shadowed_iff {path : List Verdict} : ¬ ShadowedAccept path ↔
    (path.find? (fun v => v ≠ .reject) = some .accept → path.head? = some .accept) := by
  unfold ShadowedAccept
  cases path with
  | nil => simp
  | cons v path => cases v <;> simp

private theorem allUnder_eq_none {hs : List (Hit Table.Limiter Verdict)} (h : Hit.allUnder hs = none) : hs = [] := by
  cases hs with
  | nil => rfl
  | cons hit hs => cases h

private theorem Rendered.forward_safe_iff {table : Table} (h : Rendered sv sources rules table) {packet : Packet}
    (hread : policyReadable sources.byName rules) :
    LimiterSafe sv sources rules table .forward packet ↔ LimiterFree sv sources rules packet .forward := by
  have hsoft : Hit.SoftAvoids .accept (hookHits table .forward packet) :=
    softAvoids_hits table .forward packet (by decide)
  have heval : ∀ lim, table.eval lim .forward packet = some .accept ↔
      Hit.decide lim (hookHits table .forward packet) = some .accept := by
    intro lim
    rw [h.eval_eq, if_pos hread]
    cases Hit.decide lim (hookHits table .forward packet) <;> simp [hookChain]
  have hunder : Hit.allUnder (hookHits table .forward packet) = (policyPath sv sources rules packet).head? :=
    h.allUnder_eq hread
  have hstable : (∀ lim lim', table.eval lim .forward packet = some .accept ↔
      table.eval lim' .forward packet = some .accept) ↔ ¬ ShadowedAccept (policyPath sv sources rules packet) := by
    have hiff := Hit.accept_stable_iff hsoft
    rw [hunder, h.allOver_eq hread] at hiff
    rw [not_shadowed_iff]
    simp only [heval]
    exact hiff
  -- with all limiters under their rate, a packet is accepted where its path begins with an accept
  have htrue : table.eval (fun _ => true) .forward packet = some .accept ↔
      (policyPath sv sources rules packet).head? = some .accept := by
    rw [heval, Hit.decide_true, hunder]
  constructor
  · intro hsafe
    refine ⟨hstable.1 hsafe.stable, fun hreject haccept => ?_⟩
    exact hsafe.reject rfl hreject _ (htrue.2 haccept)
  · rintro ⟨hfree, hanswer⟩
    have hstable := hstable.2 hfree
    refine ⟨hstable, fun _ hreject lim haccept => ?_, fun he => by cases he⟩
    exact hanswer hreject (htrue.1 ((hstable lim _).1 haccept))

private theorem Rendered.input_safe_iff {table : Table} (h : Rendered sv sources rules table) {packet : Packet}
    (hread : policyReadable sources.byName rules) : LimiterSafe sv sources rules table .input packet ↔
      ¬ (packet.daddrIsLocal ∧ "vif".toList.isPrefixOf packet.iifname.toList) := by
  have hunder : Hit.allUnder (hookHits table .input packet) = (hookPath sv sources rules .input packet).head? :=
    h.allUnder_eq hread
  have hover : Hit.allOver (hookHits table .input packet) =
      (hookPath sv sources rules .input packet).find? fun v => v ≠ .reject := h.allOver_eq hread
  by_cases hlocal : packet.daddrIsLocal ∧ "vif".toList.isPrefixOf packet.iifname.toList
  · have hin : hookPath sv sources rules .input packet = [.reject] := by
      rw [hookPath, inputPath, if_pos (by rw [hlocal.1, hlocal.2]; rfl)]
    rw [hin] at hover
    refine iff_of_false (fun hsafe => ?_) (not_not.2 hlocal)
    refine hsafe.vif rfl hlocal.1 hlocal.2 (fun _ => false) ?_
    rw [h.eval_eq, if_pos hread, Hit.decide_false, hover]
    rfl
  · have hin : hookPath sv sources rules .input packet = [] := by
      rw [hookPath, inputPath, if_neg]
      rw [Bool.and_eq_true]
      exact fun hand => hlocal ⟨hand.2, hand.1⟩
    rw [hin] at hunder
    have haccept : ∀ lim, table.eval lim .input packet = some .accept := fun lim => by
      rw [h.eval_eq, if_pos hread, allUnder_eq_none hunder]
      rfl
    refine iff_of_true ⟨fun lim lim' => by rw [haccept, haccept], ?_, ?_⟩ hlocal
    · exact fun he => by cases he
    · exact fun _ hl hv => absurd ⟨hl, hv⟩ hlocal

theorem Rendered.limiterSafe_iff {table : Table} (h : Rendered sv sources rules table) (hook : Hook) (packet : Packet) :
    LimiterSafe sv sources rules table hook packet ↔
      (policyReadable sources.byName rules → LimiterFree sv sources rules packet hook) := by
  by_cases hread : policyReadable sources.byName rules
  · cases hook with
    | forward => rw [h.forward_safe_iff hread]; exact ⟨fun hf _ => hf, fun hf => hf hread⟩
    | input => rw [h.input_safe_iff hread]; exact ⟨fun hf _ => hf, fun hf => hf hread⟩
  · have hnone : ∀ lim, table.eval lim hook packet = none := fun lim => by rw [h.eval_eq, if_neg hread]
    refine iff_of_true ⟨fun lim lim' => by rw [hnone, hnone], ?_, ?_⟩ fun hr => absurd hr hread
    · exact fun _ _ lim he => by rw [hnone] at he; cases he
    · exact fun _ _ _ lim he => by rw [hnone] at he; cases he

/-- Whether a packet is accepted is independent of the limiters exactly if no reject in its path shadows an accept, and
what the policy rejects is never accepted exactly if its path does not begin with an accept either. -/
theorem accept_limiter_iff (h : Accepted sv lib dflt sources rules) (config : Config) (nftTable : String)
    (queueNum : Nat) (hook : Hook) (packet : Packet) :
    ∃ table, renderNft sv sources.byName rules config nftTable queueNum = .ok table ∧
      (LimiterSafe sv sources rules table hook packet ↔
        (policyReadable sources.byName rules → LimiterFree sv sources rules packet hook)) := by
  obtain ⟨table, htable, hspec⟩ := renderNft_spec h.consistent h.known config nftTable queueNum
  exact ⟨table, htable, hspec.limiterSafe_iff hook packet⟩

/-- A reject with an allow for another network behind it holds whatever the limiters do. -/
theorem accept_limiter_reject : ∃ table,
    renderNft .empty Sample.oneVm.byName (Sample.workRules Sample.rejectThenInner) Sample.config "snitch" 0 = .ok table ∧
      LimiterSafe .empty Sample.oneVm (Sample.workRules Sample.rejectThenInner) table .forward
        (Sample.packet Sample.work Sample.server .new .original) := by
  obtain ⟨table, htable, hiff⟩ := accept_limiter_iff Sample.accepted_rejectThenInner Sample.config "snitch" 0 .forward
    (Sample.packet Sample.work Sample.server .new .original)
  have hpath : policyPath .empty Sample.oneVm (Sample.workRules Sample.rejectThenInner)
      (Sample.packet Sample.work Sample.server .new .original) = [.reject, .queue] := by decide +kernel
  refine ⟨table, htable, hiff.2 fun _ => ⟨?_, fun _ => ?_⟩⟩
  · rw [ShadowedAccept, hpath]
    decide
  · rw [hpath]
    decide

/-- With a broad allow behind it, a reject holds only until its limiter is exhausted. -/
theorem reject_lets_through : ∃ table,
    renderNft .empty Sample.oneVm.byName (Sample.workRules Sample.rejectThenAllow) Sample.config "snitch" 0 =
      .ok table ∧
    policyAnswer .empty Sample.oneVm (Sample.workRules Sample.rejectThenAllow)
      (Sample.packet Sample.work Sample.server .new .original) = .ok (some .reject) ∧
    table.eval (fun _ => true) .forward (Sample.packet Sample.work Sample.server .new .original) = some .reject ∧
    table.eval (fun _ => false) .forward (Sample.packet Sample.work Sample.server .new .original) = some .accept := by
  have h := Sample.accepted_rejectThenAllow
  obtain ⟨table, htable, hspec⟩ := renderNft_spec h.consistent h.known Sample.config "snitch" 0
  have hread : policyReadable Sample.oneVm.byName (Sample.workRules Sample.rejectThenAllow) := by decide +kernel
  have hpath : policyPath .empty Sample.oneVm (Sample.workRules Sample.rejectThenAllow)
      (Sample.packet Sample.work Sample.server .new .original) = [.reject, .accept, .queue] := by decide +kernel
  refine ⟨table, htable, by decide +kernel, ?_, ?_⟩
  · rw [hspec.eval_eq, if_pos hread, Hit.decide_true, hspec.allUnder_eq hread, hookPath, hpath]
    rfl
  · rw [hspec.eval_eq, if_pos hread, Hit.decide_false, hspec.allOver_eq hread, hookPath, hpath]
    rfl

/-! ### Outgoing traffic -/

/-- The verdict that stands for a policy answer. -/
def policyVerdict : Option Action → Verdict
  | some action => action.verdict
  | none => .queue

/-- The chain of the source decides as the policy does: DNS is queued, and apart from that the packet is accepted
exactly on `allow`, rejected exactly on `reject`, and queued exactly where there is no answer. -/
def ForwardAgrees (table : Table) (packet : Packet) (action : Option Action) : Prop :=
  if IsDns packet then table.eval (fun _ => true) .forward packet = some .queue
  else (table.eval (fun _ => true) .forward packet = some .accept ↔ action = some .allow) ∧
    (table.eval (fun _ => true) .forward packet = some .reject ↔ action = some .reject) ∧
    (table.eval (fun _ => true) .forward packet = some .queue ↔ action = none)

private theorem Rendered.eval_under {table : Table} (h : Rendered sv sources rules table) {packet : Packet}
    (hread : policyReadable sources.byName rules) : table.eval (fun _ => true) .forward packet =
      some ((policyPath sv sources rules packet).head?.getD .drop) := by
  rw [h.eval_eq, if_pos hread, Hit.decide_true, h.allUnder_eq hread]
  rfl

/-- What an unanswered packet of a known source gets. -/
theorem Rendered.eval_outgoing {table : Table} (h : Rendered sv sources rules table)
    (hread : policyReadable sources.byName rules) {packet : Packet} {saddr daddr : IPv4}
    (ha : packet.addrs = some (saddr, daddr)) {source : String} (hs : sources.byIp.get? saddr = some source)
    (horig : packet.ctDirection = .original) (hvalid : packet.ctState ≠ .invalid) {proto : FlowProto}
    (hproto : packet.proto = .flow proto) : table.eval (fun _ => true) .forward packet =
      some (if IsDns packet then .queue else policyVerdict (firstAction sv
        (rules.asRead.ofSource (chainOwner sources.byName source)).ip ⟨daddr, proto, remotePort proto packet.dport⟩)) := by
  have hreply : ¬ IsReply packet := fun hr => by
    rw [IsReply, horig] at hr
    cases hr.2
  have hout : outgoing packet daddr = some ⟨daddr, proto, remotePort proto packet.dport⟩ := by
    rw [outgoing, flowTo, hproto]
  have hnone : replyPath sv sources rules packet saddr daddr = [] := by
    unfold replyPath
    cases sources.byIp.get? daddr <;> simp [hreply]
  have hpath : policyPath sv sources rules packet =
      chainPath sv rules (chainOwner sources.byName source) packet daddr := by
    unfold policyPath senderPath
    rw [ha]
    simp only [hs, hnone, List.nil_append]
  rw [h.eval_under hread, hpath, chainPath, if_neg hvalid, List.nil_append, List.head?_append]
  by_cases hdns : IsDns packet
  · simp [hdns]
  · rw [if_neg hdns, if_neg hdns, hout, matched_head?, flowAnswer, Option.bind_some]
    cases firstAction sv (rules.asRead.ofSource (chainOwner sources.byName source)).ip
      ⟨daddr, proto, remotePort proto packet.dport⟩ <;> rfl

private theorem forwardAgrees_iff {table : Table} {packet : Packet} {action action' : Option Action}
    (heval : table.eval (fun _ => true) .forward packet =
      some (if IsDns packet then .queue else policyVerdict action')) :
    ForwardAgrees table packet action ↔ IsDns packet ∨ action' = action := by
  unfold ForwardAgrees
  by_cases hdns : IsDns packet
  · simp [hdns, heval]
  · rw [if_neg hdns, heval, if_neg hdns]
    rcases action with _ | _ | _ <;> rcases action' with _ | _ | _ <;>
      simp [hdns, policyVerdict, Action.verdict]

/-- The kernel and the policy agree on a packet of a known source exactly if nft takes the table and the packet is DNS
or gets the same answer from the source that owns the chain, with the networks that nft reads. -/
theorem forward_agrees_iff (h : Accepted sv lib dflt sources rules) (config : Config) (nftTable : String)
    (queueNum : Nat) {packet : Packet} {saddr daddr : IPv4} (ha : packet.addrs = some (saddr, daddr))
    {source : String} (hs : sources.byIp.get? saddr = some source) (horig : packet.ctDirection = .original)
    (hvalid : packet.ctState ≠ .invalid) {proto : FlowProto} (hproto : packet.proto = .flow proto)
    {request : Request} (hr : Asks request source daddr proto packet.dport) :
    ∃ table action, renderNft sv sources.byName rules config nftTable queueNum = .ok table ∧
      matchingAction sv request rules = .ok action ∧
      (ForwardAgrees table packet action ↔ policyReadable sources.byName rules ∧ (IsDns packet ∨
        matchingAction sv { request with source := chainOwner sources.byName source } rules.asRead = .ok action)) := by
  obtain ⟨table, htable, hspec⟩ := renderNft_spec h.consistent h.known config nftTable queueNum
  obtain ⟨ips, hips, -⟩ := (h.consistent.byIp_iff saddr source).1 hs
  have hkey := Dict.mem_keys_of_get? hips
  have hasks : Asks { request with source := chainOwner sources.byName source } (chainOwner sources.byName source) daddr
      proto packet.dport := ⟨rfl, hr.kind, hr.dst, hr.dport, hr.proto⟩
  have howner := h.known.asRead.matchingAction (chainOwner_mem hkey) hasks
  refine ⟨table, _, htable, h.known.matchingAction hkey hr, ?_⟩
  rw [howner, Except.ok.injEq]
  by_cases hread : policyReadable sources.byName rules
  · rw [forwardAgrees_iff (hspec.eval_outgoing hread ha hs horig hvalid hproto)]
    simp [hread]
  · have hnone : table.eval (fun _ => true) .forward packet = none := by rw [hspec.eval_eq, if_neg hread]
    refine iff_of_false ?_ fun hand => hread hand.1
    unfold ForwardAgrees
    rw [hnone]
    rcases firstAction sv (rules.ofSource source).ip ⟨daddr, proto, remotePort proto packet.dport⟩ with _ | _ | _ <;>
      by_cases hdns : IsDns packet <;> simp [hdns]

theorem forward_agrees_allow : ∃ table action,
    renderNft .empty Sample.oneVm.byName (Sample.workRules [Sample.rule .any "any" .allow]) Sample.config "snitch" 0 =
      .ok table ∧
    matchingAction .empty (Sample.request "work" Sample.work) (Sample.workRules [Sample.rule .any "any" .allow]) =
      .ok action ∧
    ForwardAgrees table (Sample.packet Sample.work Sample.server .new .original) action := by
  have hasks : Asks (Sample.request "work" Sample.work) "work" Sample.server .tcp 443 := ⟨rfl, rfl, rfl, rfl, rfl⟩
  obtain ⟨table, action, htable, haction, hiff⟩ := @forward_agrees_iff _ _ _ _ _ Sample.accepted_allow Sample.config
    "snitch" 0 (Sample.packet Sample.work Sample.server .new .original) _ _ rfl "work" rfl rfl (by decide) _ rfl _ hasks
  have hread : matchingAction .empty { Sample.request "work" Sample.work with source := chainOwner Sample.oneVm.byName "work" }
      (Sample.workRules [Sample.rule .any "any" .allow]).asRead = .ok (some .allow) := by decide +kernel
  have hallow : matchingAction .empty (Sample.request "work" Sample.work)
      (Sample.workRules [Sample.rule .any "any" .allow]) = .ok (some .allow) := by decide +kernel
  obtain rfl : some Action.allow = action := Except.ok.inj (hallow.symm.trans haction)
  exact ⟨table, _, htable, haction, hiff.2 ⟨by decide +kernel, .inr hread⟩⟩

namespace Sample

open QubesSnitch.Sample

/-- Two VMs whose chains have one name: the digests in it are the same four bytes. -/
def twoVms : SourceMap where
  byName := ⟨[("a.___----___b", [work]), ("a.-----...-_b", [server])], by simp⟩
  byIp := ⟨[(work, "a.___----___b"), (server, "a.-----...-_b")], by decide⟩
  labels := ⟨[("a.___----___b", "green"), ("a.-----...-_b", "red")], by simp⟩
  displayByIp := ⟨[(work, "a.___----___b"), (server, "a.-----...-_b")], by decide⟩

/-- The first may do everything, the second has no rules. -/
def twoRules : Rules := ⟨[("a.___----___b", ⟨[rule .any "any" .allow], []⟩), ("a.-----...-_b", ⟨[], []⟩)], by simp⟩

theorem accepted_twoVms : Accepted .empty dnspython "default-dvm" twoVms twoRules := by
  have htext : parseSourcesOutput "a.___----___b|10.137.0.5|green|AppVM|-\na.-----...-_b|1.2.3.4|red|AppVM|-"
      "dom0" "default-dvm" = .ok twoVms := by decide +kernel
  refine accepted_of_sound htext fun s hs => ?_
  have hs : s = "a.___----___b" ∨ s = "a.-----...-_b" := by simpa [twoVms, Dict.keys] using hs
  rcases hs with rfl | rfl
  · refine ⟨⟨[rule .any "any" .allow], []⟩, rfl, ?_, by simp⟩
    exact fun r hr => List.mem_singleton.1 hr ▸ usable (.inl rfl) (by simp)
  · exact ⟨⟨[], []⟩, rfl, .empty _⟩

end Sample

/-- The second VM has no rules and passes by those of the first. -/
theorem forward_disagrees : ∃ table,
    renderNft .empty Sample.twoVms.byName Sample.twoRules Sample.config "snitch" 0 = .ok table ∧
    matchingAction .empty (Sample.request "a.-----...-_b" Sample.server) Sample.twoRules = .ok none ∧
    table.eval (fun _ => true) .forward (Sample.packet Sample.server Sample.server .new .original) =
      some .accept := by
  have h := Sample.accepted_twoVms
  obtain ⟨table, htable, hspec⟩ := renderNft_spec h.consistent h.known Sample.config "snitch" 0
  refine ⟨table, htable, by decide +kernel, ?_⟩
  rw [hspec.eval_under (by decide +kernel)]
  decide +kernel

/-! ### Replies -/

/-- A reply is let through on `allow`, rejected on `reject`, and let through without an answer if it does not come from
a known source. -/
def ReplyAgrees (sources : SourceMap) (table : Table) (packet : Packet) (remote : IPv4) (action : Option Action) :
    Prop :=
  match action with
  | some action => table.eval (fun _ => true) .forward packet = some action.verdict
  | none => sources.byIp.get? remote = none → table.eval (fun _ => true) .forward packet = some .accept

theorem senderPath_head? (sv : Services) (sources : SourceMap) (rules : Rules) (packet : Packet) (saddr daddr : IPv4) :
    ∃ v, (senderPath sv sources rules packet saddr daddr).head? = some v := by
  rw [← Option.isSome_iff_exists, List.isSome_head?]
  unfold senderPath
  cases sources.byIp.get? saddr with
  | some source => simp [chainPath]
  | none => dsimp only; split <;> simp

/-- A reply meets the first mirrored rule that covers its flow for nft, and behind them what its sender meets. -/
private theorem Rendered.eval_reply {table : Table} (h : Rendered sv sources rules table)
    (hread : policyReadable sources.byName rules) {packet : Packet} {remote daddr : IPv4}
    (ha : packet.addrs = some (remote, daddr)) {source : String} (hs : sources.byIp.get? daddr = some source)
    (hreply : IsReply packet) {proto : FlowProto} (hproto : packet.proto = .flow proto) :
    table.eval (fun _ => true) .forward packet =
      ((firstAction sv (rules.asRead.ofSource source).ip ⟨remote, proto, remotePort proto packet.sport⟩).map
        Action.verdict).or (senderPath sv sources rules packet remote daddr).head? := by
  have hin : answered packet remote = some ⟨remote, proto, remotePort proto packet.sport⟩ := by
    rw [answered, flowTo, hproto]
  obtain ⟨v, hv⟩ := senderPath_head? sv sources rules packet remote daddr
  rw [h.eval_under hread]
  unfold policyPath
  rw [ha]
  simp only [replyPath, hs, if_pos hreply, hin]
  rw [List.head?_append, matched_head?, hv, flowAnswer, Option.bind_some]
  cases firstAction sv (rules.asRead.ofSource source).ip ⟨remote, proto, remotePort proto packet.sport⟩ <;> rfl

/-- Replies to a known VM are decided by its policy exactly if nft takes the table and, with the networks that it reads,
the first rule for the flow of the reply, or else what the sender of the reply meets, has the action of the policy; or
if nothing is promised: there is no answer, and the reply comes from a known source. -/
theorem reply_agrees_iff (h : Accepted sv lib dflt sources rules) (config : Config) (nftTable : String)
    (queueNum : Nat) {packet : Packet} {remote daddr : IPv4} (ha : packet.addrs = some (remote, daddr))
    {source : String} (hs : sources.byIp.get? daddr = some source) (hreply : IsReply packet) {proto : FlowProto}
    (hproto : packet.proto = .flow proto) {request : Request} (hr : Asks request source remote proto packet.sport) :
    ∃ table action read, renderNft sv sources.byName rules config nftTable queueNum = .ok table ∧
      matchingAction sv request rules = .ok action ∧ matchingAction sv request rules.asRead = .ok read ∧
      (ReplyAgrees sources table packet remote action ↔
        policyReadable sources.byName rules ∧
          (read.map Action.verdict).or (senderPath sv sources rules packet remote daddr).head? =
            some ((action.map Action.verdict).getD .accept) ∨
        action = none ∧ sources.byIp.get? remote ≠ none) := by
  obtain ⟨table, htable, hspec⟩ := renderNft_spec h.consistent h.known config nftTable queueNum
  obtain ⟨ips, hips, -⟩ := (h.consistent.byIp_iff daddr source).1 hs
  have hkey := Dict.mem_keys_of_get? hips
  refine ⟨table, _, _, htable, h.known.matchingAction hkey hr, h.known.asRead.matchingAction hkey hr, ?_⟩
  unfold ReplyAgrees
  by_cases hread : policyReadable sources.byName rules
  · rw [hspec.eval_reply hread ha hs hreply hproto]
    cases firstAction sv (rules.ofSource source).ip ⟨remote, proto, remotePort proto packet.sport⟩ with
    | some action => simp [hread]
    | none =>
      simp only [hread, Option.map_none, Option.getD_none, true_and]
      tauto
  · have hnone : table.eval (fun _ => true) .forward packet = none := by rw [hspec.eval_eq, if_neg hread]
    rw [hnone]
    cases firstAction sv (rules.ofSource source).ip ⟨remote, proto, remotePort proto packet.sport⟩ <;> simp [hread]

theorem reply_agrees_allow : ∃ table action,
    renderNft .empty Sample.oneVm.byName (Sample.workRules [Sample.rule .any "any" .allow]) Sample.config "snitch" 0 =
      .ok table ∧
    matchingAction .empty (Sample.request "work" Sample.work) (Sample.workRules [Sample.rule .any "any" .allow]) =
      .ok action ∧
    ReplyAgrees Sample.oneVm table (Sample.packet Sample.server Sample.work .established .reply) Sample.server
      action := by
  have hasks : Asks (Sample.request "work" Sample.work) "work" Sample.server .tcp 443 := ⟨rfl, rfl, rfl, rfl, rfl⟩
  obtain ⟨table, action, read, htable, haction, hread, hiff⟩ := @reply_agrees_iff _ _ _ _ _ Sample.accepted_allow
    Sample.config "snitch" 0 (Sample.packet Sample.server Sample.work .established .reply) _ _ rfl _ rfl (by decide) _
    rfl _ hasks
  have hallow : ∀ rules ∈ [Sample.workRules [Sample.rule .any "any" .allow],
      (Sample.workRules [Sample.rule .any "any" .allow]).asRead],
      matchingAction .empty (Sample.request "work" Sample.work) rules = .ok (some .allow) := by decide +kernel
  obtain rfl : some Action.allow = action := Except.ok.inj ((hallow _ (by simp)).symm.trans haction)
  obtain rfl : some Action.allow = read := Except.ok.inj ((hallow _ (by simp)).symm.trans hread)
  exact ⟨table, _, htable, haction, hiff.2 (.inl ⟨by decide +kernel, rfl⟩)⟩

/-- A network with a netmask is a rule for Python and an error for nft. -/
theorem reply_disagrees : ∃ table,
    renderNft .empty Sample.oneVm.byName (Sample.workRules [Sample.rule (.network Sample.netmask) "any" .allow])
      Sample.config "snitch" 0 = .ok table ∧
    matchingAction .empty { Sample.request "work" Sample.work with dst := ⟨10, 0, 0, 1⟩ }
      (Sample.workRules [Sample.rule (.network Sample.netmask) "any" .allow]) = .ok (some .allow) ∧
    table.eval (fun _ => true) .forward (Sample.packet ⟨10, 0, 0, 1⟩ Sample.work .established .reply) = none := by
  have h := Sample.accepted_netmask
  obtain ⟨table, htable, hspec⟩ := renderNft_spec h.consistent h.known Sample.config "snitch" 0
  refine ⟨table, htable, by decide +kernel, ?_⟩
  rw [hspec.eval_eq, if_neg (by decide +kernel)]

/-! ### Traffic from nowhere known -/

/-- A reply to a known source. -/
def RepliesToKnown (sources : SourceMap) (packet : Packet) (daddr : IPv4) : Prop :=
  IsReply packet ∧ sources.byIp.get? daddr ≠ none

/-- No traffic without a known source passes, whatever the limiters do: what is not IPv4 is neither accepted nor queued,
and IPv4 from an unknown address is accepted only as a reply to a known source and otherwise queued. -/
structure Guarded (sources : SourceMap) (table : Table) (packet : Packet) : Prop where
  foreign : packet.addrs = none → ∀ lim, table.eval lim .forward packet ≠ some .accept ∧
    table.eval lim .forward packet ≠ some .queue
  accepted : ∀ saddr daddr, packet.addrs = some (saddr, daddr) → sources.byIp.get? saddr = none →
    ∀ lim, table.eval lim .forward packet = some .accept → RepliesToKnown sources packet daddr
  queued : ∀ saddr daddr, packet.addrs = some (saddr, daddr) → sources.byIp.get? saddr = none →
    ¬ RepliesToKnown sources packet daddr → ∀ lim, table.eval lim .forward packet = some .queue

/-- A packet that is to be queued for the daemon to look at. -/
def Unattributed (sources : SourceMap) (packet : Packet) : Prop :=
  ∃ saddr daddr, packet.addrs = some (saddr, daddr) ∧ sources.byIp.get? saddr = none ∧
    ¬ RepliesToKnown sources packet daddr

theorem replyPath_eq_nil {packet : Packet} {saddr daddr : IPv4}
    (h : ¬ RepliesToKnown sources packet daddr) : replyPath sv sources rules packet saddr daddr = [] := by
  unfold replyPath
  cases hd : sources.byIp.get? daddr with
  | none => rfl
  | some source => exact if_neg fun hr => h ⟨hr, by simp [hd]⟩

private theorem Rendered.guarded {table : Table} (h : Rendered sv sources rules table)
    (hread : policyReadable sources.byName rules) (packet : Packet) : Guarded sources table packet := by
  have hqueue : ∀ saddr daddr, packet.addrs = some (saddr, daddr) → sources.byIp.get? saddr = none →
      ¬ RepliesToKnown sources packet daddr → ∀ lim, table.eval lim .forward packet = some .queue := by
    intro saddr daddr ha hs hnot lim
    have htail : ¬ (IsReply packet ∧ (sources.byIp.get? daddr).isSome) := fun hand =>
      hnot ⟨hand.1, Option.isSome_iff_ne_none.1 hand.2⟩
    have hpath : policyPath sv sources rules packet = [.queue] := by
      unfold policyPath senderPath
      rw [ha]
      simp only [hs, replyPath_eq_nil hnot, if_neg htail, List.nil_append]
    have hunder : Hit.allUnder (hookHits table .forward packet) = some .queue := by
      rw [h.allUnder_eq hread, hookPath, hpath, List.head?_cons]
    rw [h.eval_eq, if_pos hread, Hit.decide_of_allUnder (softAvoids_hits _ _ _ (by decide)) hunder]
    rfl
  refine ⟨?_, ?_, hqueue⟩
  · intro ha lim
    have hover : Hit.allOver (hookHits table .forward packet) = none := by
      rw [h.allOver_eq hread, hookPath, policyPath, ha]
      rfl
    have hne : ∀ v, v ≠ Verdict.reject → Hit.decide lim (hookHits table .forward packet) ≠ some v := fun v hv hd => by
      have := Hit.allOver_eq_of_decide (softAvoids_hits _ _ _ hv) hd
      rw [hover] at this
      cases this
    rw [h.eval_eq, if_pos hread]
    have haccept := hne .accept (by decide)
    have hqueued := hne .queue (by decide)
    revert haccept hqueued
    cases Hit.decide lim (hookHits table .forward packet) with
    | none => simp [hookChain]
    | some v => exact fun haccept hqueued => ⟨by simpa using haccept, by simpa using hqueued⟩
  · intro saddr daddr ha hs lim haccept
    by_contra hnot
    rw [hqueue saddr daddr ha hs hnot lim] at haccept
    cases haccept

/-- Traffic from nowhere known is held back exactly if nft takes the table, or if none of it is to be queued. -/
theorem unattributed_iff (h : Accepted sv lib dflt sources rules) (config : Config) (nftTable : String)
    (queueNum : Nat) (packet : Packet) :
    ∃ table, renderNft sv sources.byName rules config nftTable queueNum = .ok table ∧
      (Guarded sources table packet ↔ policyReadable sources.byName rules ∨ ¬ Unattributed sources packet) := by
  obtain ⟨table, htable, hspec⟩ := renderNft_spec h.consistent h.known config nftTable queueNum
  refine ⟨table, htable, ?_⟩
  by_cases hread : policyReadable sources.byName rules
  · exact iff_of_true (hspec.guarded hread packet) (.inl hread)
  · have hnone : ∀ lim, table.eval lim .forward packet = none := fun lim => by rw [hspec.eval_eq, if_neg hread]
    constructor
    · rintro hg
      refine .inr fun ⟨saddr, daddr, ha, hs, hnot⟩ => ?_
      have hq := hg.queued saddr daddr ha hs hnot fun _ => true
      rw [hnone] at hq
      cases hq
    · intro hor
      have hun : ¬ Unattributed sources packet := hor.resolve_left hread
      refine ⟨fun _ lim => by simp [hnone], fun _ _ _ _ lim he => ?_, fun saddr daddr ha hs hnot => ?_⟩
      · rw [hnone] at he
        cases he
      · exact absurd ⟨saddr, daddr, ha, hs, hnot⟩ hun

theorem unattributed_guarded : ∃ table,
    renderNft .empty Sample.oneVm.byName (Sample.workRules [Sample.rule .any "any" .allow]) Sample.config "snitch" 0 =
      .ok table ∧ Guarded Sample.oneVm table (Sample.packet Sample.server Sample.work .invalid .original) := by
  obtain ⟨table, htable, hiff⟩ := unattributed_iff Sample.accepted_allow Sample.config "snitch" 0
    (Sample.packet Sample.server Sample.work .invalid .original)
  exact ⟨table, htable, hiff.2 (.inl (by decide +kernel))⟩

/-- Where nft refuses the table, the packet of an unknown sender is not queued. -/
theorem unattributed_not_queued : ∃ table,
    renderNft .empty Sample.oneVm.byName (Sample.workRules [Sample.rule (.network Sample.netmask) "any" .allow])
      Sample.config "snitch" 0 = .ok table ∧ Sample.oneVm.byIp.get? Sample.server = none ∧
    ∀ lim, table.eval lim .forward (Sample.packet Sample.server Sample.work .new .original) ≠ some .queue := by
  have h := Sample.accepted_netmask
  obtain ⟨table, htable, hspec⟩ := renderNft_spec h.consistent h.known Sample.config "snitch" 0
  refine ⟨table, htable, rfl, fun lim => ?_⟩
  rw [hspec.eval_eq, if_neg (by decide +kernel)]
  simp

end QubesSnitch.Nft
