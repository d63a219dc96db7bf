import QubesSnitch.Nft.Lines

/-!
# The path of a packet through the rendered table

`policyPath` is the list of verdicts that the rules of a rendered table have for a packet, in the order in which the
packet meets them: the mirrored rules of the VM that a reply is for, and then the chain of the sending VM, or what is
left for an unknown sender.  On a table that nft can read, the walk with uniform limiters is the first verdict of this
path that is not passed over (`forward_walk`).

Two sources whose chains have one name share the chain of the one that comes first (`chainOwner`).  The rules of a path
are those that nft has, with the networks that it reads (`FlowRule.asRead`).
-/

namespace QubesSnitch.Nft

variable {sv : Services}

/-! ### Paths -/

/-- The verdicts of the rules that cover a flow for nft. -/
def matched (sv : Services) (rules : List FlowRule) (flow : Option Flow) : List Verdict :=
  (rules.filter fun rule => flow.any (rule.asRead.covers sv)).map fun rule => rule.action.verdict

/-- The source whose chain is the first with the name of the chain of `source`. -/
def chainOwner (sources : SourcesByName) (source : String) : String :=
  (sources.keys.find? fun owner => nftChainName owner = nftChainName source).getD source

/-- The verdicts in the chain of a source. -/
def chainPath (sv : Services) (rules : Rules) (source : String) (packet : Packet) (daddr : IPv4) : List Verdict :=
  (if packet.ctState = .invalid then [.reject] else []) ++
    (if IsDns packet then [] else matched sv (rules.ofSource source).ip (outgoing packet daddr)) ++ [.queue]

/-- The verdicts of the mirrored rules. -/
def replyPath (sv : Services) (sources : SourceMap) (rules : Rules) (packet : Packet) (saddr daddr : IPv4) :
    List Verdict :=
  match sources.byIp.get? daddr with
  | some source => if IsReply packet then matched sv (rules.ofSource source).ip (answered packet saddr) else []
  | none => []

/-- The verdicts behind the mirrored rules: the chain of the sender, or what is left for an unknown one. -/
def senderPath (sv : Services) (sources : SourceMap) (rules : Rules) (packet : Packet) (saddr daddr : IPv4) :
    List Verdict :=
  match sources.byIp.get? saddr with
  | some source => chainPath sv rules (chainOwner sources.byName source) packet daddr
  | none => if IsReply packet ∧ (sources.byIp.get? daddr).isSome then [.accept] else [.queue]

/-- The verdicts that a forwarded packet meets. -/
def policyPath (sv : Services) (sources : SourceMap) (rules : Rules) (packet : Packet) : List Verdict :=
  match packet.addrs with
  | none => [.reject]
  | some (saddr, daddr) => replyPath sv sources rules packet saddr daddr ++ senderPath sv sources rules packet saddr daddr

theorem matched_findSome? (rules : List FlowRule) (flow : Option Flow) (b : Bool) :
    (matched sv rules flow).findSome? (limited b) = rules.findSome? fun rule => actionOn sv b rule flow := by
  induction rules with
  | nil => rfl
  | cons rule rules ih =>
    rw [List.findSome?_cons, ← ih, matched, List.filter_cons, actionOn]
    cases flow.any (rule.asRead.covers sv)
    · rfl
    · rw [if_pos rfl, List.map_cons, List.findSome?_cons, if_pos rfl]
      rfl

/-! ### Lists of lines -/

/-- Where every element of a list is rendered to lines, the list is rendered to all of them. -/
private theorem mapM_lines {ρ : Type} {l : List ρ} {f : ρ → Except PyError (List Rule)} {readable : ρ → Bool}
    {dom : Packet → Prop} {verdict : ρ → Bool → Packet → Option Verdict}
    (h : ∀ r ∈ l, ∃ lines, f r = .ok lines ∧ Lines lines (readable r) dom (verdict r)) :
    ∃ blocks, l.mapM f = .ok blocks ∧ Lines blocks.flatten (l.all readable) dom fun b packet =>
      l.findSome? fun r => verdict r b packet := by
  induction l with
  | nil => exact ⟨[], rfl, ⟨by simp, rfl, fun _ _ _ _ => rfl⟩⟩
  | cons r l ih =>
    obtain ⟨lines, hlines, hspec⟩ := h r (by simp)
    obtain ⟨blocks, hblocks, ihspec⟩ := ih fun r hr => h r (by simp [hr])
    refine ⟨lines :: blocks, by rw [List.mapM_cons, hlines, hblocks]; rfl, ?_, ?_, ?_⟩
    · intro line hline
      rcases List.mem_append.1 (by simpa only [List.flatten_cons] using hline) with hline | hline
      · exact hspec.jump line hline
      · exact ihspec.jump line hline
    · rw [List.flatten_cons, List.all_append, hspec.loads, ihspec.loads, List.all_cons]
    · intro hread b packet hdom
      rw [List.all_cons, Bool.and_eq_true] at hread
      rw [List.flatten_cons, List.findSome?_append, hspec.walk hread.1 b packet hdom,
        ihspec.walk hread.2 b packet hdom, List.findSome?_cons]
      cases verdict r b packet <;> rfl

private theorem Table.findSome?_step (table : Table) (b : Bool) (packet : Packet) (depth : Nat) {lines : List Rule}
    (h : ∀ line ∈ lines, line.statement.isJump = false) :
    lines.findSome? (table.step b packet depth) = lines.findSome? (Rule.verdict b packet) := by
  induction lines with
  | nil => rfl
  | cons line lines ih =>
    rw [List.findSome?_cons, List.findSome?_cons, Table.step_eq_verdict _ _ _ _ (h line (by simp)),
      ih fun l hl => h l (by simp [hl])]

/-! ### Sources and their addresses -/

private theorem mem_sourceIps {sources : SourceMap} {dflt : String} (hm : sources.Consistent dflt) {s : String}
    {ip : IPv4} : (s, ip) ∈ sourceIps sources.byName ↔ sources.byIp.get? ip = some s := by
  rw [hm.byIp_iff, sourceIps, List.mem_flatMap]
  constructor
  · rintro ⟨entry, hentry, h⟩
    obtain ⟨ip', hip', he⟩ := List.mem_map.1 h
    cases he
    exact ⟨entry.2, Dict.get?_eq_some_iff.2 hentry, hip'⟩
  · rintro ⟨ips, hips, hip⟩
    exact ⟨(s, ips), Dict.get?_eq_some_iff.1 hips, List.mem_map.2 ⟨ip, hip, rfl⟩⟩

private theorem findSome?_eq_of_forall {α β : Type} {l : List α} {f : α → Option β} {v : Option β}
    (h : ∀ a ∈ l, f a = none ∨ f a = v) (hv : v = none ∨ ∃ a ∈ l, f a = v) : l.findSome? f = v := by
  cases hl : l.findSome? f with
  | none =>
    rcases hv with rfl | ⟨a, ha, hf⟩
    · rfl
    · rw [← hf, List.findSome?_eq_none_iff.1 hl a ha]
  | some w =>
    obtain ⟨a, ha, hf⟩ := List.exists_of_findSome?_eq_some hl
    rcases h a ha with h | h
    · rw [hf] at h
      cases h
    · rw [← h, hf]

/-- Lines for every address of every source that act on one address act for the source that has it. -/
private theorem sourceIps_findSome? {sources : SourceMap} {dflt : String} (hm : sources.Consistent dflt)
    {β : Type} {g : String × IPv4 → Option β} {x : IPv4} (hg : ∀ s ip, ip ≠ x → g (s, ip) = none) :
    (sourceIps sources.byName).findSome? g = (sources.byIp.get? x).bind fun s => g (s, x) := by
  apply findSome?_eq_of_forall
  · rintro ⟨s, ip⟩ hmem
    by_cases hip : ip = x
    · subst hip
      rw [(mem_sourceIps hm).1 hmem]
      exact Or.inr rfl
    · exact Or.inl (hg s ip hip)
  · cases hx : sources.byIp.get? x with
    | none => exact Or.inl rfl
    | some s => exact Or.inr ⟨(s, x), (mem_sourceIps hm).2 hx, rfl⟩

/-! ### Names of chains -/

private theorem toList_nftChainName (s : String) : (nftChainName s).toList = "source_".toList ++
    (s.toList.map (fun c => if c.isAlphanum then c else '_') ++
      '_' :: Blake2s.hexdigest 4 s.toUTF8.toList) := by
  simp [nftChainName, sanitize]

private theorem nftChainName_ne {s name : String} (h : name.toList.head? ≠ some 's') : nftChainName s ≠ name := by
  rintro rfl
  apply h
  rw [toList_nftChainName]
  rfl

private theorem eq_of_sanitize {l l' : List Char} (hl' : ∀ c ∈ l', c.isAlphanum)
    (h : l.map (fun c => if c.isAlphanum then c else '_') = l') : l = l' := by
  subst h
  conv_lhs => rw [← List.map_id l]
  apply List.map_congr_left
  intro c hc
  have hmem := hl' _ (List.mem_map.2 ⟨c, hc, rfl⟩)
  by_cases hal : c.isAlphanum
  · simp [hal]
  · rw [if_neg hal] at hmem
    exact absurd hmem (by decide)

/-- No other source has the chain of unknown sources. -/
theorem nftChainName_unknown {s : String} (h : nftChainName s = nftChainName "unknown") : s = "unknown" := by
  have h := congrArg String.toList h
  rw [toList_nftChainName, toList_nftChainName] at h
  have h := List.append_cancel_left h
  have hsan := (List.append_inj' h (by simp [Blake2s.length_hexdigest])).1
  have halnum : ∀ c ∈ "unknown".toList, c.isAlphanum := by simp [Char.isAlphanum, Char.isAlpha, Char.isLower]
  have hunknown : "unknown".toList.map (fun c => if c.isAlphanum then c else '_') = "unknown".toList := by
    conv_rhs => rw [← List.map_id "unknown".toList]
    exact List.map_congr_left fun c hc => if_pos (halnum c hc)
  rw [hunknown] at hsan
  exact String.toList_inj.1 (eq_of_sanitize halnum hsan)

/-! ### The chain of a source -/

/-- Whether every known source has usable rules. -/
def Known (sv : Services) (sources : SourcesByName) (rules : Rules) : Prop :=
  ∀ s ∈ sources.keys, ∃ sourceRules, rules.get? s = some sourceRules ∧ sourceRules.Usable sv

/-- Whether nft can read every destination in the rules of a source. -/
def rulesReadable (rules : Rules) (source : String) : Bool :=
  (rules.ofSource source).ip.all fun rule => destReadable rule.dest

def policyReadable (sources : SourcesByName) (rules : Rules) : Bool := sources.keys.all (rulesReadable rules)

theorem invalidReject_verdict (b : Bool) (packet : Packet) (config : Config) (logPrefix : String) :
    (invalidReject config logPrefix).verdict b packet =
      (if packet.ctState = .invalid then [Verdict.reject] else []).findSome? (limited b) := by
  by_cases h : packet.ctState = .invalid <;>
    simp [Rule.verdict, Rule.applies, invalidReject, Match.holds, h, rejectLog]

private theorem dnsQueue_verdict (b : Bool) (packet : Packet) (queueNum : Nat) :
    Rule.verdict b packet ⟨[.dport .udp (.one 53)], .queue queueNum⟩ =
      if IsDns packet then some .queue else none := by
  by_cases hproto : packet.proto = .flow .udp <;> by_cases hport : packet.dport = 53 <;>
    simp [Rule.verdict, Rule.applies, Match.holds, NormPort.covers, IsDns, hproto, hport]

@[simp] theorem queue_verdict (b : Bool) (packet : Packet) (queueNum : Nat) :
    Rule.verdict b packet ⟨[], .queue queueNum⟩ = some .queue := rfl

/-- A source's chain loads if its rules are readable, and is then its path. -/
private structure SourceChain (sv : Services) (rules : Rules) (source : String) (chain : Chain) : Prop where
  name : chain.name = nftChainName source
  base : chain.base = none
  jump : ∀ line ∈ chain.rules, line.statement.isJump = false
  loads : (chain.rules.all fun line => line.conds.all Match.loads) = rulesReadable rules source
  walk : rulesReadable rules source → ∀ b packet saddr daddr, packet.addrs = some (saddr, daddr) →
    chain.rules.findSome? (Rule.verdict b packet) = (chainPath sv rules source packet daddr).findSome? (limited b)

private theorem ofSource_get? {rules : Rules} {s : String} {sourceRules : SourceRules}
    (h : rules.get? s = some sourceRules) : rules.ofSource s = sourceRules := by rw [Rules.ofSource, h]; rfl

private theorem renderSourceChain_spec {rules : Rules} {source : String} {sourceRules : SourceRules}
    (hget : rules.get? source = some sourceRules) (hu : sourceRules.Usable sv) (config : Config) (queueNum : Nat) :
    ∃ chain, renderSourceChain sv rules config queueNum source = .ok chain ∧ SourceChain sv rules source chain := by
  obtain ⟨blocks, hblocks, hspec⟩ := mapM_lines fun rule hrule => renderRule_lines (hu rule hrule) source config queueNum
  have hof := ofSource_get? hget
  refine ⟨_, by simp only [renderSourceChain, rulesIp, hget, bind, Except.bind, hblocks]; rfl, rfl, rfl, ?_, ?_, ?_⟩
  · intro line hline
    simp only [List.mem_append, List.mem_cons, List.not_mem_nil, or_false] at hline
    rcases hline with ((rfl | rfl) | hline) | rfl | rfl
    · rfl
    · rfl
    · exact hspec.jump line hline
    · rfl
    · rfl
  · simp only [List.all_append, hspec.loads, rulesReadable, hof]
    simp [invalidReject, Match.loads]
  · intro hread b packet saddr daddr ha
    rw [rulesReadable, hof] at hread
    simp only [List.findSome?_append, List.findSome?_cons, List.findSome?_nil, queue_verdict,
      invalidReject_verdict, dnsQueue_verdict, chainPath, hof]
    generalize (if packet.ctState = .invalid then [Verdict.reject] else []).findSome? (limited b) = invalid
    by_cases hdns : IsDns packet
    · cases invalid <;> simp [hdns]
    · have hwalk := hspec.walk hread b packet hdns
      have hforward : (fun rule => forwardVerdict sv rule b packet) =
          fun rule => actionOn sv b rule (outgoing packet daddr) := by
        funext rule
        simp [forwardVerdict, ha]
      rw [hforward, ← matched_findSome?] at hwalk
      simp only [hwalk, if_neg hdns]
      generalize (matched sv sourceRules.ip (outgoing packet daddr)).findSome? (limited b) = policy
      cases invalid <;> cases policy <;> simp

/-! ### The whole table -/

private theorem key_of_mem_sourceIps {sources : SourcesByName} {entry : String × IPv4}
    (h : entry ∈ sourceIps sources) : entry.1 ∈ sources.keys := by
  obtain ⟨e, he, hmem⟩ := List.mem_flatMap.1 h
  obtain ⟨ip, -, rfl⟩ := List.mem_map.1 hmem
  exact List.mem_map.2 ⟨e, he, rfl⟩

private theorem sourceIps_readable {sources : SourcesByName} {rules : Rules} (h : policyReadable sources rules) :
    (sourceIps sources).all fun entry => rulesReadable rules entry.1 :=
  List.all_eq_true.2 fun _ hentry => List.all_eq_true.1 h _ (key_of_mem_sourceIps hentry)

private theorem renderReplySection_spec {sources : SourcesByName} {rules : Rules} (hk : Known sv sources rules)
    (config : Config) : ∃ replies, renderReplySection sv sources rules config = .ok replies ∧
      Lines replies ((sourceIps sources).all fun entry => rulesReadable rules entry.1) (fun _ => True)
        fun b packet => (sourceIps sources).findSome? fun entry =>
          (rules.ofSource entry.1).ip.findSome? fun rule => replyVerdict sv entry.2 rule b packet := by
  obtain ⟨blocks, hblocks, hspec⟩ := @mapM_lines _ (sourceIps sources) (fun entry => do
      let blocks ← (← rulesIp rules entry.1).mapM fun rule =>
        renderEstablishedReplyRules sv entry.1 entry.2 rule config
      return blocks.flatten) (fun entry => rulesReadable rules entry.1) (fun _ => True)
    (fun entry b packet => (rules.ofSource entry.1).ip.findSome? fun rule =>
      replyVerdict sv entry.2 rule b packet) (by
    rintro ⟨s, ip⟩ hentry
    obtain ⟨sourceRules, hget, hu⟩ := hk s (key_of_mem_sourceIps hentry)
    obtain ⟨lines, hlines, hspec⟩ := mapM_lines fun rule hrule => renderReplyRules_lines (hu rule hrule) s ip config
    refine ⟨_, by simp only [rulesIp, hget, bind, Except.bind, hlines]; rfl, ?_⟩
    rw [rulesReadable, ofSource_get? hget]
    exact hspec)
  exact ⟨blocks.flatten, by rw [renderReplySection, hblocks]; rfl, hspec⟩

/-- The chains of the known sources. -/
private theorem renderSourceChains_spec {sources : SourcesByName} {rules : Rules} (hk : Known sv sources rules)
    (config : Config) (queueNum : Nat) : ∃ chains,
      sources.keys.mapM (renderSourceChain sv rules config queueNum) = .ok chains ∧
        List.Forall₂ (SourceChain sv rules) sources.keys chains := by
  suffices key : ∀ keys : List String, (∀ s ∈ keys, ∃ sourceRules, rules.get? s = some sourceRules ∧
      sourceRules.Usable sv) → ∃ chains, keys.mapM (renderSourceChain sv rules config queueNum) = .ok chains ∧
        List.Forall₂ (SourceChain sv rules) keys chains from key sources.keys hk
  intro keys
  induction keys with
  | nil => exact fun _ => ⟨[], rfl, .nil⟩
  | cons s keys ih =>
    intro h
    obtain ⟨sourceRules, hget, hu⟩ := h s (by simp)
    obtain ⟨chain, hchain, hspec⟩ := renderSourceChain_spec hget hu config queueNum
    obtain ⟨chains, hchains, ih⟩ := ih fun s hs => h s (by simp [hs])
    exact ⟨chain :: chains, by rw [List.mapM_cons, hchain, hchains]; rfl, .cons hspec ih⟩

/-- The table with the parts that are rendered in a loop put in. -/
private def tableOf (sources : SourcesByName) (config : Config) (nftTable : String) (queueNum : Nat)
    (replies : List Rule) (chains : List Chain) : Table where
  name := nftTable
  chains := [renderLocalInputChain config,
    { name := "forward", base := some (.forward, .drop), rules := replies ++ forwardTail sources config }]
    ++ chains ++ [unknownChain config queueNum]

section TableOf

variable {sources : SourcesByName} {rules : Rules} {config : Config} {nftTable : String} {queueNum : Nat}
  {replies : List Rule} {chains : List Chain}

private theorem filter_chains {keys : List String} (h : List.Forall₂ (SourceChain sv rules) keys chains)
    {name : String} (hname : ∀ s ∈ keys, nftChainName s ≠ name) :
    chains.filter (fun chain => chain.name = name) = [] := by
  rw [List.filter_eq_nil_iff]
  intro chain hchain
  obtain ⟨s, hs, hspec⟩ := h.exists_of_mem_right hchain
  simpa [hspec.name] using hname s hs

private theorem chainRules_forward {keys : List String} (h : List.Forall₂ (SourceChain sv rules) keys chains) :
    (tableOf sources config nftTable queueNum replies chains).chainRules "forward" =
      replies ++ forwardTail sources config := by
  have hne : ∀ s, nftChainName s ≠ "forward" := fun s => nftChainName_ne (by decide)
  have hunknown : (unknownChain config queueNum).name ≠ "forward" := hne "unknown"
  simp [Table.chainRules, tableOf, List.filter_append, filter_chains h fun s _ => hne s, hunknown,
    renderLocalInputChain]

private theorem chainRules_input {keys : List String} (h : List.Forall₂ (SourceChain sv rules) keys chains) :
    (tableOf sources config nftTable queueNum replies chains).chainRules "input" =
      (renderLocalInputChain config).rules := by
  have hne : ∀ s, nftChainName s ≠ "input" := fun s => nftChainName_ne (by decide)
  have hunknown : (unknownChain config queueNum).name ≠ "input" := hne "unknown"
  simp [Table.chainRules, tableOf, List.filter_append, filter_chains h fun s _ => hne s, hunknown,
    renderLocalInputChain]

private theorem chainRules_unknown {keys : List String} (h : List.Forall₂ (SourceChain sv rules) keys chains)
    (hkeys : ∀ s ∈ keys, s ≠ "unknown") :
    (tableOf sources config nftTable queueNum replies chains).chainRules (nftChainName "unknown") =
      (unknownChain config queueNum).rules := by
  have hin : "input" ≠ nftChainName "unknown" := (nftChainName_ne (by decide)).symm
  have hfw : "forward" ≠ nftChainName "unknown" := (nftChainName_ne (by decide)).symm
  have hnone := filter_chains h fun s hs he => hkeys s hs (nftChainName_unknown he)
  have hunknown : (unknownChain config queueNum).name = nftChainName "unknown" := rfl
  simp [Table.chainRules, tableOf, List.filter_append, hnone, hin, hfw, hunknown, renderLocalInputChain]

/-- The first chain of a name is the chain of the owner of that name. -/
private theorem exists_ownerChain {keys : List String} (h : List.Forall₂ (SourceChain sv rules) keys chains)
    {name owner : String} (ho : keys.find? (fun key => nftChainName key = name) = some owner) :
    ∃ chain rest, chains.filter (fun chain => chain.name = name) = chain :: rest ∧
      SourceChain sv rules owner chain := by
  induction h with
  | nil => cases ho
  | @cons s chain keys chains hspec _ ih =>
    rw [List.find?_cons] at ho
    by_cases hs : nftChainName s = name
    · simp only [hs, decide_true] at ho
      cases ho
      exact ⟨chain, _, by rw [List.filter_cons_of_pos (by simpa [hspec.name] using hs)], hspec⟩
    · simp only [hs, decide_false] at ho
      obtain ⟨c, rest, hfilter, hc⟩ := ih ho
      exact ⟨c, rest, by rw [List.filter_cons_of_neg (by simpa [hspec.name] using hs), hfilter], hc⟩

private theorem find?_chainOwner {source : String} (hs : source ∈ sources.keys) :
    sources.keys.find? (fun key => nftChainName key = nftChainName source) = some (chainOwner sources source) := by
  obtain ⟨owner, ho⟩ := Option.isSome_iff_exists.1 (List.find?_isSome.2 ⟨source, hs, by simp⟩ :
    (sources.keys.find? fun key => nftChainName key = nftChainName source).isSome)
  rw [chainOwner, ho]
  rfl

theorem chainOwner_mem {source : String} (hs : source ∈ sources.keys) : chainOwner sources source ∈ sources.keys :=
  List.mem_of_find?_eq_some (find?_chainOwner hs)

/-- The walk through the chain of a known source. -/
private theorem sourceChain_walk (config : Config) (nftTable : String) (queueNum : Nat) (replies : List Rule)
    (h : List.Forall₂ (SourceChain sv rules) sources.keys chains)
    (hread : policyReadable sources rules) {source : String} (hs : source ∈ sources.keys) (b : Bool)
    {packet : Packet} {saddr daddr : IPv4} (ha : packet.addrs = some (saddr, daddr)) (depth : Nat) :
    (tableOf sources config nftTable queueNum replies chains).evalChain (fun _ => b) packet (depth + 1)
      (nftChainName source) =
        (chainPath sv rules (chainOwner sources source) packet daddr).findSome? (limited b) := by
  obtain ⟨chain, rest, hfilter, hspec⟩ := exists_ownerChain h (find?_chainOwner hs)
  have hin : "input" ≠ nftChainName source := (nftChainName_ne (by decide)).symm
  have hfw : "forward" ≠ nftChainName source := (nftChainName_ne (by decide)).symm
  obtain ⟨tail, htail⟩ : ∃ tail, (tableOf sources config nftTable queueNum replies chains).chainRules
      (nftChainName source) = chain.rules ++ tail := by
    simp only [Table.chainRules, tableOf, List.filter_append, hfilter, List.filter_cons, hin, hfw,
      renderLocalInputChain, decide_false, Bool.false_eq_true, if_false, List.filter_nil, List.nil_append,
      List.cons_append, List.flatMap_cons]
    exact ⟨_, rfl⟩
  rw [Table.evalChain_uniform, htail, List.findSome?_append, Table.findSome?_step _ _ _ _ hspec.jump,
    hspec.walk (List.all_eq_true.1 hread _ (chainOwner_mem hs)) b packet saddr daddr ha]
  simp [chainPath, List.findSome?_append]

/-- The walk through the chain of unknown sources. -/
private theorem unknownChain_walk (config : Config) (nftTable : String) (queueNum : Nat) (replies : List Rule)
    (h : List.Forall₂ (SourceChain sv rules) sources.keys chains)
    (hkeys : ∀ s ∈ sources.keys, s ≠ "unknown") (b : Bool) (packet : Packet) (depth : Nat) :
    (tableOf sources config nftTable queueNum replies chains).evalChain (fun _ => b) packet (depth + 1)
      (nftChainName "unknown") = if packet.addrs.isSome then some .queue else limited b .reject := by
  rw [Table.evalChain_uniform, chainRules_unknown h hkeys]
  cases ha : packet.addrs <;>
    simp [unknownChain, Table.step, Rule.applies, Match.holds, ha, ruleReject, rejectLog]

section Walk

variable {m : SourceMap} {dflt : String} (hm : m.Consistent dflt)
  (h : List.Forall₂ (SourceChain sv rules) m.byName.keys chains) (hread : policyReadable m.byName rules)

include hm h hread

/-- A line for every address of every source that jumps into the chain of the source, if `p` holds as well. -/
private theorem jumps_walk (b : Bool) {packet : Packet} {saddr daddr : IPv4} (ha : packet.addrs = some (saddr, daddr))
    (depth : Nat) {conds : List Match} {p : Bool} (hconds : conds.all (Match.holds packet) = p) :
    ((sourceIps m.byName).map fun entry => (⟨.ipSaddr (.one entry.2.text) :: conds,
      .jump (nftChainName entry.1)⟩ : Rule)).findSome?
        ((tableOf m.byName config nftTable queueNum replies chains).step b packet (depth + 1)) =
      (m.byIp.get? saddr).bind fun source => if p then
        (chainPath sv rules (chainOwner m.byName source) packet daddr).findSome? (limited b) else none := by
  rw [List.findSome?_map, sourceIps_findSome? hm (x := saddr)]
  · cases hs : m.byIp.get? saddr with
    | none => rfl
    | some source =>
      obtain ⟨ips, hips, -⟩ := (hm.byIp_iff saddr source).1 hs
      have hwalk := sourceChain_walk config nftTable queueNum replies h hread (Dict.mem_keys_of_get? hips) b ha depth
      cases p <;> simp [Table.step, Rule.applies, Match.holds, ha, contains_ip, hconds, hwalk]
  · intro s ip hip
    simp [Table.step, Rule.applies, Match.holds, ha, contains_ip, hip.symm]

omit h hread in
/-- The accepts for replies to known addresses. -/
private theorem accepts_walk (table : Table) (b : Bool) {packet : Packet} {saddr daddr : IPv4}
    (ha : packet.addrs = some (saddr, daddr)) (depth : Nat) :
    ((sourceIps m.byName).map fun entry => (⟨[.ipDaddr (.one entry.2.text),
      .ctState [.established, .related], .ctDirection .reply], .accept⟩ : Rule)).findSome?
        (table.step b packet depth) =
      (m.byIp.get? daddr).bind fun _ => if IsReply packet then some .accept else none := by
  rw [List.findSome?_map, sourceIps_findSome? hm (x := daddr)]
  · cases m.byIp.get? daddr with
    | none => rfl
    | some source =>
      have hstate : (decide (packet.ctState ∈ [CtState.established, CtState.related]) &&
          decide (packet.ctDirection = .reply)) = decide (IsReply packet) := by
        rw [Bool.eq_iff_iff, decide_eq_true_iff]
        simp [IsReply]
      simp only [Function.comp_apply, Option.bind_some, Table.step, Rule.applies, List.all_cons, List.all_nil,
        Match.holds, ha, Option.any_some, contains_ip, decide_true, Bool.true_and, Bool.and_true, hstate]
      by_cases hr : IsReply packet <;> simp [hr]
  · intro s ip hip
    simp [Table.step, Rule.applies, Match.holds, ha, contains_ip, hip.symm]

/-- The forward chain behind the mirrored rules. -/
private theorem forwardTail_walk (hkeys : ∀ s ∈ m.byName.keys, s ≠ "unknown") (b : Bool) {packet : Packet}
    {saddr daddr : IPv4} (ha : packet.addrs = some (saddr, daddr)) (depth : Nat) :
    (forwardTail m.byName config).findSome?
        ((tableOf m.byName config nftTable queueNum replies chains).step b packet (depth + 1)) =
      (senderPath sv m rules packet saddr daddr).findSome? (limited b) := by
  have hdns : [Match.dport .udp (.one 53)].all (Match.holds packet) = decide (IsDns packet) := by
    by_cases hproto : packet.proto = .flow .udp <;> by_cases hport : packet.dport = 53 <;>
      simp [Match.holds, NormPort.covers, IsDns, hproto, hport]
  have hjump : Table.step (tableOf m.byName config nftTable queueNum replies chains) b packet (depth + 1)
      ⟨[], .jump (nftChainName "unknown")⟩ = some .queue := by
    have hwalk := unknownChain_walk config nftTable queueNum replies h hkeys b packet depth
    rw [ha] at hwalk
    exact hwalk
  unfold forwardTail
  simp only [List.findSome?_append, List.findSome?_cons, hjump]
  have hnoConds : [].all (Match.holds packet) = true := rfl
  erw [jumps_walk hm h hread b ha depth hdns, jumps_walk hm h hread b ha depth hnoConds, accepts_walk hm _ b ha]
  unfold senderPath
  cases hs : m.byIp.get? saddr with
  | some source =>
    have hsome : ((chainPath sv rules (chainOwner m.byName source) packet daddr).findSome? (limited b)).isSome := by
      simp [chainPath, List.findSome?_append]
    obtain ⟨v, hv⟩ := Option.isSome_iff_exists.1 hsome
    by_cases hd : IsDns packet <;> simp [hd, hv]
  | none =>
    cases hd : m.byIp.get? daddr <;> by_cases hr : IsReply packet <;> simp [hr]

end Walk

/-- Without an address a packet only meets the limited rejects. -/
private theorem forwardTail_walk_none {m : SourceMap}
    (h : List.Forall₂ (SourceChain sv rules) m.byName.keys chains) (hkeys : ∀ s ∈ m.byName.keys, s ≠ "unknown")
    (b : Bool) {packet : Packet} (ha : packet.addrs = none) (depth : Nat) :
    (forwardTail m.byName config).findSome?
        ((tableOf m.byName config nftTable queueNum replies chains).step b packet (depth + 1)) =
      limited b .reject := by
  have hjump : Table.step (tableOf m.byName config nftTable queueNum replies chains) b packet (depth + 1)
      ⟨[], .jump (nftChainName "unknown")⟩ = limited b .reject := by
    have hwalk := unknownChain_walk config nftTable queueNum replies h hkeys b packet depth
    rw [ha] at hwalk
    exact hwalk
  have hsaddr : ∀ addr, Match.holds packet (.ipSaddr addr) = false := fun addr => by simp [Match.holds, ha]
  have hdaddr : ∀ addr, Match.holds packet (.ipDaddr addr) = false := fun addr => by simp [Match.holds, ha]
  unfold forwardTail
  simp only [List.findSome?_append, List.findSome?_cons, hjump]
  simp only [List.findSome?_map, Function.comp_def, nftSourceJump, Table.step, Rule.applies, List.all_cons, hsaddr,
    hdaddr, Bool.false_and, Bool.not_false, if_true, List.findSome?_nil]
  have hnone : (sourceIps m.byName).findSome? (fun _ => (none : Option Verdict)) = none := by simp
  rw [hnone]
  cases b
  · by_cases hi : packet.ctState = .invalid <;> simp [limited, invalidReject, Match.holds, hi, rejectLog]
  · rfl

/-! Loading -/

private theorem ruleLoads_lines (table : Table) {lines : List Rule}
    (h : ∀ line ∈ lines, line.statement.isJump = false) :
    lines.all table.ruleLoads = lines.all fun line => line.conds.all Match.loads := by
  induction lines with
  | nil => rfl
  | cons line lines ih =>
    have hline := h line (by simp)
    rw [List.all_cons, List.all_cons, ih fun l hl => h l (by simp [hl]), Table.ruleLoads]
    cases hs : line.statement with
    | jump chain =>
      rw [hs] at hline
      cases hline
    | accept => simp
    | queue num => simp
    | reject rate burst logPrefix => simp

private theorem forwardTail_loads (h : List.Forall₂ (SourceChain sv rules) sources.keys chains) :
    (forwardTail sources config).all (tableOf sources config nftTable queueNum replies chains).ruleLoads = true := by
  have hunknown : (tableOf sources config nftTable queueNum replies chains).hasChain (nftChainName "unknown") := by
    simp [Table.hasChain, tableOf, unknownChain]
  have hsource : ∀ entry ∈ sourceIps sources,
      (tableOf sources config nftTable queueNum replies chains).hasChain (nftChainName entry.1) := by
    intro entry hentry
    obtain ⟨chain, hchain, hspec⟩ := h.exists_of_mem_left (key_of_mem_sourceIps hentry)
    exact List.any_eq_true.2 ⟨chain, by simp [tableOf, hchain], by simp [hspec.name]⟩
  have hip : ∀ ip : IPv4, (Operand.one ip.text).loads = true := fun ip => by
    simp [Operand.loads, Operand.texts, readPrefix_ip]
  simp only [forwardTail, List.all_append, List.all_map, Bool.and_eq_true, List.all_eq_true, Function.comp_apply,
    nftSourceJump, Table.ruleLoads, List.all_cons, List.all_nil, Match.loads, hip, hunknown, invalidReject, rejectLog,
    Bool.and_self]
  refine ⟨⟨⟨?_, ?_⟩, ?_⟩, trivial⟩
  · exact fun entry hentry => by simp [hsource entry hentry]
  · exact fun entry hentry => by simp [hsource entry hentry]
  · exact fun entry _ => trivial

private theorem sourceChains_load (table : Table) {keys : List String}
    (h : List.Forall₂ (SourceChain sv rules) keys chains) :
    (chains.all fun chain => chain.rules.all table.ruleLoads) = keys.all (rulesReadable rules) := by
  induction h with
  | nil => rfl
  | cons hspec _ ih => rw [List.all_cons, List.all_cons, ih, ruleLoads_lines table hspec.jump, hspec.loads]

private theorem tableOf_loads (h : List.Forall₂ (SourceChain sv rules) sources.keys chains)
    {verdict : Bool → Packet → Option Verdict} (hreplies : Lines replies ((sourceIps sources).all fun entry =>
      rulesReadable rules entry.1) (fun _ => True) verdict) :
    (tableOf sources config nftTable queueNum replies chains).loads = policyReadable sources rules := by
  have hparts : (tableOf sources config nftTable queueNum replies chains).loads =
      (((sourceIps sources).all fun entry => rulesReadable rules entry.1) && policyReadable sources rules) := by
    rw [Table.loads]
    conv_lhs => enter [1]; rw [tableOf]
    simp only [List.all_append, List.all_cons, List.all_nil, ruleLoads_lines _ hreplies.jump, hreplies.loads,
      forwardTail_loads h, sourceChains_load _ h, policyReadable]
    simp [renderLocalInputChain, unknownChain, Table.ruleLoads, Match.loads, rejectLog, ruleReject]
  rw [hparts]
  cases hread : policyReadable sources rules
  · simp
  · rw [sourceIps_readable hread]
    rfl

end TableOf

/-- What the input hook has for a packet: one limited reject for local addresses. -/
def inputPath (packet : Packet) : List Verdict :=
  if "vif".toList.isPrefixOf packet.iifname.toList && packet.daddrIsLocal then [.reject] else []

/-- The verdicts that a packet meets at a hook, and the verdict after them. -/
def hookPath (sv : Services) (sources : SourceMap) (rules : Rules) (hook : Hook) (packet : Packet) : List Verdict :=
  match hook with
  | .input => inputPath packet
  | .forward => policyPath sv sources rules packet

def hookChain : Hook → String × Verdict
  | .input => ("input", .accept)
  | .forward => ("forward", .drop)

private theorem replies_walk {sources : SourceMap} {dflt : String} (hm : sources.Consistent dflt) (rules : Rules)
    (b : Bool) (packet : Packet) {saddr daddr : IPv4} (ha : packet.addrs = some (saddr, daddr)) :
    ((sourceIps sources.byName).findSome? fun entry => (rules.ofSource entry.1).ip.findSome? fun rule =>
      replyVerdict sv entry.2 rule b packet) =
        (replyPath sv sources rules packet saddr daddr).findSome? (limited b) := by
  rw [sourceIps_findSome? hm (x := daddr)]
  · unfold replyPath
    cases sources.byIp.get? daddr with
    | none => rfl
    | some source =>
      by_cases hr : IsReply packet
      · simp [replyVerdict, ha, hr, matched_findSome?]
      · simp [replyVerdict, ha, hr]
  · intro s ip hip
    simp [replyVerdict, ha, hip.symm]

/-- The rendered table: it is there, it loads if its addresses can be read, and a packet takes its path. -/
structure Rendered (sv : Services) (sources : SourceMap) (rules : Rules) (table : Table) : Prop where
  loads : table.loads = policyReadable sources.byName rules
  base : ∀ hook, table.baseChain hook = some (hookChain hook)
  walk : policyReadable sources.byName rules → ∀ hook b packet,
    table.evalChain (fun _ => b) packet Table.maxJumpDepth (hookChain hook).1 =
      (hookPath sv sources rules hook packet).findSome? (limited b)

theorem renderNft_spec {sources : SourceMap} {rules : Rules} {dflt : String} (hm : sources.Consistent dflt)
    (hk : Known sv sources.byName rules) (config : Config) (nftTable : String) (queueNum : Nat) :
    ∃ table, renderNft sv sources.byName rules config nftTable queueNum = .ok table ∧
      Rendered sv sources rules table := by
  obtain ⟨replies, hreplies, hreplySpec⟩ := renderReplySection_spec hk config
  obtain ⟨chains, hchains, h⟩ := renderSourceChains_spec hk config queueNum
  have hunknown : ∀ s ∈ sources.byName.keys, s ≠ "unknown" := fun s hs he =>
    (hm.legal s hs).2.1 (by simp [he, reservedSources])
  refine ⟨tableOf sources.byName config nftTable queueNum replies chains, ?_, ?_, ?_, ?_⟩
  · simp only [renderNft, hreplies, hchains, bind, Except.bind]
    rfl
  · exact tableOf_loads h hreplySpec
  · rintro (_ | _) <;> rfl
  · intro hread hook b packet
    cases hook with
    | input =>
      rw [hookChain, Table.maxJumpDepth, Table.evalChain_uniform, chainRules_input h]
      simp only [renderLocalInputChain, List.findSome?_singleton, Table.step, Rule.applies, List.all_cons, List.all_nil,
        Match.holds, Bool.and_true, hookPath, inputPath, rejectLog]
      cases ("vif".toList.isPrefixOf packet.iifname.toList && packet.daddrIsLocal) <;> cases b <;> rfl
    | forward =>
      have hreplyRead : (sourceIps sources.byName).all (fun entry => rulesReadable rules entry.1) :=
        sourceIps_readable hread
      rw [hookChain, Table.maxJumpDepth, Table.evalChain_uniform, chainRules_forward h, List.findSome?_append,
        Table.findSome?_step _ _ _ _ hreplySpec.jump, hreplySpec.walk hreplyRead b packet trivial]
      unfold hookPath policyPath
      -- the chains of the sources only see IPv4
      cases ha : packet.addrs with
      | none =>
        have hnone : ((sourceIps sources.byName).findSome? fun entry => (rules.ofSource entry.1).ip.findSome? fun rule =>
            replyVerdict sv entry.2 rule b packet) = none :=
          List.findSome?_eq_none_iff.2 fun entry _ => List.findSome?_eq_none_iff.2 fun rule _ => by
            simp [replyVerdict, ha]
        rw [hnone, forwardTail_walk_none h hunknown b ha]
        simp
      | some a =>
        rw [replies_walk hm rules b packet ha, forwardTail_walk hm h hread hunknown b ha, List.findSome?_append]

end QubesSnitch.Nft
