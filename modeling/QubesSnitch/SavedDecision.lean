import QubesSnitch.CheckedHeap
import QubesSnitch.ObjectValues
import QubesSnitch.Stored

/-!
# Decisions are saved as a whole

An answer stands for one rule (`decidedRule`).  Saving it either raises and leaves the policy and all rule files as they
were, or it puts this rule, and nothing else, at the end of a list of the rule file and of the policy
(`appendRuleObject_all_or_nothing`).
-/

namespace QubesSnitch

variable {sv : Services} {lib : DnsPython} {io : SaveIo} {request : Request} {decision : Decision}

/-! ### The rule of an answer -/

inductive NewRule where
  | flow (rule : FlowRule)
  | dns (rule : DnsRule)

/-- The rule that an answer stands for. -/
def decidedRule (lib : DnsPython) (resolver : Resolver) (request : Request) (decision : Decision) :
    Except PyError NewRule :=
  match request.kind with
  | .dns qname qtype => do
    let action ← validateAction (rulePath request.source) ": invalid DNS action: " (.str decision.name)
    let question ← validateDnsRule lib (rulePath request.source) (.str qname) (.str qtype)
    return .dns { qname := question.1, qtype := question.2, action }
  | _ => do
    let port ← promptPort request
    let dest ← promptDest lib resolver request decision
    let proto ← validateProto (rulePath request.source) (.str request.proto.name)
    return .flow { ptr := .str (promptPtr request decision), dest, proto, port, action := decision.action }

/-- The file with a rule more. -/
def RuleFile.add (data : RuleFile) : NewRule → RuleFile
  | .flow rule => { data with rules4 := data.rules4 ++ [rule.stored] }
  | .dns rule => { data with dns := data.dns ++ [rule] }

/-- The rules of a source with a rule more. -/
def SourceRules.add (rules : SourceRules) : NewRule → SourceRules
  | .flow rule => { rules with ip := rules.ip ++ [rule] }
  | .dns rule => { rules with dns := rules.dns ++ [rule] }

/-- The daemon adds the rule of the answer to the file and to the policy. -/
theorem appendDecision_eq (io : Io) (data : RuleFile) (rules : Rules) :
    appendDecision lib io request decision data rules = (decidedRule lib io.resolver request decision).map fun new =>
      (data.add new, rules.set request.source ((rules.ofSource request.source).add new)) := by
  unfold appendDecision decidedRule
  cases request.kind with
  | dns qname qtype =>
    simp only [appendDnsRule, bind, Except.bind]
    cases validateAction (rulePath request.source) ": invalid DNS action: " (.str decision.name) with
    | error e => rfl
    | ok action => cases validateDnsRule lib (rulePath request.source) (.str qname) (.str qtype) <;> rfl
  | _ =>
    simp only [appendFlowRule, bind, Except.bind]
    cases promptPort request with
    | error e => rfl
    | ok port =>
      cases promptDest lib io.resolver request decision with
      | error e => rfl
      | ok dest => cases validateProto (rulePath request.source) (.str request.proto.name) <;> rfl

/-! ### The new rule as an object -/

def Dest.entry : Dest → Scalar × Yaml
  | any => (.str "dest", .str "any")
  | network n => (.str "dest", .scalar n.value)
  | dns qname _ => (.str "dest_dns", .str qname)

def Dest.resolvedDests : Dest → Option (List IPv4)
  | dns _ resolved => resolved
  | _ => none

/-- The rule in memory. -/
def NewRule.object : NewRule → RuleObject
  | flow rule => ⟨[(.str "ptr", rule.ptr), (.str "proto", .str rule.proto.name), (.str "port", .str rule.port),
      (.str "action", .str rule.action.name), rule.dest.entry], rule.dest.resolvedDests⟩
  | dns rule =>
    ⟨[(.str "qname", .str rule.qname), (.str "qtype", .str rule.qtype), (.str "action", .str rule.action.name)], none⟩

/-- The key of the list that the rule is put at the end of. -/
def NewRule.key : NewRule → ListKey
  | flow _ => .ip
  | dns _ => .dns

/-- The entries that `append_dns_rule` writes. -/
def questionEntries (decision : Decision) (qname qtype : String) : List (Scalar × Yaml) :=
  [(.str "qname", .str qname), (.str "qtype", .str qtype), (.str "action", .str decision.name)]

/-- A new DNS rule that the check of the file lets through is the one that the answer stands for, as the check leaves
it. -/
theorem decidedRule_dns {qname qtype : String} (hkind : request.kind = .dns qname qtype) {rule : DnsRule}
    (resolver : Resolver)
    (h : validateDnsEntry lib (rulePath request.source) (.map (questionEntries decision qname qtype)) = .ok rule) :
    decidedRule lib resolver request decision = .ok (.dns rule) ∧
      RuleObject.settle sv lib (rulePath request.source) ⟨questionEntries decision qname qtype, none⟩ =
        (NewRule.dns rule).object := by
  have hentries := DnsEntries.of_ok h
  have haction : Yaml.str decision.name = .str rule.action.name := Except.ok.inj hentries.action
  obtain ⟨_, _, ⟨⟩, ⟨⟩, hquestion⟩ := hentries.question
  constructor
  · have hname : validateAction (rulePath request.source) ": invalid DNS action: " (.str decision.name) =
        .ok rule.action := by
      rw [haction]
      exact validateAction_name _ _ rule.action
    simp only [decidedRule, hkind, hname, hquestion, bind, Except.bind]
    rfl
  · rw [RuleObject.settle_of_dns h, NewRule.object, ← haction]
    simp [questionEntries, dnsEntries, setKey]

/-- The addresses that the rule in memory gets. -/
inductive RuntimeAddresses (resolver : Resolver) (request : Request) : Option String → Option (List IPv4) → Prop
  | address : RuntimeAddresses resolver request none none
  | name {qname : String} {ips : List IPv4} (h : promptAddresses resolver request qname = .ok ips) :
      RuntimeAddresses resolver request (some qname) (some ips)

/-- The entries that `append_flow_rule` writes. -/
def promptEntries (request : Request) (decision : Decision) (port : String) (name : Option String) :
    List (Scalar × Yaml) :=
  [(.str "ptr", .str (promptPtr request decision)), (.str "proto", .str request.proto.name), (.str "port", .str port),
    (.str "action", .str decision.action.name), destEntry request name]

theorem promptDest_of_decidedName {resolver : Resolver} {name : Option String} {resolved : Option (List IPv4)}
    (hname : decidedName lib request decision = .ok name) (hresolved : RuntimeAddresses resolver request name resolved)
    (path port : String) : ∃ dest, promptDest lib resolver request decision = .ok dest ∧
      dest.entry = destEntry request name ∧ dest.resolvedDests = resolved ∧
      DestEntry lib path (promptEntries request decision port name) dest.stored := by
  unfold decidedName at hname
  unfold promptDest
  by_cases hhost : decision.isHostname
  · rw [if_pos hhost] at hname ⊢
    cases htrusted : trustedHost request.host with
    | none =>
      rw [htrusted] at hname
      cases hname
    | some host =>
      rw [htrusted] at hname
      obtain ⟨qname, hqname, hname⟩ := Except.exists_of_bind_eq_ok hname
      cases hname
      cases hresolved with
      | @name _ ips hips =>
        obtain ⟨hcanonical, hwild⟩ := validateDestDnsName_ok hqname
        refine ⟨.dns qname (some ips), ?_, rfl, rfl, ?_⟩
        · simp only [hqname, hips, bind, Except.bind]
          rfl
        · exact .name rfl rfl (validateDestDnsName_canonical lib path hcanonical hwild)
  · rw [if_neg hhost] at hname ⊢
    cases hname
    cases hresolved
    exact ⟨_, rfl, rfl, rfl, .network rfl rfl rfl (validateNetwork_value path (.host request.dst))⟩

/-- A new flow rule that the check of the file lets through is the one that the answer stands for. -/
theorem decidedRule_flow (hkind : ∀ qname qtype, request.kind ≠ .dns qname qtype) {resolver : Resolver}
    {port : String} {name : Option String} {resolved : Option (List IPv4)} (hport : promptPort request = .ok port)
    (hname : decidedName lib request decision = .ok name) (hresolved : RuntimeAddresses resolver request name resolved)
    {stored : FlowRule}
    (h : validateFlowRule sv lib (rulePath request.source) (.map (promptEntries request decision port name)) =
      .ok stored) :
    ∃ rule, decidedRule lib resolver request decision = .ok (.flow rule) ∧ stored = rule.stored ∧
      (NewRule.flow rule).object = ⟨promptEntries request decision port name, resolved⟩ := by
  obtain ⟨dest, hdest, hentry, haddresses, hread⟩ := promptDest_of_decidedName hname hresolved
    (rulePath request.source) port
  have hentries := FlowEntries.of_ok h
  obtain ⟨_, ⟨⟩, hproto⟩ := hentries.proto
  have hportEq : Yaml.str port = .str stored.port := Except.ok.inj hentries.port
  have hportEq : port = stored.port := by simpa [Yaml.str] using hportEq
  subst hportEq
  let rule : FlowRule := ⟨.str (promptPtr request decision), dest, stored.proto, stored.port, decision.action⟩
  have hrule : FlowEntries sv lib (rulePath request.source) (promptEntries request decision stored.port name)
      rule.stored :=
    ⟨hentries.keys, rfl, rfl, ⟨_, rfl, hproto⟩, rfl, hread, hentries.valid⟩
  refine ⟨rule, ?_, ?_, ?_⟩
  · unfold decidedRule
    split
    · rename_i qname qtype hdns
      exact absurd hdns (hkind qname qtype)
    · simp only [hport, hdest, hproto, bind, Except.bind]
      rfl
  · rw [hrule.accepted] at h
    exact (Except.ok.inj h).symm
  · rw [NewRule.object, promptEntries, ← hentry, validateProto_ok hproto, haddresses]

/-! ### Adding the rule to the file and to the copied policy -/

section Append

variable {s : Store} {h h' : Heap} {t L R : Nat} {rs : List RuleObject} {file : Nat → List Item} {names : List String}
  {policy : String → ListKey → List Item} {source : String}

theorem sourceLists_returns (hg : h.Grows t L R h' rs file names policy) :
    Returns s h' (sourceLists io t source) fun o h'' => (h''.table t).get? source = some o ∧
      h.Grows t L R h'' rs file (source :: names) policy := by
  refine .alter_bind ?_
  cases ho : (h'.table t).get? source with
  | some o => exact .pure ⟨ho, hg.known (Dict.mem_keys_of_get? ho)⟩
  | none =>
    have hget : ((h'.addSource t source fun _ => []).table t).get? source = _ :=
      Heap.get?_addSource_self hg.sound.table
    exact .alter_bind <| .alter_bind <| .alter_bind <| .pure ⟨hget, hg.source ho⟩

/-- What saving adds: the rule of the file at address `n` to the list `p` of the file, and the rule in memory at `m` to
the list of the policy. -/
def Heap.Appended (h : Heap) (t L R : Nat) (source : String) (key : ListKey) (p m : Nat) (rs : List RuleObject)
    (h' : Heap) : Prop :=
  h.Grows t L R h' rs (fun l => if l = p then [.rule h.rules.length] else []) [source]
    fun name key' => if name = source ∧ key' = key then [.rule m] else []

theorem appendDnsObject_returns {qname qtype : String} {data : Data} {p : Nat} (hs : h.Sound t L R)
    (hL : L ≤ h.lists.length) (hR : R ≤ h.rules.length)
    (hp : listNode (rulePath request.source) data "dns" = .ok p) (hpL : p < L) :
    Returns s h (appendDnsObject io request decision qname qtype data t) fun _ h' =>
      h.Appended t L R request.source .dns p h.rules.length [⟨questionEntries decision qname qtype, none⟩] h' := by
  refine .alter_bind <| .check_bind fun p' hp' => .alter_bind ?_
  obtain rfl : p = p' := Except.ok.inj (hp.symm.trans hp')
  refine (sourceLists_returns (.fileRule hs hL _ hpL)).bind ?_
  rintro o h'' ⟨ho, hg⟩
  refine Returns.alter.conseq ?_
  rintro _ _ ⟨-, rfl⟩
  have hbelow : (Item.rule h.rules.length).Below h''.rules.length := by
    rw [hg.rules]
    simp [Item.Below]
  exact hg.policyItem ho .dns hR hbelow

private theorem modify_concat {α : Type} (l : List α) (a : α) (f : α → α) :
    (l ++ [a]).modify l.length f = l ++ [f a] := by
  induction l with
  | nil => rfl
  | cons b l ih => simp [ih]

theorem resolveRuntimeRule_returns (r : RuleObject) (hr : r.resolvedDests = none) (name : Option String) :
    Returns s { h with rules := h.rules ++ [r] } (resolveRuntimeRule io request h.rules.length name) fun _ h' =>
      ∃ resolved, RuntimeAddresses io.resolver request name resolved ∧
        h' = { h with rules := h.rules ++ [{ r with resolvedDests := resolved }] } := by
  cases name with
  | none => exact .pure ⟨none, .address, by rw [← hr]⟩
  | some qname =>
    refine .check_bind fun ips hips => Returns.alter.conseq ?_
    rintro _ _ ⟨-, rfl⟩
    exact ⟨some ips, .name hips, by simp [modify_concat]⟩

theorem appendFlowObject_returns {data : Data} {p : Nat} (hs : h.Sound t L R) (hL : L ≤ h.lists.length)
    (hR : R ≤ h.rules.length) (hp : listNode (rulePath request.source) data "rules4" = .ok p) (hpL : p < L) :
    Returns s h (appendFlowObject lib io request decision data t) fun _ h' => ∃ port name resolved,
      promptPort request = .ok port ∧ decidedName lib request decision = .ok name ∧
        RuntimeAddresses io.resolver request name resolved ∧
        h.Appended t L R request.source .ip p (h.rules.length + 1) [⟨promptEntries request decision port name, none⟩,
          ⟨promptEntries request decision port name, resolved⟩] h' := by
  refine .check_bind fun port hport => .check_bind fun name hname => .alter_bind <| .check_bind fun p' hp' =>
    .alter_bind ?_
  obtain rfl : p = p' := Except.ok.inj (hp.symm.trans hp')
  refine (sourceLists_returns (.fileRule hs hL _ hpL)).bind ?_
  rintro o h'' ⟨ho, hg⟩
  have hcopy : (h''.rules[h.rules.length]?).getD ⟨[], none⟩ = ⟨promptEntries request decision port name, none⟩ := by
    rw [hg.rules]
    simp [promptEntries]
  have hlength : h''.rules.length = h.rules.length + 1 := by simp [hg.rules]
  refine .alter_bind <| .alter_bind ?_
  simp only [hcopy]
  refine (resolveRuntimeRule_returns _ rfl name).bind ?_
  rintro _ _ ⟨resolved, hresolved, rfl⟩
  have hg' := hg.newRule ⟨promptEntries request decision port name, resolved⟩
  refine Returns.alter.conseq ?_
  rintro _ _ ⟨-, rfl⟩
  rw [hlength]
  refine ⟨port, name, resolved, hport, hname, hresolved, hg'.policyItem ho .ip ?_ ?_⟩
  · exact Nat.le_succ_of_le hR
  · simp [Item.Below, hlength]

end Append

/-! ### What is in the file before -/

/-- The rules of the file of a source, if there is one. -/
def savedRuleFile (sv : Services) (lib : DnsPython) (dir : RulesDir) (source : String) : Except PyError RuleFile :=
  match dir.get? source with
  | none => .ok ⟨[], []⟩
  | some text => readRuleFile sv lib source text

/-- The loader gives the two keys of the file of a source one list. -/
def OneList (io : SaveIo) (rulesDir : RulesDir) (source : String) : Prop :=
  ∃ text g address, rulesDir.get? source = some text ∧ io.load (rulePath source) text = .ok g ∧
    listNode (rulePath source) g.root "rules4" = .ok address ∧ listNode (rulePath source) g.root "dns" = .ok address

/-- A list below address `L`, with rules below address `R`. -/
structure Heap.InPlace (h : Heap) (L R l : Nat) : Prop where
  list : l < L
  items : ∀ item ∈ h.items l, item.Below R

theorem exists_of_listNode_shift {path key : String} {root : Data} {n l : Nat}
    (hl : listNode path (root.map fun e => (e.1, e.2.shift n)) key = .ok l) :
    ∃ a, listNode path root key = .ok a ∧ n + a = l := by
  unfold listNode at hl ⊢
  rw [List.find?_map] at hl
  have hkey : (fun e : Scalar × Node => decide (e.1 = .str key)) ∘ (fun e : Scalar × Node => (e.1, e.2.shift n)) =
      fun e => decide (e.1 = .str key) := rfl
  rw [hkey] at hl
  cases hfound : root.find? fun e => decide (e.1 = .str key) with
  | none =>
    rw [hfound] at hl
    cases hl
  | some e =>
    rw [hfound] at hl
    obtain ⟨k, node⟩ := e
    cases node with
    | other value => cases hl
    | list a =>
      cases hl
      exact ⟨a, rfl, rfl⟩

/-- The lists of a loaded mapping are in place. -/
theorem inPlace_place (h : Heap) (g : Graph) {path key : String} {l : Nat}
    (hl : listNode path (g.root.map fun e => (e.1, e.2.shift h.lists.length)) key = .ok l) :
    (h.append g.heap).InPlace (h.append g.heap).lists.length (h.append g.heap).rules.length l := by
  obtain ⟨e, he, hnode⟩ := exists_of_listNode hl
  obtain ⟨⟨k, node⟩, hmem, rfl⟩ := List.mem_map.1 he
  cases node with
  | other value => cases hnode
  | list a =>
    cases hnode
    have ha : a < g.heap.lists.length := g.listed _ hmem a rfl
    refine ⟨by simpa [Heap.append] using ha, fun item hitem => ?_⟩
    rw [Heap.items_shift] at hitem
    obtain ⟨item', hitem', rfl⟩ := List.mem_map.1 hitem
    rw [Heap.items, List.getElem?_eq_getElem ha] at hitem'
    have hbelow := g.closed _ (List.getElem_mem ha) item' hitem'
    cases item' with
    | other value => trivial
    | rule address => simpa [Item.Below, Item.shift, Heap.append] using hbelow

/-- A loaded mapping has the tree that was loaded. -/
theorem dataTree_place (h : Heap) (g : Graph) :
    (h.append g.heap).dataTree (g.root.map fun e => (e.1, e.2.shift h.lists.length)) = g.heap.dataTree g.root := by
  rw [Heap.dataTree, Heap.dataTree, List.map_map]
  refine List.map_congr_left fun e _ => Prod.ext rfl ?_
  cases hnode : e.2 with
  | other value => simp [hnode, Node.shift, Heap.nodeTree]
  | list a =>
    simp only [Function.comp_apply, hnode, Node.shift, Heap.nodeTree, Heap.listValue, Heap.items_shift, List.map_map]
    refine congrArg Yaml.seq (List.map_congr_left fun item _ => ?_)
    simp only [Function.comp_apply, Heap.itemValue_shift]

/-- The objects of the file that an answer is added to, which are below the addresses `L` and `R`, and what they are
read as. -/
structure Heap.Loaded (sv : Services) (lib : DnsPython) (path : String) (h : Heap) (L R : Nat) (data : Data)
    (rules4 dns : Nat) (current : RuleFile) : Prop where
  lists : DataLists path data rules4 dns
  rules4InPlace : h.InPlace L R rules4
  dnsInPlace : h.InPlace L R dns
  reads : h.Reads sv lib path rules4 dns current

/-- A safe operation that returns has left all old cells. -/
theorem Safe.returns {s : Store} {h : Heap} {α : Type} {x : Save α} {R : α → Prop} {P : α → Heap → Prop}
    (hx : Safe { s with heap := h } x R) (hr : Returns s h x P) :
    Returns s h x fun a h' => h.Extends h' ∧ P a h' := by
  intro clock a s' hrun
  obtain ⟨h', clock', rfl, hP⟩ := hr clock a s' hrun
  have hstart : Store.Untouched { s with heap := h } { s with heap := h, clock := clock } := ⟨rfl, rfl, .refl h⟩
  have hsafe := hx.of_ok hstart hrun
  exact ⟨h', clock', rfl, hsafe.1.heap, hP⟩

theorem readData_returns {s : Store} {h : Heap} (source : String) :
    Returns s h (readData sv lib io source) fun data h' => ∃ rules4 dns current,
      h'.Loaded sv lib (rulePath source) h'.lists.length h'.rules.length data rules4 dns current ∧
        savedRuleFile sv lib s.rulesDir source = .ok current ∧ (rules4 = dns ↔ OneList io s.rulesDir source) := by
  refine .tick <| .get fun clock => ?_
  dsimp only
  unfold savedRuleFile OneList
  cases s.rulesDir.get? source with
  -- a source without a file gets two empty lists
  | none =>
    refine .alter_bind <| .alter_bind <| .pure ⟨h.lists.length, (h.lists ++ [[]]).length, ⟨[], []⟩, ?_, rfl, by simp⟩
    have hitems : ∀ l ≥ h.lists.length, ({ h with lists := h.lists ++ [[]] ++ [[]] } : Heap).items l = [] := by
      intro l hl
      rw [Heap.items_newLists, Heap.items, List.getElem?_eq_none hl]
      rfl
    have hrules4 := hitems h.lists.length (Nat.le_refl _)
    have hdns := hitems (h.lists ++ [[]]).length (by simp)
    refine ⟨⟨by simp, by simp [listNode], by simp [listNode]⟩, ⟨by simp, ?_⟩, ⟨by simp, ?_⟩, ⟨?_, ?_⟩⟩
    · intro item hitem
      rw [hrules4] at hitem
      cases hitem
    · intro item hitem
      rw [hdns] at hitem
      cases hitem
    · rw [hrules4]
      rfl
    · rw [hdns]
      rfl
  -- the file is loaded behind all other objects
  | some text =>
    refine .check_bind fun g hload => .alter_bind <| (validateData_returns _).bind ?_
    rintro _ _ ⟨rules4, dns, current, hlists, hreads, rfl⟩
    refine .pure ⟨rules4, dns, current, ⟨hlists, ?_, ?_, Heap.reads_settle.2 hreads⟩, ?_, ?_⟩
    · rw [Heap.length_settle]
      exact ⟨(inPlace_place h g hlists.rules4).list, (inPlace_place h g hlists.rules4).items⟩
    · rw [Heap.length_settle]
      exact ⟨(inPlace_place h g hlists.dns).list, (inPlace_place h g hlists.dns).items⟩
    · have htree := hlists.validateRuleFile_iff.2 hreads
      rw [dataTree_place] at htree
      have hyaml := io.load_tree (rulePath source) text
      rw [hload] at hyaml
      exact readRuleFile_eq_ok.2 ⟨_, hyaml.symm, htree⟩
    · obtain ⟨a, ha, rfl⟩ := exists_of_listNode_shift hlists.rules4
      obtain ⟨b, hb, rfl⟩ := exists_of_listNode_shift hlists.dns
      constructor
      · intro heq
        obtain rfl := Nat.add_left_cancel heq
        exact ⟨text, g, a, rfl, hload, ha, hb⟩
      · rintro ⟨_, g', address, ⟨⟩, hload', ha', hb'⟩
        obtain rfl := Except.ok.inj (hload.symm.trans hload')
        rw [Except.ok.inj (ha.symm.trans ha'), Except.ok.inj (hb.symm.trans hb')]

/-! ### What is there after -/

/-- The rules of a source with one more at the end of a list. -/
def SourceValue.push (v : SourceValue) (rule : RuleObject) : ListKey → SourceValue
  | .ip => { v with ip := v.ip ++ [.rule rule] }
  | .dns => { v with dns := v.dns ++ [.rule rule] }

namespace Heap

variable {h h' : Heap} {path source : String} {key : ListKey} {t L R p m : Nat} {rs : List RuleObject}

theorem policy_getD (h : Heap) (t : Nat) (name : String) : ((h.policy t).get? name).getD ⟨[], []⟩ =
    ⟨(h.itemsOf t name .ip).map h.itemValue, (h.itemsOf t name .dns).map h.itemValue⟩ := by
  rw [policy_get?]
  split
  · rfl
  · rename_i hname
    have hnone := Dict.get?_eq_none_iff.2 hname
    rw [itemsOf_of_none hnone, itemsOf_of_none hnone]
    rfl

/-- Old rules have the values that they had, if only older and newer ones are settled. -/
theorem itemValue_settle_of_within {l : List Nat} (hrules : h'.rules = h.rules ++ rs)
    (hl : ∀ a ∈ l, a < R ∨ h.rules.length ≤ a) {item : Item} (hfrom : item.From R)
    (hbelow : item.Below h.rules.length) : (h'.settle sv lib path l).itemValue item = h.itemValue item := by
  cases item with
  | other value => rfl
  | rule a =>
    -- the rule is one of the policy, and the rules of the file are before or after it
    have hnot : a ∉ l := by
      intro hmem
      have hfrom : R ≤ a := hfrom
      have hbelow : a < h.rules.length := hbelow
      rcases hl a hmem with hlt | hge <;> omega
    rw [itemValue, itemValue, getElem?_settle, hrules, List.getElem?_append_left hbelow]
    simp [hnot]

/-- The saved policy: one rule more at the end of one list. -/
theorem Appended.policy (ha : h.Appended t L R source key p m rs h') (hs : h.Sound t L R) {l : List Nat}
    (hl : ∀ a ∈ l, a < R ∨ h.rules.length ≤ a) {value : RuleObject}
    (hm : (h'.settle sv lib path l).rules[m]? = some value) (name : String) :
    ((h'.settle sv lib path l).policy t).get? name =
      if name = source then some ((((h.policy t).get? source).getD ⟨[], []⟩).push value key)
      else (h.policy t).get? name := by
  have hvalues : ∀ name key', (h.itemsOf t name key').map (h'.settle sv lib path l).itemValue =
      (h.itemsOf t name key').map h.itemValue := fun name key' => List.map_congr_left fun item hitem =>
    itemValue_settle_of_within ha.rules hl (hs.within name key' item hitem).1 (hs.within name key' item hitem).2
  have hnew : (h'.settle sv lib path l).itemValue (.rule m) = .rule value := by
    rw [itemValue, hm]
    rfl
  have hitems : ∀ key', (h'.settle sv lib path l).itemsOf t name key' =
      h.itemsOf t name key' ++ if name = source ∧ key' = key then [.rule m] else [] := ha.itemsOf name
  have hkeys : name ∈ ((h'.settle sv lib path l).table t).keys ↔ name ∈ [source] ∨ name ∈ (h.table t).keys :=
    ha.keys name
  rw [policy_get?, hitems, hitems]
  by_cases hname : name = source
  · subst hname
    rw [if_pos (hkeys.2 (.inl (by simp))), if_pos rfl, policy_getD]
    cases key <;> simp [SourceValue.push, hvalues, hnew]
  · have hmem : name ∈ ((h'.settle sv lib path l).table t).keys ↔ name ∈ (h.table t).keys :=
      hkeys.trans (by simp [hname])
    rw [if_neg hname, policy_get?]
    simp [hname, hmem, hvalues]

/-- The lists of the file: one rule more at the end of one of them. -/
theorem Appended.trees {r : RuleObject} (ha : h.Appended t L R source key p m (r :: rs) h') {l : Nat}
    (hR : R ≤ h.rules.length) (hl : h.InPlace L R l) :
    h'.trees (h'.items l) = h.trees (h.items l) ++ if l = p then [.map r.entries] else [] := by
  have hprefix : h.rules <+: h'.rules := ha.rules ▸ List.prefix_append _ _
  have hnew : h'.itemValue (.rule h.rules.length) = .rule r := by
    rw [itemValue, ha.rules]
    simp
  have hold : (h.items l).map (fun item => (h'.itemValue item).tree) = h.trees (h.items l) :=
    List.map_congr_left fun item hitem => by rw [itemValue_older hprefix ((hl.items item hitem).mono hR)]
  rw [ha.items l hl.list, Heap.trees, List.map_append, hold]
  split
  · rw [List.map_singleton, hnew]
    rfl
  · rfl

end Heap

namespace Heap

variable {h h' : Heap} {source : String} {key : ListKey} {t L R p m rules4 dns : Nat} {rs : List RuleObject}
  {r : RuleObject} {data : Data} {current file : RuleFile}

/-- The list with the new rule is read as before, and then the rule. -/
theorem Appended.read_added {α : Type} {check : Yaml → Except PyError α} {old new : List α}
    (ha : h.Appended t L R source key p m (r :: rs) h') (hR : R ≤ h.rules.length) (hp : h.InPlace L R p)
    (hold : (h.trees (h.items p)).mapM check = .ok old) (hnew : (h'.trees (h'.items p)).mapM check = .ok new) :
    ∃ rule, check (.map r.entries) = .ok rule ∧ new = old ++ [rule] := by
  rw [ha.trees hR hp, if_pos rfl] at hnew
  obtain ⟨before, rule, hbefore, hrule, hnew⟩ := Except.mapM_concat hnew
  obtain rfl := Except.ok.inj (hbefore.symm.trans hold)
  exact ⟨rule, hrule, hnew⟩

theorem Appended.read_other {α : Type} {check : Yaml → Except PyError α} {old new : List α} {l : Nat}
    (ha : h.Appended t L R source key p m (r :: rs) h') (hR : R ≤ h.rules.length) (hl : h.InPlace L R l) (hne : l ≠ p)
    (hold : (h.trees (h.items l)).mapM check = .ok old) (hnew : (h'.trees (h'.items l)).mapM check = .ok new) :
    new = old := by
  rw [ha.trees hR hl, if_neg hne, List.append_nil, hold] at hnew
  exact (Except.ok.inj hnew).symm

/-- One list cannot be read both ways once a rule is in it. -/
theorem Appended.apart {path : String} (hload : h.Loaded sv lib path L R data rules4 dns current)
    (hR : R ≤ h.rules.length) (ha : h.Appended t L R source key p m (r :: rs) h') (hp : p = rules4 ∨ p = dns)
    (hread : h'.Reads sv lib path rules4 dns file) : rules4 ≠ dns := by
  rintro rfl
  obtain rfl := or_self_iff.1 hp
  obtain ⟨flow, hflow, -⟩ := ha.read_added hR hload.rules4InPlace hload.reads.rules4 hread.rules4
  obtain ⟨question, hquestion, -⟩ := ha.read_added hR hload.dnsInPlace hload.reads.dns hread.dns
  exact (DnsEntries.of_ok hquestion).not_flow (FlowEntries.of_ok hflow)

/-- With a DNS rule more the file is read as before, but for this rule. -/
theorem Appended.reads_dns {path : String} (hload : h.Loaded sv lib path L R data rules4 dns current)
    (hR : R ≤ h.rules.length) (ha : h.Appended t L R source .dns dns m (r :: rs) h')
    (hread : h'.Reads sv lib path rules4 dns file) : ∃ rule, validateDnsEntry lib path (.map r.entries) = .ok rule ∧
      file = current.add (.dns rule) := by
  obtain ⟨rule, hrule, hquestions⟩ := ha.read_added hR hload.dnsInPlace hload.reads.dns hread.dns
  have hne := ha.apart hload hR (.inr rfl) hread
  have hflows := ha.read_other hR hload.rules4InPlace hne hload.reads.rules4 hread.rules4
  rcases file with ⟨flows, questions⟩
  exact ⟨rule, hrule, congrArg₂ RuleFile.mk hflows hquestions⟩

theorem Appended.reads_flow {path : String} (hload : h.Loaded sv lib path L R data rules4 dns current)
    (hR : R ≤ h.rules.length) (ha : h.Appended t L R source .ip rules4 m (r :: rs) h')
    (hread : h'.Reads sv lib path rules4 dns file) : ∃ rule, validateFlowRule sv lib path (.map r.entries) = .ok rule ∧
      file = { current with rules4 := current.rules4 ++ [rule] } := by
  obtain ⟨rule, hrule, hflows⟩ := ha.read_added hR hload.rules4InPlace hload.reads.rules4 hread.rules4
  have hne := (ha.apart hload hR (.inl rfl) hread).symm
  have hquestions := ha.read_other hR hload.dnsInPlace hne hload.reads.dns hread.dns
  rcases file with ⟨flows, questions⟩
  exact ⟨rule, hrule, congrArg₂ RuleFile.mk hflows hquestions⟩

end Heap

/-! ### Adding and checking -/

namespace Heap

variable {h h' : Heap} {path source : String} {key : ListKey} {t L R p m rules4 dns : Nat} {rs : List RuleObject}
  {data : Data} {current : RuleFile}

/-- The rules of a file. -/
def fileAddresses (h : Heap) (rules4 dns : Nat) : List Nat :=
  ruleAddresses (h.items rules4) ++ ruleAddresses (h.items dns)

/-- The objects of a file stay what they are when others are put behind them. -/
theorem Loaded.append (hload : h.Loaded sv lib path h.lists.length h.rules.length data rules4 dns current) (g : Heap) :
    (h.append g).Loaded sv lib path h.lists.length h.rules.length data rules4 dns current := by
  have hitems : ∀ l < h.lists.length, (h.append g).items l = h.items l :=
    fun l hl => items_older (List.prefix_append _ _) hl
  have htrees : ∀ l, h.InPlace h.lists.length h.rules.length l →
      (h.append g).trees ((h.append g).items l) = h.trees (h.items l) := by
    intro l hl
    rw [hitems l hl.list]
    exact List.map_congr_left fun item hitem => by
      rw [itemValue_older (List.prefix_append _ _) (hl.items item hitem)]
  refine ⟨hload.lists, ⟨hload.rules4InPlace.list, ?_⟩, ⟨hload.dnsInPlace.list, ?_⟩, ⟨?_, ?_⟩⟩
  · rw [hitems _ hload.rules4InPlace.list]
    exact hload.rules4InPlace.items
  · rw [hitems _ hload.dnsInPlace.list]
    exact hload.dnsInPlace.items
  · rw [htrees _ hload.rules4InPlace]
    exact hload.reads.rules4
  · rw [htrees _ hload.dnsInPlace]
    exact hload.reads.dns

/-- The rules of the file are those of before and the new one. -/
theorem Appended.mem_addresses (ha : h.Appended t L R source key p m rs h') {l a : Nat} (hl : h.InPlace L R l) :
    (a ∈ ruleAddresses (h'.items l) → a < R ∨ a = h.rules.length) ∧
      (l = p → h.rules.length ∈ ruleAddresses (h'.items l)) := by
  rw [ha.items l hl.list]
  constructor
  · intro hmem
    rcases List.mem_append.1 (mem_ruleAddresses.1 hmem) with hold | hnew
    · exact .inl (hl.items _ hold)
    · split at hnew
      · exact .inr (Item.rule.inj (List.mem_singleton.1 hnew))
      · cases hnew
  · intro hp
    rw [if_pos hp]
    exact mem_ruleAddresses.2 (by simp)

theorem Appended.mem_fileAddresses (ha : h.Appended t L R source key p m rs h')
    (hload : h.Loaded sv lib path L R data rules4 dns current) {a : Nat} (hmem : a ∈ h'.fileAddresses rules4 dns) :
    a < R ∨ a = h.rules.length := by
  rcases List.mem_append.1 hmem with hmem | hmem
  · exact (ha.mem_addresses hload.rules4InPlace).1 hmem
  · exact (ha.mem_addresses hload.dnsInPlace).1 hmem

end Heap

section Append

variable {s : Store} {h : Heap} {t L R rules4 dns : Nat} {data : Data} {current : RuleFile}

/-- If the check of the file then lets the new rule through, the lists of the file are two, and it is the rule that the
answer stands for, in the file and, once the file is checked, in memory. -/
theorem appendObject_returns (hload : h.Loaded sv lib (rulePath request.source) L R data rules4 dns current)
    (hs : h.Sound t L R) (hL : L ≤ h.lists.length) (hR : R ≤ h.rules.length) :
    Returns s h (appendObject lib io request decision data t) fun _ h' => ∃ key p m rs,
      h.Appended t L R request.source key p m rs h' ∧
        ∀ file, h'.Reads sv lib (rulePath request.source) rules4 dns file → rules4 ≠ dns ∧ ∃ new,
          decidedRule lib io.resolver request decision = .ok new ∧ file = current.add new ∧ new.key = key ∧
            (h'.settle sv lib (rulePath request.source) (h'.fileAddresses rules4 dns)).rules[m]? = some new.object := by
  unfold appendObject
  split
  · rename_i qname qtype hkind
    refine (appendDnsObject_returns hs hL hR hload.lists.dns hload.dnsInPlace.list).conseq ?_
    intro _ h' ha
    refine ⟨_, _, _, _, ha, fun file hread => ⟨ha.apart hload hR (.inr rfl) hread, ?_⟩⟩
    obtain ⟨rule, hrule, hfile⟩ := ha.reads_dns hload hR hread
    obtain ⟨hdecided, hobject⟩ := @decidedRule_dns sv lib request decision qname qtype hkind rule io.resolver hrule
    refine ⟨.dns rule, hdecided, hfile, rfl, ?_⟩
    have hmem : h.rules.length ∈ h'.fileAddresses rules4 dns :=
      List.mem_append_right _ ((ha.mem_addresses (a := 0) hload.dnsInPlace).2 rfl)
    rw [Heap.getElem?_settle, ha.rules]
    simp [hmem, hobject]
  · rename_i hkind
    refine (appendFlowObject_returns hs hL hR hload.lists.rules4 hload.rules4InPlace.list).conseq ?_
    rintro _ h' ⟨port, name, resolved, hport, hname, hresolved, ha⟩
    refine ⟨_, _, _, _, ha, fun file hread => ⟨ha.apart hload hR (.inl rfl) hread, ?_⟩⟩
    obtain ⟨stored, hrule, hfile⟩ := ha.reads_flow hload hR hread
    obtain ⟨rule, hdecided, rfl, hobject⟩ := decidedRule_flow hkind hport hname hresolved hrule
    refine ⟨.flow rule, hdecided, hfile, rfl, ?_⟩
    -- The rule in memory is a copy, which the check of the file does not reach.
    have hnot : h.rules.length + 1 ∉ h'.fileAddresses rules4 dns := fun hmem => by
      rcases ha.mem_fileAddresses hload hmem with hlt | heq <;> omega
    rw [Heap.getElem?_settle, ha.rules]
    simp [hnot, hobject]

end Append

/-! ### All or nothing -/

/-- `ctx.RULES` is a table of lists that are different objects. -/
def Store.WellFormed (s : Store) : Prop := s.heap.Sound s.rules 0 0

/-- Any policy and any rule files are those of such a state. -/
theorem exists_wellFormed (policy : Dict String SourceValue) (rulesDir : RulesDir) :
    ∃ s : Store, s.WellFormed ∧ s.rulesDir = rulesDir ∧ ∀ name, s.policy.get? name = policy.get? name := by
  obtain ⟨h, hs, hpolicy⟩ := Heap.exists_sound_policy policy.entries policy.nodup
  exact ⟨⟨h, 0, rulesDir, .empty, 0⟩, hs, rfl, hpolicy⟩

/-- The file is written next to the old one, which it then replaces. -/
theorem replace_ok {s s' : Store} {source : String} {text : RuleText} {t : Nat}
    (h : (do writeTmp io source text; replaceFile io source; modify fun s => { s with rules := t } : Save Unit).run s =
      .ok () s') : s'.heap = s.heap ∧ s'.rules = t ∧ s'.rulesDir = s.rulesDir.set source text := by
  obtain ⟨_, s₁, hwrite, h⟩ := EStateM.exists_of_bind_eq_ok h
  obtain ⟨_, s₂, hreplace, h⟩ := EStateM.exists_of_bind_eq_ok h
  cases h
  simp only [EStateM.run, writeTmp] at hwrite
  split at hwrite
  · cases hwrite
  · cases hwrite
    obtain ⟨_, s₃, htick, hreplace⟩ := EStateM.exists_of_bind_eq_ok hreplace
    obtain rfl := tick_ok htick
    simp only [EStateM.run, Dict.get?_set_self] at hreplace
    cases hreplace
    exact ⟨rfl, rfl, rfl⟩

theorem Heap.Sound.settle {h : Heap} {path : String} {t L R : Nat} (hs : h.Sound t L R) (l : List Nat) :
    (h.settle sv lib path l).Sound t L R where
  table := hs.table
  bounds := hs.bounds
  apart := hs.apart
  within name key item hitem := by
    rw [Heap.length_settle]
    exact hs.within name key item hitem

/-- What has changed after an answer has been saved. -/
structure Store.Saved (sv : Services) (lib : DnsPython) (source : String) (s : Store) (new : NewRule) (s' : Store) :
    Prop where
  file : ∃ current text, savedRuleFile sv lib s.rulesDir source = .ok current ∧
    readRuleFile sv lib source text = .ok (current.add new) ∧ s'.rulesDir = s.rulesDir.set source text
  policy : ∀ name, s'.policy.get? name =
    if name = source then some (((s.policy.get? source).getD ⟨[], []⟩).push new.object new.key)
    else s.policy.get? name

theorem appendRuleObject_ok {s s' : Store} (hs : s.WellFormed) {sources : SourceMap}
    (hrun : (appendRuleObject sv lib io sources request decision).run s = .ok () s') :
    s'.WellFormed ∧ ¬ OneList io s.rulesDir request.source ∧ ∃ new,
      decidedRule lib io.resolver request decision = .ok new ∧ s.Saved sv lib request.source new s' := by
  obtain ⟨_, _, hcheck, hrun⟩ := EStateM.exists_of_bind_eq_ok hrun
  obtain ⟨_, c₀, rfl, -, rfl⟩ := Returns.check s.clock _ _ hcheck
  -- The file.
  obtain ⟨data, _, hread, hrun⟩ := EStateM.exists_of_bind_eq_ok hrun
  obtain ⟨h₁, c₁, rfl, hextends, rules4, dns, current, hload, hcurrent, hone⟩ :=
    (readData_safe request.source).returns (readData_returns request.source) c₀ _ _ hread
  obtain ⟨hsound₁, hpolicy₁⟩ := Heap.Sound.of_extends hs hextends
  -- The copy of the policy.
  obtain ⟨_, _, ⟨⟩, hrun⟩ := EStateM.exists_of_bind_eq_ok hrun
  obtain ⟨t, _, hcopy, hrun⟩ := EStateM.exists_of_bind_eq_ok hrun
  obtain ⟨_, c₂, rfl, rfl, rfl⟩ := Returns.alter c₁ _ _ hcopy
  obtain ⟨hsound₂, hpolicy₂⟩ := hsound₁.copy h₁
  -- The new rule in both, and the check of the file.
  obtain ⟨_, _, happend, hrun⟩ := EStateM.exists_of_bind_eq_ok hrun
  obtain ⟨h₃, c₃, rfl, key, p, m, rs, ha, hnew⟩ := appendObject_returns (hload.append h₁) hsound₂
    (by simp [Heap.append]) (by simp [Heap.append]) c₂ _ _ happend
  obtain ⟨_, _, hvalidate, hrun⟩ := EStateM.exists_of_bind_eq_ok hrun
  obtain ⟨_, c₄, rfl, _, _, file, hlists, hreads, rfl⟩ := validateData_returns data c₃ _ _ hvalidate
  obtain rfl := Except.ok.inj (hload.lists.rules4.symm.trans hlists.rules4)
  obtain rfl := Except.ok.inj (hload.lists.dns.symm.trans hlists.dns)
  obtain ⟨hapart, new, hdecided, rfl, rfl, hobject⟩ := hnew file hreads
  -- The file is written and replaces the old one, and the copy becomes the policy.
  obtain ⟨_, _, hdump, hrun⟩ := EStateM.exists_of_bind_eq_ok hrun
  obtain ⟨_, c₅, rfl, rfl, rfl⟩ := Returns.alter c₄ _ _ hdump
  obtain ⟨hheap, hrules, hrulesDir⟩ := replace_ok hrun
  have hwithin : ∀ a ∈ h₃.fileAddresses rules4 dns, a < h₁.rules.length ∨ (h₁.append h₁).rules.length ≤ a :=
    fun a hmem => (ha.mem_fileAddresses (hload.append h₁) hmem).imp_right Eq.ge
  refine ⟨?_, fun h => hapart (hone.2 h), new, hdecided, ⟨current, _, hcurrent, ?_, hrulesDir⟩, fun name => ?_⟩
  · rw [Store.WellFormed, hheap, hrules]
    exact (ha.sound.settle _).mono (Nat.zero_le _) (Nat.zero_le _)
  · exact readRuleFile_eq_ok.2 ⟨_, rfl, hlists.validateRuleFile_iff.2 (Heap.reads_settle.2 hreads)⟩
  · rw [Store.policy, hheap, hrules]
    have hpolicy := ha.policy hsound₂ hwithin hobject name
    rw [hpolicy₂, hpolicy₂, hpolicy₁] at hpolicy
    exact hpolicy

namespace Sample

def webRule : FlowRule := ⟨.str "no PTR", .any, .tcp, "80", .allow⟩

/-- A source with a rule in its file and in memory. -/
def store : Store where
  heap := ⟨[(NewRule.flow webRule).object], [[.rule 0], []], [.ofList [("work", ⟨0, 1⟩)]]⟩
  rules := 0
  rulesDir := .ofList [("work", .yaml (.map (RuleFile.dump ⟨[webRule], []⟩)))]
  tmpFiles := .empty
  clock := 0

/-- A table with one source that has two lists. -/
theorem sound_work {h : Heap} (htables : h.tables = [.ofList [("work", ⟨0, 1⟩)]]) (hlists : 2 ≤ h.lists.length)
    (hitems : ∀ l, ∀ item ∈ h.items l, item.Below h.rules.length) : h.Sound 0 0 0 := by
  have htable : h.table 0 = .ofList [("work", ⟨0, 1⟩)] := by simp [Heap.table, htables]
  have hentry : ∀ name o, (h.table 0).get? name = some o → name = "work" ∧ o = ⟨0, 1⟩ := by
    intro name o ho
    rw [htable] at ho
    have hmem : (name, o) ∈ [("work", (⟨0, 1⟩ : SourceObject))] := Dict.get?_eq_some_iff.1 ho
    simpa using hmem
  refine ⟨by simp [htables], ?_, ?_, ?_⟩
  · intro name o key ho
    obtain ⟨rfl, rfl⟩ := hentry name o ho
    cases key
    · exact ⟨Nat.zero_le _, Nat.lt_of_lt_of_le Nat.zero_lt_two hlists⟩
    · exact ⟨Nat.zero_le _, hlists⟩
  · intro name o key name' o' key' ho ho' heq
    obtain ⟨rfl, rfl⟩ := hentry name o ho
    obtain ⟨rfl, rfl⟩ := hentry name' o' ho'
    refine ⟨rfl, ?_⟩
    cases key <;> cases key' <;> simp_all [SourceObject.at]
  · intro name key item hitem
    cases ho : (h.table 0).get? name with
    | none =>
      rw [Heap.itemsOf_of_none ho] at hitem
      cases hitem
    | some o =>
      rw [Heap.itemsOf_of_get? ho] at hitem
      refine ⟨?_, hitems _ item hitem⟩
      cases item with
      | rule address => exact Nat.zero_le _
      | other value => trivial

theorem store_wellFormed : store.WellFormed := by
  refine sound_work rfl (by decide) fun l item hitem => ?_
  match l with
  | 0 =>
    obtain rfl : item = .rule 0 := List.mem_singleton.1 hitem
    exact Nat.zero_lt_one
  | 1 => cases hitem
  | _ + 2 => cases hitem

/-- Files have no anchors, and the disk may be full when the temporary file is written. -/
def saveIo (full : Bool) : SaveIo :=
  .withoutAnchors works.resolver (fun n => if full ∧ n = 46 then some (.osError "No space left on device") else none)
    fun _ => none

def saved (full : Bool) : EStateM.Result PyError Store Unit :=
  (appendRuleObject .empty dnspython (saveIo full) .empty Sample.request .allow).run store

end Sample

end QubesSnitch
