import QubesSnitch.AcceptedHeap
import QubesSnitch.SavedDecision

/-!
# One list under both keys

YAML can name a list and use it again.  A file whose keys `rules4` and `dns` have the same empty list loads, but a rule
that is added to one of them is in the other, too, and `append_rule` refuses the file that it has just changed.

No other file refuses an answer: where no operation raises, a prepared answer is saved exactly if the file of its source
has two lists (`appendRuleObject_returns_iff`).
-/

namespace QubesSnitch

variable {sv : Services} {lib : DnsPython} {io : SaveIo} {request : Request} {decision : Decision}

/-- The loader makes an object of every list of a file and of every mapping in such a list. -/
structure Graph.Typed (g : Graph) : Prop where
  nodes : ∀ e ∈ g.root, e.2.Typed
  items : ∀ items ∈ g.heap.lists, ∀ item ∈ items, item.Typed

/-- No operation raises, and the loader makes objects. -/
structure SaveIo.Works (io : SaveIo) : Prop where
  faultless : io.Faultless
  typed : ∀ path text g, io.load path text = .ok g → g.Typed

/-! ### Files without anchors -/

theorem Heap.addValues_typed (h : Heap) (values : List Yaml) :
    ∀ item ∈ (h.addValues (values.map ItemValue.ofTree)).1, item.Typed := by
  induction values generalizing h with
  | nil => simp [addValues]
  | cons value values ih =>
    cases value with
    | map entries => exact List.forall_mem_cons.2 ⟨trivial, ih _⟩
    | scalar s => exact List.forall_mem_cons.2 ⟨(fun _ hmap => Yaml.noConfusion hmap), ih h⟩
    | seq items => exact List.forall_mem_cons.2 ⟨(fun _ hmap => Yaml.noConfusion hmap), ih h⟩

theorem Heap.addData_typed {h : Heap} (hh : ∀ items ∈ h.lists, ∀ item ∈ items, item.Typed)
    (entries : List (Scalar × Yaml)) : (∀ e ∈ (h.addData entries).1, e.2.Typed) ∧
      ∀ items ∈ (h.addData entries).2.lists, ∀ item ∈ items, item.Typed := by
  induction entries generalizing h with
  | nil => exact ⟨by simp [addData], hh⟩
  | cons entry entries ih =>
    obtain ⟨key, value⟩ := entry
    cases value with
    | scalar s => exact ⟨List.forall_mem_cons.2 ⟨rfl, (ih hh).1⟩, (ih hh).2⟩
    | map items => exact ⟨List.forall_mem_cons.2 ⟨rfl, (ih hh).1⟩, (ih hh).2⟩
    | seq values =>
      have htyped := h.addValues_typed values
      have hlists := (h.addValues_adds (values.map ItemValue.ofTree)).lists
      rw [addData]
      generalize h.addValues (values.map ItemValue.ofTree) = list at htyped hlists
      have hnew : ∀ items ∈ list.2.lists ++ [list.1], ∀ item ∈ items, item.Typed := by
        intro items hitems
        rcases List.mem_append.1 hitems with hold | hnew
        · exact hh items (hlists ▸ hold)
        · rwa [List.mem_singleton.1 hnew]
      have hrest := @ih { list.2 with lists := list.2.lists ++ [list.1] } hnew
      exact ⟨List.forall_mem_cons.2 ⟨trivial, hrest.1⟩, hrest.2⟩

theorem Graph.Typed.ofTree (entries : List (Scalar × Yaml)) : (Graph.ofTree entries).Typed := by
  have htyped := @Heap.addData_typed ⟨[], [], []⟩ (fun items hitems => absurd hitems List.not_mem_nil) entries
  exact ⟨htyped.1, htyped.2⟩

theorem Graph.Typed.of_map {path : String} {text : RuleText} {g : Graph}
    (h : (readYaml path text).map Graph.ofTree = .ok g) : g.Typed := by
  cases hentries : readYaml path text with
  | error e =>
    rw [hentries] at h
    cases h
  | ok entries =>
    rw [hentries] at h
    cases h
    exact .ofTree entries

theorem SaveIo.works_withoutAnchors {resolver : Resolver} {fault : Nat → Option PyError} {torn : Nat → Option RuleText}
    (h : ∀ n, fault n = none) : (SaveIo.withoutAnchors resolver fault torn).Works :=
  ⟨h, fun _ _ _ => .of_map⟩

/-! ### Reading the file -/

section Read

variable {s : Store} {h : Heap}

theorem Node.Typed.shift {node : Node} (h : node.Typed) (n : Nat) : (node.shift n).Typed := by
  cases node with
  | list address => trivial
  | other value => exact h

theorem typedList_place (h : Heap) {g : Graph} (hg : g.Typed) {path key : String} {l : Nat}
    (hl : listNode path (g.root.map fun e => (e.1, e.2.shift h.lists.length)) key = .ok l) :
    (h.append g.heap).TypedList l := by
  obtain ⟨a, -, rfl⟩ := exists_of_listNode_shift hl
  intro item hitem
  rw [Heap.items_shift] at hitem
  obtain ⟨item', hitem', rfl⟩ := List.mem_map.1 hitem
  unfold Heap.items at hitem'
  cases hlist : g.heap.lists[a]? with
  | none => simp [hlist] at hitem'
  | some items =>
    have htyped := hg.items items (List.mem_of_getElem? hlist) item' (by simpa [hlist] using hitem')
    cases item' with
    | rule address => trivial
    | other value => exact htyped

theorem Heap.TypedList.append {l : Nat} (htyped : h.TypedList l) (hl : l < h.lists.length) (g : Heap) :
    (h.append g).TypedList l := by
  unfold TypedList
  rw [items_older (List.prefix_append _ _) hl]
  exact htyped

theorem readData_typed (hio : io.Works) (source : String) :
    Returns s h (readData sv lib io source) fun data h' => ∀ key l,
      listNode (rulePath source) data key = .ok l → h'.TypedList l := by
  refine .tick <| .get fun clock => ?_
  dsimp only
  cases s.rulesDir.get? source with
  | none =>
    refine .alter_bind <| .alter_bind <| .pure fun key l hl item hitem => ?_
    have hge : h.lists.length ≤ l := by
      unfold listNode at hl
      by_cases hrules4 : key = "rules4"
      · subst hrules4
        cases hl
        exact Nat.le_refl _
      · by_cases hdns : key = "dns"
        · subst hdns
          cases hl
          simp
        · simp [Ne.symm hrules4, Ne.symm hdns] at hl
    have hitem : item ∈ ({ h with lists := h.lists ++ [[]] ++ [[]] } : Heap).items l := hitem
    rw [Heap.items_newLists, Heap.items, List.getElem?_eq_none hge] at hitem
    cases hitem
  | some text =>
    refine .check_bind fun g hload => .alter_bind <| (validateData_returns _).bind ?_
    rintro _ _ ⟨-, -, -, -, -, rfl⟩
    exact .pure fun key l hl => typedList_place h (hio.typed _ _ _ hload) hl

theorem exists_listNode {path key : String} {data : Data} (hnodes : ∀ e ∈ data, e.2.Typed) {values : List Yaml}
    (hvalues : ruleList path (h.dataTree data) key = .ok values) : ∃ address, listNode path data key = .ok address := by
  unfold ruleList getItem lookupKey Heap.dataTree at hvalues
  rw [List.find?_map] at hvalues
  have hkey : (fun e : Scalar × Yaml => decide (e.1 = .str key)) ∘ (fun e : Scalar × Node => (e.1, h.nodeTree e.2)) =
      fun e => decide (e.1 = .str key) := rfl
  rw [hkey] at hvalues
  unfold listNode
  cases hfound : data.find? fun e => decide (e.1 = .str key) with
  | none =>
    rw [hfound] at hvalues
    cases hvalues
  | some e =>
    rw [hfound] at hvalues
    have htyped := hnodes e (List.mem_of_find?_eq_some hfound)
    obtain ⟨k, node⟩ := e
    cases node with
    | list address => exact ⟨address, rfl⟩
    | other value =>
      -- a value that is no list is refused in the tree, too
      cases value with
      | scalar value => cases hvalues
      | seq values => cases htyped
      | map entries => cases hvalues

/-- An accepted mapping has two keys with lists. -/
theorem exists_dataLists {path : String} {data : Data} (hnodes : ∀ e ∈ data, e.2.Typed) {file : RuleFile}
    (hfile : validateRuleFile sv lib path (h.dataTree data) = .ok file) :
    ∃ rules4 dns, DataLists path data rules4 dns := by
  have hsame : (h.dataTree data).map Prod.fst = data.map Prod.fst := by simp [Heap.dataTree, Function.comp_def]
  unfold validateRuleFile at hfile
  dsimp only at hfile
  split at hfile
  · cases hfile
  · rename_i hkeys
    obtain ⟨rules4, hrules4, hfile⟩ := Except.exists_of_bind_eq_ok hfile
    obtain ⟨dns, hdns, hfile⟩ := Except.exists_of_bind_eq_ok hfile
    obtain ⟨r, hr⟩ := exists_listNode hnodes hrules4
    obtain ⟨d, hd⟩ := exists_listNode hnodes hdns
    rw [hsame, Bool.not_eq_true, Bool.not_eq_false'] at hkeys
    exact ⟨r, d, hkeys, hr, hd⟩

/-- A file that is accepted can be read. -/
theorem readData_succeeds (hio : io.Works) {source : String} {current : RuleFile}
    (hcurrent : savedRuleFile sv lib s.rulesDir source = .ok current) :
    Succeeds s h (readData sv lib io source) := by
  refine .tick hio.faultless <| .get fun clock => ?_
  dsimp only
  unfold savedRuleFile at hcurrent
  cases hget : s.rulesDir.get? source with
  | none => exact .alter_bind hio.faultless <| .alter_bind hio.faultless .pure
  | some text =>
    rw [hget] at hcurrent
    obtain ⟨entries, hentries, hfile⟩ := readRuleFile_eq_ok.1 hcurrent
    have hyaml := io.load_tree (rulePath source) text
    rw [hentries] at hyaml
    cases hload : io.load (rulePath source) text with
    | error e =>
      rw [hload] at hyaml
      cases hyaml
    | ok g =>
      rw [hload] at hyaml
      have htree : g.heap.dataTree g.root = entries := Except.ok.inj hyaml
      rw [← htree, ← dataTree_place h g] at hfile
      have hg := hio.typed _ _ _ hload
      have hnodes : ∀ e ∈ g.root.map fun e => (e.1, e.2.shift h.lists.length), e.2.Typed := by
        intro e he
        obtain ⟨e', he', rfl⟩ := List.mem_map.1 he
        exact (hg.nodes e' he').shift _
      obtain ⟨rules4, dns, hlists⟩ := exists_dataLists hnodes hfile
      exact .check_bind hio.faultless hload <| .alter_bind hio.faultless <|
        (validateData_succeeds hio.faultless hlists (hlists.validateRuleFile_iff.1 hfile)
          (typedList_place h hg hlists.rules4) (typedList_place h hg hlists.dns)).bind (validateData_returns _)
            fun _ _ _ => .pure

end Read

/-! ### Adding the rule -/

theorem promptPort_succeeds {request : Request} (hw : request.WellFormed) :
    promptPort request = .ok (portText (requestPort request)) := by
  obtain ⟨proto, hproto, hport⟩ := requestPort_wellFormed hw.packet
  unfold promptPort
  rw [hproto]
  rcases hport with ⟨rfl, -⟩ | ⟨-, n, hn, -⟩
  · simp
  · simp [hn]

/-- A DNS question is not answered for a host name. -/
theorem Prepared.plain_of_dns {request : Request} {decision : Decision} (h : Prepared lib request decision)
    {qname qtype : String} (hdns : request.kind = .dns qname qtype) : decision.isHostname = false := by
  cases hd : decision.isHostname with
  | false => rfl
  | true =>
    have hflow := (h hd).1
    rw [hdns] at hflow
    cases hflow

section Append

variable {s : Store} {h h' : Heap} {t L R rules4 dns : Nat} {data : Data}

theorem sourceLists_succeeds (hio : io.Faultless) (source : String) : Succeeds s h (sourceLists io t source) := by
  refine .alter_bind hio ?_
  cases (h.table t).get? source with
  | some o => exact .pure
  | none => exact .alter_bind hio <| .alter_bind hio <| .alter_bind hio .pure

/-- The name of a prepared answer, and its addresses, are there. -/
theorem decidedName_succeeds (resolver : Resolver) (hp : Prepared lib request decision) :
    ∃ name resolved, decidedName lib request decision = .ok name ∧ RuntimeAddresses resolver request name resolved := by
  unfold decidedName
  by_cases hhost : decision.isHostname
  · obtain ⟨-, ⟨host, qname, htrusted, hqname⟩, ips, hips, hmem⟩ := hp hhost
    obtain ⟨x, xs, rfl⟩ := List.exists_cons_of_ne_nil (List.ne_nil_of_mem hmem)
    refine ⟨some qname, some (x :: xs), ?_, .name ?_⟩
    · rw [if_pos hhost, htrusted]
      simp only [hqname, bind, Except.bind]
      rfl
    · rw [promptAddresses, hips]
  · exact ⟨none, none, if_neg hhost, .address⟩

theorem resolveRuntimeRule_succeeds (hio : io.Faultless) (address : Nat) {name : Option String}
    {resolved : Option (List IPv4)} (hresolved : RuntimeAddresses io.resolver request name resolved) :
    Succeeds s h (resolveRuntimeRule io request address name) := by
  cases hresolved with
  | address => exact .pure
  | name hips => exact .check_bind hio hips (.alter hio)

theorem resolveRuntimeRule_any (address : Nat) (name : Option String) :
    Returns s h (resolveRuntimeRule io request address name) fun _ _ => True := by
  cases name with
  | none => exact .pure trivial
  | some qname => exact .check_bind fun ips _ => Returns.alter.conseq fun _ _ _ => trivial

theorem appendFlowObject_succeeds (hio : io.Faultless) (hw : request.WellFormed) (hp : Prepared lib request decision)
    (hsound : h.Sound t L R) (hL : L ≤ h.lists.length)
    (hrules4 : listNode (rulePath request.source) data "rules4" = .ok rules4) (hlt : rules4 < L) :
    Succeeds s h (appendFlowObject lib io request decision data t) := by
  obtain ⟨name, resolved, hname, hresolved⟩ := decidedName_succeeds io.resolver hp
  exact .check_bind hio (promptPort_succeeds hw) <| .check_bind hio hname <| .alter_bind hio <|
    .check_bind hio hrules4 <| .alter_bind hio <|
      (sourceLists_succeeds hio _).bind (sourceLists_returns (.fileRule hsound hL _ hlt)) fun o h' _ =>
        .alter_bind hio <| .alter_bind hio <|
          (resolveRuntimeRule_succeeds hio _ hresolved).bind (resolveRuntimeRule_any _ _) fun _ _ _ => .alter hio

theorem appendObject_succeeds (hio : io.Faultless) (hw : request.WellFormed) (hp : Prepared lib request decision)
    (hsound : h.Sound t L R) (hL : L ≤ h.lists.length) (hlists : DataLists (rulePath request.source) data rules4 dns)
    (hrules4 : rules4 < L) (hdns : dns < L) : Succeeds s h (appendObject lib io request decision data t) := by
  unfold appendObject
  split
  · exact .alter_bind hio <| .check_bind hio hlists.dns <| .alter_bind hio <|
      (sourceLists_succeeds hio _).bind (sourceLists_returns (.fileRule hsound hL _ hdns)) fun _ _ _ => .alter hio
  · exact appendFlowObject_succeeds hio hw hp hsound hL hlists.rules4 hrules4

/-! ### The new rule is accepted -/

theorem questionEntries_accepted (path : String) {qname qtype : String} (hq : CanonicalQuestion qname qtype)
    (hplain : decision.isHostname = false) : ∃ rule,
      validateDnsEntry lib path (.map (questionEntries decision qname qtype)) = .ok rule := by
  have hdump : Yaml.map (questionEntries decision qname qtype) = (DnsRule.mk qname qtype decision.action).dump := by
    cases decision with
    | allow => rfl
    | reject => rfl
    | allowDns => cases hplain
    | rejectDns => cases hplain
  rw [hdump]
  exact ⟨_, validateDnsEntry_dump lib path hq⟩

theorem promptEntries_accepted (path : String) {resolver : Resolver} {port : String} {name : Option String}
    {resolved : Option (List IPv4)} (hw : request.WellFormed) (hport : promptPort request = .ok port)
    (hname : decidedName lib request decision = .ok name) (hresolved : RuntimeAddresses resolver request name resolved) :
    ∃ rule, validateFlowRule sv lib path (.map (promptEntries request decision port name)) = .ok rule := by
  obtain ⟨dest, hdest, hentry, -⟩ := promptDest_of_decidedName hname hresolved path port
  obtain ⟨proto, hproto, -⟩ := hw.packet
  obtain rfl := Except.ok.inj ((promptPort_succeeds hw).symm.trans hport)
  let rule : FlowRule :=
    ⟨.str (promptPtr request decision), dest, proto, portText (requestPort request), decision.action⟩
  have hanswers : Answers request decision rule := ⟨hproto, rfl, rfl, promptDest_ok hdest⟩
  have husable : rule.Usable sv := hanswers.usable hw
  have hdump : rule.dump = .map (promptEntries request decision (portText (requestPort request)) name) := by
    rw [promptEntries, ← hentry, hproto]
    cases dest <;> rfl
  exact ⟨rule.stored, by rw [← hdump, validateFlowRule_dump lib path husable.toValid]⟩

section Reads

variable {path source : String} {key : ListKey} {p m : Nat} {r : RuleObject} {rs : List RuleObject}
  {current : RuleFile} {α : Type} {check : Yaml → Except PyError α} {old : List α}

theorem Heap.Appended.mapM_added (ha : h.Appended t L R source key p m (r :: rs) h') (hR : R ≤ h.rules.length)
    (hp : h.InPlace L R p) (hold : (h.trees (h.items p)).mapM check = .ok old) {rule : α}
    (hrule : check (.map r.entries) = .ok rule) : (h'.trees (h'.items p)).mapM check = .ok (old ++ [rule]) := by
  rw [ha.trees hR hp, if_pos rfl, Except.mapM_eq_ok_iff]
  exact List.rel_append (Except.mapM_eq_ok_iff.1 hold) (.cons hrule .nil)

theorem Heap.Appended.mapM_other (ha : h.Appended t L R source key p m (r :: rs) h') (hR : R ≤ h.rules.length)
    {l : Nat} (hl : h.InPlace L R l) (hne : l ≠ p) (hold : (h.trees (h.items l)).mapM check = .ok old) :
    (h'.trees (h'.items l)).mapM check = .ok old := by
  rw [ha.trees hR hl, if_neg hne, List.append_nil, hold]

theorem Heap.Appended.typedList (ha : h.Appended t L R source key p m (r :: rs) h') {l : Nat} (hl : l < L)
    (htyped : h.TypedList l) : h'.TypedList l := by
  intro item hitem
  rw [ha.items l hl] at hitem
  rcases List.mem_append.1 hitem with hold | hnew
  · exact htyped item hold
  · split at hnew
    · rw [List.mem_singleton.1 hnew]
      trivial
    · cases hnew

/-- If the file has two lists, it is accepted with the rule of a prepared answer. -/
theorem appendObject_accepted (hload : h.Loaded sv lib (rulePath request.source) L R data rules4 dns current)
    (hs : h.Sound t L R) (hL : L ≤ h.lists.length) (hR : R ≤ h.rules.length) (hne : rules4 ≠ dns)
    (hrules4 : h.TypedList rules4) (hdns : h.TypedList dns) (hw : request.WellFormed)
    (hp : Prepared lib request decision) :
    Returns s h (appendObject lib io request decision data t) fun _ h' =>
      (∃ file, h'.Reads sv lib (rulePath request.source) rules4 dns file) ∧ h'.TypedList rules4 ∧
        h'.TypedList dns := by
  unfold appendObject
  rcases hw.kind with hflow | ⟨qname, qtype, hkind, hq, -⟩
  · rw [hflow]
    refine (appendFlowObject_returns hs hL hR hload.lists.rules4 hload.rules4InPlace.list).conseq ?_
    rintro _ h' ⟨port, name, resolved, hport, hname, hresolved, ha⟩
    obtain ⟨rule, hrule⟩ := @promptEntries_accepted sv lib request decision (rulePath request.source) _ _ _ _ hw hport
      hname hresolved
    exact ⟨⟨⟨current.rules4 ++ [rule], current.dns⟩, ha.mapM_added hR hload.rules4InPlace hload.reads.rules4 hrule,
      ha.mapM_other hR hload.dnsInPlace hne.symm hload.reads.dns⟩, ha.typedList hload.rules4InPlace.list hrules4,
      ha.typedList hload.dnsInPlace.list hdns⟩
  · rw [hkind]
    refine (appendDnsObject_returns hs hL hR hload.lists.dns hload.dnsInPlace.list).conseq ?_
    intro _ h' ha
    obtain ⟨rule, hrule⟩ := @questionEntries_accepted lib decision (rulePath request.source) _ _ hq
      (hp.plain_of_dns hkind)
    exact ⟨⟨⟨current.rules4, current.dns ++ [rule]⟩, ha.mapM_other hR hload.rules4InPlace hne hload.reads.rules4,
      ha.mapM_added hR hload.dnsInPlace hload.reads.dns hrule⟩, ha.typedList hload.rules4InPlace.list hrules4,
      ha.typedList hload.dnsInPlace.list hdns⟩

end Reads

end Append

/-! ### Saving -/

/-- Writing works where no operation raises. -/
theorem replace_succeeds (hio : io.Faultless) (s : Store) (source : String) (text : RuleText) (t : Nat) :
    ∃ s', (do writeTmp io source text; replaceFile io source; modify fun s => { s with rules := t } : Save Unit).run s =
      .ok () s' := by
  have hwrite : (writeTmp io source text).run s =
      .ok () { s with clock := s.clock + 1, tmpFiles := s.tmpFiles.set source text } := by
    simp only [EStateM.run, writeTmp, hio s.clock]
  have hreplace : ∃ s₂, (replaceFile io source).run
      { s with clock := s.clock + 1, tmpFiles := s.tmpFiles.set source text } = .ok () s₂ := by
    simp only [EStateM.run, replaceFile, bind, EStateM.bind, tick, hio (s.clock + 1), Dict.get?_set_self]
    exact ⟨_, rfl⟩
  obtain ⟨s₂, hreplace⟩ := hreplace
  rw [EStateM.run_bind_of_ok hwrite, EStateM.run_bind_of_ok hreplace]
  exact ⟨_, rfl⟩

/-- A prepared answer is saved exactly if the file of its source, which is accepted, has two lists. -/
theorem appendRuleObject_returns_iff {s : Store} (hs : s.WellFormed) (hio : io.Works) {sources : SourceMap}
    (hw : request.WellFormed) (hp : Prepared lib request decision) (hsource : request.source ∈ sources.byName.keys)
    {current : RuleFile} (hcurrent : savedRuleFile sv lib s.rulesDir request.source = .ok current) :
    (∃ s', (appendRuleObject sv lib io sources request decision).run s = .ok () s') ↔
      ¬ OneList io s.rulesDir request.source := by
  constructor
  · rintro ⟨s', hrun⟩
    exact (appendRuleObject_ok hs hrun).2.1
  intro hone
  have hfault := hio.faultless
  suffices hsucceeds : Succeeds s s.heap (appendRuleObject sv lib io sources request decision) by
    obtain ⟨_, s', hrun⟩ := hsucceeds s.clock
    exact ⟨s', hrun⟩
  refine .check_bind hfault (if_neg (by simp [hsource])) <| (readData_succeeds hio hcurrent).bind
    (((readData_safe _).returns (readData_returns _)).and (readData_typed hio _)) ?_
  rintro data h₁ ⟨⟨hextends, rules4, dns, current', hload, -, hlists⟩, htyped⟩
  obtain ⟨hsound₁, -⟩ := Heap.Sound.of_extends hs hextends
  obtain ⟨hsound₂, -⟩ := hsound₁.copy h₁
  -- the copy of the policy, the new rule, and the check of the file with it
  refine .get fun clock => .alter_bind hfault ?_
  have hload := hload.append h₁
  have hL : h₁.lists.length ≤ (h₁.append h₁).lists.length := by simp [Heap.append]
  have hR : h₁.rules.length ≤ (h₁.append h₁).rules.length := by simp [Heap.append]
  have hrules4 := (htyped _ _ hload.lists.rules4).append hload.rules4InPlace.list h₁
  have hdns := (htyped _ _ hload.lists.dns).append hload.dnsInPlace.list h₁
  refine (appendObject_succeeds hfault hw hp hsound₂ hL hload.lists hload.rules4InPlace.list
    hload.dnsInPlace.list).bind
      (appendObject_accepted hload hsound₂ hL hR (fun heq => hone (hlists.1 heq)) hrules4 hdns hw hp) ?_
  rintro _ h₃ ⟨⟨file, hreads⟩, hrules4, hdns⟩
  refine (validateData_succeeds hfault hload.lists hreads hrules4 hdns).bind (validateData_returns _) fun _ h₄ _ =>
    .alter_bind hfault ?_
  intro clock
  obtain ⟨s', hs'⟩ := replace_succeeds hfault _ request.source _ _
  exact ⟨_, s', hs'⟩

end QubesSnitch
