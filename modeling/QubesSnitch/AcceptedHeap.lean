import QubesSnitch.CheckedHeap

/-!
# Checks that accept

Where no operation raises, the check of a file on the heap returns whenever the tree of the file is accepted
(`validateData_succeeds`); `validateData_returns` is the other direction.
-/

namespace QubesSnitch

variable {sv : Services} {lib : DnsPython} {path : String} {io : SaveIo} {s : Store} {h : Heap}

/-! ### Operations that are sure to return -/

/-- The operation returns, from `s` with the objects `h`. -/
def Succeeds (s : Store) (h : Heap) {α : Type} (x : Save α) : Prop :=
  ∀ clock, ∃ a s', x.run { s with heap := h, clock := clock } = .ok a s'

/-- No operation raises. -/
def SaveIo.Faultless (io : SaveIo) : Prop := ∀ n, io.fault n = none

theorem tick_run (hio : io.Faultless) (s : Store) : (tick io).run s = .ok () { s with clock := s.clock + 1 } := by
  simp only [EStateM.run, tick, hio s.clock]

namespace Succeeds

variable {α β : Type}

theorem pure {a : α} : Succeeds s h (pure a : Save α) := fun _ => ⟨a, _, rfl⟩

/-- What follows has to succeed from what the first operation leaves. -/
theorem bind {x : Save α} {f : α → Save β} {P : α → Heap → Prop} (hx : Succeeds s h x) (hr : Returns s h x P)
    (hf : ∀ a h', P a h' → Succeeds s h' (f a)) : Succeeds s h (x >>= f) := by
  intro clock
  obtain ⟨a, t, hxt⟩ := hx clock
  obtain ⟨h', clock', rfl, hP⟩ := hr clock a t hxt
  obtain ⟨b, s', hft⟩ := hf a h' hP clock'
  exact ⟨b, s', (EStateM.run_bind_of_ok hxt f).trans hft⟩

theorem tick (hio : io.Faultless) {f : Unit → Save β} (hf : Succeeds s h (f ())) :
    Succeeds s h (tick io >>= f) := by
  intro clock
  obtain ⟨b, s', hft⟩ := hf (clock + 1)
  exact ⟨b, s', (EStateM.run_bind_of_ok (tick_run hio _) f).trans hft⟩

theorem get {f : Store → Save β} (hf : ∀ clock, Succeeds s h (f { s with heap := h, clock := clock })) :
    Succeeds s h (get >>= f) := fun clock => hf clock clock

theorem check (hio : io.Faultless) {x : Except PyError α} {a : α} (hx : x = .ok a) :
    Succeeds s h (QubesSnitch.check io x) := by
  refine .tick hio ?_
  rw [hx]
  exact pure

theorem alter (hio : io.Faultless) {g : Heap → α × Heap} : Succeeds s h (QubesSnitch.alter io g) :=
  .tick hio fun _ => ⟨_, _, rfl⟩

theorem check_bind (hio : io.Faultless) {x : Except PyError α} {a : α} {f : α → Save β} (hx : x = .ok a)
    (hf : Succeeds s h (f a)) : Succeeds s h (QubesSnitch.check io x >>= f) := by
  refine (check hio hx).bind Returns.check ?_
  rintro b _ ⟨hb, rfl⟩
  obtain rfl := Except.ok.inj (hx.symm.trans hb)
  exact hf

theorem alter_bind (hio : io.Faultless) {g : Heap → α × Heap} {f : α → Save β}
    (hf : Succeeds s (g h).2 (f (g h).1)) : Succeeds s h (QubesSnitch.alter io g >>= f) := by
  refine (alter hio).bind Returns.alter ?_
  rintro _ _ ⟨rfl, rfl⟩
  exact hf

end Succeeds

/-! ### Objects of their types -/

/-- A mapping in a list is a rule object. -/
def Item.Typed : Item → Prop
  | rule _ => True
  | other value => ∀ entries, value ≠ .map entries

/-- A list is a list object. -/
def Node.Typed : Node → Prop
  | list _ => True
  | other value => value.isList = false

def Heap.TypedList (h : Heap) (l : Nat) : Prop := ∀ item ∈ h.items l, item.Typed

/-! ### Checking a flow rule -/

theorem DestEntry.unique {entries : List (Scalar × Yaml)} {dest dest' : Dest} (hdest : DestEntry lib path entries dest)
    (hdest' : DestEntry lib path entries dest') : dest = dest' := by
  cases hdest with
  | name hname hnone hqname =>
    cases hdest' with
    | name hname' hnone' hqname' =>
      obtain rfl := Option.some.inj (hname.symm.trans hname')
      rw [Except.ok.inj (hqname.symm.trans hqname')]
    | network hnone' => cases hname.symm.trans hnone'
  | network hnone hvalue hscalar hnetwork =>
    cases hdest' with
    | name hname' => cases hnone.symm.trans hname'
    | network hnone' hvalue' hscalar' hnetwork' =>
      obtain rfl := Option.some.inj (hvalue.symm.trans hvalue')
      exact Except.ok.inj (hnetwork.symm.trans hnetwork')

theorem FlowEntries.target {entries : List (Scalar × Yaml)} {rule : FlowRule}
    (h : FlowEntries sv lib path entries rule) : validateFlowTarget sv path rule.proto entries = .ok () := by
  have hport : ∀ value : Yaml, value.isList = false → validatePortText path value (.str rule.port) = .ok rule.port := by
    intro value hvalue
    unfold validatePortText
    rw [hvalue]
    rfl
  have hentry := h.dest
  generalize rule.dest = dest at hentry
  cases hentry with
  | @name value qname hname hnone hqname =>
    have hscalar : value.isList = false := by
      cases value with
      | scalar v => rfl
      | seq items => cases hqname
      | map items => rfl
    simp only [validateFlowTarget, hname, hnone, h.port, Option.none_or, Option.getD_some, hport value hscalar, h.valid,
      bind, Except.bind]
  | @network value _ hnone hvalue hscalar hnetwork =>
    simp only [validateFlowTarget, hnone, hvalue, h.port, Option.some_or, Option.getD_some, hport value hscalar,
      hnetwork, h.valid, bind, Except.bind]
    rfl

theorem rewriteDestDns_succeeds (hio : io.Faultless) {address : Nat} {entries : List (Scalar × Yaml)} {dest : Dest}
    (hdest : DestEntry lib path entries dest) : Succeeds s h (rewriteDestDns lib io path address entries) := by
  cases hdest with
  | name hname hnone hqname =>
    rw [rewriteDestDns, hname]
    exact .check_bind hio hqname (.alter hio)
  | network hnone =>
    rw [rewriteDestDns, hnone]
    exact .pure

/-- The rewritten entries of an accepted rule, with its protocol, are those after the check. -/
theorem DestRewritten.flowEntries {entries entries' : List (Scalar × Yaml)} {rule : FlowRule}
    (hrewritten : DestRewritten lib path entries entries') (hdest : DestEntry lib path entries rule.dest) :
    setKey entries' "proto" (.str rule.proto.name) = flowEntries entries rule := by
  rw [QubesSnitch.flowEntries]
  cases hrewritten with
  | name hname => rw [hdest.unique hname]
  | dest hnone hvalue =>
    generalize rule.dest = dest at hdest
    cases hdest with
    | name hname => cases hname.symm.trans hnone
    | network _ _ _ hnetwork => rw [nameEntries_network _ hnetwork]

theorem validateFlowRule_map {value : Yaml} {rule : FlowRule} (h : validateFlowRule sv lib path value = .ok rule) :
    ∃ entries, value = .map entries := by
  cases value with
  | map entries => exact ⟨entries, rfl⟩
  | scalar value => cases h
  | seq values => cases h

theorem validateDnsEntry_map {value : Yaml} {rule : DnsRule} (h : validateDnsEntry lib path value = .ok rule) :
    ∃ entries, value = .map entries := by
  cases value with
  | map entries => exact ⟨entries, rfl⟩
  | scalar value => cases h
  | seq values => cases h

/-- An element that is read as a rule is an object. -/
theorem Heap.exists_rule {item : Item} (htyped : item.Typed)
    (hmap : ∃ entries, (h.itemValue item).tree = .map entries) :
    ∃ address r, item = .rule address ∧ h.rules[address]? = some r := by
  obtain ⟨entries, hmap⟩ := hmap
  cases item with
  | other value => exact absurd hmap (htyped entries)
  | rule address =>
    cases hr : h.rules[address]? with
    | none =>
      rw [itemValue, hr] at hmap
      cases hmap
    | some r => exact ⟨address, r, rfl, hr⟩

/-- A rule that is read as a flow rule passes the check of a file. -/
theorem validateFlowObject_succeeds (hio : io.Faultless) {item : Item} (htyped : item.Typed) {rule : FlowRule}
    (hrule : validateFlowRule sv lib path (h.itemValue item).tree = .ok rule) :
    Succeeds s h (validateFlowObject sv lib io path item) := by
  obtain ⟨address, r, rfl, hr⟩ := h.exists_rule htyped (validateFlowRule_map hrule)
  rw [Heap.itemValue, hr] at hrule
  have hentries := FlowEntries.of_ok hrule
  have haction : (do validateAction path ": invalid action: " (← getItem r.entries "action")) = .ok rule.action := by
    rw [hentries.action]
    exact validateAction_name path _ rule.action
  obtain ⟨value, hvalue, hproto⟩ := hentries.proto
  have hproto : (do validateProto path (← getItem r.entries "proto")) = .ok rule.proto := by
    rw [hvalue]
    exact hproto
  refine .alter_bind hio ?_
  simp only [hr, Option.getD_some]
  refine .check_bind hio (if_pos hentries.keys) <| .check_bind hio haction <|
    (rewriteDestDns_succeeds hio hentries.dest).bind (rewriteDestDns_returns hr hentries.keys) ?_
  rintro _ _ ⟨entries, rfl, hrewritten⟩
  refine .check_bind hio hproto <| .alter_bind hio <| .alter_bind hio ?_
  have hlt : address < h.rules.length := (List.getElem?_eq_some_iff.1 hr).1
  have hwritten := Heap.setItem_eq (h := { h with rules := h.rules.set address { r with entries } })
    (List.getElem?_set_self hlt) "proto" (.str rule.proto.name)
  simp only [hwritten, List.set_set, List.getElem?_set_self hlt, Option.getD_some,
    hrewritten.flowEntries hentries.dest]
  exact .check hio hentries.settled.2.target

/-! ### Checking a DNS rule -/

theorem validateDnsObject_succeeds (hio : io.Faultless) {item : Item} (htyped : item.Typed) {rule : DnsRule}
    (hrule : validateDnsEntry lib path (h.itemValue item).tree = .ok rule) :
    Succeeds s h (validateDnsObject lib io path item) := by
  obtain ⟨address, r, rfl, hr⟩ := h.exists_rule htyped (validateDnsEntry_map hrule)
  rw [Heap.itemValue, hr] at hrule
  have hentries := DnsEntries.of_ok hrule
  have haction : (do validateAction path ": invalid DNS action: " (← getItem r.entries "action")) =
      .ok rule.action := by
    rw [hentries.action]
    exact validateAction_name path _ rule.action
  obtain ⟨qname, qtype, hqname, hqtype, hquestion⟩ := hentries.question
  have hquestion : (do validateDnsRule lib path (← getItem r.entries "qname") (← getItem r.entries "qtype")) =
      .ok (rule.qname, rule.qtype) := by
    rw [hqname, hqtype]
    exact hquestion
  refine .alter_bind hio ?_
  simp only [hr, Option.getD_some]
  exact .check_bind hio (if_pos hentries.keys) <| .check_bind hio haction <| .check_bind hio hquestion <|
    .alter_bind hio (.alter hio)

/-! ### Checking the lists of a file -/

section Lists

variable {α : Type} {read : Yaml → Except PyError α}

/-- A list whose elements are read passes the check of its elements, one after the other. -/
theorem forM_succeeds {f : Item → Save PUnit}
    (hread : ∀ (h : Heap) l item a, read ((h.settle sv lib path l).itemValue item).tree = .ok a ↔
      read (h.itemValue item).tree = .ok a)
    (hreturns : ∀ h item, Returns s h (f item) fun _ h' => (∃ a, read (h.itemValue item).tree = .ok a) ∧
      h' = h.settle sv lib path (ruleAddresses [item]))
    (hsucceeds : ∀ (h : Heap) item a, item.Typed → read (h.itemValue item).tree = .ok a → Succeeds s h (f item))
    {items : List Item} (htyped : ∀ item ∈ items, item.Typed) {l : List α}
    (hl : (h.trees items).mapM read = .ok l) : Succeeds s h (items.forM f) := by
  induction items generalizing h l with
  | nil => exact .pure
  | cons item items ih =>
    obtain ⟨a, rest, ha, hforall, rfl⟩ := List.forall₂_cons_left_iff.1 (Except.mapM_eq_ok_iff.1 hl)
    have hrest : (h.trees items).mapM read = .ok rest := Except.mapM_eq_ok_iff.2 hforall
    refine (hsucceeds h item a (htyped item (by simp)) ha).bind (hreturns h item) ?_
    rintro _ _ ⟨-, rfl⟩
    exact ih (fun item hitem => htyped item (by simp [hitem]))
      ((Heap.mapM_settle hread h _ items).2 hrest)

end Lists

/-- The check of a file returns if its lists are read. -/
theorem validateData_succeeds (hio : io.Faultless) {data : Data} {rules4 dns : Nat} {file : RuleFile}
    (hlists : DataLists path data rules4 dns) (hreads : h.Reads sv lib path rules4 dns file)
    (hrules4 : h.TypedList rules4) (hdns : h.TypedList dns) : Succeeds s h (validateData sv lib io path data) := by
  refine .check_bind hio (if_pos hlists.keys) <| .check_bind hio hlists.rules4 <| .check_bind hio hlists.dns <|
    .alter_bind hio ?_
  have hflow : Succeeds s h ((h.items rules4).forM (validateFlowObject sv lib io path)) :=
    forM_succeeds (fun h l item _ => Heap.settle_flow h l item) (fun _ item => validateFlowObject_returns item)
      (fun _ _ _ htyped => validateFlowObject_succeeds hio htyped) hrules4 hreads.rules4
  refine hflow.bind (forM_returns (fun h l item _ => Heap.settle_flow h l item)
    (fun h item => validateFlowObject_returns item) h (h.items rules4)) ?_
  rintro _ _ ⟨-, rfl⟩
  exact .alter_bind hio <| forM_succeeds (fun h l item _ => Heap.settle_dns h l item)
    (fun h => @validateDnsObject_returns sv lib path io s h) (fun _ _ _ htyped => validateDnsObject_succeeds hio htyped)
    hdns ((Heap.mapM_settle (fun h l item _ => Heap.settle_dns h l item) h _ _).2 hreads.dns)

end QubesSnitch
