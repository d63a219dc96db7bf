import QubesSnitch.ObjectChecks

/-!
# Files that are checked on the heap

Checking the objects of a file accepts what checking its tree accepts (`validateData_returns`), also when a rule or a
list is in the file twice, and leaves the heap with exactly the rules of the file settled.
-/

namespace QubesSnitch

variable {sv : Services} {lib : DnsPython} {path : String}

/-! ### Operations that return -/

/-- Where the operation returns, from `s` with the objects `h`, it has changed at most the objects, and `Q` is true of
its result and of them. -/
def Returns (s : Store) (h : Heap) {α : Type} (x : Save α) (Q : α → Heap → Prop) : Prop :=
  ∀ clock a s', x.run { s with heap := h, clock := clock } = .ok a s' →
    ∃ h' clock', s' = { s with heap := h', clock := clock' } ∧ Q a h'

theorem tick_ok {io : SaveIo} {s s' : Store} {u : Unit} (h : (tick io).run s = .ok u s') :
    s' = { s with clock := s.clock + 1 } := by
  simp only [EStateM.run, tick] at h
  split at h
  · cases h
  · cases h
    rfl

namespace Returns

variable {io : SaveIo} {s : Store} {h : Heap} {α β : Type}

theorem pure {a : α} {Q : α → Heap → Prop} (hQ : Q a h) : Returns s h (pure a) Q := by
  rintro clock _ _ ⟨⟩
  exact ⟨h, clock, rfl, hQ⟩

theorem bind {x : Save α} {f : α → Save β} {P : α → Heap → Prop} {Q : β → Heap → Prop} (hx : Returns s h x P)
    (hf : ∀ a h', P a h' → Returns s h' (f a) Q) : Returns s h (x >>= f) Q := by
  intro clock b s' hrun
  obtain ⟨a, t, hxt, hft⟩ := EStateM.exists_of_bind_eq_ok hrun
  obtain ⟨h', clock', rfl, hP⟩ := hx clock a t hxt
  exact hf a h' hP clock' b s' hft

theorem conseq {x : Save α} {P Q : α → Heap → Prop} (hx : Returns s h x P) (hPQ : ∀ a h', P a h' → Q a h') :
    Returns s h x Q := by
  intro clock a s' hrun
  obtain ⟨h', clock', hs', hP⟩ := hx clock a s' hrun
  exact ⟨h', clock', hs', hPQ a h' hP⟩

theorem and {x : Save α} {P Q : α → Heap → Prop} (hP : Returns s h x P) (hQ : Returns s h x Q) :
    Returns s h x fun a h' => P a h' ∧ Q a h' := by
  intro clock a s' hrun
  obtain ⟨h', clock', rfl, hPa⟩ := hP clock a s' hrun
  obtain ⟨h'', clock'', heq, hQa⟩ := hQ clock a _ hrun
  cases heq
  exact ⟨_, _, rfl, hPa, hQa⟩

theorem tick {f : Unit → Save β} {Q : β → Heap → Prop} (hf : Returns s h (f ()) Q) :
    Returns s h (tick io >>= f) Q := by
  intro clock b s' hrun
  obtain ⟨_, t, htick, hft⟩ := EStateM.exists_of_bind_eq_ok hrun
  obtain rfl := tick_ok htick
  exact hf (clock + 1) b s' hft

theorem get {f : Store → Save β} {Q : β → Heap → Prop}
    (hf : ∀ clock, Returns s h (f { s with heap := h, clock := clock }) Q) : Returns s h (get >>= f) Q :=
  fun clock b s' hrun => hf clock clock b s' hrun

/-- A check that returns has accepted. -/
theorem check {x : Except PyError α} : Returns s h (check io x) fun a h' => x = .ok a ∧ h' = h := by
  refine .tick ?_
  cases x with
  | ok a => exact pure ⟨rfl, rfl⟩
  | error e => rintro clock _ _ ⟨⟩

theorem alter {g : Heap → α × Heap} : Returns s h (alter io g) fun a h' => a = (g h).1 ∧ h' = (g h).2 := by
  refine .tick ?_
  rintro clock _ _ ⟨⟩
  exact ⟨_, _, rfl, rfl, rfl⟩

/-! The same where other operations follow. -/

theorem check_bind {x : Except PyError α} {f : α → Save β} {Q : β → Heap → Prop}
    (hf : ∀ a, x = .ok a → Returns s h (f a) Q) : Returns s h (QubesSnitch.check io x >>= f) Q := by
  refine check.bind ?_
  rintro a _ ⟨hx, rfl⟩
  exact hf a hx

theorem alter_bind {g : Heap → α × Heap} {f : α → Save β} {Q : β → Heap → Prop}
    (hf : Returns s (g h).2 (f (g h).1) Q) : Returns s h (QubesSnitch.alter io g >>= f) Q := by
  refine alter.bind ?_
  rintro _ _ ⟨rfl, rfl⟩
  exact hf

end Returns

/-! ### Heaps with settled rules -/

/-- The rules that a list of elements refers to. -/
def ruleAddresses (items : List Item) : List Nat :=
  items.filterMap fun
    | .rule address => some address
    | .other _ => none

theorem mem_ruleAddresses {items : List Item} {address : Nat} :
    address ∈ ruleAddresses items ↔ Item.rule address ∈ items := by
  simp only [ruleAddresses, List.mem_filterMap]
  constructor
  · rintro ⟨item, hitem, haddress⟩
    cases item with
    | other value => cases haddress
    | rule address' =>
      cases haddress
      exact hitem
  · exact fun h => ⟨_, h, rfl⟩

/-- The rules at the addresses are settled. -/
def Heap.settle (sv : Services) (lib : DnsPython) (path : String) (h : Heap) (addresses : List Nat) : Heap :=
  { h with rules := h.rules.mapIdx fun a r => if a ∈ addresses then r.settle sv lib path else r }

namespace Heap

variable {h : Heap} {address : Nat} {r : RuleObject}

theorem getElem?_settle (h : Heap) (addresses : List Nat) (a : Nat) : (h.settle sv lib path addresses).rules[a]? =
    (h.rules[a]?).map fun r => if a ∈ addresses then r.settle sv lib path else r := List.getElem?_mapIdx

@[simp] theorem length_settle (h : Heap) (addresses : List Nat) :
    (h.settle sv lib path addresses).rules.length = h.rules.length := List.length_mapIdx

theorem settle_nil (h : Heap) : h.settle sv lib path [] = h := by
  have hrules : (h.settle sv lib path []).rules = h.rules := by
    refine List.ext_getElem? fun a => ?_
    rw [getElem?_settle]
    simp
  exact congrArg (fun rules => Heap.mk rules h.lists h.tables) hrules

theorem settle_append (h : Heap) (l l' : List Nat) :
    (h.settle sv lib path l).settle sv lib path l' = h.settle sv lib path (l ++ l') := by
  have hrules : ((h.settle sv lib path l).settle sv lib path l').rules = (h.settle sv lib path (l ++ l')).rules := by
    refine List.ext_getElem? fun a => ?_
    rw [getElem?_settle, getElem?_settle, getElem?_settle, Option.map_map]
    refine congrArg (fun f => Option.map f h.rules[a]?) (funext fun r => ?_)
    by_cases hl : a ∈ l <;> by_cases hl' : a ∈ l' <;> simp [hl, hl', RuleObject.settle_settle]
  exact congrArg (fun rules => Heap.mk rules h.lists h.tables) hrules

theorem settle_singleton (hr : h.rules[address]? = some r) :
    h.settle sv lib path [address] = { h with rules := h.rules.set address (r.settle sv lib path) } := by
  have hrules : (h.settle sv lib path [address]).rules = h.rules.set address (r.settle sv lib path) := by
    refine List.ext_getElem? fun a => ?_
    rw [getElem?_settle, List.getElem?_set]
    by_cases ha : address = a
    · subst ha
      rw [hr, if_pos rfl, if_pos (List.getElem?_eq_some_iff.1 hr).1]
      simp
    · simp [ha, Ne.symm ha]
  exact congrArg (fun rules => Heap.mk rules h.lists h.tables) hrules

theorem setItem_eq (hr : h.rules[address]? = some r) (key : String) (value : Yaml) :
    h.setItem address key value =
      { h with rules := h.rules.set address { r with entries := setKey r.entries key value } } := by
  have hrules := List.modify_eq_set_getElem? (fun r : RuleObject => { r with entries := setKey r.entries key value })
    address h.rules
  rw [hr] at hrules
  exact congrArg (fun rules => Heap.mk rules h.lists h.tables) hrules

theorem getElem?_setItem (hr : h.rules[address]? = some r) (key : String) (value : Yaml) :
    (h.setItem address key value).rules[address]? = some { r with entries := setKey r.entries key value } := by
  rw [setItem_eq hr]
  exact List.getElem?_set_self (List.getElem?_eq_some_iff.1 hr).1

/-- Settling changes nothing about how an element is read as a flow rule. -/
theorem settle_flow (h : Heap) (l : List Nat) (item : Item) {rule : FlowRule} :
    validateFlowRule sv lib path ((h.settle sv lib path l).itemValue item).tree = .ok rule ↔
      validateFlowRule sv lib path (h.itemValue item).tree = .ok rule := by
  cases item with
  | other value => rfl
  | rule a =>
    rw [itemValue, itemValue, getElem?_settle]
    cases h.rules[a]? with
    | none => rfl
    | some r =>
      by_cases ha : a ∈ l
      · simpa [ha, ItemValue.tree] using RuleObject.settle_flow
      · simp [ha]

theorem settle_dns (h : Heap) (l : List Nat) (item : Item) {rule : DnsRule} :
    validateDnsEntry lib path ((h.settle sv lib path l).itemValue item).tree = .ok rule ↔
      validateDnsEntry lib path (h.itemValue item).tree = .ok rule := by
  cases item with
  | other value => rfl
  | rule a =>
    rw [itemValue, itemValue, getElem?_settle]
    cases h.rules[a]? with
    | none => rfl
    | some r =>
      by_cases ha : a ∈ l
      · simpa [ha, ItemValue.tree] using RuleObject.settle_dns
      · simp [ha]

end Heap

/-! ### Checking a flow rule -/

theorem validateFlowTarget_ok {proto : FlowProto} {entries : List (Scalar × Yaml)}
    (h : validateFlowTarget sv path proto entries = .ok ()) : ∃ port, getItem entries "port" = .ok (.str port) ∧
      validatePort sv path proto port = .ok () ∧
      ∀ value, lookupKey entries "dest" = some value →
        value.isList = false ∧ ∃ dest, validateNetwork path value = .ok dest := by
  unfold validateFlowTarget at h
  obtain ⟨portValue, hportItem, hrest⟩ := Except.exists_of_bind_eq_ok h
  obtain ⟨port, hport, hdest⟩ := Except.exists_of_bind_eq_ok hrest
  obtain ⟨hscalar, rfl⟩ := validatePortText_eq_ok hport
  clear h hrest hport
  cases hvalue : lookupKey entries "dest" with
  | none =>
    rw [hvalue] at hdest
    exact ⟨port, hportItem, hdest, fun value hsome => nomatch hsome⟩
  | some value =>
    rw [hvalue] at hdest hscalar
    obtain ⟨_, hnetwork, hvalid⟩ := Except.exists_of_bind_eq_ok hdest
    refine ⟨port, hportItem, hvalid, fun value' hsome => ?_⟩
    cases hsome
    refine ⟨hscalar, ?_⟩
    cases hresult : validateNetwork path value with
    | ok dest => exact ⟨dest, rfl⟩
    | error e =>
      rw [hresult] at hnetwork
      cases hnetwork

theorem nameEntries_network (entries : List (Scalar × Yaml)) {value : Yaml} {dest : Dest}
    (h : validateNetwork path value = .ok dest) : nameEntries entries dest = entries := by
  rcases validateNetwork_stored h with rfl | ⟨n, rfl⟩ <;> rfl

/-- The entries of a flow rule when its protocol is about to be checked. -/
inductive DestRewritten (lib : DnsPython) (path : String) (entries : List (Scalar × Yaml)) :
    List (Scalar × Yaml) → Prop
  | name {qname : String} (h : DestEntry lib path entries (.dns qname none)) :
      DestRewritten lib path entries (nameEntries entries (.dns qname none))
  | dest {value : Yaml} (hname : lookupKey entries "dest_dns" = none) (hdest : lookupKey entries "dest" = some value) :
      DestRewritten lib path entries entries

/-- The checks of a rule on the heap, put together. -/
theorem FlowEntries.of_checks {entries entries' : List (Scalar × Yaml)} {action : Action} {proto : FlowProto}
    (hkeys : flowRuleKeys (entries.map Prod.fst) = true)
    (haction : (do validateAction path ": invalid action: " (← getItem entries "action")) = .ok action)
    (hproto : (do validateProto path (← getItem entries "proto")) = .ok proto)
    (hrewritten : DestRewritten lib path entries entries')
    (htarget : validateFlowTarget sv path proto (setKey entries' "proto" (.str proto.name)) = .ok ()) :
    ∃ rule, FlowEntries sv lib path entries rule ∧
      setKey entries' "proto" (.str proto.name) = flowEntries entries rule := by
  obtain ⟨actionValue, hactionItem, haction⟩ := Except.exists_of_bind_eq_ok haction
  obtain ⟨protoValue, hprotoItem, hproto⟩ := Except.exists_of_bind_eq_ok hproto
  have hprotoKey := mem_keys_of_getItem hprotoItem
  have hptrKey : Scalar.str "ptr" ∈ entries.map Prod.fst := by
    simp only [flowRuleKeys, Bool.and_eq_true, List.all_eq_true, decide_eq_true_eq] at hkeys
    exact hkeys.1.1 "ptr" (by simp)
  obtain ⟨ptr, hptr⟩ := Option.ne_none_iff_exists'.1 fun hnone => lookupKey_eq_none_iff.1 hnone hptrKey
  obtain ⟨port, hport, hvalid, hnetwork⟩ := validateFlowTarget_ok htarget
  obtain ⟨dest, rfl, hdest⟩ : ∃ dest, entries' = nameEntries entries dest ∧ DestEntry lib path entries dest := by
    cases hrewritten with
    | name hdest => exact ⟨_, rfl, hdest⟩
    | @dest value hname hvalue =>
      have hlookup : lookupKey (setKey entries "proto" (.str proto.name)) "dest" = some value := by
        rw [lookupKey_setKey _ hprotoKey, if_neg (by decide), hvalue]
      obtain ⟨hscalar, dest, hdest⟩ := hnetwork value hlookup
      exact ⟨dest, (nameEntries_network entries hdest).symm, .network hname hvalue hscalar hdest⟩
  obtain ⟨hsame, hother, -⟩ := hdest.nameEntries
  rw [getItem_setKey_of_ne _ (hsame ▸ hprotoKey) (by decide), getItem_eq_ok_iff, hother _ (by decide),
    ← getItem_eq_ok_iff] at hport
  exact ⟨⟨ptr, dest, proto, port, action⟩, ⟨hkeys, getItem_eq_ok_iff.2 hptr, validateAction_eq_ok haction ▸ hactionItem,
    ⟨protoValue, hprotoItem, hproto⟩, hport, hdest, hvalid⟩, rfl⟩

theorem rewriteDestDns_returns {io : SaveIo} {s : Store} {h : Heap} {address : Nat} {r : RuleObject}
    (hr : h.rules[address]? = some r) (hkeys : flowRuleKeys (r.entries.map Prod.fst) = true) :
    Returns s h (rewriteDestDns lib io path address r.entries) fun _ h' => ∃ entries,
      h' = { h with rules := h.rules.set address { r with entries } } ∧ DestRewritten lib path r.entries entries := by
  rcases dest_keys hkeys with ⟨value, hthere, hgone⟩ | ⟨value, hgone, hthere⟩
  · rw [rewriteDestDns, hthere]
    refine .check_bind fun qname hqname => Returns.alter.conseq ?_
    rintro _ _ ⟨-, rfl⟩
    exact ⟨_, Heap.setItem_eq hr _ _, .name (.name hthere hgone hqname)⟩
  · rw [rewriteDestDns, hgone]
    refine .pure ⟨r.entries, ?_, .dest hgone hthere⟩
    have hset : h.rules.set address r = h.rules := by
      obtain ⟨hlt, rfl⟩ := List.getElem?_eq_some_iff.1 hr
      exact List.set_getElem_self hlt
    rw [hset]

/-- A rule that the check of a file lets through is read as a flow rule, and settled. -/
theorem validateFlowObject_returns {io : SaveIo} {s : Store} {h : Heap} (item : Item) :
    Returns s h (validateFlowObject sv lib io path item) fun _ h' =>
      (∃ rule, validateFlowRule sv lib path (h.itemValue item).tree = .ok rule) ∧
        h' = h.settle sv lib path (ruleAddresses [item]) := by
  cases item with
  | other value =>
    rw [validateFlowObject]
    refine Returns.check.conseq fun _ _ hx => ?_
    cases hx.1
  | rule address =>
    refine .alter_bind <| .check_bind fun _ hkeys => .check_bind fun action haction => ?_
    -- an address without an object has no keys
    cases hr : h.rules[address]? with
    | none =>
      rw [hr] at hkeys
      cases hkeys
    | some r =>
      simp only [hr, Option.getD_some] at hkeys haction ⊢
      have hkeys : flowRuleKeys (r.entries.map Prod.fst) = true := Except.of_check_eq_ok hkeys
      refine (rewriteDestDns_returns hr hkeys).bind ?_
      rintro _ _ ⟨entries, rfl, hrewritten⟩
      refine .check_bind fun proto hproto => .alter_bind <| .alter_bind ?_
      have hlt : address < h.rules.length := (List.getElem?_eq_some_iff.1 hr).1
      -- the protocol is written over the name of the destination
      have hwritten := Heap.setItem_eq (h := { h with rules := h.rules.set address { r with entries } })
        (List.getElem?_set_self hlt) "proto" (.str proto.name)
      simp only [hwritten, List.set_set, List.getElem?_set_self hlt, Option.getD_some]
      refine Returns.check.conseq ?_
      rintro _ _ ⟨htarget, rfl⟩
      obtain ⟨rule, hflow, hentries⟩ := FlowEntries.of_checks hkeys haction hproto hrewritten htarget
      refine ⟨⟨rule, ?_⟩, ?_⟩
      · rw [Heap.itemValue, hr]
        exact hflow.accepted
      · rw [hentries, show ruleAddresses [Item.rule address] = [address] from rfl, Heap.settle_singleton hr,
          RuleObject.settle_of_flow hflow.accepted]

/-! ### Checking a DNS rule -/

theorem DnsEntries.of_checks {entries : List (Scalar × Yaml)} {action : Action} {question : String × String}
    (hkeys : dnsRuleKeys (entries.map Prod.fst) = true)
    (haction : (do validateAction path ": invalid DNS action: " (← getItem entries "action")) = .ok action)
    (hquestion : (do validateDnsRule lib path (← getItem entries "qname") (← getItem entries "qtype")) = .ok question) :
    DnsEntries lib path entries ⟨question.1, question.2, action⟩ := by
  obtain ⟨actionValue, hactionItem, haction⟩ := Except.exists_of_bind_eq_ok haction
  obtain ⟨qname, hqname, hquestion⟩ := Except.exists_of_bind_eq_ok hquestion
  obtain ⟨qtype, hqtype, hquestion⟩ := Except.exists_of_bind_eq_ok hquestion
  exact ⟨hkeys, validateAction_eq_ok haction ▸ hactionItem, qname, qtype, hqname, hqtype, hquestion⟩

theorem validateDnsObject_returns {io : SaveIo} {s : Store} {h : Heap} (item : Item) :
    Returns s h (validateDnsObject lib io path item) fun _ h' =>
      (∃ rule, validateDnsEntry lib path (h.itemValue item).tree = .ok rule) ∧
        h' = h.settle sv lib path (ruleAddresses [item]) := by
  cases item with
  | other value =>
    rw [validateDnsObject]
    refine Returns.check.conseq fun _ _ hx => ?_
    cases hx.1
  | rule address =>
    refine .alter_bind <| .check_bind fun _ hkeys => .check_bind fun action haction =>
      .check_bind fun question hquestion => .alter_bind ?_
    cases hr : h.rules[address]? with
    | none =>
      rw [hr] at hkeys
      cases hkeys
    | some r =>
      simp only [hr, Option.getD_some] at hkeys haction hquestion
      have hkeys : dnsRuleKeys (r.entries.map Prod.fst) = true := Except.of_check_eq_ok hkeys
      have hdns := DnsEntries.of_checks hkeys haction hquestion
      have hlt : address < h.rules.length := (List.getElem?_eq_some_iff.1 hr).1
      -- name and type are written after all checks
      refine Returns.alter.conseq ?_
      rintro _ _ ⟨-, rfl⟩
      refine ⟨⟨⟨question.1, question.2, action⟩, ?_⟩, ?_⟩
      · rw [Heap.itemValue, hr]
        exact hdns.accepted
      · have hwritten := Heap.setItem_eq (h := h.setItem address "qname" (.str question.1))
          (Heap.getElem?_setItem hr _ _) "qtype" (.str question.2)
        rw [show ruleAddresses [Item.rule address] = [address] from rfl, Heap.settle_singleton hr,
          RuleObject.settle_of_dns hdns.accepted]
        simp only [hwritten]
        rw [Heap.setItem_eq hr, List.set_set]
        rfl

/-! ### Checking the lists of a file -/

theorem ruleAddresses_cons (item : Item) (items : List Item) :
    ruleAddresses (item :: items) = ruleAddresses [item] ++ ruleAddresses items := by
  cases item <;> rfl

/-- A list of rules is read element by element. -/
def Heap.trees (h : Heap) (items : List Item) : List Yaml := items.map fun item => (h.itemValue item).tree

section Lists

variable {α : Type} {read : Yaml → Except PyError α}
  (hread : ∀ (h : Heap) l item a, read ((h.settle sv lib path l).itemValue item).tree = .ok a ↔
    read (h.itemValue item).tree = .ok a)
include hread

theorem Heap.mapM_settle (h : Heap) (l : List Nat) (items : List Item) {out : List α} :
    ((h.settle sv lib path l).trees items).mapM read = .ok out ↔ (h.trees items).mapM read = .ok out := by
  simp only [Except.mapM_eq_ok_iff, trees, List.forall₂_map_left_iff]
  have heq : (fun item a => read ((h.settle sv lib path l).itemValue item).tree = .ok a) =
      fun item a => read (h.itemValue item).tree = .ok a := by
    funext item a
    exact propext (hread h l item a)
  rw [heq]

/-- Checking the elements of a list one after the other reads all of them, and settles them; a check of the others
before or after makes no difference. -/
theorem forM_returns {s : Store} {f : Item → Save PUnit}
    (hf : ∀ h item, Returns s h (f item) fun _ h' => (∃ a, read (h.itemValue item).tree = .ok a) ∧
      h' = h.settle sv lib path (ruleAddresses [item])) (h : Heap) (items : List Item) :
    Returns s h (items.forM f) fun _ h' => (∃ l, (h.trees items).mapM read = .ok l) ∧
      h' = h.settle sv lib path (ruleAddresses items) := by
  induction items generalizing h with
  | nil => exact .pure ⟨⟨[], rfl⟩, (Heap.settle_nil h).symm⟩
  | cons item items ih =>
    refine (hf h item).bind ?_
    rintro _ _ ⟨⟨a, ha⟩, rfl⟩
    refine (ih _).conseq ?_
    rintro _ _ ⟨⟨l, hl⟩, rfl⟩
    have hl := (Heap.mapM_settle hread h _ items).1 hl
    refine ⟨⟨a :: l, Except.mapM_eq_ok_iff.2 (.cons ha (Except.mapM_eq_ok_iff.1 hl))⟩, ?_⟩
    rw [Heap.settle_append, ← ruleAddresses_cons]

end Lists

/-- The two lists of a mapping with the keys of the schema. -/
structure DataLists (path : String) (data : Data) (rules4 dns : Nat) : Prop where
  keys : ((data.map Prod.fst).all (· ∈ ["rules4", "dns"].map Scalar.str) &&
    (["rules4", "dns"].map Scalar.str).all (· ∈ data.map Prod.fst)) = true
  rules4 : listNode path data "rules4" = .ok rules4
  dns : listNode path data "dns" = .ok dns

/-- How the lists of a file are read. -/
structure Heap.Reads (sv : Services) (lib : DnsPython) (path : String) (h : Heap) (rules4 dns : Nat)
    (file : RuleFile) : Prop where
  rules4 : (h.trees (h.items rules4)).mapM (validateFlowRule sv lib path) = .ok file.rules4
  dns : (h.trees (h.items dns)).mapM (validateDnsEntry lib path) = .ok file.dns

theorem Heap.reads_settle {h : Heap} {l : List Nat} {rules4 dns : Nat} {file : RuleFile} :
    (h.settle sv lib path l).Reads sv lib path rules4 dns file ↔ h.Reads sv lib path rules4 dns file := by
  constructor
  · rintro ⟨hrules4, hdns⟩
    exact ⟨(mapM_settle (fun h l item _ => settle_flow h l item) h l _).1 hrules4,
      (mapM_settle (fun h l item _ => settle_dns h l item) h l _).1 hdns⟩
  · rintro ⟨hrules4, hdns⟩
    exact ⟨(mapM_settle (fun h l item _ => settle_flow h l item) h l _).2 hrules4,
      (mapM_settle (fun h l item _ => settle_dns h l item) h l _).2 hdns⟩

/-- A check that returns has read a file, and settled its rules. -/
theorem validateData_returns {io : SaveIo} {s : Store} {h : Heap} (data : Data) :
    Returns s h (validateData sv lib io path data) fun _ h' => ∃ rules4 dns file, DataLists path data rules4 dns ∧
      h.Reads sv lib path rules4 dns file ∧
      h' = h.settle sv lib path (ruleAddresses (h.items rules4) ++ ruleAddresses (h.items dns)) := by
  refine .check_bind fun _ hkeys => .check_bind fun rules4 hrules4 => .check_bind fun dns hdns => .alter_bind ?_
  refine (forM_returns (fun h l item _ => Heap.settle_flow h l item)
    (fun h item => validateFlowObject_returns item) h (h.items rules4)).bind ?_
  rintro _ _ ⟨⟨flows, hflows⟩, rfl⟩
  refine .alter_bind <| (forM_returns (fun h l item _ => Heap.settle_dns h l item)
    (fun h => @validateDnsObject_returns sv lib path io s h) _ _).conseq ?_
  rintro _ _ ⟨⟨questions, hquestions⟩, rfl⟩
  refine ⟨rules4, dns, ⟨flows, questions⟩, ⟨Except.of_check_eq_ok hkeys, hrules4, hdns⟩, ⟨hflows, ?_⟩,
    Heap.settle_append _ _ _⟩
  exact (Heap.mapM_settle (fun h l item _ => Heap.settle_dns h l item) h _ _).1 hquestions

theorem ruleList_of_listNode {h : Heap} {data : Data} {key : String} {address : Nat}
    (hlist : listNode path data key = .ok address) :
    ruleList path (h.dataTree data) key = .ok (h.trees (h.items address)) := by
  unfold listNode at hlist
  unfold ruleList getItem lookupKey Heap.dataTree
  rw [List.find?_map]
  cases hfind : data.find? fun e => e.1 = .str key with
  | none => simp [hfind] at hlist
  | some e =>
    obtain ⟨k, node⟩ := e
    cases node with
    | other value => simp [hfind] at hlist
    | list l =>
      obtain rfl : l = address := by simpa [hfind] using hlist
      have hfind' : data.find? ((fun e => decide (e.1 = Scalar.str key)) ∘ fun e => (e.1, h.nodeTree e.2)) =
          some (k, .list l) := hfind
      rw [hfind']
      simp [Heap.nodeTree, Heap.listValue, Heap.trees, bind, Except.bind]

/-- The tree of a mapping is accepted exactly when its lists are read. -/
theorem DataLists.validateRuleFile_iff {data : Data} {rules4 dns : Nat} {file : RuleFile} {h : Heap}
    (hdata : DataLists path data rules4 dns) :
    validateRuleFile sv lib path (h.dataTree data) = .ok file ↔ h.Reads sv lib path rules4 dns file := by
  have hkeys : (h.dataTree data).map Prod.fst = data.map Prod.fst := by simp [Heap.dataTree, Function.comp_def]
  have hbool := hdata.keys
  rw [← hkeys] at hbool
  simp only [validateRuleFile, hbool, ruleList_of_listNode hdata.rules4, ruleList_of_listNode hdata.dns]
  constructor
  · intro hfile
    obtain ⟨_, ⟨⟩, hfile⟩ := Except.exists_of_bind_eq_ok hfile
    obtain ⟨_, ⟨⟩, hfile⟩ := Except.exists_of_bind_eq_ok hfile
    obtain ⟨flows, hflows, hfile⟩ := Except.exists_of_bind_eq_ok hfile
    obtain ⟨questions, hquestions, hfile⟩ := Except.exists_of_bind_eq_ok hfile
    cases hfile
    exact ⟨hflows, hquestions⟩
  · rintro ⟨hflows, hquestions⟩
    simp only [bind, Except.bind, hflows, hquestions]
    rfl

end QubesSnitch
