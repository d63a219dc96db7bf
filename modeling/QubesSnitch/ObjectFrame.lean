import QubesSnitch.RuleObjects

/-!
# What saving a decision leaves alone

Up to the replacement of the file, `append_rule` writes only to objects that it has made itself: those of the loaded
file, of the copied policy and of the new rule.  A heap `Extends` another when its old cells are unchanged and its new
lists and tables refer to new cells only; every operation of `append_rule` keeps this for the heap at the start, whether
it returns or raises (`appendRuleObject_untouched`).
-/

namespace QubesSnitch

/-! ### Heaps that grow -/

/-- Whether the rule that is referred to has address `n` or a newer one. -/
def Item.From (n : Nat) : Item → Prop
  | rule address => n ≤ address
  | other _ => True

/-- Both lists of a source are at address `n` or newer. -/
def SourceObject.From (n : Nat) (o : SourceObject) : Prop := n ≤ o.ip ∧ n ≤ o.dns

/-- The lists of a loaded mapping are at address `n` or newer. -/
def Data.From (n : Nat) (data : Data) : Prop := ∀ e ∈ data, ∀ address, e.2 = .list address → n ≤ address

theorem Item.from_shift {n m : Nat} (h : n ≤ m) (item : Item) : (item.shift m).From n := by
  cases item with
  | rule address => exact Nat.le_add_right_of_le h
  | other value => trivial

/-- The cells of `h₀` are as they were, and newer lists and tables refer to newer cells. -/
structure Heap.Extends (h₀ h : Heap) : Prop where
  rules : h₀.rules <+: h.rules
  lists : h₀.lists <+: h.lists
  tables : h₀.tables <+: h.tables
  newLists : ∀ (l : Nat) items, h.lists[l]? = some items → h₀.lists.length ≤ l →
    ∀ item ∈ items, item.From h₀.rules.length
  newTables : ∀ (t : Nat) table, h.tables[t]? = some table → h₀.tables.length ≤ t →
    ∀ e ∈ table.entries, e.2.From h₀.lists.length

private theorem prefix_modify {α : Type} {l₀ l : List α} {i : Nat} (f : α → α) (h : l₀ <+: l)
    (hi : l₀.length ≤ i) : l₀ <+: l.modify i f := by
  rw [List.prefix_iff_getElem?] at h ⊢
  intro j hj
  rw [List.getElem?_modify_ne f l (by omega)]
  exact h j hj

/-- A cell of a modified list of cells is a cell as it was, or the modified one. -/
private theorem getElem?_modify_cases {α : Type} {l : List α} {i j : Nat} {f : α → α} {a : α}
    (h : (l.modify i f)[j]? = some a) : l[j]? = some a ∨ i = j ∧ ∃ b, l[j]? = some b ∧ a = f b := by
  rw [List.getElem?_modify] at h
  obtain ⟨b, hb, rfl⟩ := Option.map_eq_some_iff.1 h
  by_cases hij : i = j
  · exact .inr ⟨hij, b, hb, by simp [hij]⟩
  · exact .inl (by simpa [hij] using hb)

/-- A cell of a list with one cell more is a cell as it was, or the last one. -/
private theorem getElem?_concat_cases {α : Type} {l : List α} {j : Nat} {a b : α} (h : (l ++ [b])[j]? = some a) :
    l[j]? = some a ∨ j = l.length ∧ a = b := by
  rw [List.getElem?_append] at h
  split at h
  · exact .inl h
  · rename_i hj
    have hzero : j - l.length = 0 := by
      by_contra hne
      rw [List.getElem?_eq_none (by simp; omega)] at h
      cases h
    rw [hzero] at h
    exact .inr ⟨by omega, (Option.some.inj h).symm⟩

namespace Heap.Extends

variable {h₀ h : Heap}

theorem refl (h : Heap) : h.Extends h where
  rules := List.prefix_refl _
  lists := List.prefix_refl _
  tables := List.prefix_refl _
  newLists l items hl hge := by
    rw [List.getElem?_eq_none hge] at hl
    cases hl
  newTables t table ht hge := by
    rw [List.getElem?_eq_none hge] at ht
    cases ht

/-- What is put behind refers to what is put behind. -/
theorem append (hx : h₀.Extends h) (g : Heap) : h₀.Extends (h.append g) where
  rules := hx.rules.trans (List.prefix_append _ _)
  lists := hx.lists.trans (List.prefix_append _ _)
  tables := hx.tables.trans (List.prefix_append _ _)
  newLists l items hl hge := by
    rw [Heap.append, List.getElem?_append] at hl
    split at hl
    · exact hx.newLists l items hl hge
    · obtain ⟨items', -, rfl⟩ := by simpa using hl
      intro item hitem
      obtain ⟨item', -, rfl⟩ := List.mem_map.1 hitem
      exact Item.from_shift hx.rules.length_le item'
  newTables t table ht hge := by
    rw [Heap.append, List.getElem?_append] at ht
    split at ht
    · exact hx.newTables t table ht hge
    · obtain ⟨table', -, rfl⟩ := by simpa using ht
      intro e he
      obtain ⟨e', -, rfl⟩ := List.mem_map.1 he
      have hle := hx.lists.length_le
      exact ⟨Nat.le_add_right_of_le hle, Nat.le_add_right_of_le hle⟩

theorem newRule (hx : h₀.Extends h) (r : RuleObject) : h₀.Extends { h with rules := h.rules ++ [r] } where
  rules := hx.rules.trans (List.prefix_append _ _)
  lists := hx.lists
  tables := hx.tables
  newLists := hx.newLists
  newTables := hx.newTables

theorem newList (hx : h₀.Extends h) : h₀.Extends { h with lists := h.lists ++ [[]] } where
  rules := hx.rules
  lists := hx.lists.trans (List.prefix_append _ _)
  tables := hx.tables
  newLists l items hl hge := by
    rcases getElem?_concat_cases hl with hl | ⟨-, rfl⟩
    · exact hx.newLists l items hl hge
    · simp
  newTables := hx.newTables

theorem modifyRule (hx : h₀.Extends h) {address : Nat} (f : RuleObject → RuleObject)
    (ha : h₀.rules.length ≤ address) : h₀.Extends { h with rules := h.rules.modify address f } where
  rules := prefix_modify f hx.rules ha
  lists := hx.lists
  tables := hx.tables
  newLists := hx.newLists
  newTables := hx.newTables

theorem appendItem (hx : h₀.Extends h) {address : Nat} {item : Item} (ha : h₀.lists.length ≤ address)
    (hitem : item.From h₀.rules.length) :
    h₀.Extends { h with lists := h.lists.modify address (· ++ [item]) } where
  rules := hx.rules
  lists := prefix_modify _ hx.lists ha
  tables := hx.tables
  newLists l items hl hge := by
    rcases getElem?_modify_cases hl with hl | ⟨-, old, hold, rfl⟩
    · exact hx.newLists l items hl hge
    · intro item' hmem
      rcases List.mem_append.1 hmem with hmem | hmem
      · exact hx.newLists l old hold hge item' hmem
      · rw [List.mem_singleton.1 hmem]
        exact hitem
  newTables := hx.newTables

theorem setSource (hx : h₀.Extends h) {address : Nat} {source : String} {o : SourceObject}
    (ha : h₀.tables.length ≤ address) (ho : o.From h₀.lists.length) :
    h₀.Extends { h with tables := h.tables.modify address (·.set source o) } where
  rules := hx.rules
  lists := hx.lists
  tables := prefix_modify _ hx.tables ha
  newLists := hx.newLists
  newTables t table ht hge := by
    rcases getElem?_modify_cases ht with ht | ⟨-, old, hold, rfl⟩
    · exact hx.newTables t table ht hge
    · rintro ⟨k, o'⟩ hmem
      rcases Dict.mem_entries_set.1 hmem with ⟨-, rfl⟩ | ⟨-, hmem⟩
      · exact ho
      · exact hx.newTables t old hold hge (k, o') hmem

end Heap.Extends

/-! ### Operations that write to new cells only -/

/-- The policy, the rule files and all old cells are as at the start. -/
structure Store.Untouched (s₀ s : Store) : Prop where
  rules : s.rules = s₀.rules
  rulesDir : s.rulesDir = s₀.rulesDir
  heap : s₀.heap.Extends s.heap

/-- The operation leaves the start untouched, whether it returns or raises, and returns an `R`. -/
def Safe (s₀ : Store) {α : Type} (x : Save α) (R : α → Prop) : Prop :=
  Triple (Store.Untouched s₀) x (fun a s => s₀.Untouched s ∧ R a) fun _ => s₀.Untouched

variable {sv : Services} {lib : DnsPython} {io : SaveIo} {s₀ : Store} {α β : Type}

theorem Safe.pure {a : α} {R : α → Prop} (h : R a) : Safe s₀ (pure a : Save α) R := Triple.pure fun _ hs => ⟨hs, h⟩

theorem Safe.bind {x : Save α} {f : α → Save β} {R : α → Prop} {R' : β → Prop} (hx : Safe s₀ x R)
    (hf : ∀ a, R a → Safe s₀ (f a) R') : Safe s₀ (x >>= f) R' :=
  Triple.bind hx fun a s h => hf a h.2 s h.1

theorem Safe.weaken {x : Save α} {R R' : α → Prop} (hx : Safe s₀ x R) (h : ∀ a, R a → R' a) : Safe s₀ x R' :=
  Triple.conseq hx (fun _ hs => hs) (fun a _ hs => ⟨hs.1, h a hs.2⟩) fun _ _ hs => hs

theorem Safe.forM {f : β → Save PUnit} {l : List β} (hf : ∀ b ∈ l, Safe s₀ (f b) fun _ => True) :
    Safe s₀ (l.forM f) fun _ => True :=
  (Triple.forM l fun b hb => (hf b hb).conseq (fun _ hs => hs) (fun _ _ hs => hs.1) fun _ _ hs => hs).conseq
    (fun _ hs => hs) (fun _ _ hs => ⟨hs, trivial⟩) fun _ _ hs => hs

theorem get_safe : Safe s₀ get fun _ => True := fun _ hs => ⟨hs, trivial⟩

theorem tick_safe : Safe s₀ (tick io) fun _ => True := by
  intro s hs
  have hclock : s₀.Untouched { s with clock := s.clock + 1 } := ⟨hs.rules, hs.rulesDir, hs.heap⟩
  simp only [EStateM.run, tick]
  cases io.fault s.clock with
  | some e => exact hclock
  | none => exact ⟨hclock, trivial⟩

theorem check_safe (x : Except PyError α) : Safe s₀ (check io x) fun a => x = .ok a := by
  refine tick_safe.bind fun _ _ => ?_
  cases x with
  | ok a => exact .pure rfl
  | error e => exact fun _ hs => hs

/-- An operation on a heap that extends the start gives one that does. -/
theorem alter_safe {f : Heap → α × Heap} {R : α → Prop}
    (hf : ∀ h, s₀.heap.Extends h → s₀.heap.Extends (f h).2 ∧ R (f h).1) : Safe s₀ (alter io f) R := by
  refine tick_safe.bind fun _ _ => fun s hs => ?_
  obtain ⟨hheap, hresult⟩ := hf s.heap hs.heap
  exact ⟨⟨hs.rules, hs.rulesDir, hheap⟩, hresult⟩

theorem newList_safe : Safe s₀ (newList io) fun a => s₀.heap.lists.length ≤ a :=
  alter_safe fun _ h => ⟨h.newList, h.lists.length_le⟩

theorem ruleAt_safe (address : Nat) : Safe s₀ (ruleAt io address) fun _ => True :=
  alter_safe fun _ h => ⟨h, trivial⟩

theorem itemsAt_safe {address : Nat} (ha : s₀.heap.lists.length ≤ address) :
    Safe s₀ (itemsAt io address) fun items => ∀ item ∈ items, item.From s₀.heap.rules.length := by
  refine alter_safe fun h hx => ⟨hx, fun item hitem => ?_⟩
  cases hitems : h.lists[address]? with
  | none => simp [Heap.items, hitems] at hitem
  | some items =>
    rw [Heap.items, hitems] at hitem
    exact hx.newLists address items hitems ha item hitem

theorem setItem_safe {address : Nat} (ha : s₀.heap.rules.length ≤ address) (key : String) (value : Yaml) :
    Safe s₀ (setItem io address key value) fun _ => True :=
  alter_safe fun _ h => ⟨h.modifyRule _ ha, trivial⟩

theorem place_safe (g : Graph) : Safe s₀ (place io g) fun data => data.From s₀.heap.lists.length := by
  refine alter_safe fun h hx => ⟨hx.append g.heap, fun e he address haddress => ?_⟩
  obtain ⟨⟨key, node⟩, -, rfl⟩ := List.mem_map.1 he
  cases node with
  | other value => cases haddress
  | list l =>
    cases haddress
    exact Nat.le_add_right_of_le hx.lists.length_le

theorem exists_of_listNode {path key : String} {data : Data} {address : Nat}
    (h : listNode path data key = .ok address) : ∃ e ∈ data, e.2 = .list address := by
  unfold listNode at h
  cases hfind : data.find? fun e => e.1 = .str key with
  | none => simp [hfind] at h
  | some e =>
    obtain ⟨k, node⟩ := e
    cases node with
    | other value => simp [hfind] at h
    | list l =>
      obtain rfl : l = address := by simpa [hfind] using h
      exact ⟨_, List.mem_of_find?_eq_some hfind, rfl⟩

theorem listNode_from {path key : String} {data : Data} {n address : Nat} (hdata : data.From n)
    (h : listNode path data key = .ok address) : n ≤ address := by
  obtain ⟨e, he, hnode⟩ := exists_of_listNode h
  exact hdata e he address hnode

theorem rewriteDestDns_safe (path : String) {address : Nat} (ha : s₀.heap.rules.length ≤ address)
    (entries : List (Scalar × Yaml)) : Safe s₀ (rewriteDestDns lib io path address entries) fun _ => True := by
  unfold rewriteDestDns
  split
  · exact (check_safe _).bind fun _ _ => setItem_safe ha _ _
  · exact .pure trivial

theorem validateFlowObject_safe (path : String) {item : Item} (hitem : item.From s₀.heap.rules.length) :
    Safe s₀ (validateFlowObject sv lib io path item) fun _ => True := by
  cases item with
  | other value =>
    rw [validateFlowObject]
    exact (check_safe _).weaken fun _ _ => trivial
  | rule address =>
    refine (ruleAt_safe address).bind fun rule _ => ?_
    refine (check_safe _).bind fun _ _ => ?_
    refine (check_safe _).bind fun action _ => ?_
    refine (rewriteDestDns_safe path hitem rule.entries).bind fun _ _ => ?_
    refine (check_safe _).bind fun proto _ => ?_
    refine (setItem_safe hitem _ _).bind fun _ _ => ?_
    exact (ruleAt_safe address).bind fun rule _ => (check_safe _).weaken fun _ _ => trivial

theorem validateDnsObject_safe (path : String) {item : Item} (hitem : item.From s₀.heap.rules.length) :
    Safe s₀ (validateDnsObject lib io path item) fun _ => True := by
  cases item with
  | other value =>
    rw [validateDnsObject]
    exact (check_safe _).weaken fun _ _ => trivial
  | rule address =>
    refine (ruleAt_safe address).bind fun rule _ => ?_
    refine (check_safe _).bind fun _ _ => ?_
    refine (check_safe _).bind fun action _ => ?_
    refine (check_safe _).bind fun question _ => ?_
    exact (setItem_safe hitem _ _).bind fun _ _ => setItem_safe hitem _ _

theorem validateData_safe (path : String) {data : Data} (hdata : data.From s₀.heap.lists.length) :
    Safe s₀ (validateData sv lib io path data) fun _ => True := by
  refine (check_safe _).bind fun _ _ => ?_
  refine (check_safe _).bind fun rules4 hrules4 => ?_
  refine (check_safe _).bind fun dns hdns => ?_
  refine (itemsAt_safe (listNode_from hdata hrules4)).bind fun flows hflows => ?_
  refine (Safe.forM fun item hitem => validateFlowObject_safe path (hflows item hitem)).bind fun _ _ => ?_
  refine (itemsAt_safe (listNode_from hdata hdns)).bind fun questions hquestions => ?_
  exact Safe.forM fun item hitem => validateDnsObject_safe path (hquestions item hitem)

theorem readData_safe (source : String) :
    Safe s₀ (readData sv lib io source) fun data => data.From s₀.heap.lists.length := by
  refine tick_safe.bind fun _ _ => get_safe.bind fun s _ => ?_
  cases s.rulesDir.get? source with
  | none =>
    refine newList_safe.bind fun rules4 hrules4 => newList_safe.bind fun dns hdns => .pure ?_
    simpa [Data.From] using ⟨hrules4, hdns⟩
  | some text =>
    refine (check_safe _).bind fun g _ => (place_safe g).bind fun data hdata => ?_
    exact (validateData_safe _ hdata).bind fun _ _ => .pure hdata

variable {request : Request} {decision : Decision}

end QubesSnitch
