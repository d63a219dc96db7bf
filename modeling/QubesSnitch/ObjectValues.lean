import QubesSnitch.PolicyTables

/-!
# Values as objects

Every policy is the value of objects that are all different (`exists_sound_policy`), and every mapping of a rule file is
the tree of objects that are all different (`Graph.ofTree`), as a file without anchors is loaded.
-/

namespace QubesSnitch

/-! ### Elements of lists -/

namespace Heap

/-- Put the elements of a list into memory. -/
def addValues (h : Heap) : List ItemValue → List Item × Heap
  | [] => ([], h)
  | .rule r :: values =>
    let rest := addValues { h with rules := h.rules ++ [r] } values
    (.rule h.rules.length :: rest.1, rest.2)
  | .other value :: values =>
    let rest := addValues h values
    (.other value :: rest.1, rest.2)

/-- What putting elements into memory does. -/
structure AddsValues (h : Heap) (values : List ItemValue) (items : List Item) (h' : Heap) : Prop where
  rules : h.rules <+: h'.rules
  lists : h'.lists = h.lists
  tables : h'.tables = h.tables
  read : items.map h'.itemValue = values
  below : ∀ item ∈ items, item.Below h'.rules.length

theorem addValues_adds (h : Heap) (values : List ItemValue) :
    h.AddsValues values (h.addValues values).1 (h.addValues values).2 := by
  induction values generalizing h with
  | nil => exact ⟨List.prefix_refl _, rfl, rfl, rfl, by simp [addValues]⟩
  | cons value values ih =>
    cases value with
    | other value =>
      obtain ⟨hrules, hlists, htables, hitems, hbelow⟩ := ih h
      refine ⟨hrules, hlists, htables, ?_, List.forall_mem_cons.2 ⟨trivial, hbelow⟩⟩
      rw [addValues, List.map_cons, hitems]
      rfl
    | rule r =>
      obtain ⟨hrules, hlists, htables, hitems, hbelow⟩ := ih { h with rules := h.rules ++ [r] }
      have hlt : (Item.rule h.rules.length).Below (h.rules ++ [r]).length := by simp [Item.Below]
      have hnew := itemValue_older hrules hlt
      have hvalue : ({ h with rules := h.rules ++ [r] } : Heap).itemValue (.rule h.rules.length) = .rule r := by
        simp [itemValue]
      refine ⟨(List.prefix_append _ _).trans hrules, hlists, htables, ?_, ?_⟩
      · rw [addValues, List.map_cons, hitems, hnew, hvalue]
      · exact List.forall_mem_cons.2 ⟨hlt.mono hrules.length_le, hbelow⟩

/-- Putting elements into memory leaves the policy. -/
theorem AddsValues.unchanged {h h' : Heap} {values : List ItemValue} {items : List Item}
    (ha : h.AddsValues values items h') : h.Extends h' where
  rules := ha.rules
  lists := by rw [ha.lists]
  tables := by rw [ha.tables]
  newLists l items hl hge := by
    rw [ha.lists, List.getElem?_eq_none hge] at hl
    cases hl
  newTables t table ht hge := by
    rw [ha.tables, List.getElem?_eq_none hge] at ht
    cases ht

/-! ### Policies -/

/-- A source may get lists of its own, with any rules. -/
theorem Sound.exists_set {h : Heap} (hs : h.Sound 0 0 0) (name : String) (value : SourceValue) :
    ∃ h' : Heap, h'.Sound 0 0 0 ∧
      ∀ name', (h'.policy 0).get? name' = if name' = name then some value else (h.policy 0).get? name' := by
  have hip := h.addValues_adds value.ip
  have hdns := (h.addValues value.ip).2.addValues_adds value.dns
  generalize h.addValues value.ip = ip at hip hdns
  generalize ip.2.addValues value.dns = dns at hdns
  obtain ⟨hs₁, hpolicy₁⟩ := hs.of_extends hip.unchanged
  obtain ⟨hs₂, hpolicy₂⟩ := hs₁.of_extends hdns.unchanged
  obtain ⟨lists, hlistsIp, hlistsDns⟩ : ∃ lists : ListKey → List Item, lists .ip = ip.1 ∧ lists .dns = dns.1 :=
    ⟨fun key => if key = .ip then ip.1 else dns.1, if_pos rfl, if_neg (by decide)⟩
  -- putting in the DNS rules leaves the flow rules as they are
  have hread : ∀ item ∈ ip.1, dns.2.itemValue item = ip.2.itemValue item :=
    fun item hitem => itemValue_older hdns.rules (hip.below item hitem)
  have hfrom : ∀ item : Item, item.From 0 := fun item => by
    cases item
    · exact Nat.zero_le _
    · trivial
  have hlists : ∀ key, ∀ item ∈ lists key, item.From 0 ∧ item.Below dns.2.rules.length := by
    intro key item hitem
    cases key with
    | ip => exact ⟨hfrom item, (hip.below item (hlistsIp ▸ hitem)).mono hdns.rules.length_le⟩
    | dns => exact ⟨hfrom item, hdns.below item (hlistsDns ▸ hitem)⟩
  refine ⟨dns.2.addSource 0 name lists, hs₂.addSource (Nat.zero_le _) hlists, fun name' => ?_⟩
  have hkeys : name' ∈ ((dns.2.addSource 0 name lists).table 0).keys ↔
      name' = name ∨ name' ∈ (dns.2.table 0).keys := by
    rw [Dict.mem_keys_iff, get?_addSource hs₂.table, Dict.mem_keys_iff]
    by_cases hname : name' = name <;> simp [hname]
  rw [policy_get?, itemsOf_addSource hs₂, itemsOf_addSource hs₂]
  by_cases hname : name' = name
  · subst hname
    rw [if_pos (hkeys.2 (.inl rfl)), if_pos rfl, if_pos rfl, if_pos rfl, hlistsIp, hlistsDns]
    exact congrArg some (congrArg₂ SourceValue.mk ((List.map_congr_left hread).trans hip.read) hdns.read)
  · rw [if_neg hname, if_neg hname, if_neg hname, ← hpolicy₁, ← hpolicy₂, policy_get?]
    simp only [hkeys, hname, false_or]
    rfl

/-- Any policy is that of a table in memory whose lists are different objects. -/
theorem exists_sound_policy (entries : List (String × SourceValue)) (hnodup : (entries.map Prod.fst).Nodup) :
    ∃ h : Heap, h.Sound 0 0 0 ∧
      ∀ name, (h.policy 0).get? name = (Dict.mk entries hnodup).get? name := by
  induction entries with
  | nil =>
    refine ⟨⟨[], [], [.empty]⟩, ⟨by simp, ?_, ?_, ?_⟩, fun name => rfl⟩
    · intro name o key ho
      cases ho
    · intro name o key name' o' key' ho
      cases ho
    · intro name key item hitem
      cases hitem
  | cons entry entries ih =>
    obtain ⟨name, value⟩ := entry
    rw [List.map_cons, List.nodup_cons] at hnodup
    obtain ⟨h, hs, hpolicy⟩ := ih hnodup.2
    obtain ⟨h', hs', hpolicy'⟩ := hs.exists_set name value
    refine ⟨h', hs', fun name' => ?_⟩
    rw [hpolicy', hpolicy]
    by_cases hname : name' = name
    · simp [Dict.get?, hname]
    · simp [Dict.get?, hname, Ne.symm hname]

/-! ### Rule files -/

end Heap

/-- The element that a value of a file without anchors is loaded as. -/
def ItemValue.ofTree : Yaml → ItemValue
  | .map entries => .rule ⟨entries, none⟩
  | value => .other value

@[simp] theorem ItemValue.tree_ofTree (value : Yaml) : (ofTree value).tree = value := by cases value <;> rfl

namespace Heap

/-- Put the mapping of a file into memory. -/
def addData (h : Heap) : List (Scalar × Yaml) → Data × Heap
  | [] => ([], h)
  | (key, .seq values) :: entries =>
    let list := h.addValues (values.map ItemValue.ofTree)
    let rest := addData { list.2 with lists := list.2.lists ++ [list.1] } entries
    ((key, .list list.2.lists.length) :: rest.1, rest.2)
  | (key, value) :: entries =>
    let rest := addData h entries
    ((key, .other value) :: rest.1, rest.2)

/-- All rules of all lists are there. -/
def Closed (h : Heap) : Prop := ∀ items ∈ h.lists, ∀ item ∈ items, item.Below h.rules.length

structure AddsData (h : Heap) (entries : List (Scalar × Yaml)) (data : Data) (h' : Heap) : Prop where
  rules : h.rules <+: h'.rules
  lists : h.lists <+: h'.lists
  read : h'.dataTree data = entries
  listed : ∀ e ∈ data, ∀ address, e.2 = .list address → address < h'.lists.length
  closed : h'.Closed

theorem addData_adds {h : Heap} (hclosed : h.Closed) (entries : List (Scalar × Yaml)) :
    h.AddsData entries (h.addData entries).1 (h.addData entries).2 := by
  induction entries generalizing h with
  | nil => exact ⟨List.prefix_refl _, List.prefix_refl _, rfl, by simp [addData], hclosed⟩
  | cons entry entries ih =>
    obtain ⟨key, value⟩ := entry
    have hother : ∀ v : Yaml, (∀ values, v ≠ .seq values) →
        h.addData ((key, v) :: entries) = ((key, .other v) :: (h.addData entries).1, (h.addData entries).2) := by
      intro v hv
      cases v with
      | seq values => exact absurd rfl (hv values)
      | scalar s => rfl
      | map entries => rfl
    -- a list becomes an object of its own, any other value stays with its key
    by_cases hseq : ∃ values, value = .seq values
    · obtain ⟨values, rfl⟩ := hseq
      have hadds := h.addValues_adds (values.map ItemValue.ofTree)
      rw [addData]
      generalize h.addValues (values.map ItemValue.ofTree) = list at hadds
      let h₁ : Heap := { list.2 with lists := list.2.lists ++ [list.1] }
      have hclosed₁ : h₁.Closed := by
        intro items hitems item hitem
        rcases List.mem_append.1 hitems with hold | hnew
        · exact (hclosed items (hadds.lists ▸ hold) item hitem).mono hadds.rules.length_le
        · exact hadds.below item (List.mem_singleton.1 hnew ▸ hitem)
      obtain ⟨hrules, hlists, hread, hlisted, hclosed'⟩ := ih hclosed₁
      have hlt : list.2.lists.length < h₁.lists.length := by simp [h₁]
      refine ⟨hadds.rules.trans hrules, ?_, ?_, ?_, hclosed'⟩
      · rw [← hadds.lists]
        exact (List.prefix_append _ _).trans hlists
      · have hitems : (h₁.addData entries).2.items list.2.lists.length = list.1 := by
          rw [items_older hlists hlt]
          simp [items, h₁]
        have hvalues : list.1.map (h₁.addData entries).2.itemValue = values.map ItemValue.ofTree := by
          rw [← hadds.read]
          exact List.map_congr_left fun item hitem => itemValue_older hrules (hadds.below item hitem)
        rw [dataTree, List.map_cons, ← dataTree, hread, nodeTree, listValue, hitems, hvalues, List.map_map]
        simp [Function.comp_def]
      · refine List.forall_mem_cons.2 ⟨fun address hnode => ?_, hlisted⟩
        cases hnode
        exact Nat.lt_of_lt_of_le hlt hlists.length_le
    · rw [hother value fun values heq => hseq ⟨values, heq⟩]
      obtain ⟨hrules, hlists, hread, hlisted, hclosed'⟩ := ih hclosed
      refine ⟨hrules, hlists, ?_, ?_, hclosed'⟩
      · rw [dataTree, List.map_cons, ← dataTree, hread]
        rfl
      · refine List.forall_mem_cons.2 ⟨fun address hnode => ?_, hlisted⟩
        cases hnode

theorem closed_empty : (⟨[], [], []⟩ : Heap).Closed := by
  intro items hitems
  cases hitems

end Heap

/-- The objects of a file without anchors. -/
def Graph.ofTree (entries : List (Scalar × Yaml)) : Graph where
  heap := ((⟨[], [], []⟩ : Heap).addData entries).2
  root := ((⟨[], [], []⟩ : Heap).addData entries).1
  listed := (Heap.addData_adds Heap.closed_empty entries).listed
  closed := (Heap.addData_adds Heap.closed_empty entries).closed

theorem Graph.dataTree_ofTree (entries : List (Scalar × Yaml)) :
    (ofTree entries).heap.dataTree (ofTree entries).root = entries :=
  (Heap.addData_adds Heap.closed_empty entries).read

/-- The outside where files have no anchors. -/
def SaveIo.withoutAnchors (resolver : Resolver) (fault : Nat → Option PyError) (torn : Nat → Option RuleText) :
    SaveIo where
  resolver
  load path text := (readYaml path text).map Graph.ofTree
  load_tree path text := by
    cases readYaml path text with
    | error e => rfl
    | ok entries => exact congrArg Except.ok (Graph.dataTree_ofTree entries)
  fault
  torn

end QubesSnitch
