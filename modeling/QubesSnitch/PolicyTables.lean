import QubesSnitch.ObjectFrame

/-!
# Policy tables on the heap

The policy is a table of lists of rules.  In memory no two of its lists are the same object (`Heap.Sound`), so a new
rule at the end of one list is in no other; loading, copying and saving keep this.  A copied table has the same policy,
and all of its objects are new (`Heap.Sound.copy`).  `Heap.Grows` says how an answer extends the copy and the file.
-/

namespace QubesSnitch

/-- The keys of the lists of a source. -/
inductive ListKey where
  | ip
  | dns
deriving DecidableEq

def SourceObject.at (o : SourceObject) : ListKey → Nat
  | .ip => o.ip
  | .dns => o.dns

namespace Heap

/-- The elements of a list of a source; none for a source that is not there. -/
def itemsOf (h : Heap) (t : Nat) (name : String) (key : ListKey) : List Item :=
  ((h.table t).get? name).elim [] fun o => h.items (o.at key)

theorem itemsOf_of_get? {h : Heap} {t : Nat} {name : String} {o : SourceObject}
    (ho : (h.table t).get? name = some o) (key : ListKey) : h.itemsOf t name key = h.items (o.at key) := by
  rw [itemsOf, ho]
  rfl

theorem itemsOf_of_none {h : Heap} {t : Nat} {name : String} (ho : (h.table t).get? name = none) (key : ListKey) :
    h.itemsOf t name key = [] := by
  rw [itemsOf, ho]
  rfl

/-- The policy of a source. -/
theorem policy_get? (h : Heap) (t : Nat) (name : String) : (h.policy t).get? name =
    if name ∈ (h.table t).keys then
      some ⟨(h.itemsOf t name .ip).map h.itemValue, (h.itemsOf t name .dns).map h.itemValue⟩
    else none := by
  rw [policy, Dict.get?_mapValues]
  cases ho : (h.table t).get? name with
  | none => rw [if_neg (Dict.get?_eq_none_iff.1 ho), Option.map_none]
  | some o =>
    rw [if_pos (Dict.mem_keys_of_get? ho), itemsOf_of_get? ho, itemsOf_of_get? ho]
    rfl

/-- The lists of a policy table are there, from address `L`, they are different objects, and they refer to rules that
are there, from address `R`. -/
structure Sound (h : Heap) (t L R : Nat) : Prop where
  table : t < h.tables.length
  bounds : ∀ name o key, (h.table t).get? name = some o → L ≤ o.at key ∧ o.at key < h.lists.length
  apart : ∀ name o key name' o' key', (h.table t).get? name = some o → (h.table t).get? name' = some o' →
    o.at key = o'.at key' → name = name' ∧ key = key'
  within : ∀ name key, ∀ item ∈ h.itemsOf t name key, item.From R ∧ item.Below h.rules.length

end Heap

/-! ### Cells that do not change -/

theorem Item.Below.mono {n m : Nat} (h : n ≤ m) {item : Item} (hi : item.Below n) : item.Below m := by
  cases item with
  | rule address => exact Nat.lt_of_lt_of_le hi h
  | other value => trivial

namespace Heap

variable {h h' : Heap} {t L R : Nat}

theorem itemValue_older (hp : h.rules <+: h'.rules) {item : Item} (hi : item.Below h.rules.length) :
    h'.itemValue item = h.itemValue item := by
  cases item with
  | other value => rfl
  | rule address =>
    rw [List.prefix_iff_getElem?] at hp
    rw [itemValue, itemValue, hp address hi, List.getElem?_eq_getElem hi]

theorem items_older (hp : h.lists <+: h'.lists) {l : Nat} (hl : l < h.lists.length) : h'.items l = h.items l := by
  rw [List.prefix_iff_getElem?] at hp
  rw [items, items, hp l hl, List.getElem?_eq_getElem hl]

theorem table_older (hp : h.tables <+: h'.tables) (ht : t < h.tables.length) : h'.table t = h.table t := by
  rw [List.prefix_iff_getElem?] at hp
  rw [table, table, hp t ht, List.getElem?_eq_getElem ht]

namespace Sound

theorem itemsOf_older (hs : h.Sound t L R) (hlists : h.lists <+: h'.lists) (htables : h.tables <+: h'.tables)
    (name : String) (key : ListKey) : h'.itemsOf t name key = h.itemsOf t name key := by
  have htable := table_older htables hs.table
  cases ho : (h.table t).get? name with
  | none => rw [itemsOf_of_none ho, itemsOf_of_none (by rw [htable, ho])]
  | some o =>
    rw [itemsOf_of_get? ho, itemsOf_of_get? (by rw [htable, ho]), items_older hlists (hs.bounds name o key ho).2]

/-- A heap that extends another has its policy. -/
theorem of_extends (hs : h.Sound t L R) (hx : h.Extends h') :
    h'.Sound t L R ∧ h'.policy t = h.policy t := by
  have htable := table_older hx.tables hs.table
  have hitems := hs.itemsOf_older hx.lists hx.tables
  refine ⟨⟨Nat.lt_of_lt_of_le hs.table hx.tables.length_le, ?_, ?_, ?_⟩, ?_⟩
  · intro name o key ho
    rw [htable] at ho
    obtain ⟨hfrom, hlt⟩ := hs.bounds name o key ho
    exact ⟨hfrom, Nat.lt_of_lt_of_le hlt hx.lists.length_le⟩
  · rw [htable]
    exact hs.apart
  · intro name key item hitem
    rw [hitems] at hitem
    obtain ⟨hfrom, hbelow⟩ := hs.within name key item hitem
    exact ⟨hfrom, hbelow.mono hx.rules.length_le⟩
  · rw [policy, policy, htable]
    refine Dict.ext (List.map_congr_left fun e he => ?_)
    have ho : (h.table t).get? e.1 = some e.2 := Dict.get?_eq_some_iff.2 he
    have hvalue : ∀ key, h'.listValue (e.2.at key) = h.listValue (e.2.at key) := by
      intro key
      rw [listValue, listValue, items_older hx.lists (hs.bounds e.1 e.2 key ho).2]
      refine List.map_congr_left fun item hitem => itemValue_older hx.rules ?_
      exact (hs.within e.1 key item (by rwa [itemsOf_of_get? ho])).2
    exact Prod.ext rfl (congrArg₂ SourceValue.mk (hvalue .ip) (hvalue .dns))

theorem mono {L' R' : Nat} (hs : h.Sound t L R) (hL : L' ≤ L) (hR : R' ≤ R) : h.Sound t L' R' := by
  refine ⟨hs.table, fun name o key ho => ?_, hs.apart, fun name key item hitem => ?_⟩
  · obtain ⟨hfrom, hlt⟩ := hs.bounds name o key ho
    exact ⟨hL.trans hfrom, hlt⟩
  · obtain ⟨hfrom, hbelow⟩ := hs.within name key item hitem
    refine ⟨?_, hbelow⟩
    cases item with
    | rule address => exact hR.trans hfrom
    | other value => trivial

end Sound

/-! ### Copies -/

theorem itemValue_shift (h g : Heap) (item : Item) :
    (h.append g).itemValue (item.shift h.rules.length) = g.itemValue item := by
  cases item with
  | other value => rfl
  | rule address => simp [itemValue, Item.shift, append, List.getElem?_append_right]

theorem items_shift (h g : Heap) (l : Nat) :
    (h.append g).items (h.lists.length + l) = (g.items l).map (Item.shift h.rules.length) := by
  rw [items, items, append, List.getElem?_append_right (Nat.le_add_right _ _), Nat.add_sub_cancel_left,
    List.getElem?_map]
  cases g.lists[l]? <;> rfl

theorem table_shift (h g : Heap) (t : Nat) :
    (h.append g).table (h.tables.length + t) = (g.table t).mapValues (SourceObject.shift h.lists.length) := by
  rw [table, table, append, List.getElem?_append_right (Nat.le_add_right _ _), Nat.add_sub_cancel_left,
    List.getElem?_map]
  cases g.tables[t]? <;> rfl

theorem itemsOf_shift (h g : Heap) (t : Nat) (name : String) (key : ListKey) :
    (h.append g).itemsOf (h.tables.length + t) name key = (g.itemsOf t name key).map (Item.shift h.rules.length) := by
  have hat : ∀ o : SourceObject, (o.shift h.lists.length).at key = h.lists.length + o.at key := fun o => by
    cases key <;> rfl
  cases ho : (g.table t).get? name with
  | none =>
    rw [itemsOf_of_none ho, itemsOf_of_none (by rw [table_shift, Dict.get?_mapValues, ho]; rfl)]
    rfl
  | some o =>
    have hcopy : ((h.append g).table (h.tables.length + t)).get? name = some (o.shift h.lists.length) := by
      rw [table_shift, Dict.get?_mapValues, ho]
      rfl
    rw [itemsOf_of_get? ho, itemsOf_of_get? hcopy, hat, items_shift]

/-- A copied table has the same policy in new objects. -/
theorem Sound.copy {g : Heap} (hs : g.Sound t L R) (h : Heap) :
    (h.append g).Sound (h.tables.length + t) h.lists.length h.rules.length ∧
      ∀ name, ((h.append g).policy (h.tables.length + t)).get? name = (g.policy t).get? name := by
  have hat : ∀ (o : SourceObject) key, (o.shift h.lists.length).at key = h.lists.length + o.at key := fun o key => by
    cases key <;> rfl
  have hget : ∀ name o', ((h.append g).table (h.tables.length + t)).get? name = some o' →
      ∃ o, (g.table t).get? name = some o ∧ o' = o.shift h.lists.length := by
    intro name o' ho'
    rw [table_shift, Dict.get?_mapValues, Option.map_eq_some_iff] at ho'
    obtain ⟨o, ho, rfl⟩ := ho'
    exact ⟨o, ho, rfl⟩
  refine ⟨⟨?_, ?_, ?_, ?_⟩, fun name => ?_⟩
  · simpa [append] using hs.table
  · intro name o' key ho'
    obtain ⟨o, ho, rfl⟩ := hget name o' ho'
    rw [hat]
    have hlt := (hs.bounds name o key ho).2
    exact ⟨Nat.le_add_right _ _, by simpa [append] using hlt⟩
  -- two lists of the copy are one only if their originals are
  · intro name o₁ key name' o₂ key' ho₁ ho₂ heq
    obtain ⟨o, ho, rfl⟩ := hget name o₁ ho₁
    obtain ⟨o', ho', rfl⟩ := hget name' o₂ ho₂
    rw [hat, hat] at heq
    exact hs.apart name o key name' o' key' ho ho' (Nat.add_left_cancel heq)
  · intro name key item' hitem'
    rw [itemsOf_shift] at hitem'
    obtain ⟨item, hitem, rfl⟩ := List.mem_map.1 hitem'
    refine ⟨Item.from_shift (Nat.le_refl _) item, ?_⟩
    have hbelow := (hs.within name key item hitem).2
    cases item with
    | other value => trivial
    | rule address => simpa [Item.Below, Item.shift, append] using hbelow
  · have hvalues : ∀ key, ((g.itemsOf t name key).map (Item.shift h.rules.length)).map (h.append g).itemValue =
        (g.itemsOf t name key).map g.itemValue := fun key => by
      rw [List.map_map]
      exact List.map_congr_left fun item _ => itemValue_shift h g item
    have hkeys : ((h.append g).table (h.tables.length + t)).keys = (g.table t).keys := by
      rw [table_shift, Dict.keys_mapValues]
    rw [policy_get?, policy_get?, hkeys, itemsOf_shift, itemsOf_shift, hvalues, hvalues]

/-! ### Lists that grow -/

/-- The heap with an element more at the end of a list. -/
def addItem (h : Heap) (p : Nat) (item : Item) : Heap := { h with lists := h.lists.modify p (· ++ [item]) }

@[simp] theorem rules_addItem (h : Heap) (p : Nat) (item : Item) : (h.addItem p item).rules = h.rules := rfl

@[simp] theorem table_addItem (h : Heap) (p : Nat) (item : Item) (t : Nat) :
    (h.addItem p item).table t = h.table t := rfl

@[simp] theorem length_addItem (h : Heap) (p : Nat) (item : Item) : (h.addItem p item).lists.length = h.lists.length :=
  List.length_modify _ _ _

theorem items_addItem {h : Heap} {p : Nat} (hp : p < h.lists.length) (item : Item) (l : Nat) :
    (h.addItem p item).items l = h.items l ++ if l = p then [item] else [] := by
  rw [items, items, addItem, List.getElem?_modify]
  by_cases hl : l = p
  · subst hl
    simp [List.getElem?_eq_getElem hp]
  · simp [hl, Ne.symm hl]

/-- Only the list that grows has the element, under whatever name the table has it. -/
theorem itemsOf_addItem {p : Nat} (hp : p < h.lists.length) (item : Item) (name : String) (key : ListKey) :
    (h.addItem p item).itemsOf t name key = h.itemsOf t name key ++
      if ((h.table t).get? name).map (·.at key) = some p then [item] else [] := by
  cases ho : (h.table t).get? name with
  | none =>
    rw [itemsOf_of_none ho, itemsOf_of_none (by rwa [table_addItem])]
    rfl
  | some o =>
    rw [itemsOf_of_get? ho, itemsOf_of_get? (by rwa [table_addItem]), items_addItem hp]
    simp

theorem items_newLists (h : Heap) (l : Nat) : { h with lists := h.lists ++ [[]] ++ [[]] }.items l = h.items l := by
  rw [items, items, List.append_assoc, List.getElem?_append]
  split
  · rfl
  · rename_i hge
    rw [List.getElem?_eq_none (Nat.le_of_not_lt hge)]
    rcases l - h.lists.length with _ | _ | _ <;> rfl

/-! ### Sources that are added -/

/-- The heap with two lists more, for a new source. -/
def addSource (h : Heap) (t : Nat) (name : String) (lists : ListKey → List Item) : Heap :=
  { h with
    lists := h.lists ++ [lists .ip] ++ [lists .dns]
    tables := h.tables.modify t (·.set name ⟨h.lists.length, (h.lists ++ [lists .ip]).length⟩) }

section AddSource

variable {name : String} {lists : ListKey → List Item}

theorem at_newSource (n : Nat) (key : ListKey) :
    n ≤ (SourceObject.mk n (n + 1)).at key ∧ (SourceObject.mk n (n + 1)).at key < n + 2 := by
  cases key <;> simp [SourceObject.at]

theorem get?_addSource (ht : t < h.tables.length) (name' : String) :
    ((h.addSource t name lists).table t).get? name' =
      if name' = name then some ⟨h.lists.length, h.lists.length + 1⟩ else (h.table t).get? name' := by
  rw [table, table, addSource, List.getElem?_modify_eq, List.getElem?_eq_getElem ht]
  simp [Dict.get?_set]

theorem get?_addSource_self (ht : t < h.tables.length) : ((h.addSource t name lists).table t).get? name =
    some ⟨h.lists.length, (h.lists ++ [lists .ip]).length⟩ := by
  rw [get?_addSource ht, if_pos rfl, List.length_append]
  rfl

theorem items_addSource {l : Nat} (hl : l < h.lists.length) : (h.addSource t name lists).items l = h.items l :=
  items_older ((List.prefix_append _ _).trans (List.prefix_append _ _)) hl

theorem items_newSource (key : ListKey) :
    (h.addSource t name lists).items ((SourceObject.mk h.lists.length (h.lists.length + 1)).at key) = lists key := by
  cases key <;> simp [items, addSource, SourceObject.at]

theorem itemsOf_addSource (hs : h.Sound t L R) (name' : String) (key : ListKey) :
    (h.addSource t name lists).itemsOf t name' key = if name' = name then lists key else h.itemsOf t name' key := by
  have hget := @get?_addSource h t name lists hs.table name'
  by_cases hname : name' = name
  · rw [if_pos hname] at hget ⊢
    rw [itemsOf_of_get? hget, items_newSource]
  · rw [if_neg hname] at hget ⊢
    cases ho : (h.table t).get? name' with
    | none => rw [itemsOf_of_none ho, itemsOf_of_none (hget.trans ho)]
    | some o => rw [itemsOf_of_get? ho, itemsOf_of_get? (hget.trans ho), items_addSource (hs.bounds name' o key ho).2]

theorem Sound.addSource (hs : h.Sound t L R) (hL : L ≤ h.lists.length)
    (hlists : ∀ key, ∀ item ∈ lists key, item.From R ∧ item.Below h.rules.length) :
    (h.addSource t name lists).Sound t L R := by
  have hget := fun name' => @get?_addSource h t name lists hs.table name'
  have hlength : (h.addSource t name lists).lists.length = h.lists.length + 2 := by simp [Heap.addSource]
  refine ⟨by simpa [Heap.addSource] using hs.table, ?_, ?_, fun name' key item hitem => ?_⟩
  · intro name' o key ho
    rw [hget] at ho
    split at ho
    · cases ho
      have hnewBounds := at_newSource h.lists.length key
      omega
    · have hbounds := hs.bounds name' o key ho
      omega
  · intro name₁ o₁ key₁ name₂ o₂ key₂ ho₁ ho₂ heq
    rw [hget] at ho₁ ho₂
    -- the new lists are behind all others
    split at ho₁ <;> split at ho₂
    · cases ho₁
      cases ho₂
      rename_i h₁ h₂
      refine ⟨h₁.trans h₂.symm, ?_⟩
      cases key₁ <;> cases key₂ <;> simp [SourceObject.at] at heq <;> rfl
    · have hlt := (hs.bounds name₂ o₂ key₂ ho₂).2
      cases ho₁
      have hge := (at_newSource h.lists.length key₁).1
      omega
    · have hlt := (hs.bounds name₁ o₁ key₁ ho₁).2
      cases ho₂
      have hge := (at_newSource h.lists.length key₂).1
      omega
    · exact hs.apart _ _ _ _ _ _ ho₁ ho₂ heq
  · rw [itemsOf_addSource hs] at hitem
    split at hitem
    · exact hlists key item hitem
    · exact hs.within name' key item hitem

end AddSource

/-- What an answer adds to the heap: the rules `rs`, and elements at the end of the lists below `L`, which are those of
the file, and of those of the policy table at `t`, which then has the sources `names`, too. -/
structure Grows (h : Heap) (t L R : Nat) (h' : Heap) (rs : List RuleObject) (file : Nat → List Item)
    (names : List String) (policy : String → ListKey → List Item) : Prop where
  rules : h'.rules = h.rules ++ rs
  lists : L ≤ h'.lists.length
  items : ∀ l < L, h'.items l = h.items l ++ file l
  keys : ∀ name, name ∈ (h'.table t).keys ↔ name ∈ names ∨ name ∈ (h.table t).keys
  itemsOf : ∀ name key, h'.itemsOf t name key = h.itemsOf t name key ++ policy name key
  sound : h'.Sound t L R

namespace Grows

variable {rs : List RuleObject} {file : Nat → List Item} {names : List String}
  {policy : String → ListKey → List Item}

theorem refl (hs : h.Sound t L R) (hL : L ≤ h.lists.length) :
    h.Grows t L R h [] (fun _ => []) [] fun _ _ => [] where
  rules := (List.append_nil _).symm
  lists := hL
  items l _ := (List.append_nil _).symm
  keys name := by simp
  itemsOf name key := (List.append_nil _).symm
  sound := hs

theorem newRule (hg : h.Grows t L R h' rs file names policy) (r : RuleObject) :
    h.Grows t L R { h' with rules := h'.rules ++ [r] } (rs ++ [r]) file names policy where
  rules := by rw [hg.rules, List.append_assoc]
  lists := hg.lists
  items := hg.items
  keys := hg.keys
  itemsOf := hg.itemsOf
  sound := (hg.sound.of_extends ((Extends.refl h').newRule r)).1

theorem fileItem (hg : h.Grows t L R h' rs file names policy) {p : Nat} (hp : p < L) (item : Item) :
    h.Grows t L R (h'.addItem p item) rs (fun l => file l ++ if l = p then [item] else []) names policy := by
  have hlt : p < h'.lists.length := Nat.lt_of_lt_of_le hp hg.lists
  have hitems : ∀ name key, (h'.addItem p item).itemsOf t name key = h'.itemsOf t name key := by
    intro name key
    rw [itemsOf_addItem hlt, if_neg, List.append_nil]
    -- the lists of the policy are behind those of the file
    intro hat
    obtain ⟨o, ho, rfl⟩ := Option.map_eq_some_iff.1 hat
    have hfrom := (hg.sound.bounds name o key ho).1
    omega
  refine ⟨hg.rules, by simpa using hg.lists, fun l hl => ?_, hg.keys, fun name key => ?_, hg.sound.table, ?_,
    hg.sound.apart, fun name key => ?_⟩
  · rw [items_addItem hlt, hg.items l hl, List.append_assoc]
  · rw [hitems, hg.itemsOf]
  · simpa using hg.sound.bounds
  · rw [hitems]
    exact hg.sound.within name key

/-- A new source has empty lists. -/
theorem source (hg : h.Grows t L R h' rs file names policy) {name : String} (hnew : (h'.table t).get? name = none) :
    h.Grows t L R (h'.addSource t name fun _ => []) rs file (name :: names) policy where
  rules := hg.rules
  lists := by
    have hL := hg.lists
    simp only [Heap.addSource, List.length_append, List.length_singleton]
    omega
  items l hl := by rw [items_addSource (Nat.lt_of_lt_of_le hl hg.lists), hg.items l hl]
  keys name' := by
    rw [Dict.mem_keys_iff, get?_addSource hg.sound.table, List.mem_cons, or_assoc, ← hg.keys, Dict.mem_keys_iff]
    by_cases hname : name' = name <;> simp [hname]
  itemsOf name' key := by
    rw [itemsOf_addSource hg.sound, ← hg.itemsOf]
    split
    · rename_i hname
      rw [hname, itemsOf_of_none hnew]
    · rfl
  sound := hg.sound.addSource hg.lists fun _ _ hitem => nomatch hitem

/-- A new rule at the end of a list of the file. -/
theorem fileRule (hs : h.Sound t L R) (hL : L ≤ h.lists.length) (r : RuleObject) {p : Nat} (hp : p < L) :
    h.Grows t L R ({ h with rules := h.rules ++ [r] }.addItem p (.rule h.rules.length)) [r]
      (fun l => if l = p then [.rule h.rules.length] else []) [] fun _ _ => [] :=
  ((refl hs hL).newRule r).fileItem hp (.rule h.rules.length)

theorem known (hg : h.Grows t L R h' rs file names policy) {name : String} (hname : name ∈ (h'.table t).keys) :
    h.Grows t L R h' rs file (name :: names) policy where
  rules := hg.rules
  lists := hg.lists
  items := hg.items
  keys name' := by
    rw [List.mem_cons, or_assoc, ← hg.keys]
    constructor
    · exact .inr
    · rintro (rfl | hmem)
      · exact hname
      · exact hmem
  itemsOf := hg.itemsOf
  sound := hg.sound

theorem policyItem (hg : h.Grows t L R h' rs file names policy) {name : String} {o : SourceObject}
    (ho : (h'.table t).get? name = some o) (key : ListKey) {item : Item} (hfrom : item.From R)
    (hbelow : item.Below h'.rules.length) :
    h.Grows t L R (h'.addItem (o.at key) item) rs file names
      fun name' key' => policy name' key' ++ if name' = name ∧ key' = key then [item] else [] := by
  obtain ⟨hle, hlt⟩ := hg.sound.bounds name o key ho
  have hitems : ∀ name' key', (h'.addItem (o.at key) item).itemsOf t name' key' =
      h'.itemsOf t name' key' ++ if name' = name ∧ key' = key then [item] else [] := by
    intro name' key'
    -- no other source and no other key has this list
    have hiff : ((h'.table t).get? name').map (·.at key') = some (o.at key) ↔ name' = name ∧ key' = key := by
      constructor
      · intro hat
        obtain ⟨o', ho', heq⟩ := Option.map_eq_some_iff.1 hat
        exact hg.sound.apart _ _ _ _ _ _ ho' ho heq
      · rintro ⟨rfl, rfl⟩
        rw [ho]
        rfl
    rw [itemsOf_addItem hlt]
    simp only [hiff]
  refine ⟨hg.rules, by simpa using hg.lists, fun l hl => ?_, hg.keys, fun name' key' => ?_, hg.sound.table, ?_,
    hg.sound.apart, fun name' key' item' hitem' => ?_⟩
  · have hne : l ≠ o.at key := by omega
    rw [items_addItem hlt, if_neg hne, List.append_nil, hg.items l hl]
  · rw [hitems, hg.itemsOf, List.append_assoc]
  · simpa using hg.sound.bounds
  · rw [hitems] at hitem'
    rcases List.mem_append.1 hitem' with hold | hnew
    · exact hg.sound.within name' key' item' hold
    · split at hnew
      · rw [List.mem_singleton.1 hnew]
        exact ⟨hfrom, hbelow⟩
      · cases hnew

end Grows

end Heap

end QubesSnitch
