import Mathlib

/-!
# Insertion-ordered dictionaries

A dictionary is a list of entries with pairwise different keys, in the order in which the keys were first
inserted.  Writing to a present key keeps its position, writing to a new key appends it, and deleting keeps the
order of the rest.  The field `nodup` carries the uniqueness of the keys, so that a lookup and membership of an
entry say the same thing (`get?_eq_some_iff`) and every law of an update follows from what it does to entries.
-/

structure Dict (κ ν : Type) where
  entries : List (κ × ν)
  nodup : (entries.map Prod.fst).Nodup
  deriving Repr

namespace Dict

variable {κ ν ω : Type}

@[ext] theorem ext {d e : Dict κ ν} (h : d.entries = e.entries) : d = e := by
  cases d; cases e; cases h; rfl

instance [DecidableEq κ] [DecidableEq ν] : DecidableEq (Dict κ ν) := fun d e =>
  decidable_of_iff (d.entries = e.entries) ⟨ext, fun h => h ▸ rfl⟩

def empty : Dict κ ν := ⟨[], List.nodup_nil⟩

instance : Inhabited (Dict κ ν) := ⟨empty⟩

/-- The keys, in insertion order. -/
def keys (d : Dict κ ν) : List κ := d.entries.map Prod.fst

def values (d : Dict κ ν) : List ν := d.entries.map Prod.snd

def size (d : Dict κ ν) : Nat := d.entries.length

/-- Keep the entries whose key satisfies `p`. -/
def filterKeys (d : Dict κ ν) (p : κ → Bool) : Dict κ ν :=
  ⟨d.entries.filter fun e => p e.1, d.nodup.sublist (List.filter_sublist.map _)⟩

/-- The same keys with the values mapped. -/
def mapValues (d : Dict κ ν) (f : ν → ω) : Dict κ ω :=
  ⟨d.entries.map fun e => (e.1, f e.2), by simpa [List.map_map, Function.comp_def] using d.nodup⟩

/-- The values mapped together with their keys. -/
def mapWithKey (d : Dict κ ν) (f : κ → ν → ω) : Dict κ ω :=
  ⟨d.entries.map fun e => (e.1, f e.1 e.2), by simpa [List.map_map, Function.comp_def] using d.nodup⟩

/-- Keep the entries that satisfy `p`. -/
def filter (d : Dict κ ν) (p : κ → ν → Bool) : Dict κ ν :=
  ⟨d.entries.filter fun e => p e.1 e.2, d.nodup.sublist (List.filter_sublist.map _)⟩

variable [DecidableEq κ]

def get? (d : Dict κ ν) (k : κ) : Option ν := (d.entries.find? fun e => e.1 = k).map Prod.snd

private theorem nodup_set_present {l : List (κ × ν)} (h : (l.map Prod.fst).Nodup) (k : κ) (v : ν) :
    ((l.map fun e => if e.1 = k then (k, v) else e).map Prod.fst).Nodup := by
  have hkeys : (l.map fun e => if e.1 = k then (k, v) else e).map Prod.fst = l.map Prod.fst := by
    rw [List.map_map]
    apply List.map_congr_left
    intro e _
    by_cases he : e.1 = k <;> simp [he]
  rw [hkeys]
  exact h

omit [DecidableEq κ] in
private theorem nodup_set_absent {l : List (κ × ν)} (h : (l.map Prod.fst).Nodup) {k : κ} (v : ν)
    (hk : k ∉ l.map Prod.fst) : ((l ++ [(k, v)]).map Prod.fst).Nodup := by
  rw [List.map_append, List.nodup_append]
  refine ⟨h, by simp, ?_⟩
  intro a ha b hb hab
  simp only [List.map_cons, List.map_nil, List.mem_singleton] at hb
  exact hk (hb ▸ hab ▸ ha)

/-- Write `v` under `k`. -/
def set (d : Dict κ ν) (k : κ) (v : ν) : Dict κ ν :=
  if h : k ∈ d.keys then ⟨d.entries.map fun e => if e.1 = k then (k, v) else e, nodup_set_present d.nodup k v⟩
  else ⟨d.entries ++ [(k, v)], nodup_set_absent d.nodup v h⟩

/-- Delete the entry of `k`, if there is one. -/
def erase (d : Dict κ ν) (k : κ) : Dict κ ν := d.filterKeys fun k' => k' ≠ k

/-- Equality of dictionaries as maps, whatever the insertion orders. -/
def same [DecidableEq ν] (d e : Dict κ ν) : Bool :=
  d.size = e.size && d.entries.all fun p => e.get? p.1 = some p.2

/-! ### Lookup and entries -/

theorem get?_eq_some_iff {d : Dict κ ν} {k : κ} {v : ν} : d.get? k = some v ↔ (k, v) ∈ d.entries := by
  unfold get?
  constructor
  · intro h
    obtain ⟨e, he, rfl⟩ := Option.map_eq_some_iff.1 h
    have hk : e.1 = k := by simpa using List.find?_some he
    exact hk ▸ List.mem_of_find?_eq_some he
  · intro h
    obtain ⟨e, he⟩ : ∃ e, d.entries.find? (fun e => e.1 = k) = some e := by
      rw [← Option.isSome_iff_exists, List.find?_isSome]
      exact ⟨(k, v), h, by simp⟩
    have hk : e.1 = k := by simpa using List.find?_some he
    have := List.inj_on_of_nodup_map d.nodup (List.mem_of_find?_eq_some he) h (by simpa using hk)
    rw [he, this]
    rfl

theorem same_refl [DecidableEq ν] (d : Dict κ ν) : d.same d := by
  simp only [same, decide_true, Bool.true_and, List.all_eq_true, decide_eq_true_eq]
  exact fun p hp => get?_eq_some_iff.2 hp

theorem get?_of_same [DecidableEq ν] {d e : Dict κ ν} (h : d.same e) {k : κ} {v : ν} (hget : d.get? k = some v) :
    e.get? k = some v := by
  simp only [same, Bool.and_eq_true, List.all_eq_true, decide_eq_true_eq] at h
  exact h.2 (k, v) (get?_eq_some_iff.1 hget)

theorem mem_keys_iff {d : Dict κ ν} {k : κ} : k ∈ d.keys ↔ ∃ v, d.get? k = some v := by
  simp only [keys, List.mem_map, get?_eq_some_iff]
  constructor
  · rintro ⟨⟨k', v⟩, h, rfl⟩
    exact ⟨v, h⟩
  · rintro ⟨v, h⟩
    exact ⟨(k, v), h, rfl⟩

theorem get?_eq_none_iff {d : Dict κ ν} {k : κ} : d.get? k = none ↔ k ∉ d.keys := by
  rw [mem_keys_iff]
  cases d.get? k <;> simp

theorem mem_keys_of_get? {d : Dict κ ν} {k : κ} {v : ν} (h : d.get? k = some v) : k ∈ d.keys :=
  mem_keys_iff.2 ⟨v, h⟩

theorem get?_ext {d : Dict κ ν} {k : κ} {o : Option ν} (h : ∀ v, (k, v) ∈ d.entries ↔ o = some v) :
    d.get? k = o := by
  ext v
  rw [get?_eq_some_iff]
  exact h v

/-- Dictionaries with the same lookups are the same. -/
theorem same_of_get? [DecidableEq ν] {d e : Dict κ ν} (h : ∀ k v, d.get? k = some v ↔ e.get? k = some v) :
    d.same e := by
  have hkeys : d.keys.Perm e.keys := by
    refine (List.perm_ext_iff_of_nodup d.nodup e.nodup).2 fun k => ?_
    change k ∈ d.keys ↔ k ∈ e.keys
    rw [mem_keys_iff, mem_keys_iff]
    exact exists_congr fun v => h k v
  have hsize : d.size = e.size := by simpa [keys, size] using hkeys.length_eq
  simp only [same, hsize, decide_true, Bool.true_and, List.all_eq_true, decide_eq_true_eq]
  exact fun p hp => (h _ _).1 (get?_eq_some_iff.2 hp)

@[simp] theorem get?_empty (k : κ) : (empty : Dict κ ν).get? k = none := rfl

omit [DecidableEq κ] in
@[simp] theorem keys_empty : (empty : Dict κ ν).keys = [] := rfl

/-! ### Writing -/

theorem mem_entries_set {d : Dict κ ν} {k k' : κ} {v v' : ν} :
    (k', v') ∈ (d.set k v).entries ↔ (k' = k ∧ v' = v) ∨ (k' ≠ k ∧ (k', v') ∈ d.entries) := by
  unfold set
  split
  · rename_i hk
    simp only [List.mem_map]
    constructor
    · rintro ⟨e, he, h⟩
      by_cases hek : e.1 = k
      · rw [if_pos hek] at h
        cases h
        exact Or.inl ⟨rfl, rfl⟩
      · rw [if_neg hek] at h
        subst h
        exact Or.inr ⟨hek, he⟩
    · rintro (⟨rfl, rfl⟩ | ⟨hne, he⟩)
      · obtain ⟨e, he, hek⟩ := List.mem_map.1 hk
        exact ⟨e, he, by simp [hek]⟩
      · exact ⟨(k', v'), he, by simp [hne]⟩
  · rename_i hk
    simp only [List.mem_append, List.mem_singleton, Prod.mk.injEq]
    constructor
    · rintro (he | h)
      · refine Or.inr ⟨?_, he⟩
        rintro rfl
        exact hk (List.mem_map.2 ⟨_, he, rfl⟩)
      · exact Or.inl h
    · rintro (h | h)
      · exact Or.inr h
      · exact Or.inl h.2

theorem get?_set (d : Dict κ ν) (k k' : κ) (v : ν) :
    (d.set k v).get? k' = if k' = k then some v else d.get? k' := by
  apply get?_ext
  intro v'
  rw [mem_entries_set]
  by_cases h : k' = k
  · simp [h, eq_comm]
  · simp [h, get?_eq_some_iff]

@[simp] theorem get?_set_self (d : Dict κ ν) (k : κ) (v : ν) : (d.set k v).get? k = some v := by
  simp [get?_set]

theorem get?_set_of_ne (d : Dict κ ν) {k k' : κ} (v : ν) (h : k' ≠ k) :
    (d.set k v).get? k' = d.get? k' := by
  simp [get?_set, h]

theorem mem_keys_set {d : Dict κ ν} {k k' : κ} {v : ν} : k' ∈ (d.set k v).keys ↔ k' = k ∨ k' ∈ d.keys := by
  simp only [mem_keys_iff, get?_set]
  by_cases h : k' = k <;> simp [h]

theorem keys_set_of_mem {d : Dict κ ν} {k : κ} (v : ν) (h : k ∈ d.keys) : (d.set k v).keys = d.keys := by
  rw [set, dif_pos h, keys, keys, List.map_map]
  refine List.map_congr_left fun e _ => ?_
  by_cases he : e.1 = k <;> simp [he]

theorem entries_set_of_not_mem {d : Dict κ ν} {k : κ} (v : ν) (h : k ∉ d.keys) :
    (d.set k v).entries = d.entries ++ [(k, v)] := by
  simp [set, h]

theorem keys_set_of_not_mem {d : Dict κ ν} {k : κ} (v : ν) (h : k ∉ d.keys) :
    (d.set k v).keys = d.keys ++ [k] := by
  simp [keys, entries_set_of_not_mem v h]

theorem values_set_of_not_mem {d : Dict κ ν} {k : κ} (v : ν) (h : k ∉ d.keys) :
    (d.set k v).values = d.values ++ [v] := by
  simp [values, entries_set_of_not_mem v h]

/-- Write the entries of a list one after the other. -/
def ofList (l : List (κ × ν)) : Dict κ ν := l.foldl (fun d e => d.set e.1 e.2) empty

theorem get?_foldl_set (l : List (κ × ν)) (hl : (l.map Prod.fst).Nodup) (d : Dict κ ν) (k : κ) (v : ν) :
    (l.foldl (fun d e => d.set e.1 e.2) d).get? k = some v ↔
      (k, v) ∈ l ∨ (k ∉ l.map Prod.fst ∧ d.get? k = some v) := by
  induction l generalizing d with
  | nil => simp
  | cons e l ih =>
    obtain ⟨hnew, hl⟩ := List.nodup_cons.1 (by simpa only [List.map_cons] using hl)
    rw [List.foldl_cons, ih hl, get?_set, List.map_cons, List.mem_cons, List.mem_cons]
    by_cases hk : k = e.1
    · subst hk
      have hnot : (e.1, v) ∉ l := fun h => hnew (List.mem_map.2 ⟨_, h, rfl⟩)
      simp [hnot, hnew, Prod.ext_iff, eq_comm]
    · have hne : (k, v) ≠ e := fun h => hk (congrArg Prod.fst h)
      simp [hk, hne]

theorem get?_ofList {l : List (κ × ν)} (hl : (l.map Prod.fst).Nodup) {k : κ} {v : ν} :
    (ofList l).get? k = some v ↔ (k, v) ∈ l := by
  rw [ofList, get?_foldl_set l hl]
  simp

/-- What a key has comes from the list, whatever is written twice. -/
theorem mem_of_get?_ofList {l : List (κ × ν)} {k : κ} {v : ν} (h : (ofList l).get? k = some v) : (k, v) ∈ l := by
  have hfold : ∀ (l : List (κ × ν)) (d : Dict κ ν), (l.foldl (fun d e => d.set e.1 e.2) d).get? k = some v →
      (k, v) ∈ l ∨ d.get? k = some v := by
    intro l
    induction l with
    | nil => exact fun d h => .inr h
    | cons e l ih =>
      intro d h
      rcases ih (d.set e.1 e.2) h with hmem | hset
      · exact .inl (List.mem_cons_of_mem _ hmem)
      · rw [get?_set] at hset
        split at hset
        · rename_i hk
          cases hset
          exact .inl (by simp [hk])
        · exact .inr hset
  rcases hfold l empty h with hmem | hempty
  · exact hmem
  · cases hempty

/-! ### Deleting -/

theorem get?_filterKeys (d : Dict κ ν) (p : κ → Bool) (k : κ) :
    (d.filterKeys p).get? k = if p k then d.get? k else none := by
  apply get?_ext
  intro v
  by_cases h : p k <;> simp [filterKeys, h, get?_eq_some_iff]

theorem get?_filterKeys_of_not {d : Dict κ ν} {p : κ → Bool} {k : κ} (h : p k = false) :
    (d.filterKeys p).get? k = none := by
  simp [get?_filterKeys, h]

theorem get?_filterKeys_of {d : Dict κ ν} {p : κ → Bool} {k : κ} (h : p k) : (d.filterKeys p).get? k = d.get? k := by
  simp [get?_filterKeys, h]

omit [DecidableEq κ] in
/-- Entries that the filter keeps are there in their order. -/
theorem filter_filterKeys (d : Dict κ ν) {p q : κ → Bool} (h : ∀ k, q k → p k) :
    ((d.filterKeys p).entries.filter fun e => q e.1) = d.entries.filter fun e => q e.1 := by
  rw [filterKeys, List.filter_filter]
  refine List.filter_congr fun e _ => ?_
  cases hq : q e.1 with
  | true => simp [h _ hq]
  | false => rfl

omit [DecidableEq κ] in
theorem mem_keys_filterKeys {d : Dict κ ν} {p : κ → Bool} {k : κ} :
    k ∈ (d.filterKeys p).keys ↔ k ∈ d.keys ∧ p k := by
  simp only [keys, filterKeys, List.mem_map, List.mem_filter]
  constructor
  · rintro ⟨e, ⟨he, hp⟩, rfl⟩
    exact ⟨⟨e, he, rfl⟩, hp⟩
  · rintro ⟨⟨e, he, rfl⟩, hp⟩
    exact ⟨e, ⟨he, hp⟩, rfl⟩

omit [DecidableEq κ] in
theorem keys_filterKeys (d : Dict κ ν) (p : κ → Bool) : (d.filterKeys p).keys = d.keys.filter p := by
  simp [keys, filterKeys, List.filter_map, Function.comp_def]

omit [DecidableEq κ] in
/-- Filtering with tests that agree on the keys. -/
theorem filterKeys_congr {d : Dict κ ν} {p q : κ → Bool} (h : ∀ k ∈ d.keys, p k = q k) :
    d.filterKeys p = d.filterKeys q :=
  ext (List.filter_congr fun e he => h e.1 (List.mem_map_of_mem he))

omit [DecidableEq κ] in
@[simp] theorem filterKeys_filterKeys (d : Dict κ ν) (p q : κ → Bool) :
    (d.filterKeys p).filterKeys q = d.filterKeys fun k => q k && p k :=
  ext List.filter_filter

omit [DecidableEq κ] in
@[simp] theorem filterKeys_true (d : Dict κ ν) : d.filterKeys (fun _ => true) = d :=
  ext (List.filter_eq_self.2 fun _ _ => rfl)

omit [DecidableEq κ] in
theorem values_filterKeys_sublist (d : Dict κ ν) (p : κ → Bool) : (d.filterKeys p).values.Sublist d.values :=
  List.filter_sublist.map _

theorem get?_filter (d : Dict κ ν) (p : κ → ν → Bool) (k : κ) : (d.filter p).get? k = (d.get? k).filter (p k) := by
  apply get?_ext
  intro v
  rw [Option.filter_eq_some_iff, get?_eq_some_iff]
  simp [filter]

theorem get?_erase (d : Dict κ ν) (k k' : κ) :
    (d.erase k).get? k' = if k' = k then none else d.get? k' := by
  simp only [erase, get?_filterKeys]
  by_cases h : k' = k <;> simp [h]

@[simp] theorem get?_erase_self (d : Dict κ ν) (k : κ) : (d.erase k).get? k = none := by simp [get?_erase]

theorem get?_erase_of_ne (d : Dict κ ν) {k k' : κ} (h : k' ≠ k) : (d.erase k).get? k' = d.get? k' := by
  simp [get?_erase, h]

theorem get?_of_erase {d : Dict κ ν} {k k' : κ} {v : ν} (h : (d.erase k).get? k' = some v) : d.get? k' = some v := by
  rw [get?_erase] at h
  split at h
  · cases h
  · exact h

/-! ### Mapping -/

omit [DecidableEq κ] in
theorem keys_mapWithKey {ν' : Type} (d : Dict κ ν) (f : κ → ν → ν') : (d.mapWithKey f).keys = d.keys := by
  simp [keys, mapWithKey, Function.comp_def]

theorem get?_mapWithKey (d : Dict κ ν) (f : κ → ν → ω) (k : κ) : (d.mapWithKey f).get? k = (d.get? k).map (f k) := by
  apply get?_ext
  intro w
  rw [Option.map_eq_some_iff]
  simp only [mapWithKey, List.mem_map, Prod.mk.injEq, get?_eq_some_iff]
  constructor
  · rintro ⟨e, he, rfl, rfl⟩
    exact ⟨e.2, he, rfl⟩
  · rintro ⟨v, hv, rfl⟩
    exact ⟨(k, v), hv, rfl, rfl⟩

omit [DecidableEq κ] in
theorem keys_mapValues {ν' : Type} (d : Dict κ ν) (f : ν → ν') : (d.mapValues f).keys = d.keys :=
  keys_mapWithKey d fun _ => f

theorem get?_mapValues (d : Dict κ ν) (f : ν → ω) (k : κ) : (d.mapValues f).get? k = (d.get? k).map f :=
  get?_mapWithKey d (fun _ => f) k

/-! ### Order -/

/-- The entry of `k`, if there is one, behind all others. -/
def moveToEnd (d : Dict κ ν) (k : κ) : Dict κ ν :=
  ⟨d.entries.filter (fun e => e.1 ≠ k) ++ d.entries.filter (fun e => e.1 = k), by
    have hperm : (d.entries.filter (fun e => e.1 ≠ k) ++ d.entries.filter (fun e => e.1 = k)).Perm d.entries := by
      refine List.perm_append_comm.trans ?_
      simpa using List.filter_append_perm (fun e => decide (e.1 = k)) d.entries
    exact (hperm.map Prod.fst).nodup_iff.2 d.nodup⟩

omit [DecidableEq κ] in
/-- Without the first entries, as far as there are more than `n`. -/
def keepNewest (d : Dict κ ν) (n : Nat) : Dict κ ν :=
  ⟨d.entries.drop (d.size - n), d.nodup.sublist ((List.drop_sublist _ _).map _)⟩

theorem get?_moveToEnd (d : Dict κ ν) (k k' : κ) : (d.moveToEnd k).get? k' = d.get? k' := by
  apply get?_ext
  intro v
  rw [get?_eq_some_iff]
  simp only [moveToEnd, List.mem_append, List.mem_filter, decide_eq_true_eq]
  by_cases hk : k' = k <;> simp [hk]

/-- What is written and moved is the last entry. -/
theorem entries_set_moveToEnd (d : Dict κ ν) (k : κ) (v : ν) :
    ((d.set k v).moveToEnd k).entries = (d.erase k).entries ++ [(k, v)] := by
  have herase : ∀ l : List (κ × ν), (l.map fun e => if e.1 = k then (k, v) else e).filter (fun e => e.1 ≠ k) =
      l.filter fun e => e.1 ≠ k := by
    intro l
    induction l with
    | nil => rfl
    | cons e l ih =>
      rw [List.map_cons]
      by_cases he : e.1 = k
      · rw [if_pos he, List.filter_cons_of_neg (by simp), List.filter_cons_of_neg (by simpa using he), ih]
      · rw [if_neg he, List.filter_cons_of_pos (by simpa using he), List.filter_cons_of_pos (by simpa using he), ih]
  have hself : (d.set k v).entries.filter (fun e => e.1 = k) = [(k, v)] := by
    have hmem : ∀ e, e ∈ (d.set k v).entries.filter (fun e => e.1 = k) ↔ e = (k, v) := by
      rintro ⟨k', v'⟩
      rw [List.mem_filter, mem_entries_set]
      by_cases hk : k' = k <;> simp [hk]
    have hnodup : ((d.set k v).entries.filter fun e => e.1 = k).Nodup := (List.Nodup.of_map _ (d.set k v).nodup).filter _
    exact List.perm_singleton.1 ((List.perm_ext_iff_of_nodup hnodup (List.nodup_singleton _)).2 fun e => by
      rw [hmem, List.mem_singleton])
  have hothers : (d.set k v).entries.filter (fun e => e.1 ≠ k) = (d.erase k).entries := by
    unfold set
    split
    · exact herase d.entries
    · simp [erase, filterKeys]
  show (d.set k v).entries.filter (fun e => e.1 ≠ k) ++ (d.set k v).entries.filter (fun e => e.1 = k) = _
  rw [hself, hothers]

omit [DecidableEq κ] in
theorem size_keepNewest (d : Dict κ ν) (n : Nat) : (d.keepNewest n).size = min n d.size := by
  simp only [size, keepNewest, List.length_drop]
  omega

theorem get?_of_keepNewest {d : Dict κ ν} {n : Nat} {k : κ} {v : ν} (h : (d.keepNewest n).get? k = some v) :
    d.get? k = some v :=
  get?_eq_some_iff.2 (List.mem_of_mem_drop (get?_eq_some_iff.1 h))

/-- The last entry stays. -/
theorem get?_keepNewest_last {d : Dict κ ν} {n : Nat} (hn : 0 < n) {l : List (κ × ν)} {k : κ} {v : ν}
    (h : d.entries = l ++ [(k, v)]) : (d.keepNewest n).get? k = some v := by
  rw [get?_eq_some_iff, keepNewest]
  have hle : d.size - n ≤ l.length := by
    rw [size, h, List.length_append, List.length_singleton]
    omega
  simp only [h, List.drop_append_of_le_length hle, List.mem_append, List.mem_singleton, or_true]

end Dict
