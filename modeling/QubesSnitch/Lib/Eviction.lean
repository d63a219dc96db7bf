import QubesSnitch.Lib.Dict

/-!
# Eviction from a bounded dictionary

A scope of the keys of a dictionary has a limit.  The entries of the scope are sorted by a total preorder on the values,
and those that are too many go, the first of the order first.  What is left is the dictionary without its victims:
the scope has exactly as many entries as the limit lets it have, everything that was evicted comes before everything of
the scope that was kept, and other scopes are left alone (`evict_evicted`).
-/

namespace Dict

variable {κ ν : Type}

/-- The number of entries in a scope. -/
def countKeys (d : Dict κ ν) (mine : κ → Bool) : Nat := d.keys.countP mine

section Counting

variable [DecidableEq κ] (d : Dict κ ν) (mine : κ → Bool)

omit [DecidableEq κ] in
theorem countKeys_true : d.countKeys (fun _ => true) = d.size := by simp [countKeys, keys, size]

omit [DecidableEq κ] in
theorem countKeys_eq_filter : d.countKeys mine = (d.entries.filter fun e => mine e.1).length := by
  rw [countKeys, keys, List.countP_map, List.countP_eq_length_filter]
  rfl

omit [DecidableEq κ] in
theorem countKeys_congr {ω : Type} {d : Dict κ ν} {e : Dict κ ω} (h : e.keys = d.keys) :
    e.countKeys mine = d.countKeys mine := by rw [countKeys, countKeys, h]

omit [DecidableEq κ] in
@[simp] theorem countKeys_empty : (empty : Dict κ ν).countKeys mine = 0 := rfl

omit [DecidableEq κ] in
theorem countKeys_filterKeys (p : κ → Bool) :
    (d.filterKeys p).countKeys mine = d.countKeys fun k => mine k && p k := by
  rw [countKeys, countKeys, keys_filterKeys, List.countP_filter]

omit [DecidableEq κ] in
theorem countKeys_filterKeys_le (p : κ → Bool) : (d.filterKeys p).countKeys mine ≤ d.countKeys mine := by
  rw [countKeys_filterKeys]
  exact List.countP_mono_left fun k _ hk => (Bool.and_eq_true_iff.1 hk).1

/-- A new entry counts in the scopes of its key. -/
theorem countKeys_set_of_not {k : κ} (v : ν) (h : mine k = false) : (d.set k v).countKeys mine = d.countKeys mine := by
  by_cases hk : k ∈ d.keys
  · exact countKeys_congr mine (keys_set_of_mem v hk)
  · simp [countKeys, keys_set_of_not_mem v hk, h]

end Counting

/-! ### Victims -/

/-- The keys of the entries of a scope that are too many, the first of the order first. -/
def victims (before : ν → ν → Prop) [DecidableRel before] (limit : Nat) (mine : κ → Bool) (d : Dict κ ν) : List κ :=
  let entries := d.entries.filter fun e => mine e.1
  let sorted := entries.insertionSort fun a b => before a.2 b.2
  (sorted.take (entries.length - limit)).map Prod.fst

/-- The dictionary after the eviction of a scope. -/
structure Evicted (before : ν → ν → Prop) (limit : Nat) (mine : κ → Bool) (d d' : Dict κ ν) [DecidableEq κ] : Prop where
  kept : ∀ k v, d'.get? k = some v → d.get? k = some v
  outside : ∀ k, mine k = false → d'.get? k = d.get? k
  count : d'.countKeys mine = min limit (d.countKeys mine)
  fair : ∀ k v k' v', d.get? k = some v → d'.get? k = none → mine k' → d'.get? k' = some v' → before v v'

section Victims

variable (before : ν → ν → Prop) [DecidableRel before] [Std.Total before] [IsTrans ν before] (limit : Nat)
  (mine : κ → Bool) (d : Dict κ ν)

/-- The entries of a scope in the order, cut where the limit is met. -/
private theorem exists_victims : ∃ gone kept : List (κ × ν),
    (gone ++ kept).Perm (d.entries.filter fun e => mine e.1) ∧ victims before limit mine d = gone.map Prod.fst ∧
    gone.length = d.countKeys mine - limit ∧ ∀ a ∈ gone, ∀ b ∈ kept, before a.2 b.2 := by
  let entries := d.entries.filter fun e => mine e.1
  let sorted := entries.insertionSort fun a b => before a.2 b.2
  have htotal : Std.Total fun a b : κ × ν => before a.2 b.2 := ⟨fun a b => Std.Total.total a.2 b.2⟩
  have htrans : IsTrans (κ × ν) fun a b => before a.2 b.2 := ⟨fun a b c => IsTrans.trans a.2 b.2 c.2⟩
  have hsorted : (sorted.take (entries.length - limit) ++ sorted.drop (entries.length - limit)).Pairwise
      fun a b => before a.2 b.2 := by
    rw [List.take_append_drop]
    exact List.pairwise_insertionSort _ entries
  refine ⟨sorted.take (entries.length - limit), sorted.drop (entries.length - limit), ?_, rfl, ?_, ?_⟩
  · rw [List.take_append_drop]
    exact List.perm_insertionSort _ entries
  · rw [List.length_take, List.length_insertionSort, countKeys_eq_filter]
    exact min_eq_left (Nat.sub_le _ _)
  · exact (List.pairwise_append.1 hsorted).2.2

variable [DecidableEq κ]

/-- What is left when the victims go. -/
theorem evict_evicted :
    Evicted before limit mine d (d.filterKeys fun k => k ∉ victims before limit mine d) := by
  obtain ⟨gone, kept, hperm, hvictims, hlength, hbefore⟩ := exists_victims before limit mine d
  have hnodup : ((gone ++ kept).map Prod.fst).Nodup :=
    (hperm.map Prod.fst).nodup_iff.2 (d.nodup.sublist (List.filter_sublist.map _))
  have hmem : ∀ e, e ∈ gone ∨ e ∈ kept ↔ e ∈ d.entries ∧ mine e.1 := by
    intro e
    rw [← List.mem_append, hperm.mem_iff, List.mem_filter]
  rw [hvictims]
  refine ⟨fun k v hget => ?_, fun k hmine => ?_, ?_, fun k v k' v' hget hgone hmine hkept => ?_⟩
  · rw [get?_filterKeys] at hget
    split at hget
    · exact hget
    · cases hget
  · refine get?_filterKeys_of (decide_eq_true fun hk => ?_)
    obtain ⟨e, he, rfl⟩ := List.mem_map.1 hk
    rw [((hmem e).1 (.inl he)).2] at hmine
    cases hmine
  · -- what is left of the scope are the entries behind the cut
    have hleft : ((d.entries.filter fun e => mine e.1).filter fun e => decide (e.1 ∉ gone.map Prod.fst)).Perm kept := by
      refine (hperm.filter _).symm.trans ?_
      rw [List.filter_append, List.filter_eq_nil_iff.2 fun e he => by simpa using ⟨e.2, he⟩, List.nil_append,
        List.filter_eq_self.2]
      intro e he
      rw [List.map_append, List.nodup_append] at hnodup
      exact decide_eq_true fun hgone => hnodup.2.2 _ hgone _ (List.mem_map_of_mem he) rfl
    have hcount : d.countKeys mine = gone.length + kept.length := by
      rw [countKeys_eq_filter, ← hperm.length_eq, List.length_append]
    have hkept : (d.filterKeys fun k => k ∉ gone.map Prod.fst).countKeys mine = kept.length := by
      rw [countKeys_eq_filter, filterKeys, List.filter_comm]
      exact hleft.length_eq
    omega
  · have hk : k ∈ gone.map Prod.fst := by
      by_contra hnot
      rw [get?_filterKeys, if_pos (decide_eq_true hnot), hget] at hgone
      cases hgone
    rw [get?_filterKeys] at hkept
    split at hkept
    · rename_i hnot
      obtain ⟨e, he, rfl⟩ := List.mem_map.1 hk
      have hvalue : e = (e.1, v) := by
        have hin : (e.1, e.2) ∈ d.entries := ((hmem e).1 (.inl he)).1
        rw [← get?_eq_some_iff, hget] at hin
        rw [Option.some.inj hin]
      have hk' : (k', v') ∈ gone ∨ (k', v') ∈ kept := (hmem (k', v')).2 ⟨get?_eq_some_iff.1 hkept, hmine⟩
      rcases hk' with hk' | hk'
      · exact absurd (List.mem_map_of_mem hk') (of_decide_eq_true hnot)
      · have hfirst := hbefore e he (k', v') hk'
        rwa [hvalue] at hfirst
    · cases hkept

end Victims

/-! ### Bounds -/

section Bounds

variable {before : ν → ν → Prop} [DecidableEq κ] {limit : Nat} {mine : κ → Bool} {d d' : Dict κ ν}

omit [DecidableEq κ] in
theorem countKeys_le_of_subset (h : d'.keys ⊆ d.keys) (scope : κ → Bool) : d'.countKeys scope ≤ d.countKeys scope := by
  have hsubset : d'.keys.filter scope ⊆ d.keys.filter scope := by
    intro k hk
    obtain ⟨hk, hscope⟩ := List.mem_filter.1 hk
    exact List.mem_filter.2 ⟨h hk, hscope⟩
  have hnodup : (d'.keys.filter scope).Nodup := d'.nodup.filter scope
  rw [countKeys, countKeys, List.countP_eq_length_filter, List.countP_eq_length_filter]
  exact (List.subperm_of_subset hnodup hsubset).length_le

/-- No scope grows. -/
theorem Evicted.countKeys_le (h : Evicted before limit mine d d') (scope : κ → Bool) :
    d'.countKeys scope ≤ d.countKeys scope := by
  refine countKeys_le_of_subset (fun k hk => ?_) scope
  obtain ⟨v, hv⟩ := mem_keys_iff.1 hk
  exact mem_keys_of_get? (h.kept k v hv)

theorem Evicted.countKeys_le_limit (h : Evicted before limit mine d d') : d'.countKeys mine ≤ limit := by
  rw [h.count]
  exact min_le_left _ _

/-- After the entries of one owner and then all entries have been evicted, every limit is met, if the other owners
met theirs before. -/
theorem Evicted.bounds {σ : Type} [DecidableEq σ] (owner : κ → σ) {s : σ} {before' : ν → ν → Prop}
    {perOwner total : Nat} {d₁ d₂ : Dict κ ν}
    (h₁ : Evicted before perOwner (fun k => owner k = s) d d₁) (h₂ : Evicted before' total (fun _ => true) d₁ d₂)
    (hothers : ∀ t, t ≠ s → d.countKeys (fun k => owner k = t) ≤ perOwner) :
    (∀ t, d₂.countKeys (fun k => owner k = t) ≤ perOwner) ∧ d₂.size ≤ total := by
  refine ⟨fun t => (h₂.countKeys_le _).trans ?_, ?_⟩
  · by_cases ht : t = s
    · rw [ht]
      exact h₁.countKeys_le_limit
    · exact (h₁.countKeys_le _).trans (hothers t ht)
  · rw [← countKeys_true]
    exact h₂.countKeys_le_limit

end Bounds

end Dict
