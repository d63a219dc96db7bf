import QubesSnitch.Lib.Dict

/-!
# Queues with tickets

A queue of items under keys, where every item that enters gets the next number of a counter as its ticket.  Items and
tickets are kept in two dictionaries, as programs that add tickets to an existing queue do it; `Valid` says that the two
are in step, that tickets grow along the queue and that the queue is within its capacity.

Items leave in any order, and a key may come back for another item.  What a ticket stands for is settled all the same:
whatever happens from `q` to `q'`, a ticket that `q` had given out and `q'` still holds is held for the same key and item
(`Evolves`), and in a history it has been held all the time between (`Evolves.between`).  So nothing comes to stand before
an item that waits (`Evolves.ahead_le`).
-/

structure TicketQueue (κ ν : Type) where
  items : Dict κ ν
  ids : Dict κ Nat
  next : Nat

namespace TicketQueue

variable {κ ν : Type} [DecidableEq κ]

/-- Enter `v` under `k`, with the next ticket. -/
def push (q : TicketQueue κ ν) (k : κ) (v : ν) : TicketQueue κ ν := ⟨q.items.set k v, q.ids.set k q.next, q.next + 1⟩

def drop (q : TicketQueue κ ν) (k : κ) : TicketQueue κ ν := ⟨q.items.erase k, q.ids.erase k, q.next⟩

def dropAll (q : TicketQueue κ ν) (ks : List κ) : TicketQueue κ ν := ks.foldl drop q

structure Valid (capacity : Nat) (q : TicketQueue κ ν) : Prop where
  inStep : q.items.keys = q.ids.keys
  ordered : q.ids.values.Pairwise (· < ·)
  fresh : ∀ k id, q.ids.get? k = some id → id < q.next
  bounded : q.items.size ≤ capacity

/-! ### Lookup -/

@[simp] theorem next_dropAll (q : TicketQueue κ ν) (ks : List κ) : (q.dropAll ks).next = q.next := by
  induction ks generalizing q with
  | nil => rfl
  | cons k ks ih => exact ih (q.drop k)

theorem dropAll_eq (q : TicketQueue κ ν) (ks : List κ) :
    q.dropAll ks = ⟨q.items.filterKeys (· ∉ ks), q.ids.filterKeys (· ∉ ks), q.next⟩ := by
  induction ks generalizing q with
  | nil => simp [dropAll]
  | cons k ks ih =>
    rw [dropAll, List.foldl_cons, ← dropAll, ih, drop, Dict.erase, Dict.erase, Dict.filterKeys_filterKeys,
      Dict.filterKeys_filterKeys]
    have hkeys : ∀ k', (decide (k' ∉ ks) && decide (k' ≠ k)) = decide (k' ∉ k :: ks) := by
      intro k'
      rw [← Bool.decide_and]
      exact decide_eq_decide.2 (by rw [List.mem_cons, not_or, and_comm])
    simp only [hkeys]

theorem items_dropAll (q : TicketQueue κ ν) (ks : List κ) (k : κ) :
    (q.dropAll ks).items.get? k = if k ∈ ks then none else q.items.get? k := by
  rw [dropAll_eq, Dict.get?_filterKeys]
  by_cases h : k ∈ ks <;> simp [h]

theorem ids_dropAll (q : TicketQueue κ ν) (ks : List κ) (k : κ) :
    (q.dropAll ks).ids.get? k = if k ∈ ks then none else q.ids.get? k := by
  rw [dropAll_eq, Dict.get?_filterKeys]
  by_cases h : k ∈ ks <;> simp [h]

theorem ids_of_dropAll {q : TicketQueue κ ν} {ks : List κ} {k : κ} {id : Nat}
    (h : (q.dropAll ks).ids.get? k = some id) : q.ids.get? k = some id := by
  rw [ids_dropAll] at h
  split at h
  · cases h
  · exact h

/-! ### Valid queues -/

namespace Valid

variable {capacity : Nat} {q : TicketQueue κ ν}

theorem mem_keys (h : q.Valid capacity) {k : κ} : k ∈ q.items.keys ↔ ∃ id, q.ids.get? k = some id := by
  rw [h.inStep, Dict.mem_keys_iff]

theorem empty (capacity next : Nat) : (⟨.empty, .empty, next⟩ : TicketQueue κ ν).Valid capacity :=
  ⟨rfl, List.Pairwise.nil, fun _ _ h => by simp at h, Nat.zero_le _⟩

theorem push (h : q.Valid capacity) {k : κ} (v : ν) (hk : k ∉ q.items.keys) (hroom : q.items.size < capacity) :
    (q.push k v).Valid capacity := by
  have hids : k ∉ q.ids.keys := h.inStep ▸ hk
  refine ⟨?_, ?_, ?_, ?_⟩
  · show (q.items.set k v).keys = (q.ids.set k q.next).keys
    rw [Dict.keys_set_of_not_mem v hk, Dict.keys_set_of_not_mem _ hids, h.inStep]
  · show (q.ids.set k q.next).values.Pairwise (· < ·)
    rw [Dict.values_set_of_not_mem _ hids, List.pairwise_append]
    refine ⟨h.ordered, List.pairwise_singleton _ _, fun id hid new hnew => ?_⟩
    obtain ⟨e, he, rfl⟩ := List.mem_map.1 hid
    rw [List.mem_singleton.1 hnew]
    exact h.fresh e.1 e.2 (Dict.get?_eq_some_iff.2 he)
  · intro k' id hget
    have hget : (q.ids.set k q.next).get? k' = some id := hget
    rw [Dict.get?_set] at hget
    show id < q.next + 1
    split at hget
    · cases hget
      omega
    · have := h.fresh k' id hget
      omega
  · show (q.items.set k v).entries.length ≤ capacity
    have hlt : q.items.entries.length < capacity := hroom
    rw [Dict.entries_set_of_not_mem v hk, List.length_append, List.length_singleton]
    omega

theorem drop (h : q.Valid capacity) (k : κ) : (q.drop k).Valid capacity := by
  refine ⟨?_, ?_, ?_, ?_⟩
  · show (q.items.erase k).keys = (q.ids.erase k).keys
    rw [Dict.erase, Dict.erase, Dict.keys_filterKeys, Dict.keys_filterKeys, h.inStep]
  · exact h.ordered.sublist (Dict.values_filterKeys_sublist _ _)
  · intro k' id hget
    exact h.fresh k' id (Dict.get?_of_erase hget)
  · exact (List.length_filter_le _ _).trans h.bounded

theorem dropAll (h : q.Valid capacity) (ks : List κ) : (q.dropAll ks).Valid capacity := by
  induction ks generalizing q with
  | nil => exact h
  | cons k ks ih => exact ih (h.drop k)

/-- A ticket stands for one key. -/
theorem ids_injective (h : q.Valid capacity) {k k' : κ} {id : Nat} (hk : q.ids.get? k = some id)
    (hk' : q.ids.get? k' = some id) : k = k' := by
  have hnodup : (q.ids.entries.map Prod.snd).Nodup := h.ordered.imp fun hlt => Nat.ne_of_lt hlt
  exact congrArg Prod.fst (List.inj_on_of_nodup_map hnodup (Dict.get?_eq_some_iff.1 hk)
    (Dict.get?_eq_some_iff.1 hk') rfl)

/-- The first item has the smallest ticket. -/
theorem head_le (h : q.Valid capacity) {k : κ} {v : ν} {rest : List (κ × ν)} (hhead : q.items.entries = (k, v) :: rest) :
    ∃ id, q.ids.get? k = some id ∧ ∀ k' id', q.ids.get? k' = some id' → id ≤ id' := by
  have hkeys : q.ids.entries.map Prod.fst = k :: rest.map Prod.fst := by
    have := h.inStep
    rw [Dict.keys, hhead] at this
    exact this.symm
  obtain ⟨e, entries, hentries, rfl, -⟩ := List.map_eq_cons_iff.1 hkeys
  refine ⟨e.2, Dict.get?_eq_some_iff.2 (by simp [hentries]), fun k' id' hget => ?_⟩
  have hmem := Dict.get?_eq_some_iff.1 hget
  rw [hentries, List.mem_cons] at hmem
  have hordered := h.ordered
  rw [Dict.values, hentries, List.map_cons, List.pairwise_cons] at hordered
  rcases hmem with rfl | hmem
  · exact Nat.le_refl _
  · exact Nat.le_of_lt (hordered.1 id' (List.mem_map.2 ⟨_, hmem, rfl⟩))

end Valid

/-! ### Histories -/

/-- What `q` has given out, `q'` holds as `q` did or not at all. -/
structure Evolves (q q' : TicketQueue κ ν) : Prop where
  next : q.next ≤ q'.next
  kept : ∀ k id, q'.ids.get? k = some id → id < q.next →
    q.ids.get? k = some id ∧ q'.items.get? k = q.items.get? k

namespace Evolves

variable {q q' q'' : TicketQueue κ ν}

theorem refl (q : TicketQueue κ ν) : q.Evolves q := ⟨Nat.le_refl _, fun _ _ h _ => ⟨h, rfl⟩⟩

theorem trans (h : q.Evolves q') (h' : q'.Evolves q'') : q.Evolves q'' := by
  refine ⟨h.next.trans h'.next, fun k id hget hlt => ?_⟩
  obtain ⟨hids, hitems⟩ := h'.kept k id hget (Nat.lt_of_lt_of_le hlt h.next)
  obtain ⟨hids', hitems'⟩ := h.kept k id hids hlt
  exact ⟨hids', hitems.trans hitems'⟩

theorem push (q : TicketQueue κ ν) (k : κ) (v : ν) : q.Evolves (q.push k v) := by
  refine ⟨Nat.le_succ _, fun k' id hget hlt => ?_⟩
  have hget : (q.ids.set k q.next).get? k' = some id := hget
  show _ ∧ (q.items.set k v).get? k' = q.items.get? k'
  rw [Dict.get?_set] at hget
  by_cases hk : k' = k
  · rw [if_pos hk] at hget
    cases hget
    omega
  · rw [if_neg hk] at hget
    exact ⟨hget, Dict.get?_set_of_ne _ _ hk⟩

theorem dropAll (q : TicketQueue κ ν) (ks : List κ) : q.Evolves (q.dropAll ks) := by
  refine ⟨by simp, fun k id hget _ => ?_⟩
  rw [ids_dropAll] at hget
  rw [items_dropAll]
  split at hget
  · cases hget
  · rename_i hk
    exact ⟨hget, if_neg hk⟩

theorem drop (q : TicketQueue κ ν) (k : κ) : q.Evolves (q.drop k) := dropAll q [k]

theorem history {Q : Nat → TicketQueue κ ν} (hstep : ∀ n, (Q n).Evolves (Q (n + 1))) {m n : Nat} (hmn : m ≤ n) :
    (Q m).Evolves (Q n) := by
  induction n, hmn using Nat.le_induction with
  | base => exact refl _
  | succ n _ ih => exact ih.trans (hstep n)

/-- A ticket that is still held has been held all the time, for one key. -/
theorem between {Q : Nat → TicketQueue κ ν} (hstep : ∀ n, (Q n).Evolves (Q (n + 1))) {i j : Nat} {k : κ} {id : Nat}
    (hid : id < (Q i).next) (hj : (Q j).ids.get? k = some id) :
    ∀ n, i ≤ n → n ≤ j → (Q n).ids.get? k = some id := by
  intro n hin hnj
  exact ((history hstep hnj).kept k id hj (Nat.lt_of_lt_of_le hid (history hstep hin).next)).1

end Evolves

/-! ### Waiting -/

/-- The number of items with a smaller ticket. -/
def ahead (q : TicketQueue κ ν) (id : Nat) : Nat := (q.ids.values.filter (· < id)).length

theorem mem_values_ids {q : TicketQueue κ ν} {id : Nat} : id ∈ q.ids.values ↔ ∃ k, q.ids.get? k = some id := by
  constructor
  · intro h
    obtain ⟨e, he, rfl⟩ := List.mem_map.1 h
    exact ⟨e.1, Dict.get?_eq_some_iff.2 he⟩
  · rintro ⟨k, hk⟩
    exact List.mem_map.2 ⟨(k, id), Dict.get?_eq_some_iff.1 hk, rfl⟩

/-- An item that waits is not ahead of itself. -/
theorem Valid.ahead_lt_capacity {capacity : Nat} {q : TicketQueue κ ν} (h : q.Valid capacity) {k : κ} {id : Nat}
    (hk : q.ids.get? k = some id) : q.ahead id < capacity := by
  have hlt : q.ahead id < q.ids.values.length :=
    List.length_filter_lt_length_iff_exists.2 ⟨id, mem_values_ids.2 ⟨k, hk⟩, by simp⟩
  have hlength : q.ids.values.length = q.items.size := by
    rw [Dict.values, List.length_map, ← List.length_map Prod.fst, ← Dict.keys, ← h.inStep, Dict.keys, List.length_map]
    rfl
  have := h.bounded
  omega

namespace Evolves

variable {capacity : Nat} {q q' : TicketQueue κ ν} {id : Nat}

theorem ahead_subset (h : q.Evolves q') (hid : id ≤ q.next) :
    q'.ids.values.filter (· < id) ⊆ q.ids.values.filter (· < id) := by
  intro first hfirst
  obtain ⟨hmem, hlt⟩ := List.mem_filter.1 hfirst
  obtain ⟨k, hk⟩ := mem_values_ids.1 hmem
  have hlt' : first < id := of_decide_eq_true hlt
  exact List.mem_filter.2 ⟨mem_values_ids.2 ⟨k, (h.kept k first hk (by omega)).1⟩, hlt⟩

theorem nodup_ahead (hv : q.Valid capacity) : (q.ids.values.filter (· < id)).Nodup :=
  (hv.ordered.imp fun hlt => Nat.ne_of_lt hlt).filter _

/-- Nothing new comes to stand before an item. -/
theorem ahead_le (h : q.Evolves q') (hv : q'.Valid capacity) (hid : id ≤ q.next) : q'.ahead id ≤ q.ahead id :=
  (List.subperm_of_subset (nodup_ahead hv) (h.ahead_subset hid)).length_le

/-- When an item before it is gone, there are fewer. -/
theorem ahead_lt (h : q.Evolves q') (hv : q.Valid capacity) (hv' : q'.Valid capacity) (hid : id ≤ q.next) {k : κ}
    {first : Nat} (hfirst : q.ids.get? k = some first) (hlt : first < id) (hgone : ∀ k', q'.ids.get? k' ≠ some first) :
    q'.ahead id < q.ahead id := by
  have hmem : first ∈ q.ids.values.filter (· < id) :=
    List.mem_filter.2 ⟨mem_values_ids.2 ⟨k, hfirst⟩, decide_eq_true hlt⟩
  have hsubset : q'.ids.values.filter (· < id) ⊆ (q.ids.values.filter (· < id)).erase first := by
    intro other hother
    refine ((nodup_ahead hv).mem_erase_iff).2 ⟨?_, h.ahead_subset hid hother⟩
    rintro rfl
    obtain ⟨k', hk'⟩ := mem_values_ids.1 (List.mem_filter.1 hother).1
    exact hgone k' hk'
  have hle := (List.subperm_of_subset (nodup_ahead hv') hsubset).length_le
  rw [List.length_erase_of_mem hmem] at hle
  have hpos := List.length_pos_of_mem hmem
  unfold ahead
  omega

end Evolves

end TicketQueue
