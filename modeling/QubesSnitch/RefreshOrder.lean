import QubesSnitch.Daemon
import QubesSnitch.Refreshes

/-!
# The order of refreshes

A refresh asks dom0 without the lock and publishes the answer under it, so that two of them may publish in the other
order than they have asked.  The states of dom0 are numbered here, and `version` is the number of the newest one that
the map in place is the map of.  A refresh is `Overtaken` when one that asked later has published, and its own map is
another one than that in place: then the older map replaces the newer.  Where this does not happen the map never
becomes older (`version_mono`).
-/

namespace QubesSnitch

/-- A daemon and the refreshes that run in it; a refresh is the state of dom0 that it read with the map of it. -/
structure RefreshState where
  daemon : Daemon
  /-- The state of dom0. -/
  newest : Nat
  /-- The refreshes that have read and not published. -/
  inFlight : List (Nat × SourceMap)
  /-- What was read so far. -/
  read : List Nat
  /-- What was read by those that have published. -/
  published : List Nat
  version : Nat

namespace RefreshState

/-- `refresh_sources_required` has published what it read. -/
def start (d : Daemon) (n : Nat) : RefreshState := ⟨d, n, [], [n], [n], n⟩

/-- The state after a refresh has published. -/
def publish (sv : Services) (lib : DnsPython) (io : Io) (now : Rat) (s : RefreshState) (r : Nat × SourceMap) :
    RefreshState where
  daemon := (publishSources sv lib io r.2 now).leaves s.daemon
  newest := s.newest
  inFlight := s.inFlight.erase r
  read := s.read
  published := r.1 :: s.published
  version := if r.2.same s.daemon.ctx.sources then max s.version r.1 else r.1

/-- A refresh that read later has published another map. -/
def Overtaken (s : RefreshState) (r : Nat × SourceMap) : Prop :=
  (∃ n ∈ s.published, r.1 < n) ∧ r.2.same s.daemon.ctx.sources = false

end RefreshState

section Steps

variable (sv : Services) (lib : DnsPython) (dom0 : Nat → Except PyError String)

/-- A step of dom0, of a refresh, or of something else in the daemon; only refreshes change the map. -/
inductive RefreshStep (allowed : RefreshState → Nat × SourceMap → Prop) (s : RefreshState) : RefreshState → Prop
  | change : RefreshStep allowed s { s with newest := s.newest + 1 }
  | query {new : SourceMap} (h : queryDom0Sources (dom0 s.newest) s.daemon.ctx.config = .ok new) :
      RefreshStep allowed s { s with inFlight := (s.newest, new) :: s.inFlight, read := s.newest :: s.read }
  | publish (io : Io) (now : Rat) {r : Nat × SourceMap} (h : r ∈ s.inFlight) (ha : allowed s r) :
      RefreshStep allowed s (s.publish sv lib io now r)
  | other {d : Daemon} (hconfig : d.ctx.config = s.daemon.ctx.config) (hsources : d.ctx.sources = s.daemon.ctx.sources) :
      RefreshStep allowed s { s with daemon := d }

abbrev Refreshes (allowed : RefreshState → Nat × SourceMap → Prop) : RefreshState → RefreshState → Prop :=
  Relation.ReflTransGen (RefreshStep sv lib dom0 allowed)

/-- No refresh publishes after it is overtaken. -/
abbrev RefreshesInOrder : RefreshState → RefreshState → Prop := Refreshes sv lib dom0 fun s r => ¬ s.Overtaken r

end Steps

variable {sv : Services} {lib : DnsPython} {dom0 : Nat → Except PyError String}

theorem RefreshState.publish_replaces {s : RefreshState} {r : Nat × SourceMap} (io : Io) (now : Rat)
    (h : r.2.same s.daemon.ctx.sources = false) : (s.publish sv lib io now r).version = r.1 ∧
      (s.publish sv lib io now r).daemon.ctx.sources = r.2 := by
  have hnot : ¬ r.2.same s.daemon.ctx.sources := by simp [h]
  refine ⟨if_neg hnot, ?_⟩
  have hmap := (publishSources_map sv lib io r.2 now s.daemon).2
  rwa [if_neg hnot] at hmap

/-! ### The invariant -/

/-- The map in place is that of `version`, which is the newest state that a published refresh read. -/
structure RefreshState.UpToDate (dom0 : Nat → Except PyError String) (s : RefreshState) : Prop where
  inPlace : ∃ m, queryDom0Sources (dom0 s.version) s.daemon.ctx.config = .ok m ∧ m.same s.daemon.ctx.sources
  asked : ∀ r ∈ s.inFlight, queryDom0Sources (dom0 r.1) s.daemon.ctx.config = .ok r.2
  accounted : ∀ n ∈ s.read, n ∈ s.published ∨ ∃ m, (n, m) ∈ s.inFlight
  newest : ∀ n ∈ s.published, n ≤ s.version
  attained : s.version ∈ s.published

namespace RefreshState.UpToDate

variable {s s' : RefreshState}

theorem start {d : Daemon} {n : Nat} (h : queryDom0Sources (dom0 n) d.ctx.config = .ok d.ctx.sources) :
    (RefreshState.start d n).UpToDate dom0 where
  inPlace := ⟨_, h, SourceMap.same_refl _⟩
  asked := fun r hr => by cases hr
  accounted := fun _ hn => .inl hn
  newest := fun m hm => Nat.le_of_eq (List.mem_singleton.1 hm)
  attained := List.mem_singleton_self n

/-- The version goes back exactly when an overtaken refresh publishes. -/
theorem version_le_publish (h : s.UpToDate dom0) (io : Io) (now : Rat) (r : Nat × SourceMap) :
    s.version ≤ (s.publish sv lib io now r).version ↔ ¬ s.Overtaken r := by
  unfold RefreshState.publish RefreshState.Overtaken
  cases hsame : r.2.same s.daemon.ctx.sources with
  | true => simp
  | false =>
    simp only [Bool.false_eq_true, if_false, and_true]
    constructor
    · rintro hle ⟨n, hn, hlt⟩
      have := h.newest n hn
      omega
    · intro hnone
      by_contra hlt
      exact hnone ⟨s.version, h.attained, by omega⟩

theorem publish (h : s.UpToDate dom0) (io : Io) (now : Rat) {r : Nat × SourceMap} (hr : r ∈ s.inFlight)
    (hle : s.version ≤ (s.publish sv lib io now r).version) : (s.publish sv lib io now r).UpToDate dom0 := by
  obtain ⟨hconfig, hsources⟩ := publishSources_map sv lib io r.2 now s.daemon
  obtain ⟨m, hm, hplace⟩ := h.inPlace
  have hread := h.asked r hr
  have hversion : (s.publish sv lib io now r).version =
      if r.2.same s.daemon.ctx.sources then max s.version r.1 else r.1 := rfl
  have hbound : r.1 ≤ (s.publish sv lib io now r).version := by
    rw [hversion]
    split
    · exact Nat.le_max_right _ _
    · exact Nat.le_refl _
  refine ⟨?_, fun r' hr' => ?_, fun n hn => ?_, fun n hn => ?_, ?_⟩
  · show ∃ m, queryDom0Sources _ ((publishSources sv lib io r.2 now).leaves s.daemon).ctx.config = .ok m ∧
      m.same ((publishSources sv lib io r.2 now).leaves s.daemon).ctx.sources
    rw [hconfig, hsources, hversion]
    by_cases hsame : r.2.same s.daemon.ctx.sources
    · -- both maps are in place, that of the newer state counts
      rw [if_pos hsame, if_pos hsame]
      rcases Nat.le_total s.version r.1 with hold | hold
      · rw [Nat.max_eq_right hold]
        exact ⟨r.2, hread, hsame⟩
      · rw [Nat.max_eq_left hold]
        exact ⟨m, hm, hplace⟩
    · rw [if_neg hsame, if_neg hsame]
      exact ⟨r.2, hread, SourceMap.same_refl _⟩
  · show queryDom0Sources _ ((publishSources sv lib io r.2 now).leaves s.daemon).ctx.config = _
    rw [hconfig]
    exact h.asked r' (List.mem_of_mem_erase hr')
  · rcases h.accounted n hn with hdone | ⟨m', hm'⟩
    · exact .inl (List.mem_cons_of_mem _ hdone)
    · by_cases hrn : (n, m') = r
      · exact .inl (hrn ▸ List.mem_cons_self)
      · exact .inr ⟨m', (List.mem_erase_of_ne hrn).2 hm'⟩
  · rcases List.mem_cons.1 hn with rfl | hn
    · exact hbound
    · exact (h.newest n hn).trans hle
  · rw [hversion] at hle ⊢
    split at hle
    · rcases Nat.le_total s.version r.1 with hold | hold
      · rw [if_pos (by assumption), Nat.max_eq_right hold]
        exact List.mem_cons_self
      · rw [if_pos (by assumption), Nat.max_eq_left hold]
        exact List.mem_cons_of_mem _ h.attained
    · rw [if_neg (by assumption)]
      exact List.mem_cons_self

/-- A step in order keeps the map up to date, and the version does not go back. -/
theorem step (h : s.UpToDate dom0) (hstep : RefreshStep sv lib dom0 (fun s r => ¬ s.Overtaken r) s s') :
    s'.UpToDate dom0 ∧ s.version ≤ s'.version := by
  cases hstep with
  | change => exact ⟨⟨h.inPlace, h.asked, h.accounted, h.newest, h.attained⟩, Nat.le_refl _⟩
  | query hquery =>
    refine ⟨⟨h.inPlace, fun r hr => ?_, fun n hn => ?_, h.newest, h.attained⟩, Nat.le_refl _⟩
    · rcases List.mem_cons.1 hr with rfl | hr
      · exact hquery
      · exact h.asked r hr
    · rcases List.mem_cons.1 hn with rfl | hn
      · exact .inr ⟨_, List.mem_cons_self⟩
      · exact (h.accounted n hn).imp id fun ⟨m, hm⟩ => ⟨m, List.mem_cons_of_mem _ hm⟩
  | publish io now hr ha =>
    have hle := (@RefreshState.UpToDate.version_le_publish sv lib dom0 _ h io now _).2 ha
    exact ⟨h.publish io now hr hle, hle⟩
  | other hconfig hsources =>
    refine ⟨⟨?_, fun r hr => ?_, h.accounted, h.newest, h.attained⟩, Nat.le_refl _⟩
    · show ∃ m, _ ∧ _
      rw [hconfig, hsources]
      exact h.inPlace
    · show queryDom0Sources _ _ = _
      rw [hconfig]
      exact h.asked r hr

theorem run (h : s.UpToDate dom0) (hrun : RefreshesInOrder sv lib dom0 s s') :
    s'.UpToDate dom0 ∧ s.version ≤ s'.version := by
  induction hrun with
  | refl => exact ⟨h, Nat.le_refl _⟩
  | tail _ hstep ih =>
    obtain ⟨hnext, hle⟩ := ih.1.step hstep
    exact ⟨hnext, ih.2.trans hle⟩

end RefreshState.UpToDate

/-! ### Runs -/

namespace Sample

/-- The VM gets another address twice. -/
def dom0Lines : Nat → Except PyError String
  | 0 => .ok "work|10.137.0.5|green|AppVM|-"
  | 1 => .ok "work|10.137.0.6|green|AppVM|-"
  | _ => .ok "work|10.137.0.7|green|AppVM|-"

/-- The map of the VM with an address. -/
def vmAt (ip : IPv4) : SourceMap where
  byName := .ofList [("work", [ip])]
  byIp := .ofList [(ip, "work")]
  labels := .ofList [("work", "green")]
  displayByIp := .ofList [(ip, "work")]

/-- The daemon before its first refresh. -/
def unmapped : Daemon := ⟨Queue.initial, { Runtime.initial .empty with config := config }⟩

theorem query_dom0 : queryDom0Sources (dom0Lines 0) config = .ok (vmAt ⟨10, 137, 0, 5⟩) ∧
    queryDom0Sources (dom0Lines 1) config = .ok (vmAt ⟨10, 137, 0, 6⟩) ∧
    queryDom0Sources (dom0Lines 2) config = .ok (vmAt ⟨10, 137, 0, 7⟩) := by decide +kernel

end Sample

/-- Where no overtaken refresh publishes, the map in place never becomes older, and when all refreshes are done it is
that of a state of dom0 as new as any that was read.  A refresh that is overtaken does set it back. -/
theorem version_mono {io : Io} {d : Daemon} {n : Nat} {new : SourceMap} {now : Rat}
    (hquery : queryDom0Sources (dom0 n) d.ctx.config = .ok new) {s s' : RefreshState}
    (hrun : RefreshesInOrder sv lib dom0 (.start ((publishRequiredSources sv lib io new now).leaves d) n) s)
    (hrun' : RefreshesInOrder sv lib dom0 s s') :
    s.version ≤ s'.version ∧
      (∃ m, queryDom0Sources (dom0 s'.version) s'.daemon.ctx.config = .ok m ∧ m.same s'.daemon.ctx.sources) ∧
      (s'.inFlight = [] → ∀ k ∈ s'.read, k ≤ s'.version) ∧
      ∀ io now, ∀ r ∈ s'.inFlight, (s'.publish sv lib io now r).version < s'.version ↔ s'.Overtaken r := by
  obtain ⟨hconfig, hsources⟩ := publishRequiredSources_map sv lib io new now d
  have hstart := @RefreshState.UpToDate.start dom0
    ((publishRequiredSources sv lib io new now).leaves d) n (by rw [hconfig, hsources, hquery])
  obtain ⟨h', hle⟩ := (hstart.run hrun).1.run hrun'
  refine ⟨hle, h'.inPlace, fun hdone k hk => ?_, fun io now r _ => ?_⟩
  · rcases h'.accounted k hk with hk | ⟨m, hm⟩
    · exact h'.newest k hk
    · rw [hdone] at hm
      cases hm
  · have hle := @RefreshState.UpToDate.version_le_publish sv lib dom0 s' h' io now r
    rw [← Nat.not_le, hle, not_not]

namespace Sample

def started : RefreshState :=
  .start ((publishRequiredSources .empty dnspython works (vmAt ⟨10, 137, 0, 5⟩) 0).leaves unmapped) 0

/-- Both refreshes have read, the one before and the other after the second change. -/
def bothRead : RefreshState := { started with
  newest := 2
  inFlight := [(2, vmAt ⟨10, 137, 0, 7⟩), (1, vmAt ⟨10, 137, 0, 6⟩)]
  read := [2, 1, 0] }

/-- The later one publishes first. -/
def laterFirst : RefreshState := bothRead.publish .empty dnspython works 1 (2, vmAt ⟨10, 137, 0, 7⟩)

def overtaken : RefreshState := laterFirst.publish .empty dnspython works 2 (1, vmAt ⟨10, 137, 0, 6⟩)

theorem started_map : started.daemon.ctx.config = config ∧ started.daemon.ctx.sources = vmAt ⟨10, 137, 0, 5⟩ :=
  publishRequiredSources_map .empty dnspython works _ 0 unmapped

theorem refreshes_bothRead (allowed : RefreshState → Nat × SourceMap → Prop) :
    Refreshes .empty dnspython dom0Lines allowed started bothRead := by
  have hquery₁ := query_dom0.2.1
  have hquery₂ := query_dom0.2.2
  rw [← started_map.1] at hquery₁ hquery₂
  exact .head .change (.head (.query hquery₁) (.head .change (.head (.query hquery₂) .refl)))

theorem laterFirst_map : laterFirst.version = 2 ∧ laterFirst.daemon.ctx.sources = vmAt ⟨10, 137, 0, 7⟩ := by
  refine RefreshState.publish_replaces works 1 ?_
  show (vmAt ⟨10, 137, 0, 7⟩).same started.daemon.ctx.sources = false
  rw [started_map.2]
  decide +kernel

theorem overtaken_map : overtaken.version = 1 ∧ overtaken.daemon.ctx.sources = vmAt ⟨10, 137, 0, 6⟩ := by
  refine RefreshState.publish_replaces works 2 ?_
  show (vmAt ⟨10, 137, 0, 6⟩).same laterFirst.daemon.ctx.sources = false
  rw [laterFirst_map.2]
  decide +kernel

/-- Two refreshes, of which the earlier publishes last. -/
theorem version_goesBack :
    Refreshes .empty dnspython dom0Lines (fun _ _ => True) started laterFirst ∧
    Refreshes .empty dnspython dom0Lines (fun _ _ => True) laterFirst overtaken ∧
    overtaken.version < laterFirst.version ∧ overtaken.inFlight = [] ∧ 2 ∈ overtaken.read ∧
    queryDom0Sources (dom0Lines 2) config = .ok (vmAt ⟨10, 137, 0, 7⟩) ∧
    overtaken.daemon.ctx.sources = vmAt ⟨10, 137, 0, 6⟩ := by
  refine ⟨?_, ?_, ?_, ?_, ?_, query_dom0.2.2, overtaken_map.2⟩
  · exact (refreshes_bothRead _).tail (.publish works 1 (by simp [bothRead]) trivial)
  · exact .single (.publish works 2 (by decide +kernel) trivial)
  · rw [overtaken_map.1, laterFirst_map.1]
    exact Nat.lt_succ_self 1
  · decide +kernel
  · exact List.mem_cons_self

/-- The same refreshes in order. -/
theorem version_mono_inOrder : started.version ≤
    (bothRead.publish .empty dnspython works 1 (1, vmAt ⟨10, 137, 0, 6⟩)).version := by
  have hquery : queryDom0Sources (dom0Lines 0) unmapped.ctx.config = .ok (vmAt ⟨10, 137, 0, 5⟩) := query_dom0.1
  have hnot : ¬ bothRead.Overtaken (1, vmAt ⟨10, 137, 0, 6⟩) := by
    rintro ⟨⟨n, hn, hlt⟩, -⟩
    obtain rfl := List.mem_singleton.1 hn
    exact absurd hlt (by omega)
  exact (version_mono hquery .refl ((refreshes_bothRead _).tail (.publish works 1 (by simp [bothRead]) hnot))).1

end Sample

end QubesSnitch
