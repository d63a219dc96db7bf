import QubesSnitch.DnsCache
import QubesSnitch.Lib.Eviction

/-!
# The bounds of the DNS caches

Each of the two caches has a limit for every source and one for all sources.  A lookup may add any number of labels, so
`store_dns_labels` ends with four evictions; the first of each cache looks at one source only, and the others are within
their limit because they were before.  An eviction takes exactly what is too much: the expired entries first, and of the
entries of the same freshness those first that expire first (`dnsCaches_bounded_fair`).
-/

namespace QubesSnitch

open Dict (countKeys Evicted)

/-! ### The order of eviction -/

section Order

variable {now a b c : Rat}

theorem evictsBefore_iff :
    evictsBefore now a b ↔ (now < a → now < b) ∧ ((now < a ↔ now < b) → a ≤ b) := by
  unfold evictsBefore
  by_cases ha : now < a <;> by_cases hb : now < b <;> simp [ha, hb, not_lt.1]

theorem evictsBefore_total (now a b : Rat) : evictsBefore now a b ∨ evictsBefore now b a := by
  rw [evictsBefore_iff, evictsBefore_iff]
  by_cases ha : now < a <;> by_cases hb : now < b <;> simp [ha, hb, le_total]

theorem evictsBefore_trans (hab : evictsBefore now a b) (hbc : evictsBefore now b c) : evictsBefore now a c := by
  rw [evictsBefore_iff] at *
  refine ⟨fun ha => hbc.1 (hab.1 ha), fun hac => ?_⟩
  by_cases hb : now < b
  · have hc : now < c := hbc.1 hb
    have ha : now < a := hac.2 hc
    exact (hab.2 (iff_of_true ha hb)).trans (hbc.2 (iff_of_true hb hc))
  · have ha : ¬ now < a := fun ha => hb (hab.1 ha)
    have hc : ¬ now < c := fun hc => ha (hac.2 hc)
    exact (hab.2 (iff_of_false ha hb)).trans (hbc.2 (iff_of_false hb hc))

variable {ν : Type} (now : Rat) (expiresAt : ν → Rat)

instance : Std.Total fun a b : ν => evictsBefore now (expiresAt a) (expiresAt b) = true :=
  ⟨fun _ _ => evictsBefore_total now _ _⟩

instance : IsTrans ν fun a b => evictsBefore now (expiresAt a) (expiresAt b) = true :=
  ⟨fun _ _ _ => evictsBefore_trans⟩

end Order

/-! ### Fairness -/

/-- An eviction of the scope `mine` at the time `now`. -/
structure FairEviction {κ ν : Type} [DecidableEq κ] (limit : Nat) (now : Rat) (expiresAt : ν → Rat) (mine : κ → Bool)
    (cache cache' : Dict κ ν) : Prop where
  /-- What was evicted is what was too much. -/
  overflow : cache'.countKeys mine + (cache.countKeys mine - limit) = cache.countKeys mine
  kept : ∀ k e, cache'.get? k = some e → cache.get? k = some e
  outside : ∀ k, mine k = false → cache'.get? k = cache.get? k
  freshness : ∀ k e k' e', cache.get? k = some e → cache'.get? k = none → mine k' → cache'.get? k' = some e' →
    now < expiresAt e → now < expiresAt e'
  expiry : ∀ k e k' e', cache.get? k = some e → cache'.get? k = none → mine k' → cache'.get? k' = some e' →
    (now < expiresAt e ↔ now < expiresAt e') → expiresAt e ≤ expiresAt e'

section Evictions

variable {κ ν : Type} [DecidableEq κ] {limit : Nat} {now : Rat} {expiresAt : ν → Rat} {mine : κ → Bool}
  {cache cache' : Dict κ ν}

theorem FairEviction.of_evicted
    (h : Evicted (fun a b => evictsBefore now (expiresAt a) (expiresAt b) = true) limit mine cache cache') :
    FairEviction limit now expiresAt mine cache cache' where
  overflow := by
    rw [h.count]
    omega
  kept := h.kept
  outside := h.outside
  freshness k e k' e' he hgone hmine he' := (evictsBefore_iff.1 (h.fair k e k' e' he hgone hmine he')).1
  expiry k e k' e' he hgone hmine he' := (evictsBefore_iff.1 (h.fair k e k' e' he hgone hmine he')).2

/-- Without the keys that are too many. -/
theorem filterKeys_overflowKeys (limit : Nat) (now : Rat) (expiresAt : ν → Rat) (mine : κ → Bool) (cache : Dict κ ν)
    {keep : κ → Bool} (hkeep : ∀ k, keep k = true ↔ k ∉ overflowKeys limit now expiresAt mine cache) :
    Evicted (fun a b => evictsBefore now (expiresAt a) (expiresAt b) = true) limit mine cache (cache.filterKeys keep) := by
  have hvictims : Dict.victims (fun a b => evictsBefore now (expiresAt a) (expiresAt b) = true) limit mine cache =
      overflowKeys limit now expiresAt mine cache := rfl
  have hsame : cache.filterKeys keep = cache.filterKeys fun k => k ∉ overflowKeys limit now expiresAt mine cache :=
    Dict.filterKeys_congr fun k _ => by rw [Bool.eq_iff_iff, hkeep, decide_eq_true_eq]
  rw [hsame, ← hvictims]
  exact Dict.evict_evicted _ limit mine cache

end Evictions

section Runtime

variable (limit : Nat) (now : Rat) (ctx : Runtime)

theorem evictResponses_evicted (mine : String × IPv4 → Bool) :
    Evicted (fun a b => evictsBefore now (ResponseEntry.expiresAt a) (ResponseEntry.expiresAt b) = true) limit mine
      ctx.dnsResponseCache (evictResponses limit now mine ctx).dnsResponseCache := by
  have hresponses : (evictResponses limit now mine ctx).dnsResponseCache = ctx.dnsResponseCache.filterKeys
      (· ∉ overflowKeys limit now ResponseEntry.expiresAt mine ctx.dnsResponseCache) := by
    unfold evictResponses
    dsimp only
    split
    · rename_i hempty
      simp [List.isEmpty_iff.1 hempty]
    · rfl
  rw [hresponses]
  exact filterKeys_overflowKeys limit now _ mine _ fun _ => decide_eq_true_iff

theorem evictQnames_evicted (mine : String × String × String → Bool) :
    Evicted (fun a b => evictsBefore now (QnameEntry.expiresAt a) (QnameEntry.expiresAt b) = true) limit mine
      ctx.dnsQnameCache (evictQnames limit now mine ctx).dnsQnameCache :=
  filterKeys_overflowKeys limit now _ mine _ fun _ => decide_eq_true_iff

end Runtime

/-- The four evictions, whatever the caches hold. -/
structure FairEvictions (limits : DnsCacheLimits) : Prop where
  responsesOfSource : ∀ now source ctx, FairEviction limits.maxPerSource now ResponseEntry.expiresAt
    (fun key => key.1 = source) ctx.dnsResponseCache (evictDnsCacheForSource limits now source ctx).dnsResponseCache
  responses : ∀ now ctx, FairEviction limits.maxGlobal now ResponseEntry.expiresAt (fun _ => true)
    ctx.dnsResponseCache (evictDnsCacheGlobal limits now ctx).dnsResponseCache
  qnamesOfSource : ∀ now source ctx, FairEviction limits.maxPerSource now QnameEntry.expiresAt
    (fun key => key.1 = source) ctx.dnsQnameCache (evictQnameCacheForSource limits now source ctx).dnsQnameCache
  qnames : ∀ now ctx, FairEviction limits.maxGlobal now QnameEntry.expiresAt (fun _ => true)
    ctx.dnsQnameCache (evictQnameCacheGlobal limits now ctx).dnsQnameCache

theorem fairEvictions (limits : DnsCacheLimits) : FairEvictions limits where
  responsesOfSource now _ ctx := .of_evicted (evictResponses_evicted _ now ctx _)
  responses now ctx := .of_evicted (evictResponses_evicted _ now ctx _)
  qnamesOfSource now _ ctx := .of_evicted (evictQnames_evicted _ now ctx _)
  qnames now ctx := .of_evicted (evictQnames_evicted _ now ctx _)

/-! ### Bounds -/

/-- Both caches meet the limit of every source, and that of all sources. -/
structure CachesBounded (limits : DnsCacheLimits) (ctx : Runtime) : Prop where
  responsesOfSource : ∀ source, ctx.dnsResponseCache.countKeys (fun key => key.1 = source) ≤ limits.maxPerSource
  responses : ctx.dnsResponseCache.size ≤ limits.maxGlobal
  qnamesOfSource : ∀ source, ctx.dnsQnameCache.countKeys (fun key => key.1 = source) ≤ limits.maxPerSource
  qnames : ctx.dnsQnameCache.size ≤ limits.maxGlobal

namespace CachesBounded

variable {limits : DnsCacheLimits} {ctx ctx' : Runtime}

theorem of_empty (hresponses : ctx.dnsResponseCache = .empty) (hqnames : ctx.dnsQnameCache = .empty) :
    CachesBounded limits ctx := by
  constructor
  · intro source
    rw [hresponses]
    exact Nat.zero_le _
  · rw [hresponses]
    exact Nat.zero_le _
  · intro source
    rw [hqnames]
    exact Nat.zero_le _
  · rw [hqnames]
    exact Nat.zero_le _

theorem of_subset (h : CachesBounded limits ctx) (hresponses : ctx'.dnsResponseCache.keys ⊆ ctx.dnsResponseCache.keys)
    (hqnames : ctx'.dnsQnameCache.keys ⊆ ctx.dnsQnameCache.keys) : CachesBounded limits ctx' := by
  refine ⟨fun source => ?_, ?_, fun source => ?_, ?_⟩
  · exact (Dict.countKeys_le_of_subset hresponses _).trans (h.responsesOfSource source)
  · rw [← Dict.countKeys_true]
    exact (Dict.countKeys_le_of_subset hresponses _).trans (ctx.dnsResponseCache.countKeys_true ▸ h.responses)
  · exact (Dict.countKeys_le_of_subset hqnames _).trans (h.qnamesOfSource source)
  · rw [← Dict.countKeys_true]
    exact (Dict.countKeys_le_of_subset hqnames _).trans (ctx.dnsQnameCache.countKeys_true ▸ h.qnames)

end CachesBounded

section Store

variable {limits : DnsCacheLimits} {ctx : Runtime} {source qname qtype : String}

theorem removeOldQnameIps_subset :
    (removeOldQnameIps source qname qtype ctx).dnsResponseCache.keys ⊆ ctx.dnsResponseCache.keys := by
  intro key hkey
  obtain ⟨e, he⟩ := Dict.mem_keys_iff.1 hkey
  exact Dict.mem_keys_of_get? (removeOldQnameIps_get?.1 he).1

/-- The labels of a source do not count for other sources. -/
theorem enterDnsLabels_others {labels : Dict IPv4 String} {expiresAt : Rat} {other : String} (hother : other ≠ source) :
    (enterDnsLabels source qname qtype labels expiresAt ctx).dnsResponseCache.countKeys (fun key => key.1 = other) =
        ctx.dnsResponseCache.countKeys (fun key => key.1 = other) ∧
      (enterDnsLabels source qname qtype labels expiresAt ctx).dnsQnameCache.countKeys (fun key => key.1 = other) =
        ctx.dnsQnameCache.countKeys (fun key => key.1 = other) := by
  refine ⟨?_, Dict.countKeys_set_of_not _ _ _ (decide_eq_false hother.symm)⟩
  unfold enterDnsLabels
  generalize ctx.dnsResponseCache = responses
  dsimp only
  induction labels.entries generalizing responses with
  | nil => rfl
  | cons first rest ih =>
    rw [List.foldl_cons, ih]
    exact Dict.countKeys_set_of_not _ _ _ (decide_eq_false hother.symm)

theorem CachesBounded.store (h : CachesBounded limits ctx) (clock : StoreClock) (source qname qtype : String)
    (labels : Dict IPv4 String) (ttl : Rat) :
    CachesBounded limits (storeDnsLabels limits clock source qname qtype labels ttl ctx) := by
  let entered := enterDnsLabels source qname qtype labels (clock.now + ttl) (removeOldQnameIps source qname qtype ctx)
  have hresponses : ∀ other, other ≠ source →
      entered.dnsResponseCache.countKeys (fun key => key.1 = other) ≤ limits.maxPerSource := by
    intro other hother
    rw [(enterDnsLabels_others hother).1]
    exact (Dict.countKeys_le_of_subset removeOldQnameIps_subset _).trans (h.responsesOfSource other)
  have hqnames : ∀ other, other ≠ source →
      entered.dnsQnameCache.countKeys (fun key => key.1 = other) ≤ limits.maxPerSource := by
    intro other hother
    rw [(enterDnsLabels_others hother).2, removeOldQnameIps_frame]
    exact h.qnamesOfSource other
  -- the evictions of the responses keep the names in the second cache, and those of the names keep the responses
  let left := evictDnsCacheForSource limits clock.responsesSource source entered
  let ctx₁ := evictDnsCacheGlobal limits clock.responsesGlobal left
  have hkeys : ctx₁.dnsQnameCache.keys = entered.dnsQnameCache.keys :=
    (evictResponses_qnames _ _ _ _).trans (evictResponses_qnames _ _ _ _)
  have hfirst := (evictResponses_evicted limits.maxPerSource clock.responsesSource entered _).bounds Prod.fst
    (evictResponses_evicted limits.maxGlobal clock.responsesGlobal left _) hresponses
  have hsecond := (evictQnames_evicted limits.maxPerSource clock.qnamesSource ctx₁ _).bounds Prod.fst
    (evictQnames_evicted limits.maxGlobal clock.qnamesGlobal _ _)
    (fun other hother => (Dict.countKeys_congr _ hkeys).trans_le (hqnames other hother))
  exact ⟨hfirst.1, hfirst.2, hsecond.1, hsecond.2⟩

end Store

/-! ### Runs -/

/-- What the daemon does with the two caches, and anything that leaves them alone. -/
inductive CacheStep (limits : DnsCacheLimits) : Daemon → Daemon → Prop
  | store (d : Daemon) (clock : StoreClock) (source qname qtype : String) (labels : Dict IPv4 String) (ttl : Rat) :
      CacheStep limits d { d with ctx := storeDnsLabels limits clock source qname qtype labels ttl d.ctx }
  | cleanupVanished (d : Daemon) : CacheStep limits d (cleanupDisposableRuleEntries d)
  | cleanupReused (d : Daemon) (oldSourcesByName : Nft.SourcesByName) :
      CacheStep limits d (cleanupReusedNumberedDispvmEntries oldSourcesByName d)
  | elsewhere (d d' : Daemon) (hresponses : d'.ctx.dnsResponseCache = d.ctx.dnsResponseCache)
      (hqnames : d'.ctx.dnsQnameCache = d.ctx.dnsQnameCache) : CacheStep limits d d'

theorem CachesBounded.purge {limits : DnsCacheLimits} {d : Daemon} (h : CachesBounded limits d.ctx)
    (gone : List String) : CachesBounded limits (purgeAll d gone).ctx :=
  h.of_subset (fun key hkey => ((purgeAll_responses d gone key).1 hkey).1)
    (fun key hkey => ((purgeAll_qnames d gone key).1 hkey).1)

theorem CacheStep.bounded {limits : DnsCacheLimits} {d d' : Daemon} (hstep : CacheStep limits d d')
    (h : CachesBounded limits d.ctx) : CachesBounded limits d'.ctx := by
  cases hstep with
  | store clock source qname qtype labels ttl => exact h.store clock source qname qtype labels ttl
  | cleanupVanished => exact h.purge _
  | cleanupReused oldSourcesByName => exact h.purge _
  | elsewhere _ hresponses hqnames =>
    exact h.of_subset (by rw [hresponses]; exact List.Subset.refl _) (by rw [hqnames]; exact List.Subset.refl _)

/-- From empty caches both caches meet their limits after every operation, and every eviction is fair. -/
theorem dnsCaches_bounded_fair (limits : DnsCacheLimits) {start d : Daemon}
    (hresponses : start.ctx.dnsResponseCache = .empty) (hqnames : start.ctx.dnsQnameCache = .empty)
    (hrun : Relation.ReflTransGen (CacheStep limits) start d) :
    CachesBounded limits d.ctx ∧ FairEvictions limits := by
  refine ⟨?_, fairEvictions limits⟩
  induction hrun with
  | refl => exact .of_empty hresponses hqnames
  | tail _ hstep ih => exact hstep.bounded ih

namespace Sample

/-- Two lookups of one source, whose caches have room for one entry. -/
theorem dnsCaches_bounded_fair_nameEvicted : CachesBounded ⟨1, 1⟩ nameEvicted.ctx ∧ FairEvictions ⟨1, 1⟩ := by
  let first : Daemon := ⟨Queue.initial, noHints.ctx⟩
  have hrun : Relation.ReflTransGen (CacheStep ⟨1, 1⟩) first ⟨Queue.initial, nameEvicted.ctx⟩ :=
    (Relation.ReflTransGen.single (.store first ⟨0, 0, 0, 0, 0⟩ "work" "a.example" "A" (.ofList [(server, "a.example")])
      10)).tail (.store ⟨Queue.initial, oneHint.ctx⟩ ⟨1, 1, 1, 1, 1⟩ "work" "b.example" "A" .empty 60)
  exact @dnsCaches_bounded_fair ⟨1, 1⟩ first _ rfl rfl hrun

end Sample

end QubesSnitch
