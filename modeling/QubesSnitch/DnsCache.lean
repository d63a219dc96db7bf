import QubesSnitch.PacketHandlers

/-!
# The DNS hint cache

Hints are labels of addresses, shown in prompts and used for nothing else.  A response entry belongs to the name and type
whose lookup stored it (its owner), and the entry of that name remembers its labels, so that the next lookup of the name
can take the old labels away.  Other names take over shared addresses, and both caches are bounded.

A displayed hint is that of the latest lookup of its owner as long as no lookup meets, without an entry of its name, an
unexpired response that it owns and does not confirm (`Run.displays`).  The eviction of names leaves such responses.
-/

namespace QubesSnitch

/-- The limits that `config.yml` sets for the two caches. -/
structure DnsCacheLimits where
  maxPerSource : Nat
  maxGlobal : Nat
  deriving DecidableEq, Repr

/-- The readings of the clock in a call of `store_dns_labels`: at its start and in the four evictions. -/
structure StoreClock where
  now : Rat
  responsesSource : Rat
  responsesGlobal : Rat
  qnamesSource : Rat
  qnamesGlobal : Rat

/-- The clock does not run backwards. -/
structure StoreClock.Monotone (clock : StoreClock) : Prop where
  responsesSource : clock.now ≤ clock.responsesSource
  responsesGlobal : clock.responsesSource ≤ clock.responsesGlobal
  qnamesSource : clock.responsesGlobal ≤ clock.qnamesSource
  qnamesGlobal : clock.qnamesSource ≤ clock.qnamesGlobal

/-! ### Eviction -/

def responseMatchesQname (response : Option ResponseEntry) (qname qtype label : String) : Bool :=
  response.any fun r => r.qname = qname && r.qtype = qtype && r.label = label

def pruneQnameCache (ctx : Runtime) : Runtime :=
  { ctx with dnsQnameCache := ctx.dnsQnameCache.mapWithKey fun (source, qtype, qname) cached =>
      { cached with labels := cached.labels.filter fun ip label =>
          responseMatchesQname (ctx.dnsResponseCache.get? (source, ip)) qname qtype label } }

/-- The order of the keys `(expires_at > now, expires_at)`. -/
def evictsBefore (now a b : Rat) : Bool :=
  (decide (a ≤ now) && decide (now < b)) || (decide (now < a) = decide (now < b) && decide (a ≤ b))

/-- The keys of the entries of `mine` that are too many, those that expire first. -/
def overflowKeys {κ ν : Type} (limit : Nat) (now : Rat) (expiresAt : ν → Rat) (mine : κ → Bool) (cache : Dict κ ν) :
    List κ :=
  let entries := cache.entries.filter fun e => mine e.1
  let sorted := entries.insertionSort fun a b => evictsBefore now (expiresAt a.2) (expiresAt b.2) = true
  (sorted.take (entries.length - limit)).map Prod.fst

def evictResponses (limit : Nat) (now : Rat) (mine : String × IPv4 → Bool) (ctx : Runtime) : Runtime :=
  let keys := overflowKeys limit now ResponseEntry.expiresAt mine ctx.dnsResponseCache
  if keys.isEmpty then ctx
  else pruneQnameCache { ctx with dnsResponseCache := ctx.dnsResponseCache.filterKeys (· ∉ keys) }

def evictQnames (limit : Nat) (now : Rat) (mine : String × String × String → Bool) (ctx : Runtime) : Runtime :=
  let keys := overflowKeys limit now QnameEntry.expiresAt mine ctx.dnsQnameCache
  { ctx with dnsQnameCache := ctx.dnsQnameCache.filterKeys (· ∉ keys) }

variable (limits : DnsCacheLimits)

def evictDnsCacheForSource (now : Rat) (source : String) : Runtime → Runtime :=
  evictResponses limits.maxPerSource now fun key => key.1 = source

def evictDnsCacheGlobal (now : Rat) : Runtime → Runtime := evictResponses limits.maxGlobal now fun _ => true

def evictQnameCacheForSource (now : Rat) (source : String) : Runtime → Runtime :=
  evictQnames limits.maxPerSource now fun key => key.1 = source

def evictQnameCacheGlobal (now : Rat) : Runtime → Runtime := evictQnames limits.maxGlobal now fun _ => true

/-! ### Lookups -/

/-- The responses without those that the last lookup of the name stored and the name still owns. -/
def removeOldQnameIps (source qname qtype : String) (ctx : Runtime) : Runtime :=
  match ctx.dnsQnameCache.get? (source, qtype, qname) with
  | none => ctx
  | some cached =>
    { ctx with dnsResponseCache := cached.labels.entries.foldl (fun responses (ip, label) =>
        if responseMatchesQname (responses.get? (source, ip)) qname qtype label then responses.erase (source, ip)
        else responses) ctx.dnsResponseCache }

/-- The two caches with a new answer. -/
def enterDnsLabels (source qname qtype : String) (labels : Dict IPv4 String) (expiresAt : Rat) (ctx : Runtime) :
    Runtime :=
  { ctx with
    dnsQnameCache := ctx.dnsQnameCache.set (source, qtype, qname) ⟨labels, expiresAt⟩
    dnsResponseCache := labels.entries.foldl (fun responses (ip, label) =>
      responses.set (source, ip) ⟨label, qname, qtype, expiresAt⟩) ctx.dnsResponseCache }

def storeDnsLabels (clock : StoreClock) (source qname qtype : String) (labels : Dict IPv4 String) (ttl : Rat)
    (ctx : Runtime) : Runtime :=
  let ctx := removeOldQnameIps source qname qtype ctx
  let ctx := enterDnsLabels source qname qtype labels (clock.now + ttl) ctx
  let ctx := evictDnsCacheForSource limits clock.responsesSource source ctx
  let ctx := evictDnsCacheGlobal limits clock.responsesGlobal ctx
  let ctx := evictQnameCacheForSource limits clock.qnamesSource source ctx
  evictQnameCacheGlobal limits clock.qnamesGlobal ctx

/-! ### What a lookup takes and enters -/

section Lookups

variable {source qname qtype : String} {ctx : Runtime}

private theorem erase_matching_get? (responses : Dict (String × IPv4) ResponseEntry) (ip₁ : IPv4) (label : String)
    {s : String} {ip : IPv4} {e : ResponseEntry} :
    (if responseMatchesQname (responses.get? (source, ip₁)) qname qtype label then responses.erase (source, ip₁)
      else responses).get? (s, ip) = some e ↔
    responses.get? (s, ip) = some e ∧
      ¬ (s = source ∧ e.qname = qname ∧ e.qtype = qtype ∧ (ip, e.label) = (ip₁, label)) := by
  by_cases hkey : (s, ip) = (source, ip₁)
  · obtain ⟨rfl, rfl⟩ := Prod.mk.inj hkey
    cases hget : responses.get? (s, ip) with
    | none =>
      have hno : responseMatchesQname none qname qtype label = false := rfl
      simp [hno, hget]
    | some e' =>
      by_cases hmatch : responseMatchesQname (some e') qname qtype label
      · rw [if_pos hmatch, Dict.get?_erase_self]
        simp only [responseMatchesQname, Option.any_some, Bool.and_eq_true, decide_eq_true_eq] at hmatch
        refine iff_of_false (by simp) ?_
        rintro ⟨he, hnot⟩
        obtain rfl := Option.some.inj he
        exact hnot ⟨rfl, hmatch.1.1, hmatch.1.2, by rw [hmatch.2]⟩
      · rw [if_neg hmatch, hget]
        simp only [responseMatchesQname, Option.any_some, Bool.and_eq_true, decide_eq_true_eq, not_and] at hmatch
        refine ⟨fun he => ⟨he, ?_⟩, fun he => he.1⟩
        obtain rfl := Option.some.inj he
        rintro ⟨-, hq, ht, hl⟩
        exact hmatch ⟨hq, ht⟩ (Prod.mk.inj hl).2
  · -- another entry is looked at
    have hsame : (if responseMatchesQname (responses.get? (source, ip₁)) qname qtype label then
        responses.erase (source, ip₁) else responses).get? (s, ip) = responses.get? (s, ip) := by
      split
      · exact Dict.get?_erase_of_ne _ hkey
      · rfl
    rw [hsame]
    refine ⟨fun he => ⟨he, ?_⟩, fun he => he.1⟩
    rintro ⟨rfl, -, -, hl⟩
    exact hkey (by rw [(Prod.mk.inj hl).1])

private theorem foldl_erase_get? (l : List (IPv4 × String)) (responses : Dict (String × IPv4) ResponseEntry)
    {s : String} {ip : IPv4} {e : ResponseEntry} :
    (l.foldl (fun responses (ip, label) =>
      if responseMatchesQname (responses.get? (source, ip)) qname qtype label then responses.erase (source, ip)
      else responses) responses).get? (s, ip) = some e ↔
    responses.get? (s, ip) = some e ∧ ¬ (s = source ∧ e.qname = qname ∧ e.qtype = qtype ∧ (ip, e.label) ∈ l) := by
  induction l generalizing responses with
  | nil => simp
  | cons first l ih =>
    obtain ⟨ip₁, label⟩ := first
    rw [List.foldl_cons, ih, erase_matching_get?, List.mem_cons]
    constructor
    · rintro ⟨⟨he, h1⟩, h2⟩
      refine ⟨he, ?_⟩
      rintro ⟨hs, hq, ht, hl | hl⟩
      · exact h1 ⟨hs, hq, ht, hl⟩
      · exact h2 ⟨hs, hq, ht, hl⟩
    · rintro ⟨he, h⟩
      exact ⟨⟨he, fun h1 => h ⟨h1.1, h1.2.1, h1.2.2.1, .inl h1.2.2.2⟩⟩, fun h2 => h ⟨h2.1, h2.2.1, h2.2.2.1, .inr h2.2.2.2⟩⟩

/-- The responses that go are those of the name that its entry remembers. -/
theorem removeOldQnameIps_get? {s : String} {ip : IPv4} {e : ResponseEntry} :
    (removeOldQnameIps source qname qtype ctx).dnsResponseCache.get? (s, ip) = some e ↔
      ctx.dnsResponseCache.get? (s, ip) = some e ∧ ¬ (s = source ∧ e.qname = qname ∧ e.qtype = qtype ∧
        ∃ cached, ctx.dnsQnameCache.get? (source, qtype, qname) = some cached ∧
          cached.labels.get? ip = some e.label) := by
  unfold removeOldQnameIps
  cases hcached : ctx.dnsQnameCache.get? (source, qtype, qname) with
  | none => simp
  | some cached =>
    rw [foldl_erase_get?, ← Dict.get?_eq_some_iff]
    simp

theorem removeOldQnameIps_frame : (removeOldQnameIps source qname qtype ctx).dnsQnameCache = ctx.dnsQnameCache := by
  unfold removeOldQnameIps
  split <;> rfl

theorem enterDnsLabels_get? {labels : Dict IPv4 String} {expiresAt : Rat} {s : String} {ip : IPv4} {e : ResponseEntry} :
    (enterDnsLabels source qname qtype labels expiresAt ctx).dnsResponseCache.get? (s, ip) = some e ↔
      (s = source ∧ ∃ label, labels.get? ip = some label ∧ e = ⟨label, qname, qtype, expiresAt⟩) ∨
        (s = source → labels.get? ip = none) ∧ ctx.dnsResponseCache.get? (s, ip) = some e := by
  let entry : IPv4 × String → (String × IPv4) × ResponseEntry := fun e => ((source, e.1), ⟨e.2, qname, qtype, expiresAt⟩)
  have hfold : (enterDnsLabels source qname qtype labels expiresAt ctx).dnsResponseCache =
      (labels.entries.map entry).foldl (fun d e => d.set e.1 e.2) ctx.dnsResponseCache := by
    rw [List.foldl_map]
    rfl
  have hkeys : (labels.entries.map entry).map Prod.fst = labels.keys.map fun ip => (source, ip) := by
    simp [Dict.keys, entry, Function.comp_def]
  have hnodup : ((labels.entries.map entry).map Prod.fst).Nodup := by
    rw [hkeys]
    exact labels.nodup.map fun _ _ h => (Prod.mk.inj h).2
  rw [hfold, Dict.get?_foldl_set _ hnodup, hkeys]
  constructor
  · rintro (hmem | ⟨hnot, hold⟩)
    · obtain ⟨⟨ip', label⟩, hlabel, heq⟩ := List.mem_map.1 hmem
      obtain ⟨hkey, rfl⟩ := Prod.mk.inj heq
      obtain ⟨rfl, rfl⟩ := Prod.mk.inj hkey
      exact .inl ⟨rfl, label, Dict.get?_eq_some_iff.2 hlabel, rfl⟩
    · refine .inr ⟨?_, hold⟩
      rintro rfl
      exact Dict.get?_eq_none_iff.2 fun hip => hnot (List.mem_map.2 ⟨ip, hip, rfl⟩)
  · rintro (⟨rfl, label, hlabel, rfl⟩ | ⟨hnone, hold⟩)
    · exact .inl (List.mem_map.2 ⟨(ip, label), Dict.get?_eq_some_iff.1 hlabel, rfl⟩)
    · refine .inr ⟨fun hmem => ?_, hold⟩
      obtain ⟨ip', hip, heq⟩ := List.mem_map.1 hmem
      obtain ⟨rfl, rfl⟩ := Prod.mk.inj heq
      exact absurd hip (Dict.get?_eq_none_iff.1 (hnone rfl))

end Lookups

/-! ### What eviction leaves -/

/-- Responses and names may go, but not a label of a name whose response stays. -/
structure Evicts (ctx ctx' : Runtime) : Prop where
  responses : ∀ key e, ctx'.dnsResponseCache.get? key = some e → ctx.dnsResponseCache.get? key = some e
  labels : ∀ source ip e cached', ctx'.dnsResponseCache.get? (source, ip) = some e →
    ctx'.dnsQnameCache.get? (source, e.qtype, e.qname) = some cached' →
    ∃ cached, ctx.dnsQnameCache.get? (source, e.qtype, e.qname) = some cached ∧
      (cached.labels.get? ip = some e.label → cached'.labels.get? ip = some e.label)

namespace Evicts

variable {ctx ctx' ctx'' : Runtime}

theorem refl (ctx : Runtime) : Evicts ctx ctx := ⟨fun _ _ h => h, fun _ _ _ cached _ h => ⟨cached, h, fun hl => hl⟩⟩

theorem trans (h : Evicts ctx ctx') (h' : Evicts ctx' ctx'') : Evicts ctx ctx'' := by
  refine ⟨fun key e he => h.responses key e (h'.responses key e he), fun source ip e cached'' he hcached'' => ?_⟩
  obtain ⟨cached', hcached', hkept'⟩ := h'.labels source ip e cached'' he hcached''
  obtain ⟨cached, hcached, hkept⟩ := h.labels source ip e cached' (h'.responses _ e he) hcached'
  exact ⟨cached, hcached, fun hl => hkept' (hkept hl)⟩

end Evicts

theorem evictResponses_evicts (limit : Nat) (now : Rat) (mine : String × IPv4 → Bool) (ctx : Runtime) :
    Evicts ctx (evictResponses limit now mine ctx) := by
  unfold evictResponses
  dsimp only
  split
  · exact .refl ctx
  · refine ⟨fun key e he => ?_, fun source ip e cached' he hcached' => ?_⟩
    · have he : (ctx.dnsResponseCache.filterKeys _).get? key = some e := he
      rw [Dict.get?_filterKeys] at he
      split at he
      · exact he
      · cases he
    · have hcached' : (ctx.dnsQnameCache.mapWithKey _).get? (source, e.qtype, e.qname) = some cached' := hcached'
      rw [Dict.get?_mapWithKey, Option.map_eq_some_iff] at hcached'
      obtain ⟨cached, hcached, rfl⟩ := hcached'
      refine ⟨cached, hcached, fun hlabel => ?_⟩
      have he : (ctx.dnsResponseCache.filterKeys _).get? (source, ip) = some e := he
      show (cached.labels.filter _).get? ip = some e.label
      rw [Dict.get?_filter, hlabel, Option.filter_eq_some_iff]
      have hmatch : responseMatchesQname (some e) e.qname e.qtype e.label := by simp [responseMatchesQname]
      refine ⟨rfl, ?_⟩
      rw [← he] at hmatch
      exact hmatch

theorem evictQnames_evicts (limit : Nat) (now : Rat) (mine : String × String × String → Bool) (ctx : Runtime) :
    Evicts ctx (evictQnames limit now mine ctx) := by
  refine ⟨fun _ _ he => he, fun source ip e cached' _ hcached' => ⟨cached', ?_, fun hl => hl⟩⟩
  have hcached' : (ctx.dnsQnameCache.filterKeys _).get? (source, e.qtype, e.qname) = some cached' := hcached'
  rw [Dict.get?_filterKeys] at hcached'
  split at hcached'
  · exact hcached'
  · cases hcached'

/-- A call of `store_dns_labels` ends with evictions. -/
theorem storeDnsLabels_evicts (clock : StoreClock) (source qname qtype : String) (labels : Dict IPv4 String) (ttl : Rat)
    (ctx : Runtime) : Evicts
      (enterDnsLabels source qname qtype labels (clock.now + ttl) (removeOldQnameIps source qname qtype ctx))
      (storeDnsLabels limits clock source qname qtype labels ttl ctx) :=
  (evictResponses_evicts _ _ _ _).trans ((evictResponses_evicts _ _ _ _).trans
    ((evictQnames_evicts _ _ _ _).trans (evictQnames_evicts _ _ _ _)))

/-! ### What a call has to do with -/

/-- Nothing but the two caches is different. -/
def CachesOnly (ctx ctx' : Runtime) : Prop :=
  ctx' = { ctx with dnsResponseCache := ctx'.dnsResponseCache, dnsQnameCache := ctx'.dnsQnameCache }

theorem CachesOnly.trans {ctx ctx' ctx'' : Runtime} (h : CachesOnly ctx ctx') (h' : CachesOnly ctx' ctx'') :
    CachesOnly ctx ctx'' :=
  Eq.trans h' (congrArg (fun c : Runtime =>
    { c with dnsResponseCache := ctx''.dnsResponseCache, dnsQnameCache := ctx''.dnsQnameCache }) h)

theorem CachesOnly.sources_eq {ctx ctx' : Runtime} (h : CachesOnly ctx ctx') : ctx'.sources = ctx.sources := by
  rw [CachesOnly] at h
  rw [h]

section Keys

variable {limits} {clock : StoreClock} {source qname qtype : String} {labels : Dict IPv4 String} {ttl : Rat} {ctx : Runtime}

/-- A call changes nothing but the two caches. -/
theorem storeDnsLabels_cachesOnly : CachesOnly ctx (storeDnsLabels limits clock source qname qtype labels ttl ctx) := by
  have hremove : CachesOnly ctx (removeOldQnameIps source qname qtype ctx) := by
    unfold removeOldQnameIps
    split <;> rfl
  have hresponses : ∀ limit now mine (ctx : Runtime), CachesOnly ctx (evictResponses limit now mine ctx) := by
    intro limit now mine ctx
    unfold evictResponses
    dsimp only
    split <;> rfl
  have henter : CachesOnly (removeOldQnameIps source qname qtype ctx)
      (enterDnsLabels source qname qtype labels (clock.now + ttl) (removeOldQnameIps source qname qtype ctx)) := rfl
  have hqnames : ∀ limit now mine (ctx : Runtime), CachesOnly ctx (evictQnames limit now mine ctx) := fun _ _ _ _ => rfl
  exact hremove.trans (henter.trans ((hresponses _ _ _ _).trans ((hresponses _ _ _ _).trans
    ((hqnames _ _ _ _).trans (hqnames _ _ _ _)))))

/-- A response that is there was there, or is one of the answer. -/
theorem storeDnsLabels_responses {key : String × IPv4}
    (h : key ∈ (storeDnsLabels limits clock source qname qtype labels ttl ctx).dnsResponseCache.keys) :
    key ∈ ctx.dnsResponseCache.keys ∨ key.1 = source ∧ key.2 ∈ labels.keys := by
  obtain ⟨e, he⟩ := Dict.mem_keys_iff.1 h
  have hentered := (storeDnsLabels_evicts limits clock source qname qtype labels ttl ctx).responses key e he
  rcases enterDnsLabels_get?.1 hentered with ⟨hsource, label, hlabel, -⟩ | ⟨-, hold⟩
  · exact .inr ⟨hsource, Dict.mem_keys_of_get? hlabel⟩
  · exact .inl (Dict.mem_keys_of_get? (removeOldQnameIps_get?.1 hold).1)

theorem evictResponses_qnames (limit : Nat) (now : Rat) (mine : String × IPv4 → Bool) (ctx : Runtime) :
    (evictResponses limit now mine ctx).dnsQnameCache.keys = ctx.dnsQnameCache.keys := by
  unfold evictResponses
  dsimp only
  split
  · rfl
  · exact Dict.keys_mapWithKey _ _

theorem evictQnames_qnames {limit : Nat} {now : Rat} {mine : String × String × String → Bool} {ctx : Runtime}
    {key : String × String × String} (h : key ∈ (evictQnames limit now mine ctx).dnsQnameCache.keys) :
    key ∈ ctx.dnsQnameCache.keys := (Dict.mem_keys_filterKeys.1 h).1

/-- A name that is there was there, or is the one that was looked up. -/
theorem storeDnsLabels_qnames {key : String × String × String}
    (h : key ∈ (storeDnsLabels limits clock source qname qtype labels ttl ctx).dnsQnameCache.keys) :
    key ∈ ctx.dnsQnameCache.keys ∨ key = (source, qtype, qname) := by
  have h := evictQnames_qnames (evictQnames_qnames h)
  rw [evictDnsCacheGlobal, evictResponses_qnames, evictDnsCacheForSource, evictResponses_qnames] at h
  have h : key ∈ ((removeOldQnameIps source qname qtype ctx).dnsQnameCache.set (source, qtype, qname) _).keys := h
  rw [removeOldQnameIps_frame] at h
  exact (Dict.mem_keys_set.1 h).symm

end Keys

/-! ### Runs of the cache -/

/-- A call of `store_dns_labels`, or a reading of the cache. -/
inductive HintEvent where
  | store (clock : StoreClock) (source qname qtype : String) (labels : Dict IPv4 String) (ttl : Rat)
  | read (now : Rat)

/-- The caches, the latest answer that was stored for each name, and the last reading of the clock. -/
structure HintState where
  ctx : Runtime
  latest : String × String × String → Option QnameEntry
  clock : Rat

namespace HintState

def next (s : HintState) : HintEvent → HintState
  | .store clock source qname qtype labels ttl =>
    { ctx := storeDnsLabels limits clock source qname qtype labels ttl s.ctx
      latest := Function.update s.latest (source, qtype, qname) (some ⟨labels, clock.now + ttl⟩)
      clock := clock.qnamesGlobal }
  | .read now => { s with clock := now }

/-- The clock does not run backwards. -/
def Possible (s : HintState) : HintEvent → Prop
  | .store clock _ _ _ _ _ => s.clock ≤ clock.now ∧ clock.Monotone
  | .read now => s.clock ≤ now

/-- A lookup of a name without an entry confirms every unexpired response that the name owns. -/
def Confirms (s : HintState) : HintEvent → Prop
  | .store clock source qname qtype labels _ => s.ctx.dnsQnameCache.get? (source, qtype, qname) = none →
      ∀ ip e, s.ctx.dnsResponseCache.get? (source, ip) = some e → e.qname = qname → e.qtype = qtype →
        clock.now < e.expiresAt → ip ∈ labels.keys
  | .read _ => True

/-- Runs whose events meet `C`. -/
inductive Run (C : HintState → HintEvent → Prop) (s : HintState) : HintState → Prop
  | start : Run C s s
  | next {s' : HintState} {event : HintEvent} (h : Run C s s') (hp : s'.Possible event) (hc : C s' event) :
      Run C s (s'.next limits event)

/-- Empty caches. -/
def Fresh (s : HintState) : Prop := s.ctx.dnsResponseCache = .empty ∧ s.ctx.dnsQnameCache = .empty

/-- What is displayed is the label of an address in the latest answer for the name that owns the response, which has not
expired; where answers label addresses with their own name, as those of `refresh_dns_rule` do, the label is that name. -/
def Displays (s : HintState) : Prop :=
  ∀ now source ip shown, s.clock ≤ now → cachedDnsName now source ip s.ctx = some shown →
    ∃ n qtype qname answer, shown = "A " ++ n ∧
      (∃ e, s.ctx.dnsResponseCache.get? (source, ip) = some e ∧ e.qtype = qtype ∧ e.qname = qname) ∧
      s.latest (source, qtype, qname) = some answer ∧ answer.labels.get? ip = some n ∧ now < answer.expiresAt ∧
      ((∀ ip' label, answer.labels.get? ip' = some label → label = qname) → qname = n)

/-! ### Owners -/

/-- An unexpired response is in the latest answer for its owner, and in the entry of the owner as far as there is one. -/
structure Owned (s : HintState) : Prop where
  latest : ∀ source ip e, s.ctx.dnsResponseCache.get? (source, ip) = some e → s.clock < e.expiresAt →
    ∃ answer, s.latest (source, e.qtype, e.qname) = some answer ∧ answer.labels.get? ip = some e.label ∧
      answer.expiresAt = e.expiresAt
  entry : ∀ source ip e cached, s.ctx.dnsResponseCache.get? (source, ip) = some e → s.clock < e.expiresAt →
    s.ctx.dnsQnameCache.get? (source, e.qtype, e.qname) = some cached → cached.labels.get? ip = some e.label

namespace Owned

variable {limits} {s : HintState}

theorem fresh (h : s.Fresh) : s.Owned := by
  refine ⟨fun source ip e he => ?_, fun source ip e cached he => ?_⟩
  · rw [h.1] at he
    cases he
  · rw [h.1] at he
    cases he

/-- Time takes responses from the unexpired ones. -/
theorem later (h : s.Owned) {now : Rat} (hnow : s.clock ≤ now) : Owned { s with clock := now } :=
  ⟨fun source ip e he hlt => h.latest source ip e he (lt_of_le_of_lt hnow hlt),
    fun source ip e cached he hlt => h.entry source ip e cached he (lt_of_le_of_lt hnow hlt)⟩

theorem evicts (h : s.Owned) {ctx' : Runtime} (he : Evicts s.ctx ctx') : Owned { s with ctx := ctx' } := by
  refine ⟨fun source ip e hget hlt => h.latest source ip e (he.responses _ e hget) hlt,
    fun source ip e cached' hget hlt hcached' => ?_⟩
  obtain ⟨cached, hcached, hkept⟩ := he.labels source ip e cached' hget hcached'
  exact hkept (h.entry source ip e cached (he.responses _ e hget) hlt hcached)

/-- A new answer that confirms what its name owns without an entry. -/
theorem entered (h : s.Owned) {source qname qtype : String} {labels : Dict IPv4 String} {expiresAt : Rat}
    (hc : s.ctx.dnsQnameCache.get? (source, qtype, qname) = none → ∀ ip e,
      s.ctx.dnsResponseCache.get? (source, ip) = some e → e.qname = qname → e.qtype = qtype →
        s.clock < e.expiresAt → ip ∈ labels.keys) :
    Owned
      { ctx := enterDnsLabels source qname qtype labels expiresAt (removeOldQnameIps source qname qtype s.ctx)
        latest := Function.update s.latest (source, qtype, qname) (some ⟨labels, expiresAt⟩)
        clock := s.clock } := by
  have hqnames :
      (enterDnsLabels source qname qtype labels expiresAt (removeOldQnameIps source qname qtype s.ctx)).dnsQnameCache =
      s.ctx.dnsQnameCache.set (source, qtype, qname) ⟨labels, expiresAt⟩ := by
    have hframe : (removeOldQnameIps source qname qtype s.ctx).dnsQnameCache = s.ctx.dnsQnameCache :=
      removeOldQnameIps_frame
    rw [← hframe]
    rfl
  -- a response that is left from before belongs to another name
  have hother : ∀ source' ip e, s.ctx.dnsResponseCache.get? (source', ip) = some e → s.clock < e.expiresAt →
      (source' = source → labels.get? ip = none) →
      ¬ (source' = source ∧ e.qname = qname ∧ e.qtype = qtype ∧
        ∃ cached, s.ctx.dnsQnameCache.get? (source, qtype, qname) = some cached ∧
          cached.labels.get? ip = some e.label) →
      (source', e.qtype, e.qname) ≠ (source, qtype, qname) := by
    intro source' ip e he hlt hnone hkept hkey
    simp only [Prod.mk.injEq] at hkey
    obtain ⟨rfl, rfl, rfl⟩ := hkey
    cases hcached : s.ctx.dnsQnameCache.get? (source', e.qtype, e.qname) with
    | some cached =>
      rw [hcached] at hkept
      exact hkept ⟨rfl, rfl, rfl, cached, rfl, h.entry source' ip e cached he hlt hcached⟩
    | none => exact Dict.get?_eq_none_iff.1 (hnone rfl) (hc hcached ip e he rfl rfl hlt)
  refine ⟨fun source' ip e he hlt => ?_, fun source' ip e cached he hlt hcached => ?_⟩
  · rcases enterDnsLabels_get?.1 he with ⟨rfl, label, hlabel, rfl⟩ | ⟨hnone, hold⟩
    · exact ⟨⟨labels, expiresAt⟩, Function.update_self .., hlabel, rfl⟩
    · obtain ⟨hold, hkept⟩ := removeOldQnameIps_get?.1 hold
      have hkey := hother source' ip e hold hlt hnone hkept
      obtain ⟨answer, hanswer⟩ := h.latest source' ip e hold hlt
      exact ⟨answer, (Function.update_of_ne hkey ..).trans hanswer.1, hanswer.2⟩
  · rw [hqnames, Dict.get?_set] at hcached
    rcases enterDnsLabels_get?.1 he with ⟨rfl, label, hlabel, rfl⟩ | ⟨hnone, hold⟩
    · rw [if_pos rfl] at hcached
      obtain rfl := Option.some.inj hcached
      exact hlabel
    · obtain ⟨hold, hkept⟩ := removeOldQnameIps_get?.1 hold
      rw [if_neg (hother source' ip e hold hlt hnone hkept)] at hcached
      exact h.entry source' ip e cached hold hlt hcached

theorem next (h : s.Owned) {event : HintEvent} (hp : s.Possible event) (hc : s.Confirms event) :
    (s.next limits event).Owned := by
  cases event with
  | read now => exact h.later hp
  | store clock source qname qtype labels ttl =>
    have hnow : Owned { s with clock := clock.now } := h.later hp.1
    have hclock : clock.now ≤ clock.qnamesGlobal :=
      hp.2.responsesSource.trans (hp.2.responsesGlobal.trans (hp.2.qnamesSource.trans hp.2.qnamesGlobal))
    exact ((hnow.entered hc).evicts (storeDnsLabels_evicts limits clock source qname qtype labels ttl s.ctx)).later hclock

theorem displays (h : s.Owned) : s.Displays := by
  intro now source ip shown hnow hshown
  unfold cachedDnsName at hshown
  cases he : s.ctx.dnsResponseCache.get? (source, ip) with
  | none =>
    rw [he] at hshown
    cases hshown
  | some e =>
    rw [he] at hshown
    dsimp only at hshown
    split at hshown
    · rename_i hfresh
      simp only [Bool.and_eq_true, decide_eq_true_eq] at hfresh
      obtain ⟨answer, hlatest, hlabel, hexpires⟩ := h.latest source ip e he (lt_of_le_of_lt hnow hfresh.1)
      refine ⟨e.label, e.qtype, e.qname, answer, (Option.some.inj hshown).symm, ⟨e, rfl, rfl, rfl⟩, hlatest, hlabel, ?_, ?_⟩
      · rw [hexpires]
        exact hfresh.1
      · exact fun hown => (hown ip e.label hlabel).symm
    · cases hshown

end Owned

theorem Run.owned {limits : DnsCacheLimits} {s s' : HintState} (h : Run limits Confirms s s') (hs : s.Owned) : s'.Owned := by
  induction h with
  | start => exact hs
  | next _ hp hc ih => exact ih.next hp hc

/-- In every run from empty caches in which lookups confirm what their names own without an entry, what is displayed is
in the latest answer for its name, of the same source, and has not expired. -/
theorem run_displays (limits : DnsCacheLimits) {s s' : HintState} (hs : s.Fresh) (h : Run limits Confirms s s') :
    s'.Displays := (h.owned (.fresh hs)).displays

end HintState

namespace Sample

/-- A daemon without sources and hints. -/
def idle : Runtime where
  config := config
  sources := .empty
  rules := .empty
  rulesDir := .empty
  nftText := none
  dnsResponseCache := .empty
  dnsQnameCache := .empty
  lastSourceRefresh := 0

def noHints : HintState := ⟨idle, fun _ => none, 0⟩

/-- A lookup of a name of the source `work`. -/
def lookup (now : Rat) (qname : String) (labels : Dict IPv4 String) (ttl : Rat) : HintEvent :=
  .store ⟨now, now, now, now, now⟩ "work" qname "A" labels ttl

/-- The name `a.example` has the server's address. -/
def oneHint : HintState := noHints.next ⟨1, 1⟩ (lookup 0 "a.example" (.ofList [(server, "a.example")]) 10)

/-- The lookup of another name, which has no address, evicts the first name, and not its response. -/
def nameEvicted : HintState := oneHint.next ⟨1, 1⟩ (lookup 1 "b.example" .empty 60)

/-- Then the first name does not have the server's address any more. -/
def nameMoved : HintState := nameEvicted.next ⟨1, 1⟩ (lookup 2 "a.example" .empty 60)

theorem monotone_lookup (now : Rat) : StoreClock.Monotone ⟨now, now, now, now, now⟩ :=
  ⟨le_refl now, le_refl now, le_refl now, le_refl now⟩

/-- Where it has, the answer confirms what was left of it, -/
def nameConfirmed : HintState :=
  nameEvicted.next ⟨1, 1⟩ (lookup 2 "a.example" (.ofList [(server, "a.example")]) 60)

/-- and the next answer, with another address, takes its place. -/
def nameRefreshed : HintState :=
  nameConfirmed.next ⟨1, 1⟩ (lookup 3 "a.example" (.ofList [(⟨1, 2, 3, 5⟩, "a.example")]) 60)

/-- Whether a lookup confirms what its name owns can be seen from the entries of the response cache. -/
theorem confirms_lookup {s : HintState} {now : Rat} {qname : String} {labels : Dict IPv4 String} {ttl : Rat}
    (h : ∀ entry ∈ s.ctx.dnsResponseCache.entries, entry.2.qname = qname → entry.1.2 ∈ labels.keys) :
    s.Confirms (lookup now qname labels ttl) := fun _ ip e he hqname _ _ =>
  h (("work", ip), e) (Dict.get?_eq_some_iff.1 he) hqname

theorem run_displays_refreshed : nameRefreshed.Displays ∧
    cachedDnsName 4 "work" server nameRefreshed.ctx = none ∧
    cachedDnsName 4 "work" ⟨1, 2, 3, 5⟩ nameRefreshed.ctx = some "A a.example" := by
  have hmoved : nameConfirmed.Confirms (lookup 3 "a.example" (.ofList [(⟨1, 2, 3, 5⟩, "a.example")]) 60) := fun hnone =>
    absurd hnone (by decide +kernel)
  have hrun : HintState.Run ⟨1, 1⟩ HintState.Confirms noHints nameRefreshed :=
    .next (.next (.next (.next .start ⟨le_refl _, monotone_lookup 0⟩ (confirms_lookup (by decide +kernel)))
      ⟨by decide +kernel, monotone_lookup 1⟩ (confirms_lookup (by decide +kernel)))
      ⟨by decide +kernel, monotone_lookup 2⟩ (confirms_lookup (by decide +kernel)))
      ⟨by decide +kernel, monotone_lookup 3⟩ hmoved
  exact ⟨HintState.run_displays ⟨1, 1⟩ (s := noHints) ⟨rfl, rfl⟩ hrun, by decide +kernel, by decide +kernel⟩

/-- The old label of the server is still displayed. -/
theorem not_displays_nameMoved : ¬ ∀ (limits : DnsCacheLimits) (s s' : HintState), s.Fresh →
    HintState.Run limits (fun _ _ => True) s s' → s'.Displays := by
  intro h
  have hrun : HintState.Run ⟨1, 1⟩ (fun _ _ => True) noHints nameMoved :=
    .next (.next (.next .start ⟨le_refl _, monotone_lookup 0⟩ trivial) ⟨by decide +kernel, monotone_lookup 1⟩ trivial)
      ⟨by decide +kernel, monotone_lookup 2⟩ trivial
  have hshown : cachedDnsName 3 "work" server nameMoved.ctx = some "A a.example" := by decide +kernel
  have hresponse : nameMoved.ctx.dnsResponseCache.get? ("work", server) =
      some ⟨"a.example", "a.example", "A", 10⟩ := by decide +kernel
  have hlatest : nameMoved.latest ("work", "A", "a.example") = some ⟨.empty, 62⟩ := by decide +kernel
  obtain ⟨n, qtype, qname, answer, -, ⟨e, he, rfl, rfl⟩, hanswer, hlabel, -⟩ :=
    h ⟨1, 1⟩ noHints nameMoved ⟨rfl, rfl⟩ hrun 3 "work" server _ (by decide +kernel) hshown
  obtain rfl := Option.some.inj (hresponse.symm.trans he)
  obtain rfl := Option.some.inj (hlatest.symm.trans hanswer)
  cases hlabel

end Sample

end QubesSnitch
