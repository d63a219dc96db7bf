import QubesSnitch.Enrichment
import QubesSnitch.Lib.Histories

/-!
# The sections of an enrichment

A name that the daemon looks up leaves the firewall, and a name that a prompt shows with `A` may become a rule.  Every
section of an enrichment changes nothing, or it stores an answer of the resolver for a name that a section before found
in an allow rule or in an expired response (`Grounds`).  A name that it gives to a prompt is that of such an answer, or a label
that a section found in the cache, or it is a PTR record (`enrichRequest_traced`).
-/

namespace QubesSnitch

/-! ### Stored answers -/

/-- Hints may go, none comes. -/
structure FewerHints (ctx ctx' : Runtime) : Prop where
  responses : ∀ key e, ctx'.dnsResponseCache.get? key = some e → ctx.dnsResponseCache.get? key = some e
  qnames : ∀ key cached', ctx'.dnsQnameCache.get? key = some cached' → ∃ cached,
    ctx.dnsQnameCache.get? key = some cached ∧
      ∀ ip label, cached'.labels.get? ip = some label → cached.labels.get? ip = some label

namespace FewerHints

variable {ctx ctx' ctx'' : Runtime}

theorem of_eq (hresponses : ctx'.dnsResponseCache = ctx.dnsResponseCache) (hqnames : ctx'.dnsQnameCache = ctx.dnsQnameCache) :
    FewerHints ctx ctx' :=
  ⟨fun _ _ h => hresponses ▸ h, fun _ cached h => ⟨cached, hqnames ▸ h, fun _ _ hl => hl⟩⟩

theorem trans (h : FewerHints ctx ctx') (h' : FewerHints ctx' ctx'') : FewerHints ctx ctx'' := by
  refine ⟨fun key e he => h.responses key e (h'.responses key e he), fun key cached'' hcached'' => ?_⟩
  obtain ⟨cached', hcached', hlabels'⟩ := h'.qnames key cached'' hcached''
  obtain ⟨cached, hcached, hlabels⟩ := h.qnames key cached' hcached'
  exact ⟨cached, hcached, fun ip label hl => hlabels ip label (hlabels' ip label hl)⟩

theorem evictResponses (limit : Nat) (now : Rat) (mine : String × IPv4 → Bool) (ctx : Runtime) :
    FewerHints ctx (evictResponses limit now mine ctx) := by
  refine ⟨(evictResponses_evicts limit now mine ctx).responses, fun key cached' hcached' => ?_⟩
  unfold QubesSnitch.evictResponses at hcached'
  dsimp only at hcached'
  split at hcached'
  · exact ⟨cached', hcached', fun _ _ hl => hl⟩
  · have hcached' : (ctx.dnsQnameCache.mapWithKey _).get? key = some cached' := hcached'
    rw [Dict.get?_mapWithKey, Option.map_eq_some_iff] at hcached'
    obtain ⟨cached, hcached, rfl⟩ := hcached'
    refine ⟨cached, hcached, fun ip label hl => ?_⟩
    have hl : (cached.labels.filter _).get? ip = some label := hl
    rw [Dict.get?_filter, Option.filter_eq_some_iff] at hl
    exact hl.1

theorem evictQnames (limit : Nat) (now : Rat) (mine : String × String × String → Bool) (ctx : Runtime) :
    FewerHints ctx (evictQnames limit now mine ctx) := by
  refine ⟨fun _ _ he => he, fun key cached' hcached' => ⟨cached', ?_, fun _ _ hl => hl⟩⟩
  have hcached' : (ctx.dnsQnameCache.filterKeys _).get? key = some cached' := hcached'
  rw [Dict.get?_filterKeys] at hcached'
  split at hcached'
  · exact hcached'
  · cases hcached'

theorem purgeAll (d : Daemon) (gone : List String) : FewerHints d.ctx (purgeAll d gone).ctx := by
  induction gone generalizing d with
  | nil => exact of_eq rfl rfl
  | cons source gone ih =>
    refine trans ⟨fun key e he => ?_, fun key cached' hcached' => ⟨cached', ?_, fun _ _ hl => hl⟩⟩ (ih (purgeSource d source))
    · have he : (d.ctx.dnsResponseCache.filterKeys _).get? key = some e := he
      rw [Dict.get?_filterKeys] at he
      split at he
      · exact he
      · cases he
    · have hcached' : (d.ctx.dnsQnameCache.filterKeys _).get? key = some cached' := hcached'
      rw [Dict.get?_filterKeys] at hcached'
      split at hcached'
      · exact hcached'
      · cases hcached'

end FewerHints

section Store

variable {limits : DnsCacheLimits} {clock : StoreClock} {source qname qtype : String} {labels : Dict IPv4 String}
  {ttl : Rat} {ctx : Runtime}

/-- A response was there before, or is one of the answer. -/
theorem storeDnsLabels_response {key : String × IPv4} {e : ResponseEntry}
    (h : (storeDnsLabels limits clock source qname qtype labels ttl ctx).dnsResponseCache.get? key = some e) :
    ctx.dnsResponseCache.get? key = some e ∨
      key.1 = source ∧ labels.get? key.2 = some e.label ∧ e.qname = qname ∧ e.qtype = qtype := by
  have hentered := (storeDnsLabels_evicts limits clock source qname qtype labels ttl ctx).responses key e h
  rcases enterDnsLabels_get?.1 hentered with ⟨hsource, label, hlabel, rfl⟩ | ⟨-, hold⟩
  · exact .inr ⟨hsource, hlabel, rfl, rfl⟩
  · exact .inl (removeOldQnameIps_get?.1 hold).1

/-- The labels of a name were there before, or are those of the answer. -/
theorem storeDnsLabels_labels {key : String × String × String} {cached' : QnameEntry}
    (h : (storeDnsLabels limits clock source qname qtype labels ttl ctx).dnsQnameCache.get? key = some cached') :
    (key = (source, qtype, qname) ∧ ∀ ip label, cached'.labels.get? ip = some label → labels.get? ip = some label) ∨
      ∃ cached, ctx.dnsQnameCache.get? key = some cached ∧
        ∀ ip label, cached'.labels.get? ip = some label → cached.labels.get? ip = some label := by
  have hfewer : FewerHints
      (enterDnsLabels source qname qtype labels (clock.now + ttl) (removeOldQnameIps source qname qtype ctx))
      (storeDnsLabels limits clock source qname qtype labels ttl ctx) :=
    (FewerHints.evictResponses _ _ _ _).trans ((FewerHints.evictResponses _ _ _ _).trans
      ((FewerHints.evictQnames _ _ _ _).trans (FewerHints.evictQnames _ _ _ _)))
  obtain ⟨cached, hcached, hlabels⟩ := hfewer.qnames key cached' h
  have hcached : ((removeOldQnameIps source qname qtype ctx).dnsQnameCache.set (source, qtype, qname)
      ⟨labels, clock.now + ttl⟩).get? key = some cached := hcached
  rw [removeOldQnameIps_frame, Dict.get?_set] at hcached
  split at hcached
  · rename_i hkey
    cases hcached
    exact .inl ⟨hkey, hlabels⟩
  · exact .inr ⟨cached, hcached, hlabels⟩

end Store

/-! ### The sections of an enrichment -/

/-- The resolver gave the address for the name. -/
def Lookups.Gives (lookups : Lookups) (name : String) (ip : IPv4) : Prop :=
  ∃ ips ttl, lookups.addresses name = some (ips, ttl) ∧ ip ∈ ips

/-- The labels are the name, at addresses that the resolver gave for it. -/
def Lookups.Labels (lookups : Lookups) (qname : String) (labels : Dict IPv4 String) : Prop :=
  ∀ ip label, labels.get? ip = some label → label = qname ∧ lookups.Gives qname ip

theorem resolveDnsRule_labels {lookups : Lookups} {qname qtype : String} {labels : Dict IPv4 String} {ttl : Rat}
    (h : resolveDnsRule lookups qname qtype = some (labels, ttl)) : lookups.Labels qname labels := by
  unfold resolveDnsRule at h
  split at h
  · obtain ⟨⟨ips, ttl⟩, hips, hlabels⟩ := Option.map_eq_some_iff.1 h
    cases hlabels
    intro ip label hl
    obtain ⟨ip', hmem, heq⟩ := List.mem_map.1 (Dict.mem_of_get?_ofList hl)
    cases heq
    exact ⟨rfl, ips, ttl, hips, hmem⟩
  · cases h
    exact fun ip label hl => by cases hl

section Sections

variable {ω α β : Type} (lookups : Lookups) (source : String) (ip : IPv4)

/-- A section has found that an allow rule or an expired response names it. -/
def Wanted (ss : List (Daemon × Daemon)) (rule : String × String) : Prop :=
  ∃ p ∈ ss, rule ∈ allowedDnsHintRules source p.1.ctx.rules ∨
    staleResponseRule lookups.staleNow source ip p.1.ctx = some rule

/-- What a section of an enrichment does after others. -/
inductive Grounds (ss : List (Daemon × Daemon)) (p : Daemon × Daemon) : Prop
  | read (h : p.2 = p.1)
  | store {qname qtype : String} {labels : Dict IPv4 String} {clock : StoreClock} {ttl : Rat}
      (hwanted : Wanted lookups source ip ss (qname, qtype)) (hlabels : lookups.Labels qname labels)
      (h : p.2 = { p.1 with ctx := storeDnsLabels lookups.limits clock source qname qtype labels ttl p.1.ctx })

/-- Sections that all have their grounds, about which `C` is known. -/
def Recorded (C : List (Daemon × Daemon) → Prop) (ss : List (Daemon × Daemon)) (_ : List ω) : Prop :=
  Thread.Grounded (Grounds lookups source ip) ss ∧ C ss

/-- A call whose sections have their grounds. -/
def Traced (C : List (Daemon × Daemon) → Prop) (x : Thread Daemon PyError ω α)
    (Q : α → List (Daemon × Daemon) → Prop) : Prop :=
  Thread.Spec (Recorded lookups source ip C) x (fun a => Recorded lookups source ip (Q a))
    (fun _ ss _ => Thread.Grounded (Grounds lookups source ip) ss)

variable {lookups source ip} {C : List (Daemon × Daemon) → Prop} {x : Thread Daemon PyError ω α}
  {Q : α → List (Daemon × Daemon) → Prop}

theorem Wanted.lasting (rule : String × String) : Thread.Lasting fun ss => Wanted lookups source ip ss rule :=
  Thread.lasting_mem _

namespace Traced

theorem pure {a : α} (h : ∀ ss, C ss → Q a ss) : Traced lookups source ip C (pure a : Thread Daemon PyError ω α) Q :=
  Thread.Spec.pure fun _ _ hr => ⟨hr.1, h _ hr.2⟩

theorem bind {f : α → Thread Daemon PyError ω β} {R : β → List (Daemon × Daemon) → Prop}
    (hx : Traced lookups source ip C x Q) (hf : ∀ a, Traced lookups source ip (Q a) (f a) R) :
    Traced lookups source ip C (x >>= f) R := Thread.Spec.bind hx hf

theorem conseq {Q' : α → List (Daemon × Daemon) → Prop} {C' : List (Daemon × Daemon) → Prop}
    (h : Traced lookups source ip C x Q) (hC : ∀ ss, C' ss → C ss) (hQ : ∀ a ss, Q a ss → Q' a ss) :
    Traced lookups source ip C' x Q' :=
  Thread.Spec.conseq h (fun _ _ hr => ⟨hr.1, hC _ hr.2⟩) (fun _ _ _ hr => ⟨hr.1, hQ _ _ hr.2⟩) fun _ _ _ he => he

theorem assumed {p : Prop} (h : p → Traced lookups source ip C x Q) :
    Traced lookups source ip (fun ss => C ss ∧ p) x Q :=
  fun w hw => h hw.2.2 w ⟨hw.1, hw.2.1⟩

theorem external : Traced lookups source ip C (Thread.external : Thread Daemon PyError ω Unit) fun _ => C :=
  Thread.Spec.external (fun _ _ hr => hr) fun _ _ _ hr => hr.1

/-- What a section has read is on record. -/
theorem read (hC : Thread.Lasting C) (f : Runtime → α) :
    Traced lookups source ip C (Thread.atomically (readCtx f) : Thread Daemon PyError ω α)
      fun a ss => C ss ∧ ∃ p ∈ ss, f p.1.ctx = a :=
  Thread.Spec.atomically fun _ _ hr s => ⟨hr.1.next (.read rfl), hC _ _ hr.2, (s, s), by simp, rfl⟩

theorem mapM {f : β → Thread Daemon PyError ω α} {R : β → α → Prop} (l : List β)
    (h : ∀ b ∈ l, Traced lookups source ip C (f b) fun a ss => C ss ∧ R b a) :
    Traced lookups source ip C (l.mapM f) fun as ss => C ss ∧ List.Forall₂ R l as :=
  Thread.Spec.conseq
    (Thread.Spec.mapM l fun b hb => Thread.Spec.conseq (h b hb) (fun _ _ hr => hr)
      (fun _ _ _ hr => ⟨⟨hr.1, hr.2.1⟩, hr.2.2⟩) fun _ _ _ he => he)
    (fun _ _ hr => hr) (fun _ _ _ hr => ⟨hr.1.1, hr.1.2, hr.2⟩) fun _ _ _ he => he

end Traced

theorem storeAnswer_spec (hC : Thread.Lasting C) {qname qtype : String} {labels : Dict IPv4 String} {ttl : Rat}
    (hwanted : ∀ ss, C ss → Wanted lookups source ip ss (qname, qtype)) (hlabels : lookups.Labels qname labels) :
    Thread.Spec (Recorded lookups source ip C)
      (storeAnswer lookups source qname qtype labels ttl : Thread Daemon PyError ω (Dict IPv4 String))
      (fun stored => Recorded lookups source ip fun ss => C ss ∧ lookups.Labels qname stored)
      fun _ => Recorded lookups source ip C := by
  refine .bind (Q := fun _ => Recorded lookups source ip C) ?_ fun _ => .pure fun _ _ hr => ⟨hr.1, hr.2, hlabels⟩
  exact .atomically fun ss _ hr s => ⟨hr.1.next (.store (hwanted ss hr.2) hlabels rfl), hC _ _ hr.2⟩

/-- What is known before a lookup is known after it, also when it raises. -/
theorem refreshDnsRule_spec (hC : Thread.Lasting C) {qname qtype : String}
    (hwanted : ∀ ss, C ss → Wanted lookups source ip ss (qname, qtype)) : Thread.Spec (Recorded lookups source ip C)
      (refreshDnsRule lookups source qname qtype : Thread Daemon PyError ω (Dict IPv4 String))
      (fun labels => Recorded lookups source ip fun ss => C ss ∧ lookups.Labels qname labels)
      fun _ => Recorded lookups source ip C := by
  have hnone : lookups.Labels qname .empty := fun ip label hl => by cases hl
  unfold refreshDnsRule
  split
  · exact .pure fun _ _ hr => ⟨hr.1, hr.2, hnone⟩
  · split
    · rename_i labels ttl hresolved
      exact storeAnswer_spec hC hwanted (resolveDnsRule_labels hresolved)
    · exact .bind (.external (fun _ _ hr => hr) fun _ _ _ hr => hr) fun _ => storeAnswer_spec hC hwanted hnone

theorem refreshDnsRule_traced (hC : Thread.Lasting C) {qname qtype : String}
    (hwanted : ∀ ss, C ss → Wanted lookups source ip ss (qname, qtype)) : Traced lookups source ip C
      (refreshDnsRule lookups source qname qtype : Thread Daemon PyError ω (Dict IPv4 String))
      fun labels ss => C ss ∧ lookups.Labels qname labels :=
  Thread.Spec.conseq (refreshDnsRule_spec hC hwanted) (fun _ _ hr => hr) (fun _ _ _ hr => hr) fun _ _ _ hr => hr.1

theorem attempt_refreshDnsRule_traced (hC : Thread.Lasting C) {qname qtype : String}
    (hwanted : ∀ ss, C ss → Wanted lookups source ip ss (qname, qtype)) : Traced lookups source ip C
      (attempt (refreshDnsRule lookups source qname qtype : Thread Daemon PyError ω (Dict IPv4 String)))
      fun result ss => C ss ∧ ∀ labels, result = .ok labels → lookups.Labels qname labels := by
  refine Triple.conseq (Triple.attempted (refreshDnsRule_spec hC hwanted)) (fun _ hw => hw) (fun result w hw => ?_)
    fun _ _ he => he.elim
  cases result with
  | ok labels => exact ⟨hw.1, hw.2.1, fun _ hsame => Except.ok.inj hsame ▸ hw.2.2⟩
  | error e => exact ⟨hw.1, hw.2, fun _ hsame => by cases hsame⟩

/-- The answers of the workers are for the names, in whatever order they come. -/
theorem refreshDnsRules_traced (hC : Thread.Lasting C) (rules : List (String × String))
    (hwanted : ∀ rule ∈ rules, ∀ ss, C ss → Wanted lookups source ip ss rule) : Traced lookups source ip C
      (refreshDnsRules lookups source rules : Thread Daemon PyError ω (List (Dict IPv4 String)))
      fun refreshed ss => C ss ∧ ∀ labels ∈ refreshed, ∃ rule ∈ rules, lookups.Labels rule.1 labels := by
  have hworker : ∀ worker ∈ rules.zipIdx, worker.1 ∈ rules := fun worker hmem =>
    List.mem_of_getElem? (List.mem_zipIdx_iff_getElem?.1 hmem)
  -- what a worker hands over is an answer for its name, or an exception
  refine .bind (.mapM (R := fun worker result => result.1 = worker ∧ ∀ labels, result.2 = .ok labels →
    lookups.Labels worker.1.1 labels) _ fun worker hmem => ?_) fun done => .assumed fun hdone => ?_
  · have hrule := hworker worker ((lookups.finished_perm _).mem_iff.1 hmem)
    exact .bind (attempt_refreshDnsRule_traced hC (hwanted _ hrule)) fun result =>
      .pure fun ss hss => ⟨hss.1, rfl, hss.2⟩
  · refine .conseq (.mapM (R := fun worker labels => lookups.Labels worker.1.1 labels) _ fun worker _ => ?_)
      (fun _ h => h) fun refreshed ss hss => ⟨hss.1, fun labels hmem => ?_⟩
    · split
      · rename_i result hfind
        obtain ⟨worker', -, hsame, hlabels⟩ := hdone.exists_of_mem_right (List.mem_of_find?_eq_some hfind)
        have hfound := List.find?_some hfind
        obtain rfl : worker' = worker := hsame.symm.trans (of_decide_eq_true hfound)
        cases result with
        | ok labels => exact .pure fun ss hss => ⟨hss, hlabels labels rfl⟩
        | error e => exact Thread.Spec.throw fun _ _ hr => hr.1
      · exact .pure fun ss hss => ⟨hss, fun _ _ hl => by cases hl⟩
    · obtain ⟨worker, hworkers, hlabels⟩ := hss.2.exists_of_mem_right hmem
      exact ⟨worker.1, hworker worker hworkers, hlabels⟩

/-- The answer that takes the place of an expired one is for the name of that one. -/
theorem refreshStale_traced (hC : Thread.Lasting C) {staleRule : Option (String × String)}
    (hwanted : ∀ rule, staleRule = some rule → ∀ ss, C ss → Wanted lookups source ip ss rule) :
    Traced lookups source ip C
      (refreshStale lookups source staleRule : Thread Daemon PyError ω (Dict IPv4 String))
      fun labels ss => C ss ∧ ∀ label, labels.get? ip = some label →
        (∃ qtype, Wanted lookups source ip ss (label, qtype)) ∧ lookups.Gives label ip := by
  cases staleRule with
  | none => exact .pure fun ss hss => ⟨hss, fun label hl => by cases hl⟩
  | some rule =>
    refine (refreshDnsRule_traced hC (hwanted rule rfl)).conseq (fun _ h => h) ?_
    rintro labels ss ⟨hss, hlabels⟩
    refine ⟨hss, fun label hl => ?_⟩
    obtain ⟨rfl, hgives⟩ := hlabels ip label hl
    exact ⟨⟨rule.2, hwanted rule rfl ss hss⟩, hgives⟩

/-- A section has found the label in the entry of a name. -/
def Cached (source : String) (ip : IPv4) (ss : List (Daemon × Daemon)) (label : String) : Prop :=
  ∃ p ∈ ss, ∃ now qname qtype labels,
    cachedQnameLabels now source qname qtype p.1.ctx = some labels ∧ labels.get? ip = some label

theorem cachedHints_traced (staleRule : Option (String × String)) (rules : List (String × String))
    (hC : Thread.Lasting C) : Traced lookups source ip C
      (cachedHints lookups source ip staleRule rules : Thread Daemon PyError ω (List (String × String) × List String))
      fun found ss => C ss ∧ (∀ rule ∈ found.1, rule ∈ rules) ∧ ∀ label ∈ found.2, Cached source ip ss label := by
  induction rules generalizing C with
  | nil => exact .pure fun ss hss => ⟨hss, by simp, by simp⟩
  | cons rule rules ih =>
    rw [cachedHints]
    split
    · refine (ih hC).conseq (fun _ h => h) ?_
      rintro found ss ⟨hss, hrules, hcached⟩
      exact ⟨hss, fun r hr => List.mem_cons_of_mem _ (hrules r hr), hcached⟩
    · refine .bind (.read hC _) fun labels => .bind (ih (hC.and (Thread.lasting_mem _))) fun found => ?_
      cases labels with
      | none =>
        refine .pure ?_
        rintro ss ⟨⟨hss, -⟩, hrules, hcached⟩
        refine ⟨hss, fun r hr => ?_, hcached⟩
        rcases List.mem_cons.1 hr with rfl | hr
        · exact List.mem_cons_self
        · exact List.mem_cons_of_mem _ (hrules r hr)
      | some labels =>
        refine .pure ?_
        rintro ss ⟨⟨hss, p, hp, hlabels⟩, hrules, hcached⟩
        refine ⟨hss, fun r hr => List.mem_cons_of_mem _ (hrules r hr), fun label hl => ?_⟩
        rcases List.mem_append.1 hl with hnew | hold
        · exact ⟨p, hp, _, _, _, labels, hlabels, Option.mem_toList.1 hnew⟩
        · exact hcached label hold

/-- Where the name in a prompt comes from. -/
inductive Named (lookups : Lookups) (source : String) (ip : IPv4) (ss : List (Daemon × Daemon)) : String → Prop
  | lookup {label qtype : String} (hwanted : Wanted lookups source ip ss (label, qtype)) (h : lookups.Gives label ip) :
      Named lookups source ip ss ("A " ++ label)
  | cached {label : String} (h : Cached source ip ss label) : Named lookups source ip ss ("A " ++ label)
  | ptr (target : String) : Named lookups source ip ss ("PTR " ++ target)

theorem ptrName_traced {D : LazyName → List (Daemon × Daemon) → Prop} (hreject : ∀ ss, C ss → D .ptrReject ss)
    (hnone : ∀ ss, C ss → D (.found none) ss) (hptr : ∀ target ss, C ss → D (.found (some ("PTR " ++ target))) ss) :
    Traced lookups source ip C (ptrName lookups ip : Thread Daemon PyError ω LazyName) D := by
  unfold ptrName
  split
  · exact .pure hnone
  · dsimp only
    split
    · exact .bind .external fun _ => .pure hreject
    · exact .pure (hptr _)

theorem lazyDnsName_traced : Traced lookups source ip (fun _ => True)
    (lazyDnsName lookups source ip : Thread Daemon PyError ω LazyName)
    fun name ss => ∀ text, name = .found (some text) → Named lookups source ip ss text := by
  have htrue : Thread.Lasting (σ := Daemon) fun _ => True := fun _ _ h => h
  refine .bind (.read htrue _) fun staleRule => .bind (refreshStale_traced (htrue.and (Thread.lasting_mem _)) ?_)
    fun stale => ?_
  · rintro rule rfl ss ⟨-, p, hp, hstale⟩
    exact ⟨p, hp, .inr hstale⟩
  · split
    · rename_i label hlabel
      refine .pure fun ss hss text htext => ?_
      cases htext
      obtain ⟨⟨qtype, hwanted⟩, hgives⟩ := hss.2 label hlabel
      exact .lookup hwanted hgives
    · refine .bind ((Traced.read htrue _).conseq (fun _ _ => trivial) fun _ _ h => h.2) fun rules => ?_
      refine .bind (cachedHints_traced staleRule rules (Thread.lasting_mem _)) fun found => ?_
      -- what was read for the names that follow is kept while they are looked up
      refine .bind ((refreshDnsRules_traced (C := fun ss => (∀ rule ∈ found.1, Wanted lookups source ip ss rule) ∧
        ∀ label ∈ found.2, Cached source ip ss label) ?_ found.1
          fun rule hrule ss hss => hss.1 rule hrule).conseq ?_ fun _ _ h => h) fun refreshed => ?_
      · rintro ss p ⟨hwanted, hcached⟩
        exact ⟨fun rule hr => Wanted.lasting rule ss p (hwanted rule hr), fun label hl => Thread.lasting_mem _ ss p (hcached label hl)⟩
      · rintro ss ⟨⟨p, hp, hrules⟩, hsub, hcached⟩
        exact ⟨fun rule hr => ⟨p, hp, .inl (hrules ▸ hsub rule hr)⟩, hcached⟩
      · split
        · rename_i label hlabel
          refine .pure fun ss hss text htext => ?_
          cases htext
          obtain ⟨labels, hlabels, hget⟩ := List.exists_of_findSome?_eq_some hlabel
          obtain ⟨rule, hrule, hgiven⟩ := hss.2 labels hlabels
          obtain ⟨rfl, hgives⟩ := hgiven ip label hget
          exact .lookup (hss.1.1 rule hrule) hgives
        · split
          · rename_i label hlabel
            refine .pure fun ss hss text htext => ?_
            cases htext
            exact .cached (hss.1.2 label (List.mem_of_getLast? hlabel))
          · refine ptrName_traced (fun _ _ _ h => by cases h) (fun _ _ _ h => by cases h) ?_
            rintro target ss - text htext
            cases htext
            exact .ptr target

/-- The prompt that an enrichment returns has the name that it had, or one of these. -/
def Renamed (lookups : Lookups) (request : Request) (ss : List (Daemon × Daemon)) (enriched : Request) : Prop :=
  enriched = request ∨
    ∃ text, enriched = { request with host := some text } ∧ Named lookups request.source request.dst ss text

theorem Named.more {ss : List (Daemon × Daemon)} {text : String} (h : Named lookups source ip ss text)
    (p : Daemon × Daemon) : Named lookups source ip (ss ++ [p]) text := by
  cases h with
  | lookup hwanted hgives => exact .lookup (Wanted.lasting _ ss p hwanted) hgives
  | cached hcached => exact .cached (Thread.lasting_mem _ ss p hcached)
  | ptr target => exact .ptr target

theorem Renamed.more {request enriched : Request} {ss : List (Daemon × Daemon)}
    (h : Renamed lookups request ss enriched) (p : Daemon × Daemon) : Renamed lookups request (ss ++ [p]) enriched :=
  h.imp id fun ⟨text, htext, hnamed⟩ => ⟨text, htext, hnamed.more p⟩

theorem enrichPromptRequest_traced (request : Request) :
    Traced lookups request.source request.dst (fun _ => True)
      (enrichPromptRequest lookups request : Thread Daemon PyError ω (Option Request))
      fun found ss => ∀ enriched, found = some enriched → Renamed lookups request ss enriched := by
  have hsame : ∀ (ss : List (Daemon × Daemon)) enriched, some request = some enriched → Renamed lookups request ss enriched := by
    rintro ss _ ⟨⟩
    exact .inl rfl
  unfold enrichPromptRequest
  split
  · exact .pure fun ss _ => hsame ss
  · split
    · exact .pure fun ss _ => hsame ss
    · refine .bind lazyDnsName_traced fun name => ?_
      split
      · exact .pure fun _ _ _ h => by cases h
      · exact .pure fun ss _ => hsame ss
      · refine .pure fun ss hss enriched henriched => ?_
        cases henriched
        exact .inr ⟨_, rfl, hss _ rfl⟩

/-- The sections of an enrichment have their grounds, and so has the name that it gives. -/
theorem enrichRequest_traced (request : Request) :
    Traced lookups request.source request.dst (fun _ => True)
      (enrichRequest lookups request : Thread Daemon PyError ω (Option Request))
      fun found ss => ∀ enriched, found = some enriched → Renamed lookups request ss enriched := by
  unfold enrichRequest
  refine .bind (.read (fun _ _ h => h) _) fun current => ?_
  split
  · exact .pure fun _ _ _ h => by cases h
  · refine .bind ((enrichPromptRequest_traced request).conseq (fun _ _ => trivial) fun _ _ h => h) fun found => ?_
    have hlasting : Thread.Lasting fun ss => ∀ enriched, found = some enriched → Renamed lookups request ss enriched :=
      fun ss p h enriched henriched => (h enriched henriched).more p
    refine .bind (.read hlasting _) fun current => ?_
    split
    · exact .pure fun _ _ _ h => by cases h
    · exact .pure fun _ hss => hss.1

end Sections

end QubesSnitch
