import QubesSnitch.HintLifetime
import QubesSnitch.HintSections

/-!
# Where hints come from

In a history of the whole daemon the sections of enrichments lie between those of other threads, at increasing moments.
An expired response that names what is looked up was stored for a name that an allow rule named before, so an induction
over the history follows every hint back to its origin: the resolver gave it for a name in an allow rule of that very
source (`hints_vouched`).  The policy need not allow such a name: a reject rule may stand before the allow rule
(`allowedDnsHintRules_allowed_iff`).
-/

namespace QubesSnitch

/-! ### The queue -/

section Queue

variable {sv : Services} {lib : DnsPython} {config : Config} {s s' : System}

/-- A new question takes an id. -/
theorem queueQuestion_items_of_next {request : Request} {q : Queue} {key : QuestionKey} {r : Request}
    (hnext : (queueQuestion request config q).2.next = q.next)
    (h : (queueQuestion request config q).2.items.get? key = some r) : q.items.get? key = some r := by
  unfold queueQuestion at h hnext
  dsimp only at h hnext
  split at h
  · exact h
  · split at h
    · exact h
    · rename_i hkey hroom
      rw [if_neg hkey, if_neg hroom] at hnext
      exact absurd hnext (Nat.succ_ne_self _)

private theorem replaced_items {new : SourceMap} {now : Rat} {gone : List String} {d : Daemon} {key : QuestionKey}
    {request : Request} (h : (replaced new now gone d).queue.items.get? key = some request) :
    d.queue.items.get? key = some request := by
  rw [replaced, purgeAll_items] at h
  split at h
  · cases h
  · exact h

/-- A section that gives out no id leaves no other questions than there were. -/
theorem Step.items_fewer (h : SystemInvariant sv lib config s) (hstep : Step sv lib (fun _ => True) s s')
    (hnext : s'.daemon.queue.next = s.daemon.queue.next) {key : QuestionKey} {request : Request}
    (hget : s'.daemon.queue.items.get? key = some request) : s.daemon.queue.items.get? key = some request := by
  cases hstep with
  | identify parsed => rwa [System.after, identifySource_leaves h.sources h.known] at hget
  | @prompt asked hr =>
    rcases queuePrompt_leaves h.known asked with hsame | ⟨-, -, hqueue⟩
    · rwa [System.after, hsame] at hget
    · rw [System.after, hqueue] at hget hnext
      exact queueQuestion_items_of_next hnext hget
  | fetch hfetch => exact hget
  | @discard key' shown hmem =>
    have hget : (discardPendingDecision key' shown s.daemon.queue).items.get? key = some request := hget
    unfold discardPendingDecision at hget
    split at hget
    · exact Dict.get?_of_erase hget
    · exact hget
  | answer hio hmem he hp =>
    obtain ⟨hq, hprepared⟩ := (h.shown _ _ hmem).prepared he hp
    rw [System.after] at hget
    rcases saveDecision_leaves sv _ s.daemon _ hprepared with
      ⟨-, hsame⟩ | ⟨-, queue, hqueue, ⟨-, hleaves⟩ | ⟨ctx', -, hleaves⟩⟩
    · rwa [hsame] at hget
    · rw [hleaves] at hget
      exact ((answered_items hqueue key request).1 hget).1
    · rw [hleaves] at hget
      exact ((answered_items hqueue key request).1 hget).1
  | @refresh io answer new now hio hquery =>
    rw [System.after] at hget
    cases hsame : new.same s.daemon.ctx.sources with
    | true => rwa [publishSources_same sv lib io hsame] at hget
    | false =>
      obtain ⟨gone, -, hleaves⟩ := @publishSources_replaces sv lib io _ now _ hsame
      rw [hleaves] at hget
      exact replaced_items hget
  | @require io answer new now hio hquery =>
    obtain ⟨gone, hleaves⟩ := publishRequiredSources_replaces sv lib io new now s.daemon
    rw [System.after, hleaves] at hget
    exact replaced_items hget
  | hints responses qnames => exact hget

/-- A prompt that is shown was shown before, or is a question that waits. -/
theorem Step.shown_items (hstep : Step sv lib (fun _ => True) s s') {key : QuestionKey} {request : Request}
    (hmem : (key, request) ∈ s'.shown) : (key, request) ∈ s.shown ∨ ∃ pending id remaining,
      s.daemon.queue.items.get? key = some pending ∧ request = { pending with promptId := id, remaining := remaining } := by
  cases hstep with
  | @fetch key' shown hfetch =>
    rcases List.mem_cons.1 hmem with hnew | hold
    · cases hnew
      obtain ⟨id, pending, rfl, hpending, -⟩ := nextPendingRequest_shown hfetch
      exact .inr ⟨pending, _, _, hpending, rfl⟩
    · exact .inl hold
  | identify | prompt | discard | answer | refresh | require | hints => exact .inl hmem

private theorem replaced_fewer (io : Io) (new : SourceMap) (now : Rat) (gone : List String) (d : Daemon) :
    FewerHints d.ctx ((reloadPolicy sv lib io).leaves (replaced new now gone d).ctx) := by
  obtain ⟨nftText, hframe⟩ := (reloadPolicy_entered sv lib io (replaced new now gone d).ctx).frame
  have hpurge := FewerHints.purgeAll { d with ctx.lastSourceRefresh := now, ctx.sources := new } gone
  rw [hframe]
  exact ⟨hpurge.responses, hpurge.qnames⟩

/-- A refresh brings no hints. -/
theorem publishSources_fewer (io : Io) (new : SourceMap) (now : Rat) (d : Daemon) :
    FewerHints d.ctx ((publishSources sv lib io new now).leaves d).ctx := by
  cases hsame : new.same d.ctx.sources with
  | true =>
    rw [publishSources_same sv lib io hsame]
    exact .of_eq rfl rfl
  | false =>
    obtain ⟨gone, -, hleaves⟩ := @publishSources_replaces sv lib io _ now _ hsame
    rw [hleaves]
    exact replaced_fewer io new now gone d

theorem publishRequiredSources_fewer (io : Io) (new : SourceMap) (now : Rat) (d : Daemon) :
    FewerHints d.ctx ((publishRequiredSources sv lib io new now).leaves d).ctx := by
  obtain ⟨gone, hleaves⟩ := publishRequiredSources_replaces sv lib io new now d
  rw [hleaves]
  exact replaced_fewer io new now gone d

theorem publishRequiredSources_next (io : Io) (new : SourceMap) (now : Rat) (d : Daemon) :
    ((publishRequiredSources sv lib io new now).leaves d).queue.next = d.queue.next := by
  obtain ⟨gone, hleaves⟩ := publishRequiredSources_replaces sv lib io new now d
  rw [hleaves]
  exact purgeAll_next { d with ctx.lastSourceRefresh := now, ctx.sources := new } gone

end Queue

/-! ### Histories -/

/-- An enrichment of a shown prompt, in a history of the daemon. -/
structure Enrichment (H : Nat → System) where
  lookups : Lookups
  request : Request
  call : Thread.Call (fun n => (H n).daemon) (enrichRequest lookups request : Thread Daemon PyError Unit (Option Request))
  shown : ∃ key, (key, request) ∈ (H (call.moment 0)).shown

section Histories

variable (sv : Services) (lib : DnsPython) (H : Nat → System) (calls : Set (Enrichment H))

/-- What comes after the state at `n`. -/
inductive Continues (n : Nat) : Prop
  | enrichment {c : Enrichment H} (hc : c ∈ calls) {i : Nat} {p : Daemon × Daemon} (hp : c.call.sections[i]? = some p)
      (hn : c.call.moment i = n) (hshown : (H (n + 1)).shown = (H n).shown) : Continues n
  /-- The packet path looks for a hint before it prompts. -/
  | prompt {request : Request} (h : Promptable lib request)
      (hhost : request.host = none ∨
        ∃ m ≤ n, ∃ now, cachedDnsName now request.source request.dst (H m).daemon.ctx = request.host)
      (hnext : H (n + 1) = (H n).after (queuePrompt sv lib request)) : Continues n
  | refresh {io : Io} {answer : Except PyError String} {new : SourceMap} (now : Rat)
      (h : queryDom0Sources answer (H n).daemon.ctx.config = .ok new)
      (hnext : H (n + 1) = (H n).after (publishSources sv lib io new now)) : Continues n
  | require {io : Io} {answer : Except PyError String} {new : SourceMap} (now : Rat)
      (h : queryDom0Sources answer (H n).daemon.ctx.config = .ok new)
      (hnext : H (n + 1) = (H n).after (publishRequiredSources sv lib io new now)) : Continues n
  /-- What asks nothing and stores nothing. -/
  | other (h : Step sv lib (fun _ => True) (H n) (H (n + 1)))
      (hids : (H (n + 1)).daemon.queue.next = (H n).daemon.queue.next)
      (hresponses : (H (n + 1)).daemon.ctx.dnsResponseCache = (H n).daemon.ctx.dnsResponseCache)
      (hqnames : (H (n + 1)).daemon.ctx.dnsQnameCache = (H n).daemon.ctx.dnsQnameCache) : Continues n

/-- An allow rule of the source has named what was looked up. -/
def NamedBefore (n : Nat) (source : String) (rule : String × String) : Prop :=
  ∃ m < n, rule ∈ allowedDnsHintRules source (H m).daemon.ctx.rules

/-- An allow rule of the source has named it, and the resolver gave the address for it. -/
structure Vouched (n : Nat) (source name : String) (ip : IPv4) : Prop where
  named : ∃ qtype, NamedBefore H n source (name, qtype)
  given : ∃ c ∈ calls, c.call.moment 0 < n ∧ c.request.source = source ∧ c.lookups.Gives name ip

/-- Every hint is vouched for, in the caches and in the prompts that wait or were shown, and every lookup that the cache
remembers was for a name in an allow rule. -/
structure HintsVouched (n : Nat) : Prop where
  responses : ∀ source ip e, (H n).daemon.ctx.dnsResponseCache.get? (source, ip) = some e →
    Vouched H calls n source e.label ip ∧ NamedBefore H n source (e.qname, e.qtype)
  qnames : ∀ source qtype qname cached, (H n).daemon.ctx.dnsQnameCache.get? (source, qtype, qname) = some cached →
    NamedBefore H n source (qname, qtype) ∧
      ∀ ip label, cached.labels.get? ip = some label → Vouched H calls n source label ip
  prompts : ∀ key request, (H n).daemon.queue.items.get? key = some request ∨ (key, request) ∈ (H n).shown →
    ∀ name, trustedHost request.host = some name → Vouched H calls n request.source name request.dst

variable {sv lib H calls} {config : Config} {n n' : Nat}

theorem NamedBefore.mono (hle : n ≤ n') {source : String} {rule : String × String} (h : NamedBefore H n source rule) :
    NamedBefore H n' source rule := by
  obtain ⟨m, hm, hrule⟩ := h
  exact ⟨m, by omega, hrule⟩

theorem Vouched.mono (hle : n ≤ n') {source name : String} {ip : IPv4} (h : Vouched H calls n source name ip) :
    Vouched H calls n' source name ip := by
  obtain ⟨⟨qtype, hnamed⟩, c, hc, hbegun, hgiven⟩ := h
  exact ⟨⟨qtype, hnamed.mono hle⟩, c, hc, by omega, hgiven⟩

theorem trustedHost_label (label : String) : trustedHost (some ("A " ++ label)) = some label := by
  simp [trustedHost]

theorem trustedHost_ptr (target : String) : trustedHost (some ("PTR " ++ target)) = none := by
  simp [trustedHost]

/-! ### What an enrichment finds -/

section Enrichments

variable (c : Enrichment H)

theorem Enrichment.grounded :
    Thread.Grounded (Grounds c.lookups c.request.source c.request.dst) c.call.sections := by
  have htraced : Thread.Spec (fun ss _ => ss = [])
      (enrichRequest c.lookups c.request : Thread Daemon PyError Unit (Option Request))
      (fun _ ss _ => Thread.Grounded (Grounds c.lookups c.request.source c.request.dst) ss)
      fun _ ss _ => Thread.Grounded (Grounds c.lookups c.request.source c.request.dst) ss := by
    refine Thread.Spec.conseq (enrichRequest_traced c.request) ?_ (fun _ _ _ hr => hr.1) fun _ _ _ he => he
    rintro _ _ rfl
    exact ⟨.nil, trivial⟩
  exact Triple.leaves htraced c.call.fresh

variable {c}

/-- What a section of an enrichment wants has been named, as the sections before it have found. -/
theorem Wanted.namedBefore (hbefore : ∀ m < n, HintsVouched H calls m) {ss : List (Daemon × Daemon)}
    (hss : ∀ q ∈ ss, ∃ m < n, q = ((H m).daemon, (H (m + 1)).daemon)) {rule : String × String}
    (h : Wanted c.lookups c.request.source c.request.dst ss rule) : NamedBefore H n c.request.source rule := by
  obtain ⟨q, hq, hfound⟩ := h
  obtain ⟨m, hm, rfl⟩ := hss q hq
  rcases hfound with hnamed | hstale
  · exact ⟨m, hm, hnamed⟩
  · unfold staleResponseRule at hstale
    split at hstale
    · rename_i e he
      split at hstale
      · -- the name of the response was in an allow rule when it was stored
        cases hstale
        exact ((hbefore m hm).responses _ _ e he).2.mono hm.le
      · cases hstale
    · cases hstale

theorem Cached.vouched (hbefore : ∀ m < n, HintsVouched H calls m) {ss : List (Daemon × Daemon)}
    (hss : ∀ q ∈ ss, ∃ m < n, q = ((H m).daemon, (H (m + 1)).daemon)) {source label : String} {ip : IPv4}
    (h : Cached source ip ss label) : Vouched H calls n source label ip := by
  obtain ⟨q, hq, now, qname, qtype, labels, hlabels, hget⟩ := h
  obtain ⟨m, hm, rfl⟩ := hss q hq
  unfold cachedQnameLabels at hlabels
  split at hlabels
  · rename_i cached hcached
    split at hlabels
    · cases hlabels
      exact (((hbefore m hm).qnames _ _ _ cached hcached).2 ip label hget).mono hm.le
    · cases hlabels
  · cases hlabels

/-- The name that an enrichment puts into a prompt is vouched for. -/
theorem Named.vouched (hbefore : ∀ m < n, HintsVouched H calls m) {ss : List (Daemon × Daemon)}
    (hss : ∀ q ∈ ss, ∃ m < n, q = ((H m).daemon, (H (m + 1)).daemon)) (hc : c ∈ calls) (hbegun : c.call.moment 0 < n)
    {text name : String} (h : Named c.lookups c.request.source c.request.dst ss text)
    (hname : trustedHost (some text) = some name) : Vouched H calls n c.request.source name c.request.dst := by
  cases h with
  | @lookup label qtype hwanted hgives =>
    rw [trustedHost_label, Option.some.injEq] at hname
    exact hname ▸ ⟨⟨qtype, hwanted.namedBefore hbefore hss⟩, c, hc, hbegun, rfl, hgives⟩
  | @cached label hcached =>
    rw [trustedHost_label, Option.some.injEq] at hname
    exact hname ▸ hcached.vouched hbefore hss
  | ptr target =>
    rw [trustedHost_ptr] at hname
    cases hname

end Enrichments

/-! ### One step of the history -/

/-- Where no hint is stored, the hints are those from before. -/
theorem HintsVouched.fewer (h : HintsVouched H calls n)
    (hfewer : FewerHints (H n).daemon.ctx (H (n + 1)).daemon.ctx)
    (hprompts : ∀ key request, (H (n + 1)).daemon.queue.items.get? key = some request ∨ (key, request) ∈ (H (n + 1)).shown →
      ∀ name, trustedHost request.host = some name → Vouched H calls n request.source name request.dst) :
    HintsVouched H calls (n + 1) := by
  refine ⟨fun source ip e he => ?_, fun source qtype qname cached' hcached' => ?_, fun key request hr name hname => ?_⟩
  · obtain ⟨hvouched, hnamed⟩ := h.responses source ip e (hfewer.responses _ e he)
    exact ⟨hvouched.mono (Nat.le_succ n), hnamed.mono (Nat.le_succ n)⟩
  · obtain ⟨cached, hcached, hlabels⟩ := hfewer.qnames _ cached' hcached'
    obtain ⟨hnamed, hvouched⟩ := h.qnames source qtype qname cached hcached
    exact ⟨hnamed.mono (Nat.le_succ n), fun ip label hl => (hvouched ip label (hlabels ip label hl)).mono (Nat.le_succ n)⟩
  · exact (hprompts key request hr name hname).mono (Nat.le_succ n)

/-- A stored answer is that of the resolver for a name in an allow rule. -/
theorem HintsVouched.store (h : HintsVouched H calls n) {c : Enrichment H} (hc : c ∈ calls) (hbegun : c.call.moment 0 ≤ n)
    {qname qtype : String} {labels : Dict IPv4 String} {clock : StoreClock} {ttl : Rat}
    (hnamed : NamedBefore H n c.request.source (qname, qtype)) (hlabels : c.lookups.Labels qname labels)
    (hnext : H (n + 1) = { (H n) with
      daemon.ctx := storeDnsLabels c.lookups.limits clock c.request.source qname qtype labels ttl (H n).daemon.ctx }) :
    HintsVouched H calls (n + 1) := by
  have hnamed := hnamed.mono (Nat.le_succ n)
  have hgiven : ∀ ip label, labels.get? ip = some label → Vouched H calls (n + 1) c.request.source label ip := by
    intro ip label hl
    obtain ⟨rfl, hgives⟩ := hlabels ip label hl
    exact ⟨⟨qtype, hnamed⟩, c, hc, by omega, rfl, hgives⟩
  refine ⟨fun source ip e he => ?_, fun source qtype' qname' cached' hcached' => ?_, fun key request hr name hname => ?_⟩
  · rw [hnext] at he
    rcases storeDnsLabels_response he with hold | ⟨rfl, hl, rfl, rfl⟩
    · obtain ⟨hvouched, hnamed⟩ := h.responses source ip e hold
      exact ⟨hvouched.mono (Nat.le_succ n), hnamed.mono (Nat.le_succ n)⟩
    · exact ⟨hgiven ip e.label hl, hnamed⟩
  · rw [hnext] at hcached'
    rcases storeDnsLabels_labels hcached' with ⟨hkey, hnew⟩ | ⟨cached, hcached, hold⟩
    · cases hkey
      exact ⟨hnamed, fun ip label hl => hgiven ip label (hnew ip label hl)⟩
    · obtain ⟨hnamed, hvouched⟩ := h.qnames source qtype' qname' cached hcached
      exact ⟨hnamed.mono (Nat.le_succ n), fun ip label hl => (hvouched ip label (hold ip label hl)).mono (Nat.le_succ n)⟩
  · rw [hnext] at hr
    exact (h.prompts key request hr name hname).mono (Nat.le_succ n)

/-- A section of an enrichment changes nothing, or stores an answer for what the sections before it want. -/
theorem Enrichment.section_cases (c : Enrichment H) {i : Nat} {p : Daemon × Daemon} (hp : c.call.sections[i]? = some p)
    (hn : c.call.moment i = n) (hshown : (H (n + 1)).shown = (H n).shown) :
    H (n + 1) = H n ∨ ∃ ss qname qtype labels clock ttl, (∀ q ∈ ss, ∃ m < n, q = ((H m).daemon, (H (m + 1)).daemon)) ∧
      Wanted c.lookups c.request.source c.request.dst ss (qname, qtype) ∧ c.lookups.Labels qname labels ∧
      H (n + 1) = { (H n) with
        daemon.ctx := storeDnsLabels c.lookups.limits clock c.request.source qname qtype labels ttl (H n).daemon.ctx } := by
  subst hn
  have hplace := c.call.takesPlace i p hp
  have hnext : H (c.call.moment i + 1) = ⟨p.2, (H (c.call.moment i)).shown⟩ := by
    rw [hplace, ← hshown]
  have hfound : p.1 = (H (c.call.moment i)).daemon := by rw [hplace]
  cases c.grounded.ground hp with
  | read h =>
    refine .inl ?_
    rw [hnext, h, hfound]
  | @store qname qtype labels clock ttl hwanted hlabels h =>
    refine .inr ⟨_, qname, qtype, labels, clock, ttl, fun q hq => ?_, hwanted, hlabels, ?_⟩
    · obtain ⟨m, -, hm, heq⟩ := c.call.earlier hq
      exact ⟨m, hm, heq⟩
    · rw [hnext, h, hfound]

theorem Continues.step (h : Continues sv lib H calls n) : Step sv lib (fun _ => True) (H n) (H (n + 1)) := by
  have hcaches : ∀ ctx : Runtime, CachesOnly (H n).daemon.ctx ctx →
      Step sv lib (fun _ => True) (H n) { (H n) with daemon.ctx := ctx } := by
    intro ctx hctx
    rw [hctx]
    exact .hints ctx.dnsResponseCache ctx.dnsQnameCache
  cases h with
  | @enrichment c hc i p hp hn hshown =>
    rcases c.section_cases hp hn hshown with hsame | ⟨ss, qname, qtype, labels, clock, ttl, -, -, -, hnext⟩
    · rw [hsame]
      exact hcaches (H n).daemon.ctx rfl
    · rw [hnext]
      exact hcaches _ storeDnsLabels_cachesOnly
  | prompt hr hhost hnext => exact hnext ▸ .prompt hr
  | refresh now hquery hnext => exact hnext ▸ .refresh now trivial hquery
  | require now hquery hnext => exact hnext ▸ .require now trivial hquery
  | other hstep => exact hstep

/-- Where nothing is asked, the prompts are questions from before. -/
theorem HintsVouched.prompts_of_step (h : HintsVouched H calls n) (hinv : SystemInvariant sv lib config (H n))
    (hstep : Step sv lib (fun _ => True) (H n) (H (n + 1)))
    (hids : (H (n + 1)).daemon.queue.next = (H n).daemon.queue.next) (key : QuestionKey) (request : Request)
    (hr : (H (n + 1)).daemon.queue.items.get? key = some request ∨ (key, request) ∈ (H (n + 1)).shown)
    (name : String) (hname : trustedHost request.host = some name) :
    Vouched H calls n request.source name request.dst := by
  rcases hr with hget | hmem
  · exact h.prompts key request (.inl (hstep.items_fewer hinv hids hget)) name hname
  · rcases hstep.shown_items hmem with hold | ⟨pending, id, remaining, hpending, rfl⟩
    · exact h.prompts key request (.inr hold) name hname
    · exact h.prompts key pending (.inl hpending) name hname

/-- A hint of the packet path is a response of the cache. -/
theorem HintsVouched.cachedDnsName (h : HintsVouched H calls n) {now : Rat} {source : String} {ip : IPv4}
    {host : Option String} (hhost : cachedDnsName now source ip (H n).daemon.ctx = host) {name : String}
    (hname : trustedHost host = some name) : Vouched H calls n source name ip := by
  unfold QubesSnitch.cachedDnsName at hhost
  split at hhost
  · rename_i e he
    split at hhost
    · subst hhost
      rw [trustedHost_label, Option.some.injEq] at hname
      exact hname ▸ (h.responses source ip e he).1
    · subst hhost
      cases hname
  · subst hhost
    cases hname

theorem HintsVouched.step (hinv : SystemInvariant sv lib config (H n)) (hbefore : ∀ m ≤ n, HintsVouched H calls m)
    (h : Continues sv lib H calls n) : HintsVouched H calls (n + 1) := by
  have hn := hbefore n (Nat.le_refl n)
  have hstep := h.step
  cases h with
  | @enrichment c hc i p hp hmoment hshown =>
    rcases c.section_cases hp hmoment hshown with hsame | ⟨ss, qname, qtype, labels, clock, ttl, hss, hwanted, hlabels, hnext⟩
    · exact hn.fewer (by rw [hsame]; exact .of_eq rfl rfl) (by rw [hsame]; exact hn.prompts)
    · have hbegun : c.call.moment 0 ≤ n := hmoment ▸ c.call.ordered.monotone (Nat.zero_le i)
      exact hn.store hc hbegun (hwanted.namedBefore (fun m hm => hbefore m hm.le) hss) hlabels hnext
  | @prompt request hr hhost hnext =>
    have hleaves := @queuePrompt_leaves sv lib _ hinv.known request
    have hctx : (H (n + 1)).daemon.ctx = (H n).daemon.ctx := by
      rw [hnext, System.after]
      rcases hleaves with hsame | ⟨-, -, hqueue⟩
      · rw [hsame]
      · rw [hqueue]
    refine hn.fewer (.of_eq (by rw [hctx]) (by rw [hctx])) fun key asked hasked name hname => ?_
    rw [hnext, System.after] at hasked
    rcases hasked with hget | hmem
    · rcases hleaves with hsame | ⟨-, -, hqueue⟩
      · rw [hsame] at hget
        exact hn.prompts key asked (.inl hget) name hname
      · rw [hqueue] at hget
        rcases queueQuestion_items hget with hold | ⟨rfl, -⟩
        · exact hn.prompts key asked (.inl hold) name hname
        · -- the new prompt has the hint that the packet path found
          rcases hhost with hnone | ⟨m, hm, now, hcached⟩
          · have hname : trustedHost request.host = some name := hname
            rw [hnone] at hname
            cases hname
          · exact ((hbefore m hm).cachedDnsName hcached hname).mono hm
    · exact hn.prompts key asked (.inr hmem) name hname
  | @refresh io answer new now hquery hnext =>
    have hids : (H (n + 1)).daemon.queue.next = (H n).daemon.queue.next := by
      rw [hnext]
      exact @publishSources_next sv lib new now (H n).daemon io
    exact hn.fewer (by rw [hnext]; exact publishSources_fewer io new now (H n).daemon) (hn.prompts_of_step hinv hstep hids)
  | @require io answer new now hquery hnext =>
    have hids : (H (n + 1)).daemon.queue.next = (H n).daemon.queue.next := by
      rw [hnext]
      exact publishRequiredSources_next io new now (H n).daemon
    exact hn.fewer (by rw [hnext]; exact publishRequiredSources_fewer io new now (H n).daemon)
      (hn.prompts_of_step hinv hstep hids)
  | other _ hids hresponses hqnames => exact hn.fewer (.of_eq hresponses hqnames) (hn.prompts_of_step hinv hstep hids)

/-! ### The whole history -/

/-- The caches of a daemon that has just started are empty. -/
theorem HintsVouched.start {dir : RulesDir} {ctx : Runtime} {io : Io}
    (hload : (loadPolicyWithoutSources sv lib io config).run (Runtime.initial dir) = .ok () ctx)
    (hstart : H 0 = System.start ctx) : HintsVouched H calls 0 := by
  obtain ⟨hresponses, hqnames⟩ := loadPolicy_hints hload
  refine ⟨fun source ip e he => ?_, fun source qtype qname cached hcached => ?_, fun key request hr => ?_⟩
  · rw [hstart] at he
    have he : ctx.dnsResponseCache.get? (source, ip) = some e := he
    rw [hresponses] at he
    cases he
  · rw [hstart] at hcached
    have hcached : ctx.dnsQnameCache.get? (source, qtype, qname) = some cached := hcached
    rw [hqnames] at hcached
    cases hcached
  · rw [hstart] at hr
    rcases hr with hget | hmem
    · cases hget
    · cases hmem

/-- Every hint is vouched for at every moment; a step may go back to any moment before it. -/
theorem HintsVouched.run {dir : RulesDir} {ctx : Runtime} {io : Io}
    (hload : (loadPolicyWithoutSources sv lib io config).run (Runtime.initial dir) = .ok () ctx)
    (hstart : H 0 = System.start ctx) (hruns : ∀ n, Continues sv lib H calls n) (n : Nat) :
    ∀ m ≤ n, HintsVouched H calls m := by
  have hinv : ∀ n, SystemInvariant sv lib config (H n) := by
    intro n
    induction n with
    | zero => exact hstart ▸ invariant_start hload
    | succ n ih => exact ih.step (hruns n).step
  induction n with
  | zero =>
    intro m hm
    obtain rfl : m = 0 := by omega
    exact .start hload hstart
  | succ n ih =>
    intro m hm
    by_cases hlast : m = n + 1
    · exact hlast ▸ .step (hinv n) ih (hruns n)
    · exact ih m (by omega)

/-- In every history of the daemon each hint is one that the resolver gave for a name which an allow rule of that source
named before: in the caches, in the prompts that wait or were shown, and in what an enrichment makes of them. -/
theorem hints_vouched {dir : RulesDir} {ctx : Runtime} {io : Io}
    (hload : (loadPolicyWithoutSources sv lib io config).run (Runtime.initial dir) = .ok () ctx)
    (hstart : H 0 = System.start ctx) (hruns : ∀ n, Continues sv lib H calls n) (n : Nat) :
    HintsVouched H calls n ∧ ∀ c ∈ calls, ∀ enriched w,
      (enrichRequest c.lookups c.request : Thread Daemon PyError Unit _).run c.call.world = .ok (some enriched) w →
      c.call.moment (c.call.sections.length - 1) < n →
      ∀ name, trustedHost enriched.host = some name → Vouched H calls n c.request.source name c.request.dst := by
  have hvouched := HintsVouched.run hload hstart hruns
  refine ⟨hvouched n n (Nat.le_refl n), fun c hc enriched w hrun hend name hname => ?_⟩
  have hbegun : c.call.moment 0 < n := lt_of_le_of_lt (c.call.ordered.monotone (Nat.zero_le _)) hend
  have hrenamed := Triple.of_ok (@enrichRequest_traced Unit c.lookups c.request)
    (by rw [c.call.fresh]; exact ⟨.nil, trivial⟩) hrun
  have hss : ∀ q ∈ w.sections, ∃ m < n, q = ((H m).daemon, (H (m + 1)).daemon) := by
    intro q hq
    have hsections : c.call.sections = w.sections := by rw [Thread.Call.sections, EStateM.leaves_of_ok hrun]
    rw [← hsections] at hq
    obtain ⟨j, hj⟩ := List.mem_iff_getElem?.1 hq
    obtain ⟨hlt, -⟩ := List.getElem?_eq_some_iff.1 hj
    exact ⟨c.call.moment j, lt_of_le_of_lt (c.call.ordered.monotone (by omega)) hend, c.call.takesPlace j q hj⟩
  rcases hrenamed.2 enriched rfl with rfl | ⟨text, rfl, hnamed⟩
  · obtain ⟨key, hkey⟩ := c.shown
    exact ((hvouched _ _ (Nat.le_refl _)).prompts key c.request (.inr hkey) name hname).mono hbegun.le
  · exact hnamed.vouched (fun m hm => hvouched n m hm.le) hss hc hbegun hname

end Histories

/-! ### A sample history -/

namespace Sample

def allowed : DnsRule := ⟨"www.example.com", "A", .allow⟩

def allowing : RulesDir := ⟨[("work", .yaml (.map (⟨[], [allowed]⟩ : RuleFile).dump))], by simp⟩

def allowingRules : Rules := ⟨[("work", ⟨[], [allowed]⟩)], by simp⟩

theorem loadRules_allowing : loadRules .empty dnspython works.resolver allowing Sample.config.defaultDisposableVmName =
    .ok allowingRules := by
  have hfile : loadRuleFile .empty dnspython Sample.config.defaultDisposableVmName
      ("work", .yaml (.map (⟨[], [allowed]⟩ : RuleFile).dump)) = .ok ("work", ⟨[], [allowed]⟩) := rfl
  simp [loadRules, allowing, hfile, resolveDestDnsNames, qnamePaths, bind, Except.bind, pure, Except.pure, runtimeRules,
    Dict.empty]
  rfl

/-- The daemon starts with a name that is allowed. -/
def allowingLoaded : Runtime := { Runtime.initial allowing with config := Sample.config, rules := allowingRules }

theorem load_allowing : (loadPolicyWithoutSources .empty dnspython works Sample.config).run (Runtime.initial allowing) =
    .ok () allowingLoaded := loadPolicy_ok loadRules_allowing

def allowingMapped : System := (System.start allowingLoaded).after (publishRequiredSources .empty dnspython works oneVm 0)

def allowingAsked : System := allowingMapped.after (queuePrompt .empty dnspython request)

def allowingFetched : System := { allowingAsked with shown := [(questionKey request, prompted)] }

theorem allowingFetched_next : nextPendingRequest allowingAsked.daemon.queue = .ok (some (questionKey request, prompted)) := rfl

def lookups : Lookups where
  limits := ⟨1, 1⟩
  staleNow := 0
  cachedNow := fun _ => 0
  storeClock := fun _ => ⟨0, 0, 0, 0, 0⟩
  addresses := fun name => if name = "www.example.com" then some ([server], 60) else none
  targets := fun _ => none
  finished := id
  finished_perm := fun _ => .refl _

def lookedUp : System := { allowingFetched with
  daemon.ctx := storeDnsLabels ⟨1, 1⟩ ⟨0, 0, 0, 0, 0⟩ "work" "www.example.com" "A" (.ofList [(server, "www.example.com")]) 60
    allowingFetched.daemon.ctx }

def world : World Daemon PyError Unit where
  shared := allowingFetched.daemon
  others := fun _ d => d
  faults := fun _ => none

/-- The name is stored in the fifth section. -/
def lookupSections : List (Daemon × Daemon) :=
  List.replicate 4 (allowingFetched.daemon, allowingFetched.daemon) ++
    [(allowingFetched.daemon, lookedUp.daemon), (lookedUp.daemon, lookedUp.daemon)]

theorem run_lookup : (enrichRequest lookups prompted : Thread Daemon PyError Unit _).run world =
   .ok (some { prompted with host := "A www.example.com" }) { world with
     shared := lookedUp.daemon
     accesses := 6
     sections := lookupSections } := rfl

/-- The daemon prompts, and nothing else happens while it looks for a name. -/
def history : Nat → System
  | 0 => System.start allowingLoaded
  | 1 => allowingMapped
  | 2 => allowingAsked
  | 3 | 4 | 5 | 6 | 7 => allowingFetched
  | _ => lookedUp

def naming : Enrichment history where
  lookups := lookups
  request := prompted
  call :=
    { world
      fresh := rfl
      moment := fun i => i + 3
      ordered := fun _ _ h => Nat.add_lt_add_right h 3
      takesPlace := by
        intro i p hp
        rw [EStateM.leaves_of_ok run_lookup] at hp
        rcases i with _ | _ | _ | _ | _ | _ | i
        iterate 6 exact (Option.some.inj hp).symm
        cases hp }
  shown := ⟨questionKey request, List.mem_singleton.2 rfl⟩

theorem naming_sections : naming.call.sections = lookupSections := by
  show ((enrichRequest lookups prompted : Thread Daemon PyError Unit _).leaves world).sections = _
  rw [EStateM.leaves_of_ok run_lookup]

theorem history_continues (n : Nat) : Continues .empty dnspython history {naming} n := by
  have hsection : ∀ i p, lookupSections[i]? = some p → (history (i + 3 + 1)).shown = (history (i + 3)).shown →
      Continues .empty dnspython history {naming} (i + 3) := fun i p hp hshown =>
    .enrichment rfl (naming_sections ▸ hp) rfl hshown
  rcases n with _ | _ | _ | _ | _ | _ | _ | _ | _ | n
  · exact .require 0 query_oneVm rfl
  · exact .prompt ⟨built dnspython, fun _ => rfl⟩ (.inl rfl) rfl
  · exact .other (.fetch allowingFetched_next) rfl rfl rfl
  · exact hsection 0 _ rfl rfl
  · exact hsection 1 _ rfl rfl
  · exact hsection 2 _ rfl rfl
  · exact hsection 3 _ rfl rfl
  · exact hsection 4 _ rfl rfl
  · exact hsection 5 _ rfl rfl
  · exact .other (.hints lookedUp.daemon.ctx.dnsResponseCache lookedUp.daemon.ctx.dnsQnameCache) rfl rfl rfl

/-- What the prompt shows in the end is vouched for. -/
theorem hints_vouched_looked_up : Vouched history {naming} 9 "work" "www.example.com" server :=
  (hints_vouched load_allowing rfl history_continues 9).2 naming rfl { prompted with host := "A www.example.com" } _
    run_lookup (by rw [naming_sections]; decide) "www.example.com" (by decide)

end Sample

end QubesSnitch
