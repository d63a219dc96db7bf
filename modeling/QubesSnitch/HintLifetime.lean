import QubesSnitch.DaemonRuns
import QubesSnitch.Enrichment
import QubesSnitch.Refreshes

/-!
# How long hints live

The CLI thread looks names up without a lock and stores the answers later, for the source of the prompt that it
enriches.  A refresh deletes the hints of a disposable that is gone or has other addresses than before, but an answer
that is stored after it comes back under the old name.

The entry of a name in the map has a `generation` here, which every change of the entry advances, and a prompt is
`born` in the generation of its source.  As long as answers are stored in the lifetime of their prompts
(`InLifetime`), every hint of a numbered disposable is one of its current generation (`hints_current`).
-/

namespace QubesSnitch

/-- A daemon that enriches prompts. -/
structure HintSystem where
  system : System
  /-- How often the entry of a name in the map has changed. -/
  generation : String → Nat
  /-- The generation of its source when a prompt got its id. -/
  born : Nat → Nat
  /-- The prompts whose source was current when their enrichment began. -/
  checked : List (QuestionKey × Request)
  /-- The generation of the prompt for which a response was stored. -/
  responses : String × IPv4 → Nat
  /-- The generation of the prompt for which a name was stored. -/
  qnames : String × String × String → Nat

namespace HintSystem

def start (system : System) : HintSystem := ⟨system, fun _ => 0, fun _ => 0, [], fun _ => 0, fun _ => 0⟩

/-- A map is published. -/
def refresh (sv : Services) (lib : DnsPython) (io : Io) (new : SourceMap) (now : Rat) (s : HintSystem) : HintSystem :=
  let system := s.system.after (publishSources sv lib io new now)
  { s with
    system
    generation := fun name =>
      if system.daemon.ctx.sources.byName.get? name = s.system.daemon.ctx.sources.byName.get? name then s.generation name
      else s.generation name + 1 }

/-- An answer is stored for a prompt. -/
def store (limits : DnsCacheLimits) (clock : StoreClock) (source : String) (id : Nat) (qname qtype : String)
    (labels : Dict IPv4 String) (ttl : Rat) (s : HintSystem) : HintSystem :=
  { s with
    system.daemon.ctx := storeDnsLabels limits clock source qname qtype labels ttl s.system.daemon.ctx
    responses := fun key => if key.1 = source ∧ key.2 ∈ labels.keys then s.born id else s.responses key
    qnames := Function.update s.qnames (source, qtype, qname) (s.born id) }

/-- A prompt of a numbered disposable that was born in its current generation. -/
def InLifetime (s : HintSystem) (request : Request) (id : Nat) : Prop :=
  isNumberedDispvm request.source → s.born id = s.generation request.source

/-- Every hint of a numbered disposable belongs to one that is running, and was stored for a prompt of its current
generation. -/
structure HintsCurrent (s : HintSystem) : Prop where
  responses : ∀ key ∈ s.system.daemon.ctx.dnsResponseCache.keys, isNumberedDispvm key.1 →
    key.1 ∈ s.system.daemon.ctx.sources.byName.keys ∧ s.responses key = s.generation key.1
  qnames : ∀ key ∈ s.system.daemon.ctx.dnsQnameCache.keys, isNumberedDispvm key.1 →
    key.1 ∈ s.system.daemon.ctx.sources.byName.keys ∧ s.qnames key = s.generation key.1

end HintSystem

section Steps

variable (sv : Services) (lib : DnsPython)

/-- A section, or the storing of an answer where it is `allowed`. -/
inductive HintStep (allowed : HintSystem → Request → Nat → Prop) (s : HintSystem) : HintSystem → Prop
  | prompt {request : Request} (h : Promptable lib request) : HintStep allowed s { s with
      system := s.system.after (queuePrompt sv lib request)
      born := Function.update s.born s.system.daemon.queue.next (s.generation request.source) }
  | refresh {io : Io} {answer : Except PyError String} {new : SourceMap} (now : Rat)
      (h : queryDom0Sources answer s.system.daemon.ctx.config = .ok new) :
      HintStep allowed s (s.refresh sv lib io new now)
  | check {key : QuestionKey} {request : Request} (h : (key, request) ∈ s.system.shown)
      (hc : promptSourceCurrent s.system.daemon.ctx.sources request) :
      HintStep allowed s { s with checked := (key, request) :: s.checked }
  | store {key : QuestionKey} {request : Request} {id : Nat} (limits : DnsCacheLimits) (clock : StoreClock)
      (qname qtype : String) (labels : Dict IPv4 String) (ttl : Rat) (h : (key, request) ∈ s.checked)
      (hid : request.promptId = some id) (ha : allowed s request id) :
      HintStep allowed s (s.store limits clock request.source id qname qtype labels ttl)
  /-- What asks nothing, publishes nothing and stores nothing. -/
  | other {system : System} (h : Step sv lib (fun _ => True) s.system system)
      (hnext : system.daemon.queue.next = s.system.daemon.queue.next)
      (hsources : system.daemon.ctx.sources = s.system.daemon.ctx.sources)
      (hresponses : system.daemon.ctx.dnsResponseCache = s.system.daemon.ctx.dnsResponseCache)
      (hqnames : system.daemon.ctx.dnsQnameCache = s.system.daemon.ctx.dnsQnameCache) :
      HintStep allowed s { s with system }

abbrev HintRun (allowed : HintSystem → Request → Nat → Prop) : HintSystem → HintSystem → Prop :=
  Relation.ReflTransGen (HintStep sv lib allowed)

end Steps

variable {sv : Services} {lib : DnsPython} {config : Config}

/-! ### Prompt ids -/

section Ids

variable {s s' : System}

/-- A section that gives out no id leaves no other ids than there were. -/
theorem Step.ids_fewer (h : SystemInvariant sv lib config s) (hstep : Step sv lib (fun _ => True) s s')
    (hnext : s'.daemon.queue.next = s.daemon.queue.next) {key : QuestionKey} {id : Nat}
    (hid : s'.daemon.queue.ids.get? key = some id) : s.daemon.queue.ids.get? key = some id := by
  cases hstep with
  | identify parsed =>
    rwa [System.after, identifySource_leaves h.sources h.known] at hid
  | @prompt request hr =>
    rcases queuePrompt_leaves h.known request with hsame | ⟨-, -, hqueue⟩
    · rwa [System.after, hsame] at hid
    · rw [System.after, hqueue] at hid hnext
      -- a new question would have taken the next id
      rcases queueQuestion_ids hid with hold | ⟨-, -, hgiven⟩
      · exact hold
      · exact absurd (hgiven.symm.trans hnext) (Nat.succ_ne_self _)
  | fetch hfetch => exact hid
  | @discard key' request hmem =>
    have hid : (discardPendingDecision key' request s.daemon.queue).ids.get? key = some id := hid
    unfold discardPendingDecision at hid
    split at hid
    · exact Dict.get?_of_erase hid
    · exact hid
  | answer hio hmem he hp =>
    obtain ⟨hq, hprepared⟩ := (h.shown _ _ hmem).prepared he hp
    have hfewer : ∀ {queue : Queue} {key' : QuestionKey} {prepared : Request} {decision : Decision},
        removePendingHostnameSet prepared decision (s.daemon.queue.drop key') = .ok queue →
        queue.ids.get? key = some id → s.daemon.queue.ids.get? key = some id := by
      intro queue key' prepared decision hqueue hget
      obtain ⟨keys, rfl⟩ := removePendingHostnameSet_ok hqueue
      exact Dict.get?_of_erase (TicketQueue.ids_of_dropAll hget)
    rw [System.after] at hid
    rcases saveDecision_leaves sv _ s.daemon _ hprepared with
      ⟨-, hsame⟩ | ⟨-, queue, hqueue, ⟨-, hleaves⟩ | ⟨ctx', -, hleaves⟩⟩
    · rwa [hsame] at hid
    · rw [hleaves] at hid
      exact hfewer hqueue hid
    · rw [hleaves] at hid
      exact hfewer hqueue hid
  | @refresh io answer new now hio hquery =>
    rw [System.after] at hid
    cases hsame : new.same s.daemon.ctx.sources with
    | true => rwa [publishSources_same sv lib io hsame] at hid
    | false =>
      obtain ⟨gone, -, hleaves⟩ := @publishSources_replaces sv lib io _ now _ hsame
      rw [hleaves] at hid
      exact purgeAll_ids { s.daemon with ctx.lastSourceRefresh := now, ctx.sources := new } gone hid
  | @require io answer new now hio hquery =>
    obtain ⟨gone, hleaves⟩ := publishRequiredSources_replaces sv lib io new now s.daemon
    rw [System.after, hleaves] at hid
    exact purgeAll_ids { s.daemon with ctx.lastSourceRefresh := now, ctx.sources := new } gone hid
  | hints responses qnames => exact hid

theorem Step.shown_more (hstep : Step sv lib (fun _ => True) s s') {p : QuestionKey × Request} (hp : p ∈ s.shown) :
    p ∈ s'.shown := by
  cases hstep with
  | fetch hfetch => exact List.mem_cons_of_mem _ hp
  | identify | prompt | discard | answer | refresh | require | hints => exact hp

/-- A prompt that is shown has the id of the question that waits. -/
theorem Step.shown_ids (hstep : Step sv lib (fun _ => True) s s') {key : QuestionKey} {request : Request}
    (hmem : (key, request) ∈ s'.shown) : (key, request) ∈ s.shown ∨
      ∃ id, request.promptId = some id ∧ s.daemon.queue.ids.get? key = some id := by
  cases hstep with
  | @fetch key' shown hfetch =>
    rcases List.mem_cons.1 hmem with hnew | hold
    · cases hnew
      obtain ⟨id, pending, rfl, -, hid⟩ := nextPendingRequest_shown hfetch
      exact .inr ⟨id, rfl, hid⟩
    · exact .inl hold
  | identify | prompt | discard | answer | refresh | require | hints => exact .inl hmem

end Ids

/-! ### The invariant -/

theorem publishSources_next (new : SourceMap) (now : Rat) (d : Daemon) {io : Io} :
    ((publishSources sv lib io new now).leaves d).queue.next = d.queue.next := by
  cases hsame : new.same d.ctx.sources with
  | true => rw [publishSources_same sv lib io hsame]
  | false =>
    obtain ⟨gone, -, hleaves⟩ := @publishSources_replaces sv lib io _ now _ hsame
    rw [hleaves]
    exact purgeAll_next { d with ctx.lastSourceRefresh := now, ctx.sources := new } gone

/-- A refresh leaves the hints of the sources with the same entry as before, and of known disposables no other. -/
private theorem publishSources_hints {new : SourceMap} {now : Rat} {d : Daemon} {io : Io}
    (hknown : ∀ s ∈ d.ctx.sources.byName.keys, s ∈ d.ctx.rules.keys) :
    (∀ key ∈ ((publishSources sv lib io new now).leaves d).ctx.dnsResponseCache.keys,
      key ∈ d.ctx.dnsResponseCache.keys ∧ (isNumberedDispvm key.1 → key.1 ∈ d.ctx.sources.byName.keys →
        ((publishSources sv lib io new now).leaves d).ctx.sources.byName.get? key.1 = d.ctx.sources.byName.get? key.1)) ∧
    ∀ key ∈ ((publishSources sv lib io new now).leaves d).ctx.dnsQnameCache.keys,
      key ∈ d.ctx.dnsQnameCache.keys ∧ (isNumberedDispvm key.1 → key.1 ∈ d.ctx.sources.byName.keys →
        ((publishSources sv lib io new now).leaves d).ctx.sources.byName.get? key.1 =
          d.ctx.sources.byName.get? key.1) := by
  have hmap := (publishSources_map sv lib io new now d).2
  cases hsame : new.same d.ctx.sources with
  | true =>
    rw [publishSources_same sv lib io hsame]
    exact ⟨fun key hkey => ⟨hkey, fun _ _ => rfl⟩, fun key hkey => ⟨hkey, fun _ _ => rfl⟩⟩
  | false =>
    rw [hsame, if_neg Bool.false_ne_true] at hmap
    rw [hmap]
    obtain ⟨gone, hgone, hleaves⟩ := @publishSources_replaces sv lib io _ now _ hsame
    obtain ⟨nftText, hframe⟩ := (reloadPolicy_entered sv lib io (replaced new now gone d).ctx).frame
    have hentry : ∀ source, source ∉ gone → isNumberedDispvm source → source ∈ d.ctx.sources.byName.keys →
        new.byName.get? source = d.ctx.sources.byName.get? source := by
      intro source hkept hnumbered hold
      by_contra hne
      have hdiscarded : Discarded d.ctx.sources.byName new.byName source := ⟨hnumbered, hold, hne⟩
      exact hkept ((hgone source).2 (hdiscarded.taken (hknown source hold)))
    rw [hleaves, hframe]
    constructor
    · intro key hkey
      obtain ⟨hold, hkept⟩ := (purgeAll_responses { d with ctx.lastSourceRefresh := now, ctx.sources := new } gone key).1 hkey
      exact ⟨hold, hentry key.1 hkept⟩
    · intro key hkey
      obtain ⟨hold, hkept⟩ := (purgeAll_qnames { d with ctx.lastSourceRefresh := now, ctx.sources := new } gone key).1 hkey
      exact ⟨hold, hentry key.1 hkept⟩

namespace HintSystem

/-- A generation of a name that is over, or the current one of a name in the map. -/
def Lived (s : HintSystem) (source : String) (generation : Nat) : Prop :=
  generation < s.generation source ∨
    generation = s.generation source ∧ source ∈ s.system.daemon.ctx.sources.byName.keys

structure HintInvariant (sv : Services) (lib : DnsPython) (config : Config) (s : HintSystem) : Prop
    extends SystemInvariant sv lib config s.system where
  queued : ∀ key id, s.system.daemon.queue.ids.get? key = some id →
    id < s.system.daemon.queue.next ∧ s.Lived key.source (s.born id)
  prompts : ∀ key request, (key, request) ∈ s.system.shown →
    ∃ id, request.promptId = some id ∧ id < s.system.daemon.queue.next ∧ s.Lived request.source (s.born id)
  begun : ∀ p ∈ s.checked, p ∈ s.system.shown
  current : s.HintsCurrent

section Refresh

variable {io : Io} {new : SourceMap} {now : Rat} {s : HintSystem}

theorem generation_refresh_of_same {source : String}
    (h : (s.refresh sv lib io new now).system.daemon.ctx.sources.byName.get? source =
      s.system.daemon.ctx.sources.byName.get? source) :
    (s.refresh sv lib io new now).generation source = s.generation source := if_pos h

theorem generation_refresh_of_changed {source : String}
    (h : (s.refresh sv lib io new now).system.daemon.ctx.sources.byName.get? source ≠
      s.system.daemon.ctx.sources.byName.get? source) :
    (s.refresh sv lib io new now).generation source = s.generation source + 1 := if_neg h

/-- What a change of the entry ends is over. -/
theorem Lived.refresh {source : String} {generation : Nat} (h : s.Lived source generation) :
    (s.refresh sv lib io new now).Lived source generation := by
  by_cases hentry : (s.refresh sv lib io new now).system.daemon.ctx.sources.byName.get? source =
      s.system.daemon.ctx.sources.byName.get? source
  · rw [Lived, generation_refresh_of_same hentry]
    rcases h with hover | ⟨hcurrent, hmem⟩
    · exact .inl hover
    · obtain ⟨ips, hips⟩ := Dict.mem_keys_iff.1 hmem
      exact .inr ⟨hcurrent, Dict.mem_keys_of_get? (hentry.trans hips)⟩
  · rw [Lived, generation_refresh_of_changed hentry]
    rcases h with hover | ⟨hcurrent, -⟩
    · exact .inl (by omega)
    · exact .inl (by omega)

/-- Hints of a numbered disposable that survive a refresh belong to the generation that does. -/
private theorem kept_current {key : String} {generation : Nat}
    (h : key ∈ s.system.daemon.ctx.sources.byName.keys ∧ generation = s.generation key)
    (hentry : (s.refresh sv lib io new now).system.daemon.ctx.sources.byName.get? key =
      s.system.daemon.ctx.sources.byName.get? key) :
    key ∈ (s.refresh sv lib io new now).system.daemon.ctx.sources.byName.keys ∧
      generation = (s.refresh sv lib io new now).generation key := by
  obtain ⟨ips, hips⟩ := Dict.mem_keys_iff.1 h.1
  rw [generation_refresh_of_same hentry]
  exact ⟨Dict.mem_keys_of_get? (hentry.trans hips), h.2⟩

theorem HintsCurrent.refresh (h : s.HintsCurrent)
    (hknown : ∀ source ∈ s.system.daemon.ctx.sources.byName.keys, source ∈ s.system.daemon.ctx.rules.keys) :
    (s.refresh sv lib io new now).HintsCurrent := by
  obtain ⟨hresponses, hqnames⟩ := @publishSources_hints sv lib new now s.system.daemon io hknown
  constructor
  · intro key hkey hnumbered
    obtain ⟨hold, hentry⟩ := hresponses key hkey
    have hcurrent := h.responses key hold hnumbered
    exact kept_current hcurrent (hentry hnumbered hcurrent.1)
  · intro key hkey hnumbered
    obtain ⟨hold, hentry⟩ := hqnames key hkey
    have hcurrent := h.qnames key hold hnumbered
    exact kept_current hcurrent (hentry hnumbered hcurrent.1)

theorem HintInvariant.refresh (h : HintInvariant sv lib config s) {answer : Except PyError String}
    (hquery : queryDom0Sources answer s.system.daemon.ctx.config = .ok new) :
    HintInvariant sv lib config (s.refresh sv lib io new now) := by
  have hstep : Step sv lib (fun _ => True) s.system (s.refresh sv lib io new now).system := .refresh now trivial hquery
  have hnext := @publishSources_next sv lib new now s.system.daemon io
  refine ⟨h.toSystemInvariant.step hstep, fun key id hid => ?_, fun key request hmem => ?_, h.begun,
    h.current.refresh h.known⟩
  · obtain ⟨hlt, hlived⟩ := h.queued key id (hstep.ids_fewer h.toSystemInvariant hnext hid)
    exact ⟨hnext ▸ hlt, hlived.refresh⟩
  · obtain ⟨id, hid, hlt, hlived⟩ := h.prompts key request hmem
    exact ⟨id, hid, hnext ▸ hlt, hlived.refresh⟩

end Refresh

/-- Another system with the same map and the same hints. -/
private theorem HintsCurrent.congr {s : HintSystem} (h : s.HintsCurrent) {system : System} {born : Nat → Nat}
    {checked : List (QuestionKey × Request)} (hsources : system.daemon.ctx.sources = s.system.daemon.ctx.sources)
    (hresponses : system.daemon.ctx.dnsResponseCache = s.system.daemon.ctx.dnsResponseCache)
    (hqnames : system.daemon.ctx.dnsQnameCache = s.system.daemon.ctx.dnsQnameCache) :
    HintsCurrent { s with system, born, checked } := by
  constructor
  · rw [hsources, hresponses]
    exact h.responses
  · rw [hsources, hqnames]
    exact h.qnames

private theorem Lived.congr {s s' : HintSystem} {source : String} {generation : Nat} (h : s.Lived source generation)
    (hgeneration : s'.generation = s.generation)
    (hsources : s'.system.daemon.ctx.sources = s.system.daemon.ctx.sources) : s'.Lived source generation := by
  rw [Lived, hgeneration, hsources]
  exact h

/-- What a prompt does to the ids. -/
private theorem queuePrompt_ids {d : Daemon} (hknown : ∀ s ∈ d.ctx.sources.byName.keys, s ∈ d.ctx.rules.keys)
    (request : Request) : ((queuePrompt sv lib request).leaves d).ctx = d.ctx ∧
      d.queue.next ≤ ((queuePrompt sv lib request).leaves d).queue.next ∧
      ∀ key id, ((queuePrompt sv lib request).leaves d).queue.ids.get? key = some id →
        d.queue.ids.get? key = some id ∨ id = d.queue.next ∧ key.source = request.source ∧
          id < ((queuePrompt sv lib request).leaves d).queue.next ∧ request.source ∈ d.ctx.sources.byName.keys := by
  rcases queuePrompt_leaves hknown request with hsame | ⟨hcurrent, -, hqueue⟩
  · rw [hsame]
    exact ⟨rfl, le_refl _, fun key id hid => .inl hid⟩
  · rw [hqueue]
    refine ⟨rfl, queueQuestion_next, fun key id hid => ?_⟩
    rcases queueQuestion_ids hid with hold | ⟨hnew, hsource, hgiven⟩
    · exact .inl hold
    · refine .inr ⟨hnew, hsource, ?_, mem_of_promptSourceCurrent hcurrent⟩
      show id < (queueQuestion request d.ctx.config d.queue).2.next
      omega

namespace HintInvariant

variable {s : HintSystem}

/-- A prompt that gets an id is one of a known source in its current generation. -/
theorem prompt (h : HintInvariant sv lib config s) {request : Request} (hr : Promptable lib request) :
    HintInvariant sv lib config { s with
      system := s.system.after (queuePrompt sv lib request)
      born := Function.update s.born s.system.daemon.queue.next (s.generation request.source) } := by
  obtain ⟨hctx, hmono, hids⟩ := @queuePrompt_ids sv lib _ h.known request
  have hsources : (s.system.after (queuePrompt sv lib request)).daemon.ctx.sources = s.system.daemon.ctx.sources :=
    congrArg Runtime.sources hctx
  have hborn : ∀ {source : String} {id : Nat}, id < s.system.daemon.queue.next → s.Lived source (s.born id) →
      s.Lived source (Function.update s.born s.system.daemon.queue.next (s.generation request.source) id) := by
    intro source id hlt hlived
    rwa [Function.update_of_ne (Nat.ne_of_lt hlt)]
  have hstep : Step sv lib (fun _ => True) s.system (s.system.after (queuePrompt sv lib request)) := .prompt hr
  refine ⟨h.toSystemInvariant.step hstep, fun key id hid => ?_,
    fun key request' hmem => ?_, h.begun,
    h.current.congr hsources (congrArg Runtime.dnsResponseCache hctx) (congrArg Runtime.dnsQnameCache hctx)⟩
  · rcases hids key id hid with hold | ⟨rfl, hsource, hlt, hmem⟩
    · obtain ⟨hlt, hlived⟩ := h.queued key id hold
      exact ⟨Nat.lt_of_lt_of_le hlt hmono, (hborn hlt hlived).congr rfl hsources⟩
    · have hnew : s.Lived key.source
          (Function.update s.born s.system.daemon.queue.next (s.generation request.source) s.system.daemon.queue.next) := by
        rw [Function.update_self, hsource]
        exact .inr ⟨rfl, hmem⟩
      exact ⟨hlt, hnew.congr rfl hsources⟩
  · obtain ⟨id, hid, hlt, hlived⟩ := h.prompts key request' hmem
    exact ⟨id, hid, Nat.lt_of_lt_of_le hlt hmono, (hborn hlt hlived).congr rfl hsources⟩

/-- An answer that is stored in the lifetime of its prompt is a hint of the current generation. -/
theorem store (h : HintInvariant sv lib config s) {key : QuestionKey} {request : Request} {id : Nat}
    (limits : DnsCacheLimits) (clock : StoreClock) (qname qtype : String) (labels : Dict IPv4 String) (ttl : Rat)
    (hmem : (key, request) ∈ s.checked) (hid : request.promptId = some id) (hlife : s.InLifetime request id) :
    HintInvariant sv lib config (s.store limits clock request.source id qname qtype labels ttl) := by
  obtain ⟨id', hid', -, hlived⟩ := h.prompts key request (h.begun _ hmem)
  obtain rfl : id = id' := Option.some.inj (hid.symm.trans hid')
  -- the prompt of the answer was shown in the lifetime that still lasts
  have hnew : isNumberedDispvm request.source →
      request.source ∈ s.system.daemon.ctx.sources.byName.keys ∧ s.born id = s.generation request.source := by
    intro hnumbered
    have hborn := hlife hnumbered
    rcases hlived with hover | ⟨-, hrunning⟩
    · omega
    · exact ⟨hrunning, hborn⟩
  have hcaches : CachesOnly s.system.daemon.ctx
      (storeDnsLabels limits clock request.source qname qtype labels ttl s.system.daemon.ctx) :=
    storeDnsLabels_cachesOnly
  have hsources : (s.store limits clock request.source id qname qtype labels ttl).system.daemon.ctx.sources =
      s.system.daemon.ctx.sources := hcaches.sources_eq
  have hstep : Step sv lib (fun _ => True) s.system
      (s.store limits clock request.source id qname qtype labels ttl).system := by
    rw [HintSystem.store, hcaches]
    exact .hints _ _
  refine ⟨h.toSystemInvariant.step hstep, fun key id hid => ?_, fun key request hmem => ?_, h.begun, ?_, ?_⟩
  · obtain ⟨hlt, hlived⟩ := h.queued key id hid
    exact ⟨hlt, hlived.congr rfl hsources⟩
  · obtain ⟨id, hid, hlt, hlived⟩ := h.prompts key request hmem
    exact ⟨id, hid, hlt, hlived.congr rfl hsources⟩
  · intro key hkey hnumbered
    rw [hsources]
    show _ ∧ (if key.1 = request.source ∧ key.2 ∈ labels.keys then s.born id else s.responses key) = s.generation key.1
    split
    · rename_i hanswer
      rw [hanswer.1] at hnumbered ⊢
      exact hnew hnumbered
    · rename_i hother
      rcases storeDnsLabels_responses hkey with hold | hanswer
      · exact h.current.responses key hold hnumbered
      · exact absurd hanswer hother
  · intro key hkey hnumbered
    rw [hsources]
    show _ ∧ Function.update s.qnames (request.source, qtype, qname) (s.born id) key = s.generation key.1
    by_cases hanswer : key = (request.source, qtype, qname)
    · rw [hanswer] at hnumbered ⊢
      rw [Function.update_self]
      exact hnew hnumbered
    · rw [Function.update_of_ne hanswer]
      rcases storeDnsLabels_qnames hkey with hold | hnamed
      · exact h.current.qnames key hold hnumbered
      · exact absurd hnamed hanswer

/-- What asks nothing leaves no other ids, and shows prompts with the ids that they have. -/
theorem other (h : HintInvariant sv lib config s) {system : System}
    (hstep : Step sv lib (fun _ => True) s.system system)
    (hnext : system.daemon.queue.next = s.system.daemon.queue.next)
    (hsources : system.daemon.ctx.sources = s.system.daemon.ctx.sources)
    (hresponses : system.daemon.ctx.dnsResponseCache = s.system.daemon.ctx.dnsResponseCache)
    (hqnames : system.daemon.ctx.dnsQnameCache = s.system.daemon.ctx.dnsQnameCache) :
    HintInvariant sv lib config { s with system } := by
  have hinvariant := h.toSystemInvariant.step hstep
  refine ⟨hinvariant, fun key id hid => ?_, fun key request hmem => ?_, fun p hp => ?_,
    h.current.congr hsources hresponses hqnames⟩
  · obtain ⟨hlt, hlived⟩ := h.queued key id (hstep.ids_fewer h.toSystemInvariant hnext hid)
    exact ⟨hnext ▸ hlt, hlived.congr rfl hsources⟩
  · rcases hstep.shown_ids hmem with hold | ⟨id, hid, hget⟩
    · obtain ⟨id, hid, hlt, hlived⟩ := h.prompts key request hold
      exact ⟨id, hid, hnext ▸ hlt, hlived.congr rfl hsources⟩
    · obtain ⟨hlt, hlived⟩ := h.queued key id hget
      have hsource : key.source = request.source :=
        (congrArg QuestionKey.source (hinvariant.shown key request hmem).key).symm.trans (questionKey_source request)
      exact ⟨id, hid, hnext ▸ hlt, (hsource ▸ hlived).congr rfl hsources⟩
  · exact hstep.shown_more (h.begun p hp)

theorem step (h : HintInvariant sv lib config s) {s' : HintSystem}
    (hstep : HintStep sv lib (fun s request id => s.InLifetime request id) s s') : HintInvariant sv lib config s' := by
  cases hstep with
  | prompt hr => exact h.prompt hr
  | refresh now hquery => exact h.refresh hquery
  | check hshown hcurrent =>
    refine ⟨h.toSystemInvariant, h.queued, h.prompts, fun p hp => ?_, ⟨h.current.responses, h.current.qnames⟩⟩
    rcases List.mem_cons.1 hp with rfl | hold
    · exact hshown
    · exact h.begun p hold
  | store limits clock qname qtype labels ttl hchecked hid hlife =>
    exact h.store limits clock qname qtype labels ttl hchecked hid hlife
  | other hsection hnext hsources hresponses hqnames => exact h.other hsection hnext hsources hresponses hqnames

theorem run (h : HintInvariant sv lib config s) {s' : HintSystem}
    (hrun : HintRun sv lib (fun s request id => s.InLifetime request id) s s') : HintInvariant sv lib config s' := by
  induction hrun with
  | refl => exact h
  | tail _ hstep ih => exact ih.step hstep

theorem start {dir : RulesDir} {ctx : Runtime} {io first : Io} {answer : Except PyError String} {new : SourceMap}
    (hload : (loadPolicyWithoutSources sv lib io config).run (Runtime.initial dir) = .ok () ctx)
    (hquery : queryDom0Sources answer ctx.config = .ok new) (now : Rat) :
    HintInvariant sv lib config (.start ((System.start ctx).after (publishRequiredSources sv lib first new now))) := by
  have hstep : Step sv lib (fun _ => True) (System.start ctx)
      ((System.start ctx).after (publishRequiredSources sv lib first new now)) := .require now trivial hquery
  obtain ⟨hresponses, hqnames⟩ := loadPolicy_hints hload
  obtain ⟨gone, hleaves⟩ := publishRequiredSources_replaces sv lib first new now (System.start ctx).daemon
  obtain ⟨nftText, hframe⟩ := (reloadPolicy_entered sv lib first (replaced new now gone (System.start ctx).daemon).ctx).frame
  let mapped : Daemon := { (System.start ctx).daemon with ctx.lastSourceRefresh := now, ctx.sources := new }
  refine ⟨(invariant_start hload).step hstep, fun key id hid => ?_, fun key request hmem => ?_, fun p hp => ?_,
    fun key hkey => ?_, fun key hkey => ?_⟩
  · have hid : ((publishRequiredSources sv lib first new now).leaves (System.start ctx).daemon).queue.ids.get? key =
        some id := hid
    rw [hleaves] at hid
    cases purgeAll_ids mapped gone hid
  · cases hmem
  · cases hp
  · have hkey : key ∈
        ((publishRequiredSources sv lib first new now).leaves (System.start ctx).daemon).ctx.dnsResponseCache.keys := hkey
    rw [hleaves, hframe] at hkey
    have hold : key ∈ ctx.dnsResponseCache.keys := ((purgeAll_responses mapped gone key).1 hkey).1
    rw [hresponses] at hold
    cases hold
  · have hkey : key ∈
        ((publishRequiredSources sv lib first new now).leaves (System.start ctx).daemon).ctx.dnsQnameCache.keys := hkey
    rw [hleaves, hframe] at hkey
    have hold : key ∈ ctx.dnsQnameCache.keys := ((purgeAll_qnames mapped gone key).1 hkey).1
    rw [hqnames] at hold
    cases hold

end HintInvariant

/-- An answer that is stored after the lifetime of its prompt is a hint of another disposable, if it is not evicted. -/
private theorem not_hintsCurrent_store {s : HintSystem} {limits : DnsCacheLimits} {clock : StoreClock} {request : Request}
    {id : Nat} {qname qtype : String} {labels : Dict IPv4 String} {ttl : Rat} (hlife : ¬ s.InLifetime request id)
    (hkept : (request.source, qtype, qname) ∈
      (s.store limits clock request.source id qname qtype labels ttl).system.daemon.ctx.dnsQnameCache.keys) :
    ¬ (s.store limits clock request.source id qname qtype labels ttl).HintsCurrent := by
  intro hcurrent
  refine hlife fun hnumbered => ?_
  have hborn : Function.update s.qnames (request.source, qtype, qname) (s.born id) (request.source, qtype, qname) =
      s.generation request.source := (hcurrent.qnames _ hkept hnumbered).2
  rwa [Function.update_self] at hborn

end HintSystem

/-- In every run in which the answers are stored in the lifetimes of their prompts, every hint of a numbered disposable
belongs to one that is running and was stored for a prompt of its current generation.  An answer that is stored later is
not such a hint, unless it is evicted at once. -/
theorem hints_current {dir : RulesDir} {ctx : Runtime} {io first : Io} {answer : Except PyError String} {new : SourceMap}
    {now : Rat} {s : HintSystem}
    (hload : (loadPolicyWithoutSources sv lib io config).run (Runtime.initial dir) = .ok () ctx)
    (hquery : queryDom0Sources answer ctx.config = .ok new)
    (hrun : HintRun sv lib (fun s request id => s.InLifetime request id)
      (.start ((System.start ctx).after (publishRequiredSources sv lib first new now))) s) :
    s.HintsCurrent ∧
    ∀ limits clock request id qname qtype labels ttl, ¬ s.InLifetime request id →
      (request.source, qtype, qname) ∈
        (s.store limits clock request.source id qname qtype labels ttl).system.daemon.ctx.dnsQnameCache.keys →
      ¬ (s.store limits clock request.source id qname qtype labels ttl).HintsCurrent := by
  have h : HintSystem.HintInvariant sv lib config s := (HintSystem.HintInvariant.start hload hquery now).run hrun
  exact ⟨h.current, fun _ _ _ _ _ _ _ _ hlife hkept => HintSystem.not_hintsCurrent_store hlife hkept⟩

namespace Sample

/-- A disposable runs. -/
def dispAt (ip : IPv4) : SourceMap :=
  ⟨.ofList [("disp1234", [ip])], .ofList [(ip, "disp1234")], .ofList [("disp1234", "red")],
    .ofList [(ip, "disp1234(default-dvm)")]⟩

theorem query_disp : queryDom0Sources (.ok "disp1234|10.137.0.5|red|DispVM|default-dvm") Sample.config =
    .ok (dispAt work) := by decide +kernel

/-- What dom0 says when another VM has its name. -/
theorem query_reused : queryDom0Sources (.ok "disp1234|10.138.0.6|red|DispVM|default-dvm") Sample.config =
    .ok (dispAt ⟨10, 138, 0, 6⟩) := by decide +kernel

def dispRequest : Request := { request with source := "disp1234", displaySource := "disp1234(default-dvm)" }

theorem built_dispRequest (lib : DnsPython) : Built lib dispRequest :=
  ⟨payload, dispRequest.toParsedPacket, by decide +kernel, rfl, rfl, .inl rfl⟩

/-- Its question for an address of example.org. -/
def namedQuery : List UInt8 :=
  [0x45, 0, 0, 57, 0, 0, 0, 0, 64, 17, 0, 0, 10, 137, 0, 5, 10, 139, 1, 1, 0x9c, 0x40, 0, 53, 0, 37, 0, 0,
    0x1a, 0x2b, 1, 0, 0, 1, 0, 0, 0, 0, 0, 0, 7, 101, 120, 97, 109, 112, 108, 101, 3, 111, 114, 103, 0, 0, 1, 0, 1]

/-- What dnspython reads in it, and nothing of anything else. -/
def readsNamed : DnsPython :=
  .ofParser fun body =>
    if body = namedQuery.drop 28 then
      some ⟨0x100, 0, 0, [⟨⟨[[101, 120, 97, 109, 112, 108, 101], [111, 114, 103], []]⟩, 1, 1⟩], false, false, false, -1, 0⟩
    else none

def namedRequest : Request where
  src := work
  dst := ⟨10, 139, 1, 1⟩
  proto := .flow .udp
  sport := some 40000
  dport := some 53
  body := some (namedQuery.drop 28)
  source := "disp1234"
  displaySource := "disp1234(default-dvm)"
  kind := .dns "example.org" "A"

theorem built_namedRequest : Built readsNamed namedRequest :=
  ⟨namedQuery, namedRequest.toParsedPacket, by decide +kernel, rfl, rfl,
    .inr ⟨"example.org", "A", rfl, by decide +kernel⟩⟩

def dispRunning : HintSystem :=
  .start ((System.start loaded).after (publishRequiredSources .empty readsNamed works (dispAt work) 0))

/-- It asks for the name, -/
def nameAsked : HintSystem :=
  { dispRunning with
    system := dispRunning.system.after (queuePrompt .empty readsNamed namedRequest)
    born := Function.update dispRunning.born dispRunning.system.daemon.queue.next
      (dispRunning.generation namedRequest.source) }

def namePrompted : Request := { requestWithoutBody namedRequest with promptId := some 1, remaining := some 0 }

def nameFetched : HintSystem :=
  { nameAsked with system := { nameAsked.system with shown := [(questionKey namedRequest, namePrompted)] } }

/-- which the user allows. -/
def nameAllowed : HintSystem :=
  { nameFetched with
    system := nameFetched.system.after (saveDecision .empty readsNamed works (questionKey namedRequest) namePrompted .allow) }

/-- It opens a connection. -/
def dispAsked : HintSystem :=
  { nameAllowed with
    system := nameAllowed.system.after (queuePrompt .empty readsNamed dispRequest)
    born := Function.update nameAllowed.born nameAllowed.system.daemon.queue.next
      (nameAllowed.generation dispRequest.source) }

def dispPrompted : Request := { requestWithoutBody dispRequest with promptId := some 2, remaining := some 0 }

def dispFetched : HintSystem :=
  { dispAsked with
    system := { dispAsked.system with shown := (questionKey dispRequest, dispPrompted) :: dispAsked.system.shown } }

/-- The CLI thread begins to look up its names. -/
def dispChecked : HintSystem := { dispFetched with checked := [(questionKey dispRequest, dispPrompted)] }

/-- The answer for the allowed name is stored for the prompt. -/
def dispAnswer (s : HintSystem) : HintSystem :=
  s.store ⟨5, 100⟩ ⟨2, 2, 2, 2, 2⟩ dispPrompted.source 2 "example.org" "A" (.ofList [(server, "example.org")]) 60

/-- It is shut down. -/
def dispGone : HintSystem := dispChecked.refresh .empty readsNamed works .empty 1

/-- Another VM gets the name, after the answer for the first one is stored. -/
def dispReused : HintSystem := (dispAnswer dispGone).refresh .empty readsNamed works (dispAt ⟨10, 138, 0, 6⟩) 3

theorem run_nameAllowed (allowed : HintSystem → Request → Nat → Prop) :
    HintRun .empty readsNamed allowed dispRunning nameAllowed := by
  have hasked : HintStep .empty readsNamed allowed dispRunning nameAsked := .prompt ⟨built_namedRequest, fun _ => rfl⟩
  have hfetched : HintStep .empty readsNamed allowed nameAsked nameFetched :=
    .other (@Step.fetch _ _ _ nameAsked.system (questionKey namedRequest) namePrompted rfl) rfl rfl rfl rfl
  have hanswer : Step .empty readsNamed (fun _ => True) nameFetched.system nameAllowed.system :=
    @Step.answer _ _ _ _ works _ _ namePrompted _ .allow trivial (List.mem_singleton.2 rfl) (.inl rfl) rfl
  have hallowed : HintStep .empty readsNamed allowed nameFetched nameAllowed := .other hanswer rfl rfl rfl rfl
  exact ((Relation.ReflTransGen.single hasked).tail hfetched).tail hallowed

theorem run_dispChecked (allowed : HintSystem → Request → Nat → Prop) :
    HintRun .empty readsNamed allowed dispRunning dispChecked := by
  have hasked : HintStep .empty readsNamed allowed nameAllowed dispAsked := .prompt ⟨built_dispRequest _, fun _ => rfl⟩
  have hfetched : HintStep .empty readsNamed allowed dispAsked dispFetched :=
    .other (@Step.fetch _ _ _ dispAsked.system (questionKey dispRequest) dispPrompted rfl) rfl rfl rfl rfl
  have hchecked : HintStep .empty readsNamed allowed dispFetched dispChecked :=
    @HintStep.check _ _ _ dispFetched (questionKey dispRequest) dispPrompted (List.mem_cons_self ..) rfl
  exact (((run_nameAllowed allowed).tail hasked).tail hfetched).tail hchecked

theorem store_dispAnswer {allowed : HintSystem → Request → Nat → Prop} {s : HintSystem}
    (hchecked : s.checked = [(questionKey dispRequest, dispPrompted)]) (ha : allowed s dispPrompted 2) :
    HintStep .empty readsNamed allowed s (dispAnswer s) := by
  have hmem : (questionKey dispRequest, dispPrompted) ∈ s.checked := by
    rw [hchecked]
    exact List.mem_singleton.2 rfl
  exact .store ⟨5, 100⟩ ⟨2, 2, 2, 2, 2⟩ "example.org" "A" (.ofList [(server, "example.org")]) 60 hmem rfl ha

/-- A hint for the first disposable is shown for the second. -/
theorem hints_outlive : HintRun .empty readsNamed (fun _ _ _ => True) dispRunning dispReused ∧
    allowedDnsHintRules "disp1234" dispChecked.system.daemon.ctx.rules = [("example.org", "A")] ∧
    ¬ dispReused.HintsCurrent ∧
    cachedDnsName 4 "disp1234" server dispReused.system.daemon.ctx = some "A example.org" := by
  have hgone : HintStep .empty readsNamed (fun _ _ _ => True) dispChecked dispGone := .refresh 1 query_noVms
  have hstored : HintStep .empty readsNamed (fun _ _ _ => True) dispGone (dispAnswer dispGone) :=
    store_dispAnswer rfl trivial
  have hreused : HintStep .empty readsNamed (fun _ _ _ => True) (dispAnswer dispGone) dispReused := .refresh 3 query_reused
  refine ⟨(((run_dispChecked _).tail hgone).tail hstored).tail hreused, by decide +kernel, fun hcurrent => ?_,
    by decide +kernel⟩
  have hgeneration : dispReused.responses ("disp1234", server) ≠ dispReused.generation "disp1234" := by decide +kernel
  exact hgeneration (hcurrent.responses ("disp1234", server) (by decide +kernel) (by decide +kernel)).2

/-- The same answer while the disposable runs. -/
theorem hints_current_answered : (dispAnswer dispChecked).HintsCurrent := by
  have hlife : dispChecked.InLifetime dispPrompted 2 := fun _ => rfl
  exact (hints_current load_empty query_disp ((run_dispChecked _).tail (store_dispAnswer rfl hlife))).1

end Sample

end QubesSnitch
