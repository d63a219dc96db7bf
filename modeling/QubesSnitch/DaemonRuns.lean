import QubesSnitch.Daemon

/-!
# Runs of the daemon

What holds in every state that a daemon comes to, from any rules directory that loads.

* `pending_undecided`: no prompt waits that policy has an answer for.
* `firewall_follows_policy`: after the first refresh the kernel has the table of the policy in memory.
* `directory_follows_policy`: the rules directory loads as the policy in memory.
-/

namespace QubesSnitch

variable {sv : Services} {lib : DnsPython} {io : Io} {config : Config} {allowed : Io → Prop}

/-! ### The invariant of a run -/

/-- The prompts that have been shown are questions under their keys, too. -/
structure SystemInvariant (sv : Services) (lib : DnsPython) (config : Config) (s : System) : Prop
    extends Invariant sv lib config s.daemon where
  shown : ∀ key request, (key, request) ∈ s.shown → Question key request

/-- A question stays one when the texts around it change. -/
theorem Question.congr {key : QuestionKey} {request request' : Request} (h : Question key request)
    (hpacket : request'.toParsedPacket = request.toParsedPacket) (hsource : request'.source = request.source)
    (hkind : request'.kind = request.kind) (hhost : request'.kind.isDns → request'.host = none) :
    Question key request' := by
  refine ⟨?_, ⟨hpacket ▸ h.wellFormed.packet, hkind ▸ h.wellFormed.kind⟩, hhost⟩
  rw [← h.key]
  simp only [questionKey, requestPort, hpacket, hsource, hkind]

theorem Question.enriched {key : QuestionKey} {request enriched : Request} (h : Question key request)
    (he : Enriches request enriched) : Question key enriched := by
  rcases he with rfl | ⟨hflow, name, rfl⟩
  · exact h
  · exact h.congr rfl rfl rfl fun hdns => by simp [hflow] at hdns

/-- An answer to a shown prompt is about its question, and prepared. -/
theorem Question.prepared {key : QuestionKey} {request enriched prepared : Request} {decision : Decision}
    {resolver : Resolver} (h : Question key request) (he : Enriches request enriched)
    (hp : prepareHostnameDecision lib resolver enriched decision = .ok prepared) :
    Question key prepared ∧ Prepared lib prepared decision := by
  have hq := h.enriched he
  obtain ⟨⟨found, rfl⟩, hprepared⟩ := prepareHostnameDecision_ok hq.wellFormed hq.host hp
  exact ⟨hq.congr rfl rfl rfl hq.host, hprepared⟩

theorem nextPendingRequest_question {q : Queue} {key : QuestionKey} {request : Request}
    (hq : ∀ k r, q.items.get? k = some r → Question k r)
    (h : nextPendingRequest q = .ok (some (key, request))) : Question key request := by
  obtain ⟨id, pending, rfl, hpending, -⟩ := nextPendingRequest_shown h
  have hr := hq key pending hpending
  exact hr.congr rfl rfl rfl hr.host

theorem discardPendingDecision_items {q : Queue} {key k : QuestionKey} {request r : Request}
    (h : (discardPendingDecision key request q).items.get? k = some r) : q.items.get? k = some r := by
  unfold discardPendingDecision at h
  split at h
  · exact Dict.get?_of_erase h
  · exact h

/-- A directory is loaded when what is left of it loads. -/
theorem loadPolicy_ok {dir : RulesDir} {rules : Rules}
    (h : loadRules sv lib io.resolver (cleanupNumberedDispvmFiles { Runtime.initial dir with config }).rulesDir
      config.defaultDisposableVmName = .ok rules) :
    (loadPolicyWithoutSources sv lib io config).run (Runtime.initial dir) =
      .ok () { cleanupNumberedDispvmFiles { Runtime.initial dir with config } with rules } := by
  simp only [EStateM.run, loadPolicyWithoutSources, h]

theorem invariant_start {dir : RulesDir} {ctx : Runtime}
    (h : (loadPolicyWithoutSources sv lib io config).run (Runtime.initial dir) = .ok () ctx) :
    SystemInvariant sv lib config (System.start ctx) := by
  unfold EStateM.run loadPolicyWithoutSources at h
  dsimp only at h
  split at h
  · rename_i rules hload
    cases h
    refine ⟨⟨rfl, ⟨fun ip s => ?_, fun s hs => ?_⟩, fun s hs => ?_, stored_of_loadRules hload, fun key r hget => ?_⟩,
      fun key r hmem => ?_⟩
    · simp [System.start, cleanupNumberedDispvmFiles, Runtime.initial, SourceMap.empty]
    · cases hs
    · cases hs
    · cases hget
    · cases hmem
  · cases h

theorem loadPolicy_hints {dir : RulesDir} {ctx : Runtime}
    (h : (loadPolicyWithoutSources sv lib io config).run (Runtime.initial dir) = .ok () ctx) :
    ctx.dnsResponseCache = .empty ∧ ctx.dnsQnameCache = .empty := by
  unfold EStateM.run loadPolicyWithoutSources at h
  dsimp only at h
  split at h
  · cases h
    exact ⟨rfl, rfl⟩
  · cases h

theorem SystemInvariant.step {s s' : System} (h : SystemInvariant sv lib config s)
    (hstep : Step sv lib allowed s s') : SystemInvariant sv lib config s' := by
  cases hstep with
  | identify parsed =>
    refine ⟨?_, h.shown⟩
    rw [System.after, identifySource_leaves h.sources h.known]
    exact h.toInvariant
  | prompt hr => exact ⟨h.toInvariant.queuePrompt hr, h.shown⟩
  | fetch hnext =>
    refine ⟨h.toInvariant, fun key request hmem => ?_⟩
    rcases List.mem_cons.1 hmem with hnew | hold
    · cases hnew
      exact nextPendingRequest_question (fun k r hget => (h.pending k r hget).toQuestion) hnext
    · exact h.shown key request hold
  | discard hmem => exact ⟨h.fewer fun key request hget => discardPendingDecision_items hget, h.shown⟩
  | answer hio hmem he hp =>
    obtain ⟨hq, hprepared⟩ := (h.shown _ _ hmem).prepared he hp
    exact ⟨h.toInvariant.saveDecision hq hprepared, h.shown⟩
  | refresh now hio hquery =>
    refine ⟨?_, h.shown⟩
    rcases h.toInvariant.publishes hquery _ now with hsame | ⟨d', hd', hleaves⟩
    · rw [System.after, hsame]
      exact ⟨h.configured, h.sources, h.known, h.stored, h.pending⟩
    · rw [System.after, hleaves]
      exact hd'.reloaded
  | require now hio hquery =>
    obtain ⟨d', hd', hleaves⟩ := h.toInvariant.publishesRequired hquery _ now
    refine ⟨?_, h.shown⟩
    rw [System.after, hleaves]
    exact hd'.reloaded
  | hints responses qnames => exact ⟨⟨h.configured, h.sources, h.known, h.stored, h.pending⟩, h.shown⟩

theorem SystemInvariant.run {s s' : System} (h : SystemInvariant sv lib config s)
    (hrun : Reaches sv lib allowed s s') : SystemInvariant sv lib config s' := by
  induction hrun with
  | refl => exact h
  | tail _ hstep ih => exact ih.step hstep

/-! ### A sample run -/

namespace Sample

/-- What a daemon without rules loads. -/
def loaded : Runtime := { Runtime.initial .empty with config := Sample.config }

theorem loadRules_empty {lib : DnsPython} :
    loadRules .empty lib works.resolver .empty Sample.config.defaultDisposableVmName = .ok .empty := by
  simp [loadRules, resolveDestDnsNames, qnamePaths, Dict.empty, Dict.ofList, bind, Except.bind, pure, Except.pure]

theorem load_empty {lib : DnsPython} : (loadPolicyWithoutSources .empty lib works Sample.config).run (Runtime.initial .empty) =
    .ok () loaded := loadPolicy_ok loadRules_empty

/-- The map is there. -/
def mapped : System := (System.start loaded).after (publishRequiredSources .empty dnspython works oneVm 0)

/-- A packet has been asked about. -/
def asked : System := mapped.after (queuePrompt .empty dnspython request)

theorem query_oneVm : queryDom0Sources (.ok "work|10.137.0.5|green|AppVM|-") Sample.config = .ok oneVm := parse_oneVm

theorem query_noVms : queryDom0Sources (.ok "") Sample.config = .ok .empty := by decide +kernel

theorem mapped_step {allowed : Io → Prop} (h : allowed works) :
    Step .empty dnspython allowed (System.start loaded) mapped := .require 0 h query_oneVm

theorem asked_step (allowed : Io → Prop) : Step .empty dnspython allowed mapped asked :=
  .prompt ⟨built dnspython, fun _ => rfl⟩

theorem asked_pending : asked.daemon.queue.items.get? (questionKey request) = some (requestWithoutBody request) := rfl

/-- The prompt as a CLI gets it. -/
def prompted : Request := { requestWithoutBody request with promptId := some 1, remaining := some 0 }

def fetched : System := { asked with shown := [(questionKey request, prompted)] }

theorem fetched_step (allowed : Io → Prop) : Step .empty dnspython allowed asked fetched :=
  @Step.fetch _ _ _ asked (questionKey request) prompted rfl

/-- The user allows it. -/
def answered : System := fetched.after (saveDecision .empty dnspython works (questionKey request) prompted .allow)

theorem answered_step {allowed : Io → Prop} (h : allowed works) : Step .empty dnspython allowed fetched answered :=
  @Step.answer _ _ _ _ _ _ _ prompted _ _ h (List.mem_singleton.2 rfl) (.inl rfl) rfl

def savedRule : FlowRule := ⟨.str "no PTR", .network (.host server), .tcp, "443", .allow⟩

theorem answered_rules : answered.daemon.ctx.rules = ⟨[("work", ⟨[savedRule], []⟩)], by simp⟩ := rfl

theorem reaches_answered {allowed : Io → Prop} (h : allowed works) : Reaches .empty dnspython allowed mapped answered :=
  ((Relation.ReflTransGen.single (asked_step allowed)).tail (fetched_step allowed)).tail (answered_step h)

theorem works_works : works.Works := ⟨fun _ => rfl, fun _ => rfl, fun _ => rfl⟩

end Sample

/-! ### Prompts -/

/-- No prompt waits for what is decided: in every state each prompt is under the key of its question and policy has no
answer to it.  A saved answer takes away exactly the prompts that its new rule decides. -/
theorem pending_undecided {dir : RulesDir} {ctx : Runtime} {s : System}
    (hload : (loadPolicyWithoutSources sv lib io config).run (Runtime.initial dir) = .ok () ctx)
    (hrun : Reaches sv lib (fun _ => True) (System.start ctx) s) :
    (∀ key request, s.daemon.queue.items.get? key = some request →
      key = questionKey request ∧ matchingAction sv request s.daemon.ctx.rules = .ok none) ∧
    ∀ io key request enriched prepared decision ctx', (key, request) ∈ s.shown → Enriches request enriched →
      prepareHostnameDecision lib io.resolver enriched decision = .ok prepared →
      promptCurrent key prepared s.daemon.queue → promptSourceCurrent s.daemon.ctx.sources prepared →
      (saveRule sv lib io prepared decision).run s.daemon.ctx = .ok () ctx' →
      ∀ k r, ((saveDecision sv lib io key prepared decision).leaves s.daemon).queue.items.get? k = some r ↔
        s.daemon.queue.items.get? k = some r ∧ matchingAction sv r ctx'.rules = .ok none := by
  have h := (invariant_start hload).run hrun
  refine ⟨fun key request hget => ?_, ?_⟩
  · have hr := h.pending key request hget
    exact ⟨hr.key.symm, hr.undecided⟩
  · intro io key request enriched prepared decision ctx' hshown he hp hcurrent hsource hsave k r
    obtain ⟨hq, hprepared⟩ := (h.shown key request hshown).prepared he hp
    have happend : (appendRule sv lib io prepared decision).run s.daemon.ctx = .ok () ctx' := by
      rw [EStateM.run, saveRule, hsource] at hsave
      exact hsave
    rcases saveDecision_leaves sv io s.daemon key hprepared with
      ⟨hstale, -⟩ | ⟨-, queue, hqueue, ⟨⟨e, herror⟩, -⟩ | ⟨ctx'', -, hleaves⟩⟩
    · rw [hcurrent] at hstale
      cases hstale
    · rw [hsave] at herror
      cases herror
    · rw [hleaves]
      show queue.items.get? k = some r ↔ _
      rw [answered_items hqueue]
      constructor
      · rintro ⟨hget, hkept⟩
        exact ⟨hget, ((h.pending k r hget).undecided_iff hq hprepared happend).2 hkept⟩
      · rintro ⟨hget, hnone⟩
        exact ⟨hget, ((h.pending k r hget).undecided_iff hq hprepared happend).1 hnone⟩

theorem pending_undecided_sample : ∃ s key request,
    Reaches .empty Sample.dnspython (fun _ => True) (System.start Sample.loaded) s ∧
    s.daemon.queue.items.get? key = some request ∧ matchingAction .empty request s.daemon.ctx.rules = .ok none := by
  have hrun := (Relation.ReflTransGen.single (@Sample.mapped_step (fun _ => True) trivial)).tail
    (Sample.asked_step fun _ => True)
  have h := (pending_undecided Sample.load_empty hrun).1 _ _ Sample.asked_pending
  exact ⟨Sample.asked, _, _, hrun, Sample.asked_pending, h.2⟩

/-! ### The table -/

theorem Installed.step {s s' : System} (h : SystemInvariant sv lib config s) (hi : Installed sv s.daemon.ctx)
    (hstep : Step sv lib Io.Works s s') : Installed sv s'.daemon.ctx := by
  cases hstep with
  | identify parsed =>
    rw [System.after, identifySource_leaves h.sources h.known]
    exact hi
  | prompt hr =>
    rename_i request
    rcases queuePrompt_leaves h.known request with hsame | ⟨-, -, hqueue⟩
    · rw [System.after, hsame]
      exact hi
    · rw [System.after, hqueue]
      exact hi
  | fetch hnext => exact hi
  | discard hmem => exact hi
  | answer hio hmem he hp =>
    -- an answer that is not current or not saved leaves the rules alone
    obtain ⟨hq, hprepared⟩ := (h.shown _ _ hmem).prepared he hp
    rw [System.after]
    rcases saveDecision_leaves sv _ s.daemon _ hprepared with
      ⟨-, hsame⟩ | ⟨-, queue, hqueue, ⟨-, hleaves⟩ | ⟨ctx', hsave, hleaves⟩⟩
    · rw [hsame]
      exact hi
    · rw [hleaves]
      exact hi
    · rw [hleaves]
      exact (h.toInvariant.saveRule hq hprepared hqueue hsave).installed_reloaded hio
  | refresh now hio hquery =>
    rcases h.toInvariant.publishes hquery _ now with hsame | ⟨d', hd', hleaves⟩
    · rw [System.after, hsame]
      exact hi
    · rw [System.after, hleaves]
      exact hd'.installed_reloaded hio
  | require now hio hquery =>
    obtain ⟨d', hd', hleaves⟩ := h.toInvariant.publishesRequired hquery _ now
    rw [System.after, hleaves]
    exact hd'.installed_reloaded hio
  | hints responses qnames => exact hi

/-- Once the map is there, the table in the kernel is that of the policy in memory, whatever happens, and every known
source has an entry in the rules. -/
theorem firewall_follows_policy {dir : RulesDir} {ctx : Runtime} {s s' : System} {first : Io}
    {answer : Except PyError String} {new : SourceMap} {now : Rat}
    (hload : (loadPolicyWithoutSources sv lib io config).run (Runtime.initial dir) = .ok () ctx)
    (hrun : Reaches sv lib Io.Works (System.start ctx) s) (hfirst : first.Works)
    (hquery : queryDom0Sources answer s.daemon.ctx.config = .ok new)
    (hrun' : Reaches sv lib Io.Works (s.after (publishRequiredSources sv lib first new now)) s') :
    Installed sv s'.daemon.ctx ∧ ∀ source ∈ s'.daemon.ctx.sources.byName.keys, source ∈ s'.daemon.ctx.rules.keys := by
  have h := (invariant_start hload).run hrun
  have hstep : Step sv lib Io.Works s (s.after (publishRequiredSources sv lib first new now)) :=
    .require now hfirst hquery
  suffices hboth : SystemInvariant sv lib config s' ∧ Installed sv s'.daemon.ctx from ⟨hboth.2, hboth.1.known⟩
  induction hrun' with
  | refl =>
    refine ⟨h.step hstep, ?_⟩
    obtain ⟨d', hd', hleaves⟩ := h.toInvariant.publishesRequired hquery first now
    rw [System.after, hleaves]
    exact hd'.installed_reloaded hfirst
  | tail _ hlast ih => exact ⟨ih.1.step hlast, ih.2.step ih.1 hlast⟩

theorem firewall_follows_policy_sample :
    Installed .empty Sample.answered.daemon.ctx ∧ "work" ∈ Sample.answered.daemon.ctx.rules.keys := by
  have h := firewall_follows_policy Sample.load_empty .refl Sample.works_works Sample.query_oneVm
    (Sample.reaches_answered Sample.works_works)
  exact ⟨h.1, h.2 "work" (by decide +kernel)⟩

/-! ### Restarts -/

/-- A directory that loads, loads without the files of numbered disposables. -/
theorem exists_loadPolicy {dir : RulesDir} {loaded : Rules}
    (h : loadRules sv lib io.resolver dir config.defaultDisposableVmName = .ok loaded) :
    ∃ ctx, (loadPolicyWithoutSources sv lib io config).run (Runtime.initial dir) = .ok () ctx := by
  let cleaned := cleanupNumberedDispvmFiles { Runtime.initial dir with config }
  have hkept : ∀ stem text, cleaned.rulesDir.get? stem = some text → dir.get? stem = some text := by
    intro stem text hget
    have hget : (dir.filterKeys _).get? stem = some text := hget
    rw [Dict.get?_filterKeys] at hget
    split at hget
    · exact hget
    · cases hget
  obtain ⟨rules, hrules⟩ : ∃ rules, loadRules sv lib io.resolver cleaned.rulesDir config.defaultDisposableVmName =
      .ok rules := by
    refine exists_loadRules fun stem text hget => ?_
    obtain ⟨data, hdata, -⟩ := (loadRules_get? h).1 stem text (hkept stem text hget)
    exact ⟨data, hdata⟩
  exact ⟨{ cleaned with rules }, loadPolicy_ok hrules⟩

/-- From any directory that loads, and whatever happens, the directory loads as the policy in memory.  A file is a tree
here; what an answer does to one that names a list twice is said in `OneList`. -/
theorem directory_follows_policy {dir : RulesDir} {loaded : Rules}
    (hdir : loadRules sv lib io.resolver dir config.defaultDisposableVmName = .ok loaded) :
    ∃ ctx, (loadPolicyWithoutSources sv lib io config).run (Runtime.initial dir) = .ok () ctx ∧
      ∀ s, Reaches sv lib (fun _ => True) (System.start ctx) s →
        ∀ resolver, AnswersAlike resolver s.daemon.ctx.rules →
          ∃ reloaded, loadRules sv lib resolver s.daemon.ctx.rulesDir config.defaultDisposableVmName = .ok reloaded ∧
            ∀ request, matchingAction sv request reloaded = matchingAction sv request s.daemon.ctx.rules := by
  obtain ⟨ctx, hload⟩ := exists_loadPolicy hdir
  exact ⟨ctx, hload, fun s hrun resolver halike => ((invariant_start hload).run hrun).stored.reload halike⟩

end QubesSnitch
