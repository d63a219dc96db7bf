import QubesSnitch.Enforcement

/-!
# Answers last

A daemon runs, ends in any state and is started again with the rules directory that it has left, any number of times.
What policy has an answer to, it answers alike ever after, for all sources but the numbered disposables
(`decided_lives`): sections append rules behind those that are there, a refresh takes away only disposables, and a
start reads back what was in memory.

So what the user has answered is not asked again, and the kernel follows the answer where it has the policy as it is
meant (`answer_lasts`).
-/

namespace QubesSnitch

variable {sv : Services} {lib : DnsPython} {io : Io} {config : Config} {allowed : Io → Prop}

/-! ### Lives -/

/-- The daemon goes on, or it is started again where it has ended; the names of the rules still have their addresses
then. -/
inductive LifeStep (sv : Services) (lib : DnsPython) (config : Config) (allowed : Io → Prop) (s : System) : System → Prop
  | step {s' : System} (h : Step sv lib allowed s s') : LifeStep sv lib config allowed s s'
  | restart {io : Io} {ctx : Runtime} (halike : AnswersAlike io.resolver s.daemon.ctx.rules)
      (hload : (loadPolicyWithoutSources sv lib io config).run (Runtime.initial s.daemon.ctx.rulesDir) = .ok () ctx) :
      LifeStep sv lib config allowed s (System.start ctx)

/-- The states that a daemon comes to when it is started again and again. -/
abbrev Lives (sv : Services) (lib : DnsPython) (config : Config) (allowed : Io → Prop) : System → System → Prop :=
  Relation.ReflTransGen (LifeStep sv lib config allowed)

theorem SystemInvariant.lives {s s' : System} (h : SystemInvariant sv lib config s)
    (hlife : Lives sv lib config allowed s s') : SystemInvariant sv lib config s' := by
  induction hlife with
  | refl => exact h
  | tail _ hstep ih =>
    cases hstep with
    | step hstep => exact ih.step hstep
    | restart _ hload => exact invariant_start hload

/-! ### What is decided -/

theorem ofSource_cover (rules : Rules) (names : List String) (source : String) :
    (rules.cover names).ofSource source = rules.ofSource source := by
  rw [Rules.ofSource, Rules.cover_get?, Rules.ofSource]
  cases rules.get? source with
  | some sourceRules => rfl
  | none => by_cases h : source ∈ names <;> simp [h]

/-- Requests are answered by the rules of their source. -/
theorem matchingAction_eq_of_ofSource {rules rules' : Rules} {request : Request}
    (h : rules'.ofSource request.source = rules.ofSource request.source) :
    matchingAction sv request rules' = matchingAction sv request rules := by
  rw [matchingAction_ofSource, matchingAction_ofSource, h]

theorem reloaded_rules (sv : Services) (io : Io) (d : Daemon) : (reloaded sv io d).ctx.rules = d.ctx.rules := by
  obtain ⟨text, htext⟩ := loadNft_leaves sv io d.ctx
  rw [reloaded, htext]

section Refresh

variable {d : Daemon} {source : String}

/-- A purge of disposables leaves the other sources their rules. -/
theorem ofSource_refreshed (new : SourceMap) (now : Rat) {gone : List String} (h : source ∉ gone) :
    (refreshed new now gone d).ctx.rules.ofSource source = d.ctx.rules.ofSource source := by
  refine (ofSource_cover _ _ source).trans ?_
  rw [Rules.ofSource, purgeAll_rules, if_neg h]
  rfl

theorem not_mem_vanishedDispvms {ctx : Runtime} (h : isNumberedDispvm source = false) : source ∉ vanishedDispvms ctx := by
  simp [vanishedDispvms, h]

theorem not_mem_cleanedDispvms {old : Nft.SourcesByName} (h : isNumberedDispvm source = false) :
    source ∉ cleanedDispvms old d := by
  rw [cleanedDispvms, List.mem_append, not_or]
  refine ⟨?_, not_mem_vanishedDispvms h⟩
  rw [reusedDispvms, List.mem_map]
  rintro ⟨entry, hentry, rfl⟩
  simp [h] at hentry

variable (sv lib io)

theorem publishSources_ofSource (hfiles : ∀ s, s ∉ d.ctx.rules.keys → d.ctx.rulesDir.get? s = none)
    (h : isNumberedDispvm source = false) (new : SourceMap) (now : Rat) :
    ((publishSources sv lib io new now).leaves d).ctx.rules.ofSource source = d.ctx.rules.ofSource source := by
  cases hsame : new.same d.ctx.sources with
  | true =>
    have hrun : (publishSources sv lib io new now).run d = .ok false { d with ctx.lastSourceRefresh := now } := by
      simp [EStateM.run, publishSources, hsame]
    rw [EStateM.leaves_of_ok hrun]
  | false =>
    have hgone := @not_mem_cleanedDispvms (withMap new now d) source d.ctx.sources.byName h
    have hclean := @purgeAll_no_file (withMap new now d) (cleanedDispvms d.ctx.sources.byName (withMap new now d)) hfiles
    rw [EStateM.leaves, publishSources_changed sv lib io hsame, ← EStateM.leaves, onCtx_leaves, EStateM.leaves_bind_pure,
      ← onCtx_leaves, reloadPolicy_leaves sv lib io hclean, reloaded_rules]
    exact ofSource_refreshed new now hgone

theorem publishRequiredSources_ofSource (hfiles : ∀ s, s ∉ d.ctx.rules.keys → d.ctx.rulesDir.get? s = none)
    (h : isNumberedDispvm source = false) (new : SourceMap) (now : Rat) :
    ((publishRequiredSources sv lib io new now).leaves d).ctx.rules.ofSource source = d.ctx.rules.ofSource source := by
  have hgone := @not_mem_vanishedDispvms source (withMap new now d).ctx h
  have hclean := @purgeAll_no_file (withMap new now d) (vanishedDispvms (withMap new now d).ctx) hfiles
  have hleaves : (publishRequiredSources sv lib io new now).leaves d =
      (onCtx (reloadPolicy sv lib io)).leaves (purgeAll (withMap new now d) (vanishedDispvms (withMap new now d).ctx)) := rfl
  rw [hleaves, reloadPolicy_leaves sv lib io hclean, reloaded_rules]
  exact ofSource_refreshed new now hgone

end Refresh

/-- What was decided before an answer is decided after it. -/
theorem decided_saveRule {ctx ctx' : Runtime} {prepared request : Request} {decision : Decision} {action : Action}
    (hprepared : prepared.WellFormed) (hr : request.WellFormed)
    (h : (saveRule sv lib io prepared decision).run ctx = .ok () ctx')
    (haction : matchingAction sv request ctx.rules = .ok (some action)) :
    matchingAction sv request ctx'.rules = .ok (some action) := by
  rcases saveRule_ok h with rfl | ⟨-, happend⟩
  · exact haction
  · obtain ⟨data, rules, hdecided, rfl⟩ := appendRule_ok happend
    obtain ⟨current, appended, -, happend, -⟩ := decidedPolicy_ok hdecided
    rw [appendDecision_exact sv hprepared happend hr, haction]
    rfl

section Decided

variable {s s' : System} {request : Request} {action : Action}

theorem decided_step (h : SystemInvariant sv lib config s) (hr : request.WellFormed)
    (hsource : isNumberedDispvm request.source = false) (hstep : Step sv lib allowed s s')
    (haction : matchingAction sv request s.daemon.ctx.rules = .ok (some action)) :
    matchingAction sv request s'.daemon.ctx.rules = .ok (some action) := by
  cases hstep with
  | identify parsed =>
    rw [System.after, identifySource_leaves h.sources h.known]
    exact haction
  | prompt hask =>
    rename_i asked
    rcases queuePrompt_leaves h.known asked with hsame | ⟨-, -, hqueue⟩
    · rw [System.after, hsame]
      exact haction
    · rw [System.after, hqueue]
      exact haction
  | fetch hnext => exact haction
  | discard hmem => exact haction
  | answer hio hmem he hp =>
    obtain ⟨hq, hprepared⟩ := (h.shown _ _ hmem).prepared he hp
    rw [System.after]
    rcases saveDecision_leaves sv _ s.daemon _ hprepared with
      ⟨-, hsame⟩ | ⟨-, queue, -, ⟨-, hleaves⟩ | ⟨ctx', hsave, hleaves⟩⟩
    · rw [hsame]
      exact haction
    · rw [hleaves]
      exact haction
    · rw [hleaves, reloaded_rules]
      exact decided_saveRule hq.wellFormed hr hsave haction
  | refresh now hio hquery =>
    rw [System.after, matchingAction_eq_of_ofSource
      (publishSources_ofSource sv lib _ (fun _ => h.stored.no_file) hsource _ now)]
    exact haction
  | require now hio hquery =>
    rw [System.after, matchingAction_eq_of_ofSource
      (publishRequiredSources_ofSource sv lib _ (fun _ => h.stored.no_file) hsource _ now)]
    exact haction
  | hints responses qnames => exact haction

/-- A start reads back the policy of all sources but the numbered disposables. -/
theorem decided_restart {dir : RulesDir} {rules : Rules} {ctx : Runtime}
    (hstored : Stored sv lib config.defaultDisposableVmName rules dir) (halike : AnswersAlike io.resolver rules)
    (hload : (loadPolicyWithoutSources sv lib io config).run (Runtime.initial dir) = .ok () ctx)
    (hsource : isNumberedDispvm request.source = false) :
    matchingAction sv request ctx.rules = matchingAction sv request rules := by
  let gone := dir.keys.filter isNumberedDispvm
  have hkept : ∀ {ν : Type} (table : Dict String ν) s,
      (table.filterKeys (· ∉ gone)).get? s = if s ∈ gone then none else table.get? s := by
    intro ν table s
    rw [Dict.get?_filterKeys]
    by_cases hs : s ∈ gone <;> simp [hs]
  have hclean : Stored sv lib config.defaultDisposableVmName (rules.filterKeys (· ∉ gone)) (dir.filterKeys (· ∉ gone)) :=
    hstored.without (hkept rules) (hkept dir)
  have halike' : AnswersAlike io.resolver (rules.filterKeys (· ∉ gone)) := by
    intro s sourceRules hget
    rw [hkept] at hget
    split at hget
    · cases hget
    · exact halike s sourceRules hget
  obtain ⟨loaded, hloaded, hsame⟩ := hclean.reload halike'
  have hrules : ctx.rules = loaded := by
    have hpolicy := @loadPolicy_ok sv lib io config dir loaded hloaded
    rw [hpolicy] at hload
    cases hload
    rfl
  rw [hrules, hsame]
  refine matchingAction_eq_of_ofSource ?_
  rw [Rules.ofSource, hkept, if_neg (by simp [gone, hsource]), Rules.ofSource]

/-- What is decided stays decided. -/
theorem decided_lives (h : SystemInvariant sv lib config s) (hr : request.WellFormed)
    (hsource : isNumberedDispvm request.source = false) (hlife : Lives sv lib config allowed s s')
    (haction : matchingAction sv request s.daemon.ctx.rules = .ok (some action)) :
    matchingAction sv request s'.daemon.ctx.rules = .ok (some action) := by
  induction hlife with
  | refl => exact haction
  | tail hbefore hstep ih =>
    have hinv := h.lives hbefore
    cases hstep with
    | step hstep => exact decided_step hinv hr hsource hstep ih
    | restart halike hload =>
      rw [System.start, decided_restart hinv.stored halike hload hsource]
      exact ih

end Decided

/-! ### The kernel -/

/-- Where nft reads the destinations of the policy as the checks do and the chain of the source is its own, the kernel,
with every limiter under its rate, gives the packets of a flow in its own direction and of a known state its action, or
queues them as DNS, and asks about none of the others. -/
def KernelFollows (sv : Services) (ctx : Runtime) (request : Request) (action : Action) : Prop :=
  ∀ table, Nft.renderNft sv ctx.sources.byName ctx.rules ctx.config nftTable queueNum = .ok table →
    Nft.policyAlike ctx.sources.byName ctx.rules → Nft.chainOwner ctx.sources.byName request.source = request.source →
      ∀ packet saddr daddr proto, packet.addrs = some (saddr, daddr) →
        ctx.sources.byIp.get? saddr = some request.source → packet.proto = .flow proto →
          packet.ctDirection = .original → packet.ctState ≠ .invalid →
            Nft.Asks request request.source daddr proto packet.dport →
              table.eval (fun _ => true) .forward packet = some (if Nft.IsDns packet then .queue else action.verdict)

theorem SystemInvariant.kernelFollows {s : System} (h : SystemInvariant sv lib config s) {request : Request}
    {action : Action} (haction : matchingAction sv request s.daemon.ctx.rules = .ok (some action)) :
    KernelFollows sv s.daemon.ctx request action := by
  intro table htable halike howner packet saddr daddr proto haddrs hs hproto horig hvalid hasks
  obtain ⟨table', htable', hspec⟩ := Nft.renderNft_spec h.sources h.known_sound s.daemon.ctx.config nftTable queueNum
  obtain rfl : table' = table := Except.ok.inj (htable'.symm.trans htable)
  obtain ⟨ips, hips, -⟩ := (h.sources.byIp_iff saddr request.source).1 hs
  have hkey := Dict.mem_keys_of_get? hips
  obtain ⟨sourceRules, hget, husable⟩ := h.known_sound request.source hkey
  have hfirst := matchingAction_flow hget husable hasks.hasFlow hasks.kind
  rw [haction, Except.ok.injEq] at hfirst
  have hread : firstAction sv (s.daemon.ctx.rules.asRead.ofSource request.source).ip
      ⟨daddr, proto, Nft.remotePort proto packet.dport⟩ = some action := by
    have hanswer := @Nft.flowAnswer_asRead sv s.daemon.ctx.rules _ halike _ hkey
      (some ⟨daddr, proto, Nft.remotePort proto packet.dport⟩)
    simp only [Nft.flowAnswer, Option.bind_some] at hanswer
    rw [hanswer, Rules.ofSource, hget, Option.getD_some, hfirst]
  rw [hspec.eval_outgoing (Nft.policyReadable_of_alike halike) haddrs hs horig hvalid hproto, howner, hread]
  rfl

/-! ### Answers -/

/-- A saved answer has its action for what it covers, as far as that was open. -/
theorem decided_answer {ctx ctx' : Runtime} {prepared request : Request} {decision : Decision}
    (hprepared : prepared.WellFormed) (hr : request.WellFormed)
    (h : (appendRule sv lib io prepared decision).run ctx = .ok () ctx')
    (hcovered : Covered prepared decision (savedAddresses ctx'.rules prepared.source) request)
    (hopen : matchingAction sv request ctx.rules = .ok none) :
    matchingAction sv request ctx'.rules = .ok (some decision.action) := by
  obtain ⟨data, rules, hdecided, rfl⟩ := appendRule_ok h
  obtain ⟨current, appended, -, happend, -⟩ := decidedPolicy_ok hdecided
  rw [appendDecision_exact sv hprepared happend hr, hopen, decide_eq_true hcovered]
  rfl

/-- What the user has answered lasts.  Once an answer for a source that is no numbered disposable is saved, everything it
covers that was open has its action in every later state, through all packets, answers and refreshes and any number of
restarts at which the names of the rules still have their addresses, and the table of that state follows it as
`KernelFollows` says. -/
theorem answer_lasts {dir : RulesDir} {ctx ctx' : Runtime} {s s' : System} {key : QuestionKey}
    {request enriched prepared : Request} {decision : Decision}
    (hload : (loadPolicyWithoutSources sv lib io config).run (Runtime.initial dir) = .ok () ctx)
    (hlife : Lives sv lib config (fun _ => True) (System.start ctx) s)
    (hshown : (key, request) ∈ s.shown) (he : Enriches request enriched)
    (hp : prepareHostnameDecision lib io.resolver enriched decision = .ok prepared)
    (hcurrent : promptCurrent key prepared s.daemon.queue)
    (hsource : promptSourceCurrent s.daemon.ctx.sources prepared)
    (hsave : (saveRule sv lib io prepared decision).run s.daemon.ctx = .ok () ctx')
    (hlasts : isNumberedDispvm prepared.source = false)
    (hlife' : Lives sv lib config (fun _ => True) (s.after (saveDecision sv lib io key prepared decision)) s')
    {r : Request} (hr : r.WellFormed) (hcovered : Covered prepared decision (savedAddresses ctx'.rules prepared.source) r)
    (hopen : matchingAction sv r s.daemon.ctx.rules = .ok none) :
    matchingAction sv r s'.daemon.ctx.rules = .ok (some decision.action) ∧
      KernelFollows sv s'.daemon.ctx r decision.action := by
  have h := (invariant_start hload).lives hlife
  obtain ⟨hq, hprepared⟩ := (h.shown key request hshown).prepared he hp
  have happend : (appendRule sv lib io prepared decision).run s.daemon.ctx = .ok () ctx' := by
    rw [EStateM.run, saveRule, hsource] at hsave
    exact hsave
  have hdecided := decided_answer hq.wellFormed hr happend hcovered hopen
  have hafter : matchingAction sv r (s.after (saveDecision sv lib io key prepared decision)).daemon.ctx.rules =
      .ok (some decision.action) := by
    rcases saveDecision_leaves sv io s.daemon key hprepared with
      ⟨hstale, -⟩ | ⟨-, queue, -, ⟨⟨e, herror⟩, -⟩ | ⟨ctx'', hsaved, hleaves⟩⟩
    · rw [hcurrent] at hstale
      cases hstale
    · rw [hsave] at herror
      cases herror
    · rw [hsave] at hsaved
      cases hsaved
      rw [System.after, hleaves, reloaded_rules]
      exact hdecided
  have hnumbered : isNumberedDispvm r.source = false := by
    unfold Covered at hcovered
    split at hcovered
    · rw [hcovered.2.1]
      exact hlasts
    · rw [← questionKey_source, hcovered, questionKey_source]
      exact hlasts
  have hinv : SystemInvariant sv lib config (s.after (saveDecision sv lib io key prepared decision)) :=
    h.step (@Step.answer sv lib (fun _ => True) s io key request enriched prepared decision trivial hshown he hp)
  have hlast := decided_lives hinv hr hnumbered hlife' hafter
  exact ⟨hlast, (hinv.lives hlife').kernelFollows hlast⟩

namespace Sample

theorem lives_fetched : Lives .empty dnspython config (fun _ => True) (System.start loaded) fetched :=
  ((Relation.ReflTransGen.single (.step (@mapped_step (fun _ => True) trivial))).tail
    (.step (asked_step fun _ => True))).tail (.step (fetched_step fun _ => True))

/-- No rule of the sample has a name. -/
theorem answersAlike_answered (resolver : Resolver) : AnswersAlike resolver answered.daemon.ctx.rules := by
  intro s sourceRules hget rule hrule qname ips hdest
  rw [answered_rules] at hget
  obtain ⟨rfl, rfl⟩ : s = "work" ∧ sourceRules = ⟨[savedRule], []⟩ := by
    simpa [Dict.get?_eq_some_iff] using hget
  rw [List.mem_singleton.1 hrule] at hdest
  cases hdest

end Sample

/-- What the user has allowed is allowed by the daemon that is started next. -/
theorem answer_lasts_sample : ∃ ctx,
    (loadPolicyWithoutSources .empty Sample.dnspython Sample.works Sample.config).run
      (Runtime.initial Sample.answered.daemon.ctx.rulesDir) = .ok () ctx ∧
    matchingAction .empty Sample.request ctx.rules = .ok (some .allow) := by
  have hinv := (invariant_start Sample.load_empty).lives (Sample.lives_fetched.tail
    (.step (@Sample.answered_step (fun _ => True) trivial)))
  obtain ⟨reloaded, hreloaded, -⟩ := hinv.stored.reload (Sample.answersAlike_answered Sample.works.resolver)
  obtain ⟨ctx, hctx⟩ := @exists_loadPolicy .empty Sample.dnspython Sample.works Sample.config _ _ hreloaded
  refine ⟨ctx, hctx, ?_⟩
  have hlife : Lives .empty Sample.dnspython Sample.config (fun _ => True) Sample.answered (System.start ctx) :=
    .single (.restart (Sample.answersAlike_answered Sample.works.resolver) hctx)
  obtain ⟨ctx', hsave⟩ : ∃ ctx', (saveRule .empty Sample.dnspython Sample.works Sample.prompted .allow).run
    Sample.fetched.daemon.ctx = .ok () ctx' := ⟨_, rfl⟩
  have hwell := (Sample.built Sample.dnspython).wellFormed
  exact (answer_lasts Sample.load_empty Sample.lives_fetched (List.mem_singleton.2 rfl) (.inl rfl) rfl rfl rfl hsave
    (by decide +kernel) hlife hwell rfl rfl).1

end QubesSnitch
