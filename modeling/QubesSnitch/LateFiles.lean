import QubesSnitch.DaemonRuns
import QubesSnitch.Refreshes

/-!
# Rule files that appear late

Rules come into memory in three ways.  Those that are loaded at the start and those of saved answers have the addresses
of their host names.  A source that appears while the daemon runs gets the rules of its file as they were checked,
without addresses, and the first use of a host name among them raises.

Here valid rule files may appear at any time (`LateStep`).  As long as no refresh brings a source whose file has a host
name (`BringsNames`), every host-name rule in memory has addresses, the table renders, and matching raises nothing
(`hostnames_resolved`).
-/

namespace QubesSnitch

section Steps

variable (sv : Services) (lib : DnsPython)

/-- Every rule with a host name has addresses. -/
def Resolved (rules : Rules) : Prop :=
  ∀ source sourceRules, rules.get? source = some sourceRules → ∀ rule ∈ sourceRules.ip, ∀ qname ips,
    rule.dest = .dns qname ips → ∃ x xs, ips = some (x :: xs)

/-- A map has a source without an entry in the rules, whose file has a rule with `dest_dns`. -/
def BringsNames (d : Daemon) (new : SourceMap) : Prop :=
  ∃ s ∈ new.byName.keys, s ∉ d.ctx.rules.keys ∧ ∃ text data, d.ctx.rulesDir.get? s = some text ∧
    readRuleFile sv lib s text = .ok data ∧ ∃ rule ∈ data.rules4, ∃ qname ips, rule.dest = .dns qname ips

/-- A step of the daemon, or a valid rule file that appears; a map is published where it is `allowed`. -/
inductive LateStep (allowed : Daemon → SourceMap → Prop) (s : System) : System → Prop
  | file {stem : String} {text : RuleText} {data : RuleFile} (hnew : s.daemon.ctx.rulesDir.get? stem = none)
      (hread : readRuleFile sv lib stem text = .ok data) :
      LateStep allowed s { s with daemon.ctx.rulesDir := s.daemon.ctx.rulesDir.set stem text }
  | refresh {io : Io} {answer : Except PyError String} {new : SourceMap} (now : Rat)
      (h : queryDom0Sources answer s.daemon.ctx.config = .ok new) (ha : allowed s.daemon new) :
      LateStep allowed s (s.after (publishSources sv lib io new now))
  | require {io : Io} {answer : Except PyError String} {new : SourceMap} (now : Rat)
      (h : queryDom0Sources answer s.daemon.ctx.config = .ok new) (ha : allowed s.daemon new) :
      LateStep allowed s (s.after (publishRequiredSources sv lib io new now))
  | other {s' : System} (h : Step sv lib (fun _ => True) s s')
      (hsources : s'.daemon.ctx.sources = s.daemon.ctx.sources) : LateStep allowed s s'

abbrev LateRun (allowed : Daemon → SourceMap → Prop) : System → System → Prop :=
  Relation.ReflTransGen (LateStep sv lib allowed)

/-- A daemon whose rules have the addresses of their names, and whose rule files are valid. -/
structure LateInvariant (config : Config) (d : Daemon) : Prop where
  configured : d.ctx.config = config
  sources : d.ctx.sources.Consistent config.defaultDisposableVmName
  known : ∀ s ∈ d.ctx.sources.byName.keys, s ∈ d.ctx.rules.keys
  sound : ∀ s sourceRules, d.ctx.rules.get? s = some sourceRules → sourceRules.Sound sv
  readable : ∀ s text, d.ctx.rulesDir.get? s = some text → ∃ data, readRuleFile sv lib s text = .ok data
  pending : ∀ key request, d.queue.items.get? key = some request → Question key request

end Steps

variable {sv : Services} {lib : DnsPython} {io : Io} {config : Config}

/-! ### Files that are read -/

theorem readRuleFile_valid {stem : String} {text : RuleText} {data : RuleFile}
    (h : readRuleFile sv lib stem text = .ok data) : data.Valid sv := by
  obtain ⟨entries, -, hdata⟩ := readRuleFile_eq_ok.1 h
  exact validateRuleFile_valid hdata

/-- The rules of a valid file are sound as they are if there is no host name among them. -/
theorem sound_of_read {stem : String} {text : RuleText} {data : RuleFile} (h : readRuleFile sv lib stem text = .ok data)
    (hnames : ¬ ∃ rule ∈ data.rules4, ∃ qname ips, rule.dest = .dns qname ips) :
    SourceRules.Sound sv ⟨data.rules4, data.dns⟩ := by
  have hvalid := readRuleFile_valid h
  refine ⟨fun rule hrule => ⟨(hvalid.rules4 rule hrule).1, fun qname ips hdest => ?_⟩, hvalid.dns⟩
  exact absurd ⟨rule, hrule, qname, ips, hdest⟩ hnames

/-- Where every file is valid, an entry can be made. -/
theorem ensureRuleEntry_readable {ctx : Runtime}
    (h : ∀ s text, ctx.rulesDir.get? s = some text → ∃ data, readRuleFile sv lib s text = .ok data) (source : String) :
    ∃ added ctx', (ensureRuleEntry sv lib source).run ctx = .ok added ctx' ∧ ctx'.rulesDir = ctx.rulesDir := by
  unfold EStateM.run ensureRuleEntry
  by_cases hkey : source ∈ ctx.rules.keys
  · exact ⟨false, ctx, if_pos hkey, rfl⟩
  · rw [if_neg hkey]
    cases hfile : ctx.rulesDir.get? source with
    | none => exact ⟨true, _, rfl, rfl⟩
    | some text =>
      obtain ⟨data, hdata⟩ := h source text hfile
      refine ⟨true, { ctx with rules := ctx.rules.set source ⟨data.rules4, data.dns⟩ }, ?_, rfl⟩
      simp only [hdata]

theorem ensureAll_readable {ctx : Runtime}
    (h : ∀ s text, ctx.rulesDir.get? s = some text → ∃ data, readRuleFile sv lib s text = .ok data) :
    ∃ ctx', (ensureAllKnownRuleEntries sv lib).run ctx = .ok () ctx' := by
  have hround : ∀ source ∈ ctx.sources.byName.keys, Triple (fun c : Runtime => c.rulesDir = ctx.rulesDir)
      (do let _ ← ensureRuleEntry sv lib source) (fun _ c => c.rulesDir = ctx.rulesDir) fun _ _ => False := by
    intro source _ c hc
    obtain ⟨added, c', hrun, hdir⟩ := @ensureRuleEntry_readable sv lib c (by rw [hc]; exact h) source
    rw [EStateM.run_bind, hrun]
    exact hdir.trans hc
  have hloop := Triple.forM _ hround ctx rfl
  cases hrun : (ensureAllKnownRuleEntries sv lib).run ctx with
  | ok u ctx' => exact ⟨ctx', rfl⟩
  | error e ctx' =>
    have hraised : (ctx.sources.byName.keys.forM fun source => do let _ ← ensureRuleEntry sv lib source :
      EStateM PyError Runtime Unit).run ctx = .error e ctx' := hrun
    rw [hraised] at hloop
    exact hloop.elim

/-- Where every file is valid, a reload leaves no source without an entry, whatever nft does. -/
theorem reloadPolicy_covers {ctx : Runtime}
    (h : ∀ s text, ctx.rulesDir.get? s = some text → ∃ data, readRuleFile sv lib s text = .ok data) :
    ∀ s ∈ ctx.sources.byName.keys, s ∈ ((reloadPolicy sv lib io).leaves ctx).rules.keys := by
  intro s hs
  obtain ⟨ctx', hrun⟩ := ensureAll_readable h
  have hload := loadNft_entered sv lib io [] ctx'
  rw [reloadPolicy, EStateM.leaves_bind_of_ok hrun]
  obtain ⟨sourceRules, hget⟩ := Dict.mem_keys_iff.1 (ensureAll_mem sv lib hrun s hs)
  exact Dict.mem_keys_of_get? (hload.kept s sourceRules hget)

/-! ### The invariant -/

namespace LateInvariant

variable {d : Daemon}

theorem fewer (h : LateInvariant sv lib config d) {queue : Queue}
    (hq : ∀ key request, queue.items.get? key = some request → d.queue.items.get? key = some request) :
    LateInvariant sv lib config { d with queue } :=
  ⟨h.configured, h.sources, h.known, h.sound, h.readable, fun key request hget => h.pending key request (hq key request hget)⟩

theorem known_usable (h : LateInvariant sv lib config d) : Nft.Known sv d.ctx.sources.byName d.ctx.rules := by
  intro s hs
  obtain ⟨sourceRules, hget⟩ := Dict.mem_keys_iff.1 (h.known s hs)
  exact ⟨sourceRules, hget, (h.sound s sourceRules hget).usable⟩

theorem sound_ofSource (h : LateInvariant sv lib config d) (s : String) : (d.ctx.rules.ofSource s).Sound sv := by
  unfold Rules.ofSource
  cases hget : d.ctx.rules.get? s with
  | none => exact .empty sv
  | some sourceRules => exact h.sound s sourceRules hget

/-- A purge leaves files that can be read. -/
theorem replaced_readable (h : LateInvariant sv lib config d) (new : SourceMap) (now : Rat) (gone : List String)
    {s : String} {text : RuleText} (hget : (replaced new now gone d).ctx.rulesDir.get? s = some text) :
    ∃ data, readRuleFile sv lib s text = .ok data := by
  rw [replaced, purgeAll_rulesDir] at hget
  split at hget
  · cases hget
  · exact h.readable s text hget

/-- A map may bring entries from files, but no names. -/
theorem replace (h : LateInvariant sv lib config d) {new : SourceMap}
    (hnew : new.Consistent config.defaultDisposableVmName) (hnames : ¬ BringsNames sv lib d new) (now : Rat)
    (gone : List String) : LateInvariant sv lib config { replaced new now gone d with
      ctx := (reloadPolicy sv lib io).leaves (replaced new now gone d).ctx } := by
  let d₁ : Daemon := { d with ctx.lastSourceRefresh := now, ctx.sources := new }
  have hrules : ∀ s, (replaced new now gone d).ctx.rules.get? s = if s ∈ gone then none else d.ctx.rules.get? s :=
    purgeAll_rules d₁ gone
  have hdir : ∀ s, (replaced new now gone d).ctx.rulesDir.get? s = if s ∈ gone then none else d.ctx.rulesDir.get? s :=
    purgeAll_rulesDir d₁ gone
  have hplace : (replaced new now gone d).ctx.sources = new := (purgeAll_frame d₁ gone).2.1
  have hreadable : ∀ s text, (replaced new now gone d).ctx.rulesDir.get? s = some text →
      ∃ data, readRuleFile sv lib s text = .ok data := fun s text => h.replaced_readable new now gone
  have hentered := reloadPolicy_entered sv lib io (replaced new now gone d).ctx
  obtain ⟨hconfig, hsources⟩ := replaced_map sv lib io new now gone d
  refine ⟨hconfig.trans h.configured, by rw [hsources]; exact hnew, fun s hs => ?_, fun s r hget => ?_, ?_, ?_⟩
  · rw [hsources, ← hplace] at hs
    exact reloadPolicy_covers hreadable s hs
  · by_cases hkey : s ∈ (replaced new now gone d).ctx.rules.keys
    · have hold := (hentered.get?_of_mem hkey).symm.trans hget
      rw [hrules] at hold
      split at hold
      · cases hold
      · exact h.sound s r hold
    -- the entry is new: there is no file, or its file is read now
    · rcases hentered.added s r hget with hold | ⟨hs, ⟨-, rfl⟩ | ⟨text, data, htext, hdata, rfl⟩⟩
      · exact absurd (Dict.mem_keys_of_get? hold) hkey
      · exact .empty sv
      · rw [hdir] at htext
        split at htext
        · cases htext
        · rename_i hkeep
          rw [hplace] at hs
          refine sound_of_read hdata fun hname => hnames ⟨s, hs, ?_, text, data, htext, hdata, hname⟩
          intro hmem
          obtain ⟨r', hr'⟩ := Dict.mem_keys_iff.1 hmem
          exact hkey (Dict.mem_keys_of_get? ((hrules s).trans (by rw [if_neg hkeep, hr'])))
  · rw [hentered.rulesDir_eq]
    exact hreadable
  · intro key request hget
    have hget : (purgeAll d₁ gone).queue.items.get? key = some request := hget
    rw [purgeAll_items] at hget
    split at hget
    · cases hget
    · exact h.pending key request hget

theorem publishSources (h : LateInvariant sv lib config d) {new : SourceMap}
    (hnew : new.Consistent config.defaultDisposableVmName) (hnames : ¬ BringsNames sv lib d new) (now : Rat) :
    LateInvariant sv lib config ((publishSources sv lib io new now).leaves d) := by
  cases hsame : new.same d.ctx.sources with
  | true =>
    rw [publishSources_same sv lib io hsame]
    exact ⟨h.configured, h.sources, h.known, h.sound, h.readable, h.pending⟩
  | false =>
    obtain ⟨gone, -, hleaves⟩ := @publishSources_replaces sv lib io _ now _ hsame
    rw [hleaves]
    exact h.replace hnew hnames now gone

theorem publishRequiredSources (h : LateInvariant sv lib config d) {new : SourceMap}
    (hnew : new.Consistent config.defaultDisposableVmName) (hnames : ¬ BringsNames sv lib d new) (now : Rat) :
    LateInvariant sv lib config ((publishRequiredSources sv lib io new now).leaves d) := by
  obtain ⟨gone, hleaves⟩ := publishRequiredSources_replaces sv lib io new now d
  rw [hleaves]
  exact h.replace hnew hnames now gone

theorem reloaded (h : LateInvariant sv lib config d) : LateInvariant sv lib config (reloaded sv io d) := by
  obtain ⟨text, htext⟩ := loadNft_leaves sv io d.ctx
  rw [QubesSnitch.reloaded, htext]
  exact ⟨h.configured, h.sources, h.known, h.sound, h.readable, h.pending⟩

theorem queuePrompt (h : LateInvariant sv lib config d) {request : Request} (hr : Promptable lib request) :
    LateInvariant sv lib config ((queuePrompt sv lib request).leaves d) := by
  rcases queuePrompt_leaves h.known request with hsame | ⟨-, -, hqueue⟩
  · rw [hsame]
    exact h
  · rw [hqueue]
    refine ⟨h.configured, h.sources, h.known, h.sound, h.readable, fun key r hget => ?_⟩
    rcases queueQuestion_items hget with hold | ⟨rfl, rfl⟩
    · exact h.pending key r hold
    · have hwell := hr.1.wellFormed
      exact ⟨rfl, ⟨hwell.packet, hwell.kind⟩, hr.2⟩

section Answers

variable {ctx' : Runtime} {key : QuestionKey} {prepared : Request} {decision : Decision}

/-- A saved answer is a sound rule in memory and leaves a valid file, whatever was in the file. -/
theorem appendRule {queue : Queue} (h : LateInvariant sv lib config d) (hq : Question key prepared)
    (hqueue : ∀ k r, queue.items.get? k = some r → d.queue.items.get? k = some r)
    (hsave : (appendRule sv lib io prepared decision).run d.ctx = .ok () ctx') :
    LateInvariant sv lib config ⟨queue, ctx'⟩ := by
  obtain ⟨data, rules, hdecided, rfl⟩ := appendRule_ok hsave
  obtain ⟨current, appended, -, happend, hdata⟩ := decidedPolicy_ok hdecided
  obtain ⟨sourceRules, hsound, -, rfl⟩ := appendDecision_sound hq.wellFormed (h.sound_ofSource _) happend
  refine ⟨h.configured, h.sources, fun s hs => Dict.mem_keys_set.2 (.inr (h.known s hs)), fun s r hget => ?_,
    fun s text hget => ?_, fun k r hget => h.pending k r (hqueue k r hget)⟩
  · have hget : (d.ctx.rules.set prepared.source sourceRules).get? s = some r := hget
    rw [Dict.get?_set] at hget
    split at hget
    · cases hget
      exact hsound
    · exact h.sound s r hget
  · have hget : (d.ctx.rulesDir.set prepared.source (.yaml (.map data.dump))).get? s = some text := hget
    rw [Dict.get?_set] at hget
    split at hget
    · rename_i hs
      cases hget
      rw [hs]
      have hread := validateRuleFile_dump lib (rulePath prepared.source) (validateRuleFile_valid hdata)
      exact ⟨data, readRuleFile_eq_ok.2 ⟨_, rfl, hread⟩⟩
    · exact h.readable s text hget

theorem saveDecision (h : LateInvariant sv lib config d) (hq : Question key prepared)
    (hp : Prepared lib prepared decision) :
    LateInvariant sv lib config ((saveDecision sv lib io key prepared decision).leaves d) := by
  rcases saveDecision_leaves sv io d key hp with
    ⟨-, hsame⟩ | ⟨-, queue, hqueue, ⟨-, hleaves⟩ | ⟨ctx', hsave, hleaves⟩⟩
  · rw [hsame]
    exact h
  · rw [hleaves]
    exact h.fewer fun k r hget => ((answered_items hqueue k r).1 hget).1
  · have hfewer : ∀ k r, queue.items.get? k = some r → d.queue.items.get? k = some r :=
      fun k r hget => ((answered_items hqueue k r).1 hget).1
    rw [hleaves]
    rcases saveRule_ok hsave with rfl | ⟨-, happend⟩
    · exact (h.fewer hfewer).reloaded
    · exact (h.appendRule hq hfewer happend).reloaded

end Answers

/-- A source that a refresh brings gets the rules of its file as they were checked. -/
theorem publishSources_brings (h : LateInvariant sv lib config d) {new : SourceMap} (now : Rat) {s : String}
    {text : RuleText} {data : RuleFile} (hs : s ∈ new.byName.keys) (hentry : s ∉ d.ctx.rules.keys)
    (htext : d.ctx.rulesDir.get? s = some text) (hdata : readRuleFile sv lib s text = .ok data) :
    ((QubesSnitch.publishSources sv lib io new now).leaves d).ctx.rules.get? s = some ⟨data.rules4, data.dns⟩ := by
  have hold : s ∉ d.ctx.sources.byName.keys := fun hmem => hentry (h.known s hmem)
  have hsame : new.same d.ctx.sources = false := by
    by_contra hsame
    exact hold (SourceMap.names_of_same (by simpa using hsame) hs)
  obtain ⟨gone, hgone, hleaves⟩ := @publishSources_replaces sv lib io _ now _ hsame
  -- a source without an entry that was not listed is not purged
  have hkeep : s ∉ gone := by
    intro hmem
    obtain ⟨-, ⟨hrules, -⟩ | ⟨ips, -, hips, -⟩⟩ := (hgone s).1 hmem
    · exact hentry hrules
    · exact hold (Dict.mem_keys_of_get? hips)
  let d₁ : Daemon := { d with ctx.lastSourceRefresh := now, ctx.sources := new }
  have hrules : (replaced new now gone d).ctx.rules.get? s = none := by
    rw [replaced, purgeAll_rules d₁, if_neg hkeep]
    exact Dict.get?_eq_none_iff.2 hentry
  have hfile : (replaced new now gone d).ctx.rulesDir.get? s = some text := by
    rw [replaced, purgeAll_rulesDir d₁, if_neg hkeep]
    exact htext
  have hplace : (replaced new now gone d).ctx.sources = new := (purgeAll_frame d₁ gone).2.1
  have hreadable : ∀ s text, (replaced new now gone d).ctx.rulesDir.get? s = some text →
      ∃ data, readRuleFile sv lib s text = .ok data := fun s text => h.replaced_readable new now gone
  have hentered := reloadPolicy_entered sv lib io (replaced new now gone d).ctx
  obtain ⟨r, hr⟩ := Dict.mem_keys_iff.1 (@reloadPolicy_covers sv lib io _ hreadable s (by rw [hplace]; exact hs))
  rw [hleaves]
  refine hr.trans ?_
  rcases hentered.added s r hr with hsome | ⟨-, ⟨hnone, -⟩ | ⟨text', data', htext', hdata', rfl⟩⟩
  · rw [hrules] at hsome
    cases hsome
  · rw [hfile] at hnone
    cases hnone
  · cases hfile.symm.trans htext'
    cases hdata.symm.trans hdata'
    rfl

/-- A map that brings names leaves them without addresses. -/
theorem not_resolved (h : LateInvariant sv lib config d) {new : SourceMap} (hnames : BringsNames sv lib d new)
    (now : Rat) : ¬ Resolved ((QubesSnitch.publishSources sv lib io new now).leaves d).ctx.rules := by
  obtain ⟨s, hs, hentry, text, data, htext, hdata, rule, hrule, qname, ips, hdest⟩ := hnames
  intro hresolved
  obtain ⟨x, xs, rfl⟩ := hresolved s _ (h.publishSources_brings now hs hentry htext hdata) rule hrule qname ips hdest
  -- the rules of a file have no addresses
  have hstored := ((readRuleFile_valid hdata).rules4 rule hrule).2
  have hnone := congrArg FlowRule.dest hstored
  rw [FlowRule.stored, hdest] at hnone
  cases hnone

end LateInvariant

/-! ### Runs -/

structure LateSystemInvariant (sv : Services) (lib : DnsPython) (config : Config) (s : System) : Prop
    extends LateInvariant sv lib config s.daemon where
  shown : ∀ key request, (key, request) ∈ s.shown → Question key request

theorem SystemInvariant.late {s : System} (h : SystemInvariant sv lib config s) : LateSystemInvariant sv lib config s where
  configured := h.configured
  sources := h.sources
  known := h.known
  sound := h.stored.sound
  readable := fun stem text hget => by
    obtain ⟨sourceRules, -, hholds⟩ := h.stored.saved stem text hget
    exact ⟨sourceRules.stored, hholds.read⟩
  pending := fun key request hget => (h.pending key request hget).toQuestion
  shown := h.shown

/-- A map of sources that all have entries brings no names. -/
theorem LateInvariant.not_bringsNames {d : Daemon} (h : LateInvariant sv lib config d) {new : SourceMap}
    (hnew : ∀ s ∈ new.byName.keys, s ∈ d.ctx.sources.byName.keys) : ¬ BringsNames sv lib d new := by
  rintro ⟨s, hs, hentry, -⟩
  exact hentry (h.known s (hnew s hs))

namespace LateSystemInvariant

variable {s s' : System}

/-- The sections of the daemon that leave the map in place. -/
theorem section_step (h : LateSystemInvariant sv lib config s) (hstep : Step sv lib (fun _ => True) s s')
    (hsources : s'.daemon.ctx.sources = s.daemon.ctx.sources) : LateSystemInvariant sv lib config s' := by
  cases hstep with
  | identify parsed =>
    refine ⟨?_, h.shown⟩
    rw [System.after, identifySource_leaves h.sources h.known]
    exact h.toLateInvariant
  | prompt hr => exact ⟨h.toLateInvariant.queuePrompt hr, h.shown⟩
  | fetch hnext =>
    refine ⟨h.toLateInvariant, fun key request hmem => ?_⟩
    rcases List.mem_cons.1 hmem with hnew | hold
    · cases hnew
      exact nextPendingRequest_question h.pending hnext
    · exact h.shown key request hold
  | discard hmem => exact ⟨h.fewer fun key request hget => discardPendingDecision_items hget, h.shown⟩
  | answer hio hmem he hp =>
    obtain ⟨hq, hprepared⟩ := (h.shown _ _ hmem).prepared he hp
    exact ⟨h.toLateInvariant.saveDecision hq hprepared, h.shown⟩
  | @refresh io answer new now hio hquery =>
    refine ⟨?_, h.shown⟩
    rw [h.configured] at hquery
    have hmap := (publishSources_map sv lib io new now s.daemon).2
    cases hsame : new.same s.daemon.ctx.sources with
    | true =>
      rw [System.after, publishSources_same sv lib io hsame]
      exact ⟨h.configured, h.sources, h.known, h.sound, h.readable, h.pending⟩
    | false =>
      -- another map would be in place now
      rw [hsame, if_neg Bool.false_ne_true] at hmap
      have hnew : new = s.daemon.ctx.sources := hmap.symm.trans hsources
      rw [hnew, SourceMap.same_refl] at hsame
      cases hsame
  | @require io answer new now hio hquery =>
    refine ⟨?_, h.shown⟩
    rw [h.configured] at hquery
    have hnew : new = s.daemon.ctx.sources :=
      (publishRequiredSources_map sv lib io new now s.daemon).2.symm.trans hsources
    refine h.toLateInvariant.publishRequiredSources (queryDom0Sources_consistent hquery) ?_ now
    exact h.toLateInvariant.not_bringsNames fun source hsource => hnew ▸ hsource
  | hints responses qnames =>
    exact ⟨⟨h.configured, h.sources, h.known, h.sound, h.readable, h.pending⟩, h.shown⟩

theorem step (h : LateSystemInvariant sv lib config s)
    (hstep : LateStep sv lib (fun d new => ¬ BringsNames sv lib d new) s s') : LateSystemInvariant sv lib config s' := by
  cases hstep with
  | @file stem text data hnew hread =>
    refine ⟨⟨h.configured, h.sources, h.known, h.sound, fun source file hget => ?_, h.pending⟩, h.shown⟩
    have hget : (s.daemon.ctx.rulesDir.set stem text).get? source = some file := hget
    rw [Dict.get?_set] at hget
    split at hget
    · rename_i hsource
      cases hget
      exact ⟨data, hsource ▸ hread⟩
    · exact h.readable source file hget
  | refresh now hquery hnames =>
    rw [h.configured] at hquery
    exact ⟨h.toLateInvariant.publishSources (queryDom0Sources_consistent hquery) hnames now, h.shown⟩
  | require now hquery hnames =>
    rw [h.configured] at hquery
    exact ⟨h.toLateInvariant.publishRequiredSources (queryDom0Sources_consistent hquery) hnames now, h.shown⟩
  | other hsection hsources => exact h.section_step hsection hsources

theorem run (h : LateSystemInvariant sv lib config s)
    (hrun : LateRun sv lib (fun d new => ¬ BringsNames sv lib d new) s s') : LateSystemInvariant sv lib config s' := by
  induction hrun with
  | refl => exact h
  | tail _ hstep ih => exact ih.step hstep

end LateSystemInvariant

/-- In every run in which no refresh brings a source with a host name in its file, whatever files appear, every
host-name rule has addresses, the table renders and matching raises nothing.  A refresh that does bring one leaves it
without. -/
theorem hostnames_resolved {dir : RulesDir} {ctx : Runtime} {s : System}
    (hload : (loadPolicyWithoutSources sv lib io config).run (Runtime.initial dir) = .ok () ctx)
    (hrun : LateRun sv lib (fun d new => ¬ BringsNames sv lib d new) (System.start ctx) s) :
    Resolved s.daemon.ctx.rules ∧
      (∃ table, Nft.renderNft sv s.daemon.ctx.sources.byName s.daemon.ctx.rules s.daemon.ctx.config nftTable queueNum =
        .ok table) ∧
      (∀ request, ∃ action, matchingAction sv request s.daemon.ctx.rules = .ok action) ∧
      ∀ io new now, BringsNames sv lib s.daemon new →
        ¬ Resolved ((publishSources sv lib io new now).leaves s.daemon).ctx.rules := by
  have h := (invariant_start hload).late.run hrun
  refine ⟨fun source sourceRules hget rule hrule => ?_, ?_, fun request => ?_, fun io new now hnames => ?_⟩
  · exact ((h.sound source sourceRules hget).usable rule hrule).resolved
  · obtain ⟨table, htable, -⟩ := Nft.renderNft_spec h.sources h.known_usable s.daemon.ctx.config nftTable queueNum
    exact ⟨table, htable⟩
  · exact matchingAction_total fun sourceRules hget => (h.sound request.source sourceRules hget).usable
  · exact h.toLateInvariant.not_resolved hnames now

namespace Sample

/-- A rule for a host name, as files have it. -/
def namedRule : FlowRule := ⟨.str "no PTR", .dns "example.org" none, .tcp, "443", .allow⟩

def namedFile : RuleText := .yaml (.map (⟨[namedRule], []⟩ : RuleFile).dump)

theorem read_namedFile : readRuleFile .empty dnspython "work" namedFile = .ok ⟨[namedRule], []⟩ := rfl

/-- No VM runs. -/
def noVms : System := (System.start loaded).after (publishRequiredSources .empty dnspython works .empty 0)

/-- The file of one appears. -/
def appeared : System := { noVms with daemon.ctx.rulesDir := noVms.daemon.ctx.rulesDir.set "work" namedFile }

/-- It is started. -/
def brought : System := appeared.after (publishSources .empty dnspython works oneVm 1)

theorem run_appeared (allowed : Daemon → SourceMap → Prop) (h : allowed (System.start loaded).daemon .empty) :
    LateRun .empty dnspython allowed (System.start loaded) appeared :=
  (Relation.ReflTransGen.single (.require 0 query_noVms h)).tail (.file rfl read_namedFile)

theorem not_bringsNames_noVms : ¬ BringsNames .empty dnspython (System.start loaded).daemon .empty := by
  rintro ⟨s, hs, -⟩
  cases hs

theorem invariant_appeared : LateInvariant .empty dnspython Sample.config appeared.daemon :=
  ((invariant_start load_empty).late.run (run_appeared _ not_bringsNames_noVms)).toLateInvariant

theorem brought_rules : brought.daemon.ctx.rules.get? "work" = some ⟨[namedRule], []⟩ :=
  invariant_appeared.publishSources_brings 1 (by decide +kernel) (by decide +kernel) rfl read_namedFile

theorem brought_sources : brought.daemon.ctx.sources = oneVm :=
  (publishSources_map .empty dnspython works oneVm 1 appeared.daemon).2.trans (if_neg (by decide +kernel))

/-- A name without addresses, and what the first packet and the table make of it. -/
theorem brought_unresolved :
    LateRun .empty dnspython (fun _ _ => True) (System.start loaded) brought ∧ ¬ Resolved brought.daemon.ctx.rules ∧
    matchingAction .empty request brought.daemon.ctx.rules = .error (.keyError "_resolved_dests") ∧
    Nft.renderNft .empty brought.daemon.ctx.sources.byName brought.daemon.ctx.rules brought.daemon.ctx.config nftTable
      queueNum = .error (.keyError "_resolved_dests") := by
  refine ⟨(run_appeared _ trivial).tail (.refresh 1 query_oneVm trivial), fun hresolved => ?_, ?_, ?_⟩
  · obtain ⟨x, xs, hnone⟩ := hresolved "work" _ brought_rules namedRule (by simp) "example.org" none rfl
    cases hnone
  · rw [matchingAction, show request.source = "work" from rfl, brought_rules]
    rfl
  · have hips : Nft.sourceIps oneVm.byName = [("work", work)] := rfl
    rw [Nft.renderNft, Nft.renderReplySection, brought_sources, hips, List.mapM_cons, Nft.rulesIp, brought_rules]
    rfl

/-- The name has an address. -/
def answersName : Io := { works with resolver := fun _ => .ok ["1.2.3.4"] }

def resolvedRule : FlowRule := { namedRule with dest := .dns "example.org" (some [server]) }

/-- The daemon starts with the file. -/
def namedStart : Runtime :=
  { loaded with rulesDir := ⟨[("work", namedFile)], by simp⟩, rules := ⟨[("work", ⟨[resolvedRule], []⟩)], by simp⟩ }

theorem resolve_name (path : String) : resolveDestDns answersName.resolver path "example.org" = .ok [server] := by
  have haddr : ipAddress ['1', '.', '2', '.', '3', '.', '4'] = some (.v4 server) := by decide +kernel
  simp [resolveDestDns, answersName, resolvedAddress, haddr, sortedAddresses, bind, Except.bind, pure, Except.pure]

theorem load_named : (loadPolicyWithoutSources .empty dnspython answersName Sample.config).run
    (Runtime.initial ⟨[("work", namedFile)], by simp⟩) = .ok () namedStart := by
  refine loadPolicy_ok ?_
  have hdir : (cleanupNumberedDispvmFiles
      { Runtime.initial ⟨[("work", namedFile)], by simp⟩ with config := Sample.config }).rulesDir.entries =
        [("work", namedFile)] := rfl
  have hread : loadRuleFile .empty dnspython Sample.config.defaultDisposableVmName ("work", namedFile) =
      .ok ("work", ⟨[namedRule], []⟩) := rfl
  have hnames : resolveDestDnsNames answersName.resolver (qnamePaths [(rulePath "work", namedRule)]) =
      .ok (.ofList [("example.org", [server])]) := by
    have hpaths : (qnamePaths [(rulePath "work", namedRule)]).entries = [("example.org", rulePath "work")] := rfl
    rw [resolveDestDnsNames, hpaths, List.mergeSort_singleton]
    simp only [List.mapM_cons, List.mapM_nil, resolve_name]
    rfl
  rw [loadRules, hdir, List.mergeSort_singleton]
  simp only [List.mapM_cons, List.mapM_nil, hread, bind, Except.bind, pure, Except.pure, List.flatMap_cons,
    List.flatMap_nil, List.map_cons, List.map_nil, List.append_nil, hnames]
  rfl

/-- The file of another VM, with a name as well, appears while that VM does not run. -/
def beside : System := { System.start namedStart with daemon.ctx.rulesDir := namedStart.rulesDir.set "mail" namedFile }

/-- The first one runs. -/
def namedVm : System := beside.after (publishRequiredSources .empty dnspython answersName oneVm 0)

theorem read_namedMail : readRuleFile .empty dnspython "mail" namedFile = .ok ⟨[namedRule], []⟩ := rfl

theorem not_bringsNames_oneVm : ¬ BringsNames .empty dnspython beside.daemon oneVm := by
  rintro ⟨s, hs, hnew, -⟩
  exact hnew hs

theorem run_namedVm : LateRun .empty dnspython (fun d new => ¬ BringsNames .empty dnspython d new) (System.start namedStart)
    namedVm := by
  have hfile : LateStep .empty dnspython (fun d new => ¬ BringsNames .empty dnspython d new) (System.start namedStart) beside :=
    .file rfl read_namedMail
  exact (Relation.ReflTransGen.single hfile).tail (.require 0 query_oneVm not_bringsNames_oneVm)

/-- A name that was resolved at the start has its address, to be matched and rendered. -/
theorem hostnames_resolved_named : namedVm.daemon.ctx.rules.get? "work" = some ⟨[resolvedRule], []⟩ ∧
    Resolved namedVm.daemon.ctx.rules :=
  ⟨rfl, (hostnames_resolved load_named run_namedVm).1⟩

end Sample

end QubesSnitch
