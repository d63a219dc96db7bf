import QubesSnitch.OneList
import QubesSnitch.DaemonRuns

/-!
# Restarts

Prompts and answers change the objects in memory and the rule files.  In every state that they lead to, from any
directory that loads, the directory loads as the policy in memory, and an answer is saved unless the file of its source
has one list under both keys (`restart_keeps_policy`).  Such a file can only be one of the start: a file that has been
written has a rule.
-/

namespace QubesSnitch

variable {sv : Services} {lib : DnsPython} {config : Config} {dflt : String}

/-! ### The policy in memory -/

/-- Mappings are equal if they have the same values under the same keys. -/
structure RuleObject.Equal (r r' : RuleObject) : Prop where
  entries : ∀ key, lookupKey r.entries key = lookupKey r'.entries key
  resolvedDests : r.resolvedDests = r'.resolvedDests

/-- The element is the object of a rule. -/
inductive ItemValue.Says : ItemValue → NewRule → Prop
  | rule {r : RuleObject} {new : NewRule} (h : r.Equal new.object) : Says (.rule r) new

/-- The lists of a source are those of its rules. -/
structure SourceValue.Says (v : SourceValue) (rules : SourceRules) : Prop where
  ip : List.Forall₂ ItemValue.Says v.ip (rules.ip.map .flow)
  dns : List.Forall₂ ItemValue.Says v.dns (rules.dns.map .dns)

/-- `ctx.RULES` is this policy. -/
def Store.Keeps (s : Store) (rules : Rules) : Prop :=
  ∀ source, Option.Rel SourceValue.Says (s.policy.get? source) (rules.get? source)

theorem SourceValue.Says.empty : SourceValue.Says ⟨[], []⟩ ⟨[], []⟩ := ⟨.nil, .nil⟩

theorem SourceValue.Says.push {v : SourceValue} {rules : SourceRules} (h : v.Says rules) (new : NewRule) :
    (v.push new.object new.key).Says (rules.add new) := by
  have hnew : List.Forall₂ ItemValue.Says [.rule new.object] [new] := .cons (.rule ⟨fun _ => rfl, rfl⟩) .nil
  cases new with
  | flow rule =>
    refine ⟨?_, h.dns⟩
    simp only [SourceRules.add, List.map_append, List.map_singleton]
    exact List.rel_append h.ip hnew
  | dns rule =>
    refine ⟨h.ip, ?_⟩
    simp only [SourceRules.add, List.map_append, List.map_singleton]
    exact List.rel_append h.dns hnew

namespace Store.Keeps

variable {s s' : Store} {rules : Rules}

theorem ofSource (h : s.Keeps rules) (source : String) :
    ((s.policy.get? source).getD ⟨[], []⟩).Says (rules.ofSource source) := by
  have hrel := h source
  unfold Rules.ofSource
  generalize s.policy.get? source = v at hrel
  generalize rules.get? source = sourceRules at hrel
  cases hrel with
  | none => exact .empty
  | some hsaid => exact hsaid

/-- Memory and policy have the same sources. -/
theorem mem_keys_iff (h : s.Keeps rules) (source : String) :
    source ∈ (s.heap.table s.rules).keys ↔ source ∈ rules.keys := by
  have hrel := h source
  generalize hget : rules.get? source = sourceRules at hrel
  rw [Store.policy, Heap.policy_get?] at hrel
  split at hrel
  · rename_i hmem
    cases hrel
    exact iff_of_true hmem (Dict.mem_keys_of_get? hget)
  · rename_i hmem
    cases hrel
    exact iff_of_false hmem (Dict.get?_eq_none_iff.1 hget)

/-- Another source may get other rules. -/
theorem set (h : s.Keeps rules) {source : String} {v : SourceValue} {sourceRules : SourceRules}
    (hsaid : v.Says sourceRules)
    (hpolicy : ∀ name, s'.policy.get? name = if name = source then some v else s.policy.get? name) :
    s'.Keeps (rules.set source sourceRules) := by
  intro name
  rw [hpolicy, Dict.get?_set]
  by_cases hname : name = source
  · rw [if_pos hname, if_pos hname]
    exact .some hsaid
  · rw [if_neg hname, if_neg hname]
    exact h name

theorem congr {rules' : Rules} (h : s.Keeps rules) (hrules : ∀ source, rules'.get? source = rules.get? source) :
    s.Keeps rules' := fun source => hrules source ▸ h source

end Store.Keeps

/-! ### The files -/

/-- Every file is read as the rules of its source. -/
theorem Stored.savedRuleFile {rules : Rules} {dir : RulesDir} (h : Stored sv lib dflt rules dir) (source : String) :
    savedRuleFile sv lib dir source = .ok (rules.ofSource source).stored := by
  unfold QubesSnitch.savedRuleFile Rules.ofSource
  cases hdir : dir.get? source with
  | none =>
    cases hget : rules.get? source with
    | none => rfl
    | some sourceRules =>
      rw [h.unsaved source sourceRules hget hdir]
      rfl
  | some text =>
    obtain ⟨sourceRules, hget, hholds⟩ := h.saved source text hdir
    rw [hget]
    exact hholds.read

/-- A saved answer keeps files and policy together. -/
theorem Stored.add {rules : Rules} {dir : RulesDir} (h : Stored sv lib dflt rules dir) {resolver : Resolver}
    {request : Request} {decision : Decision} {new : NewRule} {text : RuleText} (hw : request.WellFormed)
    (hlegal : LegalStem dflt request.source) (hnew : decidedRule lib resolver request decision = .ok new)
    (hread : readRuleFile sv lib request.source text = .ok ((rules.ofSource request.source).stored.add new)) :
    Stored sv lib dflt (rules.set request.source ((rules.ofSource request.source).add new))
      (dir.set request.source text) := by
  have happend := @appendDecision_eq lib request decision ⟨resolver, fun _ => true, fun _ => true, fun _ => none⟩
    (rules.ofSource request.source).stored rules
  rw [hnew] at happend
  obtain ⟨sourceRules, hsound, hstored, hrules⟩ := appendDecision_stored hw (h.sound_ofSource request.source) happend
  -- the new rules of the source are those that the answer adds one to
  have hsame : (rules.ofSource request.source).add new = sourceRules := by
    have hget := congrArg (fun rules : Rules => rules.get? request.source) hrules
    simpa using hget
  rw [hsame]
  exact h.set hsound ⟨hlegal, by rw [hread, hstored]⟩

/-- Nothing is read both as a flow rule and as a DNS rule. -/
theorem reads_both_empty {path : String} {values : List Yaml} {flows : List FlowRule} {questions : List DnsRule}
    (hflows : values.mapM (validateFlowRule sv lib path) = .ok flows)
    (hquestions : values.mapM (validateDnsEntry lib path) = .ok questions) : flows = [] ∧ questions = [] := by
  rw [Except.mapM_eq_ok_iff] at hflows hquestions
  cases hflows with
  | nil =>
    cases hquestions
    exact ⟨rfl, rfl⟩
  | cons hflow =>
    cases hquestions with
    | cons hquestion =>
      obtain ⟨entries, rfl⟩ := validateFlowRule_map hflow
      exact absurd (FlowEntries.of_ok hflow) (DnsEntries.of_ok hquestion).not_flow

/-- A file with one list under both keys has no rules. -/
theorem OneList.empty {io : SaveIo} {dir : RulesDir} {source : String} (h : OneList io dir source) {file : RuleFile}
    (hfile : savedRuleFile sv lib dir source = .ok file) : file = ⟨[], []⟩ := by
  obtain ⟨text, g, address, hget, hload, hrules4, hdns⟩ := h
  unfold savedRuleFile at hfile
  rw [hget] at hfile
  obtain ⟨entries, hentries, hfile⟩ := readRuleFile_eq_ok.1 hfile
  have hyaml := io.load_tree (rulePath source) text
  rw [hload, hentries] at hyaml
  obtain rfl : g.heap.dataTree g.root = entries := Except.ok.inj hyaml
  unfold validateRuleFile at hfile
  dsimp only at hfile
  split at hfile
  · cases hfile
  · rw [ruleList_of_listNode hrules4, ruleList_of_listNode hdns] at hfile
    obtain ⟨_, ⟨⟩, hfile⟩ := Except.exists_of_bind_eq_ok hfile
    obtain ⟨_, ⟨⟩, hfile⟩ := Except.exists_of_bind_eq_ok hfile
    obtain ⟨flows, hflows, hfile⟩ := Except.exists_of_bind_eq_ok hfile
    obtain ⟨questions, hquestions, hfile⟩ := Except.exists_of_bind_eq_ok hfile
    cases hfile
    obtain ⟨rfl, rfl⟩ := reads_both_empty hflows hquestions
    rfl

/-! ### Prompts and answers -/

/-- The prompt that a CLI gets of a request. -/
def promptOf (request : Request) (id remaining : Nat) : Request :=
  { requestWithoutBody request with promptId := some id, remaining := some remaining }

/-- An answer to a prompt of the packet path, as it is saved while its source runs. -/
structure CurrentAnswer (lib : DnsPython) (config : Config) (resolver : Resolver) (sources : SourceMap) (prepared : Request)
    (decision : Decision) : Prop where
  query : ∃ answer, queryDom0Sources answer config = .ok sources
  prompt : ∃ request id remaining enriched, Promptable lib request ∧ Enriches (promptOf request id remaining) enriched ∧
    prepareHostnameDecision lib resolver enriched decision = .ok prepared
  current : promptSourceCurrent sources prepared

/-- A prompt gives a new source an entry, an answer is saved, and nobody else writes. -/
inductive AnswerStep (sv : Services) (lib : DnsPython) (config : Config) (s : Store) : Store → Prop
  | prompt {io : SaveIo} {request : Request} {new : Bool} {s' : Store} (hio : io.Works) (h : Promptable lib request)
      (hrun : (ensureRuleObject sv lib io request.source).run s = .ok new s') : AnswerStep sv lib config s s'
  | answer {io : SaveIo} {sources : SourceMap} {request : Request} {decision : Decision} {s' : Store} (hio : io.Works)
      (h : CurrentAnswer lib config io.resolver sources request decision)
      (hrun : (appendRuleObject sv lib io sources request decision).run s = .ok () s') : AnswerStep sv lib config s s'

namespace CurrentAnswer

variable {resolver : Resolver} {sources : SourceMap} {request : Request} {decision : Decision}

theorem prepared (h : CurrentAnswer lib config resolver sources request decision) :
    request.WellFormed ∧ Prepared lib request decision := by
  obtain ⟨built, id, remaining, enriched, ⟨hbuilt, hhost⟩, henriched, hprepare⟩ := h.prompt
  have hprompt : Question (questionKey (promptOf built id remaining)) (promptOf built id remaining) :=
    ⟨rfl, ⟨hbuilt.wellFormed.packet, hbuilt.wellFormed.kind⟩, hhost⟩
  obtain ⟨hq, hprepared⟩ := hprompt.prepared henriched hprepare
  exact ⟨hq.wellFormed, hprepared⟩

theorem known (h : CurrentAnswer lib config resolver sources request decision) :
    request.source ∈ sources.byName.keys ∧ LegalStem config.defaultDisposableVmName request.source := by
  obtain ⟨answer, hquery⟩ := h.query
  have hmem := mem_of_promptSourceCurrent h.current
  exact ⟨hmem, (queryDom0Sources_consistent hquery).legal _ hmem⟩

end CurrentAnswer

/-! ### New entries -/

theorem Heap.Sound.policy_addSource {h : Heap} {t L R : Nat} (hs : h.Sound t L R) (name name' : String) :
    ((h.addSource t name fun _ => []).policy t).get? name' =
      if name' = name then some ⟨[], []⟩ else (h.policy t).get? name' := by
  have hkeys : name' ∈ ((h.addSource t name fun _ => []).table t).keys ↔ name' = name ∨ name' ∈ (h.table t).keys := by
    rw [Dict.mem_keys_iff, get?_addSource hs.table, Dict.mem_keys_iff]
    by_cases hname : name' = name <;> simp [hname]
  rw [policy_get?, policy_get?, itemsOf_addSource hs, itemsOf_addSource hs]
  by_cases hname : name' = name
  · subst hname
    rw [if_pos (hkeys.2 (.inl rfl)), if_pos rfl, if_pos rfl, if_pos rfl]
    rfl
  · simp only [hkeys, hname, false_or, if_false]
    rfl

theorem Rules.cover_singleton_get? (rules : Rules) (source name : String) : (rules.cover [source]).get? name =
    if name = source ∧ source ∉ rules.keys then some ⟨[], []⟩ else rules.get? name := by
  rw [Rules.cover_get?]
  by_cases hname : name = source
  · subst hname
    cases hget : rules.get? name with
    | none => simp [Dict.get?_eq_none_iff.1 hget]
    | some sourceRules => simp [Dict.mem_keys_of_get? hget]
  · simp [hname]

/-- A source without a file and without rules gets two new lists. -/
theorem ensureRuleObject_returns {io : SaveIo} {s : Store} (source : String)
    (hfile : source ∉ (s.heap.table s.rules).keys → s.rulesDir.get? source = none) :
    Returns s s.heap (ensureRuleObject sv lib io source) fun _ h' =>
      if source ∈ (s.heap.table s.rules).keys then h' = s.heap
      else h' = s.heap.addSource s.rules source fun _ => [] := by
  refine .get fun clock => .alter_bind ?_
  dsimp only
  split
  · exact .pure rfl
  · rename_i hnew
    have hread : Returns s s.heap (readData sv lib io source) fun data h' =>
        data = [(.str "rules4", .list s.heap.lists.length), (.str "dns", .list (s.heap.lists ++ [[]]).length)] ∧
          h' = { s.heap with lists := s.heap.lists ++ [[]] ++ [[]] } := by
      refine .tick <| .get fun clock => ?_
      dsimp only
      rw [hfile hnew]
      exact .alter_bind <| .alter_bind <| .pure ⟨rfl, rfl⟩
    refine hread.bind ?_
    rintro _ _ ⟨rfl, rfl⟩
    refine .check_bind fun ip hip => .check_bind fun dns hdns => .alter_bind <| .pure ?_
    cases hip
    cases hdns
    rfl

/-! ### What a run keeps -/

/-- Files and memory agree, and a file that is not one of the start has a rule. -/
structure RestartInvariant (sv : Services) (lib : DnsPython) (config : Config) (dir : RulesDir) (s : Store)
    (rules : Rules) : Prop where
  wellFormed : s.WellFormed
  keeps : s.Keeps rules
  stored : Stored sv lib config.defaultDisposableVmName rules s.rulesDir
  written : ∀ source, s.rulesDir.get? source = dir.get? source ∨
    ∃ sourceRules, rules.get? source = some sourceRules ∧ sourceRules ≠ ⟨[], []⟩

namespace RestartInvariant

variable {dir : RulesDir} {s s' : Store} {rules : Rules}

theorem start {resolver : Resolver} (hs : s.WellFormed) (hrules : s.Keeps rules)
    (hload : loadRules sv lib resolver s.rulesDir config.defaultDisposableVmName = .ok rules) :
    RestartInvariant sv lib config s.rulesDir s rules :=
  ⟨hs, hrules, stored_of_loadRules hload, fun _ => .inl rfl⟩

theorem prompt {io : SaveIo} {source : String} {new : Bool} (h : RestartInvariant sv lib config dir s rules)
    (hrun : (ensureRuleObject sv lib io source).run s = .ok new s') :
    RestartInvariant sv lib config dir s' (rules.cover [source]) := by
  have hkeys := h.keeps.mem_keys_iff source
  have hfile : source ∉ (s.heap.table s.rules).keys → s.rulesDir.get? source = none :=
    fun hnew => h.stored.no_file fun hmem => hnew (hkeys.2 hmem)
  obtain ⟨h', clock', rfl, hheap⟩ := ensureRuleObject_returns source hfile s.clock new s' hrun
  have hwritten : ∀ name, s.rulesDir.get? name = dir.get? name ∨
      ∃ sourceRules, (rules.cover [source]).get? name = some sourceRules ∧ sourceRules ≠ ⟨[], []⟩ := by
    intro name
    rcases h.written name with hsame | ⟨sourceRules, hget, hne⟩
    · exact .inl hsame
    · exact .inr ⟨sourceRules, by rw [Rules.cover_get?, hget, Option.some_or], hne⟩
  split at hheap
  · rename_i hmem
    subst hheap
    refine ⟨h.wellFormed, fun name => ?_, h.stored.cover [source], hwritten⟩
    rw [Rules.cover_singleton_get?, if_neg (by simp [hkeys.1 hmem])]
    exact h.keeps name
  · rename_i hnew
    subst hheap
    have hsound : (s.heap.addSource s.rules source fun _ => []).Sound s.rules 0 0 :=
      Heap.Sound.addSource h.wellFormed (Nat.zero_le _) fun _ _ hitem => absurd hitem List.not_mem_nil
    refine ⟨hsound, fun name => ?_, h.stored.cover [source], hwritten⟩
    have hpolicy : (Heap.policy _ s.rules).get? name = _ := Heap.Sound.policy_addSource h.wellFormed source name
    rw [Store.policy, hpolicy, Rules.cover_singleton_get?]
    by_cases hname : name = source
    · rw [if_pos hname, if_pos ⟨hname, fun hmem => hnew (hkeys.2 hmem)⟩]
      exact .some .empty
    · rw [if_neg hname, if_neg (by simp [hname])]
      exact h.keeps name

theorem answer {io : SaveIo} {sources : SourceMap} {request : Request} {decision : Decision}
    (h : RestartInvariant sv lib config dir s rules)
    (hanswer : CurrentAnswer lib config io.resolver sources request decision)
    (hrun : (appendRuleObject sv lib io sources request decision).run s = .ok () s') :
    ∃ rules', RestartInvariant sv lib config dir s' rules' := by
  obtain ⟨hs', -, new, hnew, ⟨current, text, hcurrent, hread, hdir⟩, hpolicy⟩ := appendRuleObject_ok h.wellFormed hrun
  obtain rfl := Except.ok.inj (hcurrent.symm.trans (h.stored.savedRuleFile request.source))
  obtain ⟨hw, -⟩ := hanswer.prepared
  refine ⟨_, hs', h.keeps.set ((h.keeps.ofSource request.source).push new) hpolicy,
    hdir ▸ h.stored.add hw hanswer.known.2 hnew hread, fun name => ?_⟩
  rw [hdir, Dict.get?_set, Dict.get?_set]
  by_cases hname : name = request.source
  · refine .inr ⟨_, if_pos hname, fun hempty => ?_⟩
    cases new <;> simp [SourceRules.add] at hempty
  · rw [if_neg hname, if_neg hname]
    exact h.written name

theorem run (h : RestartInvariant sv lib config dir s rules)
    (hrun : Relation.ReflTransGen (AnswerStep sv lib config) s s') :
    ∃ rules', RestartInvariant sv lib config dir s' rules' := by
  induction hrun with
  | refl => exact ⟨rules, h⟩
  | tail _ hstep ih =>
    obtain ⟨rules', h'⟩ := ih
    cases hstep with
    | prompt hio hbuilt hrun => exact ⟨_, h'.prompt hrun⟩
    | answer hio hanswer hrun => exact h'.answer hanswer hrun

/-- A file with one list is one of the start. -/
theorem oneList (h : RestartInvariant sv lib config dir s rules) {io : SaveIo} {source : String}
    (hone : OneList io s.rulesDir source) : OneList io dir source := by
  rcases h.written source with hsame | ⟨sourceRules, hget, hne⟩
  · obtain ⟨text, g, address, hfile, hload⟩ := hone
    exact ⟨text, g, address, hsame ▸ hfile, hload⟩
  · have hempty := hone.empty (h.stored.savedRuleFile source)
    rw [Rules.ofSource, hget] at hempty
    rcases sourceRules with ⟨flows, questions⟩
    simp [SourceRules.stored] at hempty
    exact absurd hempty (by simpa using hne)

end RestartInvariant

/-! ### Restarting -/

/-- Restarting never changes policy, and an answer is saved unless its file has one list under both keys: in every state
that prompts and answers lead to from a directory that loads, an answer to a prompt of a current source passes all
checks exactly if its file has two lists, such a file is as it was at the start, and the directory loads as the policy
in memory. -/
theorem restart_keeps_policy {resolver : Resolver} {loaded : Rules} {s₀ s : Store} (hs₀ : s₀.WellFormed)
    (hload : loadRules sv lib resolver s₀.rulesDir config.defaultDisposableVmName = .ok loaded)
    (hloaded : s₀.Keeps loaded) (hrun : Relation.ReflTransGen (AnswerStep sv lib config) s₀ s) :
    (∀ io sources request decision, io.Works → CurrentAnswer lib config io.resolver sources request decision →
      ((∃ s', (appendRuleObject sv lib io sources request decision).run s = .ok () s') ↔
        ¬ OneList io s.rulesDir request.source)) ∧
    (∀ io source, OneList io s.rulesDir source → OneList io s₀.rulesDir source) ∧
    ∃ rules, s.Keeps rules ∧ ∀ resolver, AnswersAlike resolver rules → ∃ reloaded,
      loadRules sv lib resolver s.rulesDir config.defaultDisposableVmName = .ok reloaded ∧
        ∀ request, matchingAction sv request reloaded = matchingAction sv request rules := by
  obtain ⟨rules, h⟩ := (RestartInvariant.start hs₀ hloaded hload).run hrun
  refine ⟨fun io sources request decision hio hanswer => ?_, fun io source => h.oneList, rules, h.keeps,
    fun resolver halike => h.stored.reload halike⟩
  obtain ⟨hw, hp⟩ := hanswer.prepared
  exact appendRuleObject_returns_iff h.wellFormed hio hw hp hanswer.known.1 (h.stored.savedRuleFile request.source)

namespace Sample

/-! A rule in the file of one source. -/

/-- The rules that the file of one source loads as. -/
theorem loadRules_work {resolver : Resolver} {text : RuleText} {data : RuleFile} {sourceRules : SourceRules}
    (hread : loadRuleFile .empty dnspython Sample.config.defaultDisposableVmName ("work", text) = .ok ("work", data))
    (hnames : qnamePaths (data.rules4.map fun rule => (rulePath "work", rule)) = .empty)
    (hrules : runtimeRules (.ofList []) ("work", data) = .ok ("work", sourceRules)) :
    loadRules .empty dnspython resolver (.ofList [("work", text)]) Sample.config.defaultDisposableVmName =
      .ok (.ofList [("work", sourceRules)]) := by
  have hdir : (Dict.ofList [("work", text)]).entries = [("work", text)] := rfl
  have hresolved : resolveDestDnsNames resolver .empty = .ok (.ofList []) := by
    rw [resolveDestDnsNames]
    simp [Dict.empty, Dict.ofList, bind, Except.bind, pure, Except.pure]
  rw [loadRules, hdir, List.mergeSort_singleton]
  simp only [List.mapM_cons, List.mapM_nil, hread, bind, Except.bind, pure, Except.pure, List.flatMap_cons,
    List.flatMap_nil, List.append_nil, hnames, hresolved, hrules]

/-- Memory that has what the file of one source says. -/
theorem keeps_work {s : Store} {sourceRules : SourceRules} {v : SourceValue}
    (hpolicy : s.policy = .ofList [("work", v)]) (hsaid : v.Says sourceRules) :
    s.Keeps (.ofList [("work", sourceRules)]) := by
  intro source
  rw [hpolicy]
  by_cases hsource : source = "work"
  · subst hsource
    exact .some hsaid
  · show Option.Rel _ ((Dict.empty.set "work" v).get? source) ((Dict.empty.set "work" sourceRules).get? source)
    rw [Dict.get?_set, Dict.get?_set, if_neg hsource, if_neg hsource]
    exact .none

theorem load_store : loadRules .empty dnspython works.resolver store.rulesDir
    Sample.config.defaultDisposableVmName = .ok (.ofList [("work", ⟨[webRule], []⟩)]) :=
  @loadRules_work _ _ ⟨[webRule], []⟩ _ rfl rfl rfl

theorem keeps_store : store.Keeps (.ofList [("work", ⟨[webRule], []⟩)]) :=
  keeps_work rfl ⟨.cons (.rule ⟨fun _ => rfl, rfl⟩) .nil, .nil⟩

theorem current_prompted {resolver : Resolver} (decision : Decision) (h : decision.isHostname = false) :
    CurrentAnswer dnspython Sample.config resolver oneVm prompted decision where
  query := ⟨_, query_oneVm⟩
  prompt := by
    refine ⟨request, 1, 0, _, ⟨built dnspython, fun _ => rfl⟩, .inl rfl, ?_⟩
    rw [prepareHostnameDecision, h]
    rfl
  current := by decide +kernel

theorem works_saveIo : (saveIo false).Works := SaveIo.works_withoutAnchors fun n => if_neg (by simp)

/-- The file of the source has a rule. -/
theorem not_oneList_store : ¬ OneList (saveIo false) store.rulesDir "work" := by
  intro hone
  have hfile : savedRuleFile .empty dnspython store.rulesDir "work" = .ok ⟨[webRule], []⟩ := rfl
  cases hone.empty hfile

def answeredRun : EStateM.Result PyError Store Unit :=
  (appendRuleObject .empty dnspython (saveIo false) oneVm prompted .allow).run store

/-- Whether the object is no rule for a name. -/
def unnamed : ItemValue → Bool
  | .rule r => (lookupKey r.entries "dest_dns").isNone
  | .other _ => true

def allUnnamed (policy : Dict String SourceValue) : Bool := policy.entries.all fun e => e.2.ip.all unnamed

theorem alike_of_unnamed {s : Store} {rules : Rules} (hkeeps : s.Keeps rules) (hnames : allUnnamed s.policy = true)
    (resolver : Resolver) : AnswersAlike resolver rules := by
  intro source sourceRules hget rule hrule qname ips hdest
  have hrel := hkeeps source
  rw [hget] at hrel
  generalize hvalue : s.policy.get? source = value at hrel
  cases hrel with
  | @some v _ hsaid =>
    obtain ⟨item, hitem, hsame⟩ := List.Forall₂.exists_of_mem_right hsaid.ip (List.mem_map_of_mem hrule)
    have hmem : (source, v) ∈ s.policy.entries := Dict.get?_eq_some_iff.1 hvalue
    have hitemNames := List.all_eq_true.1 (List.all_eq_true.1 hnames _ hmem) item hitem
    cases hsame with
    | rule hequal =>
      have hname : lookupKey (NewRule.flow rule).object.entries "dest_dns" = some (.str qname) := by
        simp [NewRule.object, hdest, Dest.entry, lookupKey]
      rw [unnamed, hequal.entries, hname] at hitemNames
      cases hitemNames

/-- The prompt is answered, could be answered again, and the directory loads. -/
theorem restart_keeps_policy_answered : ∃ s s', answeredRun = .ok () s ∧
    (appendRuleObject .empty dnspython (saveIo false) oneVm prompted .reject).run s = .ok () s' ∧
    ∃ rules reloaded, s.Keeps rules ∧
      loadRules .empty dnspython works.resolver s.rulesDir Sample.config.defaultDisposableVmName = .ok reloaded ∧
      matchingAction .empty prompted reloaded = matchingAction .empty prompted rules := by
  obtain ⟨s, hs, hnames⟩ : ∃ s, answeredRun = .ok () s ∧ allUnnamed s.policy = true :=
    EStateM.Result.exists_ok_of (p := fun s : Store => allUnnamed s.policy) (by decide +kernel)
  have hstep : AnswerStep .empty dnspython Sample.config store s :=
    .answer works_saveIo (current_prompted .allow rfl) hs
  obtain ⟨hanswers, hstart, rules, hkeeps, hreload⟩ :=
    restart_keeps_policy store_wellFormed load_store keeps_store (.single hstep)
  have hone : ¬ OneList (saveIo false) s.rulesDir "work" := fun h => not_oneList_store (hstart _ _ h)
  obtain ⟨s', hs'⟩ := (hanswers _ _ _ .reject works_saveIo (current_prompted .reject rfl)).2 hone
  obtain ⟨reloaded, hreloaded, hsame⟩ := hreload works.resolver (alike_of_unnamed hkeeps hnames _)
  exact ⟨s, s', hs, hs', rules, reloaded, hkeeps, hreloaded, hsame prompted⟩

/-! The same, with an alias. -/

/-- `rules4: &none []` and `dns: *none` -/
def aliasedText : RuleText := .yaml (.map [(.str "rules4", .seq []), (.str "dns", .seq [])])

theorem aliased_listed : ∀ e ∈ ([(.str "rules4", .list 0), (.str "dns", .list 0)] : Data), ∀ address,
    e.2 = .list address → address < [([] : List Item)].length := by
  simp

/-- The objects of that file. -/
def aliased : Graph where
  heap := ⟨[], [[]], []⟩
  root := [(.str "rules4", .list 0), (.str "dns", .list 0)]
  listed := aliased_listed
  closed := fun items hitems item hitem => by
    obtain rfl := List.mem_singleton.1 hitems
    cases hitem

def aliasedLoad (path : String) : RuleText → Except PyError Graph
  | .yaml (.map [(.str "rules4", .seq []), (.str "dns", .seq [])]) => .ok aliased
  | text => (readYaml path text).map Graph.ofTree

theorem aliasedLoad_tree (path : String) (text : RuleText) :
    (aliasedLoad path text).map (fun g => g.heap.dataTree g.root) = readYaml path text := by
  unfold aliasedLoad
  split
  · rfl
  · cases readYaml path text with
    | error e => rfl
    | ok entries => exact congrArg Except.ok (Graph.dataTree_ofTree entries)

def aliasedIo : SaveIo := ⟨works.resolver, aliasedLoad, aliasedLoad_tree, fun _ => none, fun _ => none⟩

/-- A source with that file. -/
def aliasedStore : Store where
  heap := ⟨[], [[], []], [.ofList [("work", ⟨0, 1⟩)]]⟩
  rules := 0
  rulesDir := .ofList [("work", aliasedText)]
  tmpFiles := .empty
  clock := 0

theorem aliasedStore_wellFormed : aliasedStore.WellFormed := by
  refine sound_work rfl (by decide) fun l item hitem => ?_
  match l with
  | 0 => cases hitem
  | 1 => cases hitem
  | _ + 2 => cases hitem

def refusal : PyError :=
  .systemExit "/rw/usrlocal/qubes-snitch/rules/work.yml: every DNS rule must have qname, qtype, action"

/-- The directory loads, and then no answer can be saved. -/
theorem one_list_refuses :
    (aliasedStore.WellFormed ∧ aliasedStore.Keeps (.ofList [("work", ⟨[], []⟩)]) ∧
      loadRules .empty dnspython works.resolver aliasedStore.rulesDir Sample.config.defaultDisposableVmName =
        .ok (.ofList [("work", ⟨[], []⟩)])) ∧
    aliasedIo.Works ∧ CurrentAnswer dnspython Sample.config aliasedIo.resolver oneVm prompted .allow ∧
    ∃ s, (appendRuleObject .empty dnspython aliasedIo oneVm prompted .allow).run aliasedStore = .error refusal s := by
  refine ⟨⟨aliasedStore_wellFormed, keeps_work rfl .empty, @loadRules_work _ _ ⟨[], []⟩ _ rfl rfl rfl⟩, ?_,
    current_prompted .allow rfl, ?_⟩
  · refine ⟨fun _ => rfl, fun path text g hload => ?_⟩
    have hload : aliasedLoad path text = .ok g := hload
    unfold aliasedLoad at hload
    split at hload
    · cases hload
      exact ⟨by simp [aliased, Node.Typed], by simp [aliased]⟩
    · exact .of_map hload
  · exact EStateM.Result.exists_error_eq (by decide +kernel)

end Sample

end QubesSnitch
