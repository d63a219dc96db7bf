import QubesSnitch.SourcesRuntime
import QubesSnitch.Answers

/-!
# Policy in memory and on disk

Memory and the rule files are written by different code.  `Stored` says that they agree: every file holds the rules of
its source, all but the addresses of names, and a source without a file has no rules.  Loading a directory establishes it,
and a saved answer keeps it (`appendRule_stored`).

Where it holds, a daemon that starts anew has the same policy (`Stored.reload`).
-/

namespace QubesSnitch

variable {sv : Services} {lib : DnsPython} {io : Io} {dflt : String}

/-! ### Files and rules -/

/-- A file with the rules of its source. -/
structure Holds (sv : Services) (lib : DnsPython) (defaultDisposableVmName stem : String) (text : RuleText)
    (sourceRules : SourceRules) : Prop where
  legal : LegalStem defaultDisposableVmName stem
  read : readRuleFile sv lib stem text = .ok sourceRules.stored

structure Stored (sv : Services) (lib : DnsPython) (defaultDisposableVmName : String) (rules : Rules) (dir : RulesDir) :
    Prop where
  sound : ∀ s sourceRules, rules.get? s = some sourceRules → sourceRules.Sound sv
  saved : ∀ s text, dir.get? s = some text →
    ∃ sourceRules, rules.get? s = some sourceRules ∧ Holds sv lib defaultDisposableVmName s text sourceRules
  unsaved : ∀ s sourceRules, rules.get? s = some sourceRules → dir.get? s = none → sourceRules = ⟨[], []⟩

theorem readRuleFile_eq_ok {stem : String} {text : RuleText} {data : RuleFile} :
    readRuleFile sv lib stem text = .ok data ↔ ∃ entries, readYaml (rulePath stem) text = .ok entries ∧
      validateRuleFile sv lib (rulePath stem) entries = .ok data := by
  constructor
  · exact Except.exists_of_bind_eq_ok
  · rintro ⟨entries, hentries, hdata⟩
    rw [readRuleFile, hentries]
    exact hdata

namespace Stored

variable {rules : Rules} {dir : RulesDir}

/-- What has no rules has no file. -/
theorem no_file (h : Stored sv lib dflt rules dir) {s : String} (hs : s ∉ rules.keys) : dir.get? s = none := by
  cases hget : dir.get? s with
  | none => rfl
  | some text =>
    obtain ⟨sourceRules, hrules, -⟩ := h.saved s text hget
    exact absurd (Dict.mem_keys_of_get? hrules) hs

/-- Sources may go, with their files. -/
theorem without (h : Stored sv lib dflt rules dir) {rules' : Rules} {dir' : RulesDir} {gone : List String}
    (hrules : ∀ s, rules'.get? s = if s ∈ gone then none else rules.get? s)
    (hdir : ∀ s, dir'.get? s = if s ∈ gone then none else dir.get? s) : Stored sv lib dflt rules' dir' := by
  refine ⟨fun s sourceRules hs => ?_, fun s text hs => ?_, fun s sourceRules hs hnone => ?_⟩
  · rw [hrules] at hs
    split at hs
    · cases hs
    · exact h.sound s sourceRules hs
  · rw [hdir] at hs
    rw [hrules]
    split at hs
    · cases hs
    · rename_i hkeep
      rw [if_neg hkeep]
      exact h.saved s text hs
  · rw [hrules] at hs
    rw [hdir] at hnone
    split at hs
    · cases hs
    · rename_i hkeep
      rw [if_neg hkeep] at hnone
      exact h.unsaved s sourceRules hs hnone

/-- Empty entries need no files. -/
theorem cover (h : Stored sv lib dflt rules dir) (names : List String) :
    Stored sv lib dflt (rules.cover names) dir := by
  have hcover : ∀ s sourceRules, (rules.cover names).get? s = some sourceRules →
      rules.get? s = some sourceRules ∨ sourceRules = ⟨[], []⟩ := by
    intro s sourceRules hs
    rw [Rules.cover_get?] at hs
    cases hget : rules.get? s with
    | some known =>
      rw [hget] at hs
      exact .inl hs
    | none =>
      rw [hget, Option.none_or] at hs
      split at hs
      · exact .inr (Option.some.inj hs).symm
      · cases hs
  refine ⟨fun s sourceRules hs => ?_, fun s text hs => ?_, fun s sourceRules hs hnone => ?_⟩
  · rcases hcover s sourceRules hs with hs | rfl
    · exact h.sound s sourceRules hs
    · exact .empty sv
  · obtain ⟨sourceRules, hrules, hholds⟩ := h.saved s text hs
    exact ⟨sourceRules, by rw [Rules.cover_get?, hrules, Option.some_or], hholds⟩
  · rcases hcover s sourceRules hs with hs | rfl
    · exact h.unsaved s sourceRules hs hnone
    · rfl

theorem sound_ofSource (h : Stored sv lib dflt rules dir) (s : String) : (rules.ofSource s).Sound sv := by
  unfold Rules.ofSource
  cases hget : rules.get? s with
  | none => exact .empty sv
  | some sourceRules => exact h.sound s sourceRules hget

/-- The file of a source, if it can be read, holds the rules in memory. -/
theorem current (h : Stored sv lib dflt rules dir) {s : String} {data : RuleFile}
    (hdata : currentRuleFile sv lib io dir s = .ok data) : data = (rules.ofSource s).stored := by
  unfold currentRuleFile at hdata
  unfold Rules.ofSource
  cases hdir : dir.get? s with
  | none =>
    rw [hdir] at hdata
    cases hdata
    cases hget : rules.get? s with
    | none => rfl
    | some sourceRules =>
      rw [h.unsaved s sourceRules hget hdir]
      rfl
  | some text =>
    rw [hdir] at hdata
    obtain ⟨_, -, hdata⟩ := Except.exists_of_bind_eq_ok hdata
    obtain ⟨sourceRules, hget, hholds⟩ := h.saved s text hdir
    rw [hget, Option.getD_some]
    exact Except.ok.inj (hdata.symm.trans hholds.read)

end Stored

/-! ### Loading -/

theorem FlowRule.stored_resolve (resolver : Resolver) (rule : FlowRule) :
    (rule.resolve resolver).stored = rule.stored := by
  rcases rule with ⟨ptr, _ | _ | _, proto, port, action⟩ <;> rfl

theorem RuleFile.stored_runtime {data : RuleFile} (h : data.Valid sv) (resolver : Resolver) :
    (data.runtime resolver).stored = data := by
  have hrules : (data.rules4.map (FlowRule.resolve resolver)).map FlowRule.stored = data.rules4 := by
    rw [List.map_map]
    conv_rhs => rw [← List.map_id data.rules4]
    refine List.map_congr_left fun rule hrule => ?_
    rw [Function.comp_apply, FlowRule.stored_resolve, (h.rules4 rule hrule).2, id_eq]
  simp only [SourceRules.stored, RuleFile.runtime, hrules]

theorem RuleFile.sound_runtime {data : RuleFile} {resolver : Resolver} (h : data.Valid sv)
    (hr : data.Resolves resolver) : (data.runtime resolver).Sound sv := by
  refine ⟨fun rule' hrule' => ?_, h.dns⟩
  obtain ⟨rule, hrule, rfl⟩ := List.mem_map.1 hrule'
  have hvalid : (rule.resolve resolver).Valid sv := by
    rw [← FlowRule.valid_stored, FlowRule.stored_resolve, FlowRule.valid_stored]
    exact (h.rules4 rule hrule).1
  refine ⟨hvalid, fun qname ips hdest => ?_⟩
  unfold FlowRule.resolve at hdest
  split at hdest
  · rename_i name found hname
    cases hdest
    obtain ⟨addresses, haddresses⟩ := Option.isSome_iff_exists.1 (hr rule hrule _ _ hname)
    obtain ⟨x, xs, rfl⟩ := List.exists_cons_of_ne_nil (addressesOf_ne_nil haddresses)
    exact ⟨x, xs, haddresses⟩
  · rename_i hname
    exact absurd hdest (hname qname ips)

/-- A directory that loads agrees with what is loaded. -/
theorem stored_of_loadRules {resolver : Resolver} {rules : Rules} {dir : RulesDir}
    (h : loadRules sv lib resolver dir dflt = .ok rules) : Stored sv lib dflt rules dir := by
  obtain ⟨hfiles, hnone⟩ := loadRules_get? h
  have hrules : ∀ s sourceRules, rules.get? s = some sourceRules → ∃ text data, dir.get? s = some text ∧
      FileLoads sv lib resolver dflt s text data ∧ sourceRules = data.runtime resolver := by
    intro s sourceRules hs
    cases hdir : dir.get? s with
    | none =>
      rw [(hnone s).2 hdir] at hs
      cases hs
    | some text =>
      obtain ⟨data, hloads, hget⟩ := hfiles s text hdir
      rw [hget] at hs
      exact ⟨text, data, rfl, hloads, (Option.some.inj hs).symm⟩
  have hvalid : ∀ s text data, FileLoads sv lib resolver dflt s text data → data.Valid sv := by
    intro s text data hloads
    obtain ⟨entries, -, hdata⟩ := hloads.read
    exact validateRuleFile_valid hdata
  refine ⟨fun s sourceRules hs => ?_, fun s text hs => ?_, fun s sourceRules hs hdir => ?_⟩
  · obtain ⟨text, data, -, hloads, rfl⟩ := hrules s sourceRules hs
    exact RuleFile.sound_runtime (hvalid s text data hloads) hloads.resolves
  · obtain ⟨data, hloads, hget⟩ := hfiles s text hs
    refine ⟨data.runtime resolver, hget, hloads.legal, ?_⟩
    rw [RuleFile.stored_runtime (hvalid s text data hloads)]
    exact readRuleFile_eq_ok.2 hloads.read
  · obtain ⟨text, data, hsome, -⟩ := hrules s sourceRules hs
    rw [hdir] at hsome
    cases hsome

/-- The resolver gives the addresses that the rules have. -/
def AnswersAlike (resolver : Resolver) (rules : Rules) : Prop :=
  ∀ s sourceRules, rules.get? s = some sourceRules → ∀ rule ∈ sourceRules.ip, ∀ qname ips,
    rule.dest = .dns qname (some ips) → addressesOf resolver qname = some ips

private theorem resolve_stored {resolver : Resolver} {rule : FlowRule} (h : rule.Usable sv)
    (halike : ∀ qname ips, rule.dest = .dns qname (some ips) → addressesOf resolver qname = some ips) :
    rule.stored.resolve resolver = rule := by
  rcases rule with ⟨ptr, dest, proto, port, action⟩
  cases dest with
  | any => rfl
  | network n => rfl
  | dns qname ips =>
    obtain ⟨x, xs, rfl⟩ := h.resolved qname ips rfl
    simp [FlowRule.stored, Dest.stored, FlowRule.resolve, halike qname (x :: xs) rfl]

private theorem runtime_stored {resolver : Resolver} {sourceRules : SourceRules} (h : sourceRules.Sound sv)
    (halike : ∀ rule ∈ sourceRules.ip, ∀ qname ips, rule.dest = .dns qname (some ips) →
      addressesOf resolver qname = some ips) : sourceRules.stored.runtime resolver = sourceRules := by
  have hip : (sourceRules.ip.map FlowRule.stored).map (FlowRule.resolve resolver) = sourceRules.ip := by
    rw [List.map_map]
    conv_rhs => rw [← List.map_id sourceRules.ip]
    exact List.map_congr_left fun rule hrule => resolve_stored (h.usable rule hrule) (halike rule hrule)
  simp only [RuleFile.runtime, SourceRules.stored, hip]

private theorem resolves_stored {resolver : Resolver} {sourceRules : SourceRules} (h : sourceRules.Sound sv)
    (halike : ∀ rule ∈ sourceRules.ip, ∀ qname ips, rule.dest = .dns qname (some ips) →
      addressesOf resolver qname = some ips) : sourceRules.stored.Resolves resolver := by
  intro rule' hrule' qname found hdest
  obtain ⟨rule, hrule, rfl⟩ := List.mem_map.1 hrule'
  rcases hrule'' : rule.dest with _ | n | ⟨name, ips⟩
  · simp [FlowRule.stored, hrule'', Dest.stored] at hdest
  · simp [FlowRule.stored, hrule'', Dest.stored] at hdest
  · obtain ⟨x, xs, rfl⟩ := (h.usable rule hrule).resolved name ips hrule''
    have hname : name = qname := by
      simp only [FlowRule.stored, hrule'', Dest.stored, Dest.dns.injEq] at hdest
      exact hdest.1
    rw [← hname, halike rule hrule name (x :: xs) hrule'', Option.isSome_some]

/-- What is on disk is the policy in memory, for a resolver that answers as before. -/
theorem Stored.reload {rules : Rules} {dir : RulesDir} (h : Stored sv lib dflt rules dir) {resolver : Resolver}
    (halike : AnswersAlike resolver rules) : ∃ loaded, loadRules sv lib resolver dir dflt = .ok loaded ∧
      ∀ request, matchingAction sv request loaded = matchingAction sv request rules := by
  have hloads : ∀ s text, dir.get? s = some text → ∃ data, FileLoads sv lib resolver dflt s text data := by
    intro s text hs
    obtain ⟨sourceRules, hget, hholds⟩ := h.saved s text hs
    exact ⟨sourceRules.stored, hholds.legal, readRuleFile_eq_ok.1 hholds.read,
      resolves_stored (h.sound s sourceRules hget) (halike s sourceRules hget)⟩
  obtain ⟨loaded, hloaded⟩ := exists_loadRules hloads
  obtain ⟨hfiles, hnone⟩ := loadRules_get? hloaded
  refine ⟨loaded, hloaded, fun request => ?_⟩
  suffices hsame : loaded.ofSource request.source = rules.ofSource request.source by
    rw [matchingAction_ofSource, matchingAction_ofSource, hsame]
  unfold Rules.ofSource
  cases hdir : dir.get? request.source with
  | none =>
    rw [(hnone request.source).2 hdir]
    cases hget : rules.get? request.source with
    | none => rfl
    | some sourceRules => rw [h.unsaved _ sourceRules hget hdir]; rfl
  | some text =>
    obtain ⟨data, hdata, hget⟩ := hfiles request.source text hdir
    obtain ⟨sourceRules, hrules, hholds⟩ := h.saved request.source text hdir
    have hsame : data = sourceRules.stored :=
      Except.ok.inj ((readRuleFile_eq_ok.2 hdata.read).symm.trans hholds.read)
    rw [hget, hrules, hsame, runtime_stored (h.sound _ sourceRules hrules) (halike _ sourceRules hrules)]

/-! ### Saving -/

/-- The rule of an answer passes the checks of its file. -/
theorem Answers.usable {request : Request} {decision : Decision} {rule : FlowRule} (h : Answers request decision rule)
    (hw : request.WellFormed) : rule.Usable sv := by
  obtain ⟨proto, hp, hport⟩ := requestPort_wellFormed hw.packet
  have hsame : proto = rule.proto := Proto.flow.inj (hp.symm.trans h.proto)
  have hname : ∀ qname ips, rule.dest = .dns qname ips →
      (CanonicalQuestion qname "A" ∧ isWildcard qname.toList = false) ∧ ∃ x xs, ips = some (x :: xs) := by
    intro qname ips hdest
    rcases h.dest with ⟨-, hhost⟩ | ⟨-, name, x, xs, hhost, hcanonical, hwild, -⟩
    · rw [hhost] at hdest
      cases hdest
    · rw [hhost] at hdest
      cases hdest
      exact ⟨⟨hcanonical, hwild⟩, x, xs, rfl⟩
  refine ⟨⟨?_, ?_, fun qname ips hdest => (hname qname ips hdest).1⟩, fun qname ips hdest => (hname qname ips hdest).2⟩
  · rcases hport with ⟨-, hnone⟩ | ⟨-, n, hn, -, hlow, hhigh⟩
    · exact ⟨.any, by rw [h.port, hnone]; rfl⟩
    · refine ⟨.one n, ?_⟩
      rw [h.port, hn]
      exact normalizePort_decimal sv _ hlow hhigh
  · intro hicmp
    rcases hport with ⟨-, hnone⟩ | ⟨hne, -⟩
    · rw [h.port, hnone]
      rfl
    · exact absurd (hsame.trans hicmp) hne

/-- The new rule is sound in memory, and goes to the same place in a file that holds the rules in memory. -/
theorem appendDecision_sound {request : Request} {decision : Decision} {rules rules' : Rules} {data data' : RuleFile}
    (hw : request.WellFormed) (hsound : (rules.ofSource request.source).Sound sv)
    (h : appendDecision lib io request decision data rules = .ok (data', rules')) :
    ∃ sourceRules, sourceRules.Sound sv ∧
      (data = (rules.ofSource request.source).stored → data' = sourceRules.stored) ∧
      rules' = rules.set request.source sourceRules := by
  unfold appendDecision at h
  rcases hw.kind with hflow | ⟨qname, qtype, hdns, hq, -⟩
  · rw [hflow] at h
    obtain ⟨rule, hrule, rfl, rfl⟩ := appendFlowRule_ok hw h
    refine ⟨⟨(rules.ofSource request.source).ip ++ [rule], (rules.ofSource request.source).dns⟩,
      ⟨fun r hr => ?_, hsound.dns⟩, ?_, rfl⟩
    · rcases List.mem_append.1 hr with hr | hr
      · exact hsound.usable r hr
      · rw [List.mem_singleton.1 hr]
        exact hrule.usable hw
    · rintro rfl
      simp [SourceRules.stored]
  · rw [hdns] at h
    obtain ⟨-, rfl, rfl⟩ := appendDnsRule_ok hq h
    refine ⟨⟨(rules.ofSource request.source).ip, (rules.ofSource request.source).dns ++
      [⟨qname, qtype, decision.action⟩]⟩, ⟨hsound.usable, fun r hr => ?_⟩, ?_, rfl⟩
    · rcases List.mem_append.1 hr with hr | hr
      · exact hsound.dns r hr
      · rw [List.mem_singleton.1 hr]
        exact hq
    · rintro rfl
      rfl

theorem appendDecision_stored {request : Request} {decision : Decision} {rules rules' : Rules} {data : RuleFile}
    (hw : request.WellFormed) (hsound : (rules.ofSource request.source).Sound sv)
    (h : appendDecision lib io request decision (rules.ofSource request.source).stored rules = .ok (data, rules')) :
    ∃ sourceRules, sourceRules.Sound sv ∧ data = sourceRules.stored ∧
      rules' = rules.set request.source sourceRules := by
  obtain ⟨sourceRules, hnew, hdata, hrules⟩ := appendDecision_sound hw hsound h
  exact ⟨sourceRules, hnew, hdata rfl, hrules⟩

/-- Sound rules are written as a file that holds them. -/
theorem holds_dump {stem : String} {sourceRules : SourceRules} (hlegal : LegalStem dflt stem)
    (h : sourceRules.Sound sv) : Holds sv lib dflt stem (.yaml (.map sourceRules.stored.dump)) sourceRules :=
  ⟨hlegal, readRuleFile_eq_ok.2 ⟨_, rfl, validateRuleFile_dump lib _ h.valid_stored⟩⟩

theorem Stored.set {rules : Rules} {dir : RulesDir} (h : Stored sv lib dflt rules dir) {s : String}
    {sourceRules : SourceRules} {text : RuleText} (hsound : sourceRules.Sound sv)
    (hholds : Holds sv lib dflt s text sourceRules) :
    Stored sv lib dflt (rules.set s sourceRules) (dir.set s text) := by
  refine ⟨fun s' sourceRules' hs => ?_, fun s' text' hs => ?_, fun s' sourceRules' hs hnone => ?_⟩
  · rw [Dict.get?_set] at hs
    split at hs
    · cases hs
      exact hsound
    · exact h.sound s' sourceRules' hs
  · rw [Dict.get?_set] at hs ⊢
    split at hs
    · rename_i he
      cases hs
      rw [if_pos he]
      exact ⟨sourceRules, rfl, he ▸ hholds⟩
    · rename_i hne
      rw [if_neg hne]
      exact h.saved s' text' hs
  · rw [Dict.get?_set] at hs hnone
    split at hnone
    · cases hnone
    · rename_i hne
      rw [if_neg hne] at hs
      exact h.unsaved s' sourceRules' hs hnone

/-- Saving an answer keeps memory and disk together. -/
theorem appendRule_stored {ctx ctx' : Runtime} {request : Request} {decision : Decision}
    (h : Stored sv lib dflt ctx.rules ctx.rulesDir) (hw : request.WellFormed) (hlegal : LegalStem dflt request.source)
    (hrun : (appendRule sv lib io request decision).run ctx = .ok () ctx') :
    Stored sv lib dflt ctx'.rules ctx'.rulesDir := by
  obtain ⟨data, rules, hdecided, rfl⟩ := appendRule_ok hrun
  obtain ⟨current, appended, hcurrent, happend, hdata⟩ := decidedPolicy_ok hdecided
  obtain rfl := h.current hcurrent
  obtain ⟨sourceRules, hsound, rfl, rfl⟩ := appendDecision_stored hw (h.sound_ofSource request.source) happend
  rw [validateRuleFile_dump lib _ hsound.valid_stored] at hdata
  cases hdata
  exact h.set hsound (holds_dump hlegal hsound)

end QubesSnitch
