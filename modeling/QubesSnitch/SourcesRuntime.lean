import QubesSnitch.PolicyRuntime

/-!
# Sources at run time

A refresh asks dom0 for the source map outside of the lock and publishes it under the lock: disposables that are gone or
were started anew lose what belonged to them, every source gets an entry in the rules, and the table is loaded.

As long as every rule file has its rules in memory, the entries that are made are empty ones (`ensureAll_run`) and
no file is read under the lock.
-/

namespace QubesSnitch

def sourceService : String := "qubes.SnitchSources"

def sourceRefreshInterval : Rat := 2

variable (sv : Services) (lib : DnsPython) (io : Io)

def ensureAllKnownRuleEntries : EStateM PyError Runtime Unit := fun ctx =>
  (ctx.sources.byName.keys.forM fun source => do let _ ← ensureRuleEntry sv lib source).run ctx

/-- What follows when the map has been replaced and cleaned up after. -/
def reloadPolicy : EStateM PyError Runtime Unit := do
  ensureAllKnownRuleEntries sv lib
  loadNft sv io

/-- The locked part of `refresh_sources_and_nft`. -/
def publishSources (new : SourceMap) (now : Rat) : EStateM PyError Daemon Bool := fun d =>
  let old := d.ctx.sources.byName
  let d := { d with ctx.lastSourceRefresh := now }
  if new.same d.ctx.sources then .ok false d
  else
    let d := cleanupReusedNumberedDispvmEntries old { d with ctx.sources := new }
    (onCtx do
      reloadPolicy sv lib io
      return true).run (cleanupDisposableRuleEntries d)

/-- The locked part of `refresh_sources_required`. -/
def publishRequiredSources (new : SourceMap) (now : Rat) : EStateM PyError Daemon Unit := fun d =>
  let d := { d with ctx.lastSourceRefresh := now, ctx.sources := new }
  (onCtx (reloadPolicy sv lib io)).run (cleanupDisposableRuleEntries d)

/-- The map in what dom0 answers. -/
def queryDom0Sources (answer : Except PyError String) (config : Config) : Except PyError SourceMap := do
  parseSourcesOutput (← answer) sourceService config.defaultDisposableVmName

/-- The exceptions of a query that end in an alert. -/
def PyError.isQueryFailure : PyError → Bool
  | systemExit _ | osError _ | calledProcessError _ => true
  | _ => false

/-- `source_refresh_error_reason` of such an exception. -/
def sourceRefreshErrorReason : PyError → String
  | .systemExit reason | .osError reason | .calledProcessError reason =>
    if reason = "" || reason = "0" then "" else " REASON=" ++ reason
  | _ => ""

/-- The alert about a failed query, which stops the daemon. -/
def sourceRefreshFailed {ω α : Type} (e : PyError) : Thread Daemon PyError ω α :=
  if e.isQueryFailure then do
    Thread.external
    throw (.systemExit ("source identity refresh failed" ++ sourceRefreshErrorReason e))
  else throw e

/-- A refresh with the answer that dom0 gives to it. -/
def forceSourceRefresh {ω : Type} (now : Rat) (answer : Except PyError String) : Thread Daemon PyError ω Bool := do
  let config ← Thread.peek fun d => .ok d.ctx.config
  match queryDom0Sources answer config with
  | .error e => sourceRefreshFailed e
  | .ok new => Thread.atomically (publishSources sv lib io new now)

def refreshSourcesAndNft {ω : Type} (now : Rat) (answer : Except PyError String) (force : Bool) :
    Thread Daemon PyError ω Bool := do
  let last ← Thread.peek fun d => .ok d.ctx.lastSourceRefresh
  if !force && now - last < sourceRefreshInterval then return false
  else forceSourceRefresh sv lib io now answer

/-- The refresh that the daemon starts with. -/
def refreshSourcesRequired {ω : Type} (now : Rat) (answer : Except PyError String) : Thread Daemon PyError ω Unit := do
  let config ← Thread.peek fun d => .ok d.ctx.config
  match queryDom0Sources answer config with
  | .error e => sourceRefreshFailed e
  | .ok new => Thread.atomically (publishRequiredSources sv lib io new now)

/-! ### What a refresh does -/

/-- The rules with an empty entry for each name that has none. -/
def Rules.cover (rules : Rules) (names : List String) : Rules :=
  names.foldl (fun rules name => if name ∈ rules.keys then rules else rules.set name ⟨[], []⟩) rules

theorem Rules.cover_get? (rules : Rules) (names : List String) (name : String) :
    (rules.cover names).get? name = (rules.get? name).or (if name ∈ names then some ⟨[], []⟩ else none) := by
  induction names generalizing rules with
  | nil => simp [cover]
  | cons first names ih =>
    rw [cover, List.foldl_cons, ← cover, ih]
    by_cases hfirst : first ∈ rules.keys
    · obtain ⟨known, hknown⟩ := Dict.mem_keys_iff.1 hfirst
      by_cases hname : name = first
      · simp [hfirst, hname, hknown]
      · simp [hfirst, hname]
    · have hnone := Dict.get?_eq_none_iff.2 hfirst
      by_cases hname : name = first
      · simp [hfirst, hname, hnone]
      · simp [hfirst, hname, Dict.get?_set_of_ne]

theorem ensureRuleEntry_run {ctx : Runtime} {source : String}
    (h : source ∉ ctx.rules.keys → ctx.rulesDir.get? source = none) :
    ∃ added, (ensureRuleEntry sv lib source).run ctx = .ok added { ctx with rules := ctx.rules.cover [source] } := by
  unfold EStateM.run ensureRuleEntry
  by_cases hs : source ∈ ctx.rules.keys
  · exact ⟨false, by simp [hs, Rules.cover]⟩
  · exact ⟨true, by simp [hs, h hs, Rules.cover]⟩

/-- One round of the loop of `ensure_all_known_rule_entries`. -/
def enter (source : String) : EStateM PyError Runtime Unit := do
  let _ ← ensureRuleEntry sv lib source

theorem enter_run {ctx : Runtime} {source : String} (h : source ∉ ctx.rules.keys → ctx.rulesDir.get? source = none) :
    (enter sv lib source).run ctx = .ok () { ctx with rules := ctx.rules.cover [source] } := by
  obtain ⟨added, hadded⟩ := ensureRuleEntry_run sv lib h
  simp only [EStateM.run] at hadded
  simp only [EStateM.run, enter, bind, EStateM.bind, hadded]
  rfl

private theorem ensureAll_forM (names : List String) {ctx : Runtime}
    (h : ∀ s, s ∉ ctx.rules.keys → ctx.rulesDir.get? s = none) :
    (names.forM (enter sv lib)).run ctx = .ok () { ctx with rules := ctx.rules.cover names } := by
  induction names generalizing ctx with
  | nil => rfl
  | cons first names ih =>
    have hfirst := enter_run sv lib (h first)
    have hnext : ∀ s, s ∉ (ctx.rules.cover [first]).keys → ctx.rulesDir.get? s = none := by
      intro s hs
      rw [← Dict.get?_eq_none_iff, Rules.cover_get?, Option.or_eq_none_iff] at hs
      exact h s (Dict.get?_eq_none_iff.1 hs.1)
    have hrest := @ih { ctx with rules := ctx.rules.cover [first] } hnext
    simp only [EStateM.run] at hfirst
    show (enter sv lib first >>= fun _ => names.forM (enter sv lib)) ctx = _
    simp only [bind, EStateM.bind, hfirst]
    exact hrest

/-- Where every file has its rules in memory, the missing entries are made without reading one. -/
theorem ensureAll_run {ctx : Runtime} (h : ∀ s, s ∉ ctx.rules.keys → ctx.rulesDir.get? s = none) :
    (ensureAllKnownRuleEntries sv lib).run ctx =
      .ok () { ctx with rules := ctx.rules.cover ctx.sources.byName.keys } := ensureAll_forM sv lib _ h

/-- The state with an entry for every source. -/
def covered (d : Daemon) : Daemon := { d with ctx.rules := d.ctx.rules.cover d.ctx.sources.byName.keys }

/-- The state when a map is in place, `gone` is purged and every source has an entry. -/
def refreshed (new : SourceMap) (now : Rat) (gone : List String) (d : Daemon) : Daemon :=
  covered (purgeAll { d with ctx.lastSourceRefresh := now, ctx.sources := new } gone)

/-- The state after an attempt to load the table. -/
def reloaded (d : Daemon) : Daemon := { d with ctx := (loadNft sv io).leaves d.ctx }

theorem reloadPolicy_leaves {d : Daemon} (h : ∀ s, s ∉ d.ctx.rules.keys → d.ctx.rulesDir.get? s = none) :
    (onCtx (reloadPolicy sv lib io)).leaves d = reloaded sv io (covered d) := by
  rw [onCtx_leaves, reloadPolicy, EStateM.leaves_bind_of_ok (ensureAll_run sv lib h)]
  rfl

/-- A purge leaves no file without rules. -/
theorem purgeAll_no_file {d : Daemon} (gone : List String)
    (h : ∀ s, s ∉ d.ctx.rules.keys → d.ctx.rulesDir.get? s = none) (s : String)
    (hs : s ∉ (purgeAll d gone).ctx.rules.keys) : (purgeAll d gone).ctx.rulesDir.get? s = none := by
  rw [← Dict.get?_eq_none_iff, purgeAll_rules] at hs
  rw [purgeAll_rulesDir]
  split at hs
  · rename_i hgone
    exact if_pos hgone
  · rename_i hkeep
    rw [if_neg hkeep]
    exact h s (Dict.get?_eq_none_iff.1 hs)

/-- What both cleanups purge when `old` has been replaced: the disposables with other addresses, then those that are
gone. -/
def cleanedDispvms (old : Nft.SourcesByName) (d : Daemon) : List String :=
  let reused := reusedDispvms old d.ctx.sources.byName
  reused ++ vanishedDispvms (purgeAll d reused).ctx

/-- The state when a map is in place. -/
def withMap (new : SourceMap) (now : Rat) (d : Daemon) : Daemon :=
  { d with ctx.lastSourceRefresh := now, ctx.sources := new }

theorem publishSources_changed {new : SourceMap} {now : Rat} {d : Daemon} (h : new.same d.ctx.sources = false) :
    (publishSources sv lib io new now).run d = (onCtx do
      reloadPolicy sv lib io
      return true).run (purgeAll (withMap new now d) (cleanedDispvms d.ctx.sources.byName (withMap new now d))) := by
  have hpurge : cleanupDisposableRuleEntries (cleanupReusedNumberedDispvmEntries d.ctx.sources.byName (withMap new now d)) =
      purgeAll (withMap new now d) (cleanedDispvms d.ctx.sources.byName (withMap new now d)) := List.foldl_append.symm
  rw [← hpurge]
  exact if_neg (by simp [h])

/-- A refresh that replaces the map purges, covers and loads; else only its time is noted. -/
theorem publishSources_leaves {new : SourceMap} {now : Rat} {d : Daemon}
    (h : ∀ s, s ∉ d.ctx.rules.keys → d.ctx.rulesDir.get? s = none) :
    (publishSources sv lib io new now).leaves d = { d with ctx.lastSourceRefresh := now } ∨
    ∃ gone, (publishSources sv lib io new now).leaves d = reloaded sv io (refreshed new now gone d) := by
  cases hsame : new.same d.ctx.sources with
  | true =>
    refine .inl (EStateM.leaves_of_ok (a := false) ?_)
    simp [EStateM.run, publishSources, hsame]
  | false =>
    have hfiles := @purgeAll_no_file (withMap new now d) (cleanedDispvms d.ctx.sources.byName (withMap new now d)) h
    refine .inr ⟨_, Eq.trans ?_ (reloadPolicy_leaves sv lib io hfiles)⟩
    rw [EStateM.leaves, publishSources_changed sv lib io hsame, ← EStateM.leaves, onCtx_leaves, EStateM.leaves_bind_pure,
      ← onCtx_leaves]
    rfl

theorem publishRequiredSources_leaves {new : SourceMap} {now : Rat} {d : Daemon}
    (h : ∀ s, s ∉ d.ctx.rules.keys → d.ctx.rulesDir.get? s = none) :
    ∃ gone, (publishRequiredSources sv lib io new now).leaves d = reloaded sv io (refreshed new now gone d) :=
  ⟨_, reloadPolicy_leaves sv lib io
    (@purgeAll_no_file { d with ctx.lastSourceRefresh := now, ctx.sources := new } _ h)⟩

end QubesSnitch
