import QubesSnitch.SourcesRuntime

/-!
# What a refresh takes and what it leaves

A published map discards the numbered disposables that are gone or have other addresses than before (`Discarded`): two
cleanups with different triggers take their rules, prompts, DNS hints and files.  What belongs to another source stays
as it was.  Nothing is assumed of the rule files and of nft here, so the entries that are made in the rules may come from
files and the refresh may raise while it makes them (`Entered`).
-/

namespace QubesSnitch

variable (sv : Services) (lib : DnsPython) (io : Io)

/-! ### Entries that are made -/

/-- The entry that a source without one gets: that of its file, or an empty one. -/
def EntryOf (rulesDir : RulesDir) (source : String) (sourceRules : SourceRules) : Prop :=
  (rulesDir.get? source = none ∧ sourceRules = ⟨[], []⟩) ∨
    ∃ text data, rulesDir.get? source = some text ∧ readRuleFile sv lib source text = .ok data ∧
      sourceRules = ⟨data.rules4, data.dns⟩

/-- Some of `names` got an entry, and the table may be another. -/
structure Entered (names : List String) (ctx ctx' : Runtime) : Prop where
  frame : ∃ nftText, ctx' = { ctx with rules := ctx'.rules, nftText }
  kept : ∀ s sourceRules, ctx.rules.get? s = some sourceRules → ctx'.rules.get? s = some sourceRules
  added : ∀ s sourceRules, ctx'.rules.get? s = some sourceRules →
    ctx.rules.get? s = some sourceRules ∨ s ∈ names ∧ EntryOf sv lib ctx.rulesDir s sourceRules

namespace Entered

variable {sv lib} {names : List String} {ctx ctx' ctx'' : Runtime}

theorem refl (ctx : Runtime) : Entered sv lib names ctx ctx :=
  ⟨⟨ctx.nftText, rfl⟩, fun _ _ h => h, fun _ _ h => .inl h⟩

theorem rulesDir_eq (h : Entered sv lib names ctx ctx') : ctx'.rulesDir = ctx.rulesDir := by
  obtain ⟨nftText, hframe⟩ := h.frame
  rw [hframe]

theorem trans (h : Entered sv lib names ctx ctx') (h' : Entered sv lib names ctx' ctx'') :
    Entered sv lib names ctx ctx'' := by
  refine ⟨?_, fun s r hr => h'.kept s r (h.kept s r hr), fun s r hr => ?_⟩
  · obtain ⟨nftText, hframe⟩ := h.frame
    obtain ⟨nftText', hframe'⟩ := h'.frame
    refine ⟨nftText', hframe'.trans ?_⟩
    rw [hframe]
  · rcases h'.added s r hr with hr | ⟨hs, hentry⟩
    · exact h.added s r hr
    · rw [h.rulesDir_eq] at hentry
      exact .inr ⟨hs, hentry⟩

/-- An entry that was there is the same. -/
theorem get?_of_mem (h : Entered sv lib names ctx ctx') {s : String} (hs : s ∈ ctx.rules.keys) :
    ctx'.rules.get? s = ctx.rules.get? s := by
  obtain ⟨r, hr⟩ := Dict.mem_keys_iff.1 hs
  rw [hr, h.kept s r hr]

end Entered

theorem ensureRuleEntry_entered {names : List String} {source : String} (hs : source ∈ names) (ctx : Runtime) :
    Entered sv lib names ctx ((ensureRuleEntry sv lib source).leaves ctx) := by
  by_cases hkey : source ∈ ctx.rules.keys
  · have hrun : (ensureRuleEntry sv lib source).run ctx = .ok false ctx := if_pos hkey
    rw [EStateM.leaves_of_ok hrun]
    exact .refl ctx
  · -- an entry that is there has another name
    have hset : ∀ r, EntryOf sv lib ctx.rulesDir source r →
        Entered sv lib names ctx { ctx with rules := ctx.rules.set source r } := by
      intro r hr
      refine ⟨⟨ctx.nftText, rfl⟩, fun s r' hr' => ?_, fun s r' hr' => ?_⟩
      · have hne : s ≠ source := by
          rintro rfl
          exact hkey (Dict.mem_keys_of_get? hr')
        exact (Dict.get?_set_of_ne _ _ hne).trans hr'
      · have hget : (ctx.rules.set source r).get? s = some r' := hr'
        by_cases hsource : s = source
        · subst hsource
          rw [Dict.get?_set_self] at hget
          exact .inr ⟨hs, Option.some.inj hget ▸ hr⟩
        · rw [Dict.get?_set_of_ne _ _ hsource] at hget
          exact .inl hget
    unfold EStateM.leaves EStateM.run ensureRuleEntry
    rw [if_neg hkey]
    cases hfile : ctx.rulesDir.get? source with
    | none => exact hset _ (.inl ⟨hfile, rfl⟩)
    | some text =>
      cases hread : readRuleFile sv lib source text with
      | error e =>
        simp only [hread]
        exact .refl ctx
      | ok data =>
        simp only [hread]
        exact hset _ (.inr ⟨text, data, hfile, hread, rfl⟩)

theorem ensureRuleEntry_mem {ctx ctx' : Runtime} {source : String} {added : Bool}
    (h : (ensureRuleEntry sv lib source).run ctx = .ok added ctx') : source ∈ ctx'.rules.keys := by
  unfold EStateM.run ensureRuleEntry at h
  split at h
  · cases h
    assumption
  · split at h
    · cases h
      exact Dict.mem_keys_set.2 (.inl rfl)
    · split at h
      · cases h
        exact Dict.mem_keys_set.2 (.inl rfl)
      · cases h

private theorem enter_entered {names : List String} {source : String} (hs : source ∈ names) (ctx : Runtime) :
    Entered sv lib names ctx ((enter sv lib source).leaves ctx) := by
  rw [enter, EStateM.leaves_bind_pure]
  exact ensureRuleEntry_entered sv lib hs ctx

private theorem enter_mem {ctx ctx' : Runtime} {source : String} (h : (enter sv lib source).run ctx = .ok () ctx') :
    source ∈ ctx'.rules.keys := by
  simp only [EStateM.run, enter, bind, EStateM.bind] at h
  cases hrun : ensureRuleEntry sv lib source ctx with
  | error e ctx₁ =>
    rw [hrun] at h
    cases h
  | ok added ctx₁ =>
    rw [hrun] at h
    cases h
    exact ensureRuleEntry_mem sv lib hrun

/-- The loop over some of the names. -/
private theorem forM_enter {names : List String} (l : List String) (hl : ∀ s ∈ l, s ∈ names) (ctx : Runtime) :
    Entered sv lib names ctx ((l.forM (enter sv lib)).leaves ctx) ∧
    ∀ ctx', (l.forM (enter sv lib)).run ctx = .ok () ctx' → ∀ s ∈ l, s ∈ ctx'.rules.keys := by
  induction l generalizing ctx with
  | nil =>
    refine ⟨.refl ctx, fun ctx' _ s hs => ?_⟩
    cases hs
  | cons first l ih =>
    have hfirst := enter_entered sv lib (hl first (by simp)) ctx
    rw [show (first :: l).forM (enter sv lib) = (enter sv lib first >>= fun _ => l.forM (enter sv lib)) from rfl]
    cases hrun : (enter sv lib first).run ctx with
    | error e ctx₁ =>
      rw [EStateM.leaves_bind_of_error hrun]
      rw [EStateM.leaves_of_error hrun] at hfirst
      refine ⟨hfirst, fun ctx' h => ?_⟩
      simp only [EStateM.run, bind, EStateM.bind] at hrun h
      rw [hrun] at h
      cases h
    | ok added ctx₁ =>
      rw [EStateM.leaves_bind_of_ok hrun]
      rw [EStateM.leaves_of_ok hrun] at hfirst
      obtain ⟨hrest, hall⟩ := ih (fun s hs => hl s (List.mem_cons_of_mem _ hs)) ctx₁
      refine ⟨hfirst.trans hrest, fun ctx' h s hs => ?_⟩
      have hlater : (l.forM (enter sv lib)).run ctx₁ = .ok () ctx' := by
        simp only [EStateM.run, bind, EStateM.bind] at hrun h ⊢
        rw [hrun] at h
        exact h
      rw [EStateM.leaves_of_ok hlater] at hrest
      rcases List.mem_cons.1 hs with rfl | hs
      · obtain ⟨r, hr⟩ := Dict.mem_keys_iff.1 (enter_mem sv lib hrun)
        exact Dict.mem_keys_of_get? (hrest.kept _ r hr)
      · exact hall ctx' hlater s hs

theorem ensureAll_entered (ctx : Runtime) :
    Entered sv lib ctx.sources.byName.keys ctx ((ensureAllKnownRuleEntries sv lib).leaves ctx) :=
  (forM_enter sv lib ctx.sources.byName.keys (fun _ hs => hs) ctx).1

theorem ensureAll_mem {ctx ctx' : Runtime} (h : (ensureAllKnownRuleEntries sv lib).run ctx = .ok () ctx') :
    ∀ s ∈ ctx.sources.byName.keys, s ∈ ctx'.rules.keys :=
  (forM_enter sv lib ctx.sources.byName.keys (fun _ hs => hs) ctx).2 ctx' h

theorem loadNft_entered (names : List String) (ctx : Runtime) :
    Entered sv lib names ctx ((loadNft sv io).leaves ctx) := by
  obtain ⟨text, htext⟩ := loadNft_leaves sv io ctx
  rw [htext]
  exact ⟨⟨text, rfl⟩, fun _ _ h => h, fun _ _ h => .inl h⟩

theorem reloadPolicy_entered (ctx : Runtime) :
    Entered sv lib ctx.sources.byName.keys ctx ((reloadPolicy sv lib io).leaves ctx) := by
  have henter := ensureAll_entered sv lib ctx
  unfold reloadPolicy
  cases hrun : (ensureAllKnownRuleEntries sv lib).run ctx with
  | error e ctx₁ =>
    rw [EStateM.leaves_of_error hrun] at henter
    rw [EStateM.leaves_bind_of_error hrun]
    exact henter
  | ok u ctx₁ =>
    rw [EStateM.leaves_of_ok hrun] at henter
    rw [EStateM.leaves_bind_of_ok hrun]
    exact henter.trans (loadNft_entered sv lib io _ ctx₁)

theorem reloadPolicy_mem {ctx ctx' : Runtime} (h : (reloadPolicy sv lib io).run ctx = .ok () ctx') :
    ∀ s ∈ ctx.sources.byName.keys, s ∈ ctx'.rules.keys := by
  simp only [EStateM.run, reloadPolicy, bind, EStateM.bind] at h
  cases hrun : ensureAllKnownRuleEntries sv lib ctx with
  | error e ctx₁ =>
    rw [hrun] at h
    cases h
  | ok u ctx₁ =>
    rw [hrun] at h
    have hload := loadNft_entered sv lib io ctx.sources.byName.keys ctx₁
    have h : (loadNft sv io).run ctx₁ = .ok () ctx' := h
    rw [EStateM.leaves_of_ok h] at hload
    intro s hs
    obtain ⟨r, hr⟩ := Dict.mem_keys_iff.1 (ensureAll_mem sv lib hrun s hs)
    exact Dict.mem_keys_of_get? (hload.kept s r hr)

/-! ### The map in place -/

private theorem mem_reusedDispvms {old new : Nft.SourcesByName} {s : String} :
    s ∈ reusedDispvms old new ↔
      isNumberedDispvm s ∧ ∃ ips ips', old.get? s = some ips ∧ new.get? s = some ips' ∧ ips' ≠ ips := by
  simp only [reusedDispvms, List.mem_map, List.mem_filter, Bool.and_eq_true, Option.any_eq_true, decide_eq_true_eq]
  constructor
  · rintro ⟨⟨s', ips⟩, ⟨hmem, hnumbered, ips', hnew, hne⟩, rfl⟩
    exact ⟨hnumbered, ips, ips', Dict.get?_eq_some_iff.2 hmem, hnew, hne⟩
  · rintro ⟨hnumbered, ips, ips', hold, hnew, hne⟩
    exact ⟨(s, ips), ⟨Dict.get?_eq_some_iff.1 hold, hnumbered, ips', hnew, hne⟩, rfl⟩

/-- The state when a map is in place and `gone` is purged. -/
def replaced (new : SourceMap) (now : Rat) (gone : List String) (d : Daemon) : Daemon :=
  purgeAll { d with ctx.lastSourceRefresh := now, ctx.sources := new } gone

/-- The numbered disposables that a map takes: those with rules that are not running, and those that are running with
other addresses than before. -/
def Taken (d : Daemon) (new : Nft.SourcesByName) (s : String) : Prop :=
  isNumberedDispvm s ∧ (s ∈ d.ctx.rules.keys ∧ s ∉ new.keys ∨
    ∃ ips ips', d.ctx.sources.byName.get? s = some ips ∧ new.get? s = some ips' ∧ ips' ≠ ips)

/-- Another map is put in place, both cleanups purge, and the entries and the table are made in what is left. -/
theorem publishSources_run {new : SourceMap} {now : Rat} {d : Daemon} (h : new.same d.ctx.sources = false) :
    ∃ gone, (∀ s, s ∈ gone ↔ Taken d new.byName s) ∧ (publishSources sv lib io new now).run d = (onCtx do
      reloadPolicy sv lib io
      return true).run (replaced new now gone d) := by
  let d₁ := withMap new now d
  let reused := reusedDispvms d.ctx.sources.byName new.byName
  let vanished := vanishedDispvms (purgeAll d₁ reused).ctx
  have hvanished : ∀ s, s ∈ vanished ↔
      (s ∈ d.ctx.rules.keys ∧ s ∉ reused) ∧ s ∉ new.byName.keys ∧ isNumberedDispvm s := by
    intro s
    have hrules : s ∈ (purgeAll d₁ reused).ctx.rules.keys ↔ s ∈ d.ctx.rules.keys ∧ s ∉ reused := by
      rw [Dict.mem_keys_iff, purgeAll_rules, Dict.mem_keys_iff]
      by_cases hs : s ∈ reused <;> simp [hs, d₁, withMap]
    have hsources : (purgeAll d₁ reused).ctx.sources = new := (purgeAll_frame d₁ reused).2.1
    simp only [vanished, vanishedDispvms, List.mem_filter, hrules, hsources, Bool.and_eq_true, decide_eq_true_eq]
  refine ⟨reused ++ vanished, fun s => ?_, publishSources_changed sv lib io h⟩
  rw [List.mem_append, hvanished, mem_reusedDispvms, Taken]
  constructor
  · rintro (⟨hnumbered, hchanged⟩ | ⟨⟨hrules, -⟩, hgone, hnumbered⟩)
    · exact ⟨hnumbered, .inr hchanged⟩
    · exact ⟨hnumbered, .inl ⟨hrules, hgone⟩⟩
  · rintro ⟨hnumbered, ⟨hrules, hgone⟩ | hchanged⟩
    · refine .inr ⟨⟨hrules, fun hreused => ?_⟩, hgone, hnumbered⟩
      obtain ⟨-, ips, ips', -, hnew, -⟩ := hreused
      exact hgone (Dict.mem_keys_of_get? hnew)
    · exact .inl ⟨hnumbered, hchanged⟩

theorem publishSources_replaces {new : SourceMap} {now : Rat} {d : Daemon} (h : new.same d.ctx.sources = false) :
    ∃ gone, (∀ s, s ∈ gone ↔ Taken d new.byName s) ∧
      (publishSources sv lib io new now).leaves d = { replaced new now gone d with
        ctx := (reloadPolicy sv lib io).leaves (replaced new now gone d).ctx } := by
  obtain ⟨gone, hgone, hrun⟩ := @publishSources_run sv lib io _ now _ h
  refine ⟨gone, hgone, ?_⟩
  rw [EStateM.leaves, hrun, ← EStateM.leaves, onCtx_leaves, EStateM.leaves_bind_pure]

theorem publishRequiredSources_replaces (new : SourceMap) (now : Rat) (d : Daemon) :
    ∃ gone, (publishRequiredSources sv lib io new now).leaves d = { replaced new now gone d with
      ctx := (reloadPolicy sv lib io).leaves (replaced new now gone d).ctx } := ⟨_, onCtx_leaves _ _⟩

/-- A refresh with the map in place notes its time. -/
theorem publishSources_same {new : SourceMap} {now : Rat} {d : Daemon} (h : new.same d.ctx.sources) :
    (publishSources sv lib io new now).leaves d = { d with ctx.lastSourceRefresh := now } := by
  have hrun : (publishSources sv lib io new now).run d = .ok false { d with ctx.lastSourceRefresh := now } := if_pos h
  exact EStateM.leaves_of_ok hrun

theorem replaced_map (new : SourceMap) (now : Rat) (gone : List String) (d : Daemon) :
    ((reloadPolicy sv lib io).leaves (replaced new now gone d).ctx).config = d.ctx.config ∧
      ((reloadPolicy sv lib io).leaves (replaced new now gone d).ctx).sources = new := by
  obtain ⟨nftText, hframe⟩ := (reloadPolicy_entered sv lib io (replaced new now gone d).ctx).frame
  have hpurge := purgeAll_frame { d with ctx.lastSourceRefresh := now, ctx.sources := new } gone
  rw [hframe]
  exact ⟨hpurge.1, hpurge.2.1⟩

/-- A refresh replaces the map, unless dom0 says the same. -/
theorem publishSources_map (new : SourceMap) (now : Rat) (d : Daemon) :
    ((publishSources sv lib io new now).leaves d).ctx.config = d.ctx.config ∧
      ((publishSources sv lib io new now).leaves d).ctx.sources =
        if new.same d.ctx.sources then d.ctx.sources else new := by
  cases hsame : new.same d.ctx.sources with
  | true =>
    rw [publishSources_same sv lib io hsame, if_pos rfl]
    exact ⟨rfl, rfl⟩
  | false =>
    obtain ⟨gone, -, hleaves⟩ := @publishSources_replaces sv lib io _ now _ hsame
    rw [hleaves, if_neg Bool.false_ne_true]
    exact replaced_map sv lib io new now gone d

theorem publishRequiredSources_map (new : SourceMap) (now : Rat) (d : Daemon) :
    ((publishRequiredSources sv lib io new now).leaves d).ctx.config = d.ctx.config ∧
      ((publishRequiredSources sv lib io new now).leaves d).ctx.sources = new := by
  obtain ⟨gone, hleaves⟩ := publishRequiredSources_replaces sv lib io new now d
  rw [hleaves]
  exact replaced_map sv lib io new now gone d

/-! ### What a map discards -/

/-- A numbered disposable that was in the old map and is not in the new one with the same addresses. -/
def Discarded (old new : Nft.SourcesByName) (s : String) : Prop :=
  isNumberedDispvm s ∧ s ∈ old.keys ∧ new.get? s ≠ old.get? s

instance (old new : Nft.SourcesByName) (s : String) : Decidable (Discarded old new s) :=
  inferInstanceAs (Decidable (_ ∧ _))

/-- The state of a daemon to which its map accounts for: known sources have an entry in the rules, numbered disposables
that own something are known, and the prompts and their ids are in step. -/
structure Accounted (d : Daemon) : Prop where
  known : ∀ s ∈ d.ctx.sources.byName.keys, s ∈ d.ctx.rules.keys
  rules : ∀ s ∈ d.ctx.rules.keys, isNumberedDispvm s → s ∈ d.ctx.sources.byName.keys
  prompts : ∀ key ∈ d.queue.items.keys, isNumberedDispvm key.source → key.source ∈ d.ctx.sources.byName.keys
  responses : ∀ key ∈ d.ctx.dnsResponseCache.keys, isNumberedDispvm key.1 → key.1 ∈ d.ctx.sources.byName.keys
  qnames : ∀ key ∈ d.ctx.dnsQnameCache.keys, isNumberedDispvm key.1 → key.1 ∈ d.ctx.sources.byName.keys
  inStep : d.queue.items.keys = d.queue.ids.keys

/-- The state without what belongs to the sources that `p` refuses. -/
def keepSources (p : String → Bool) (d : Daemon) : Daemon where
  queue := ⟨d.queue.items.filterKeys fun key => p key.source, d.queue.ids.filterKeys fun key => p key.source, d.queue.next⟩
  ctx := { d.ctx with
    rules := d.ctx.rules.filterKeys p
    dnsResponseCache := d.ctx.dnsResponseCache.filterKeys fun key => p key.1
    dnsQnameCache := d.ctx.dnsQnameCache.filterKeys fun key => p key.1
    rulesDir := d.ctx.rulesDir.filterKeys p }

private theorem purgeSource_eq {d : Daemon} (h : d.queue.items.keys = d.queue.ids.keys) (source : String) :
    purgeSource d source = keepSources (· ≠ source) d := by
  have hitems : ∀ key ∈ d.queue.items.keys,
      decide (key ∉ d.queue.items.keys.filter fun key => key.source = source) = decide (key.source ≠ source) := by
    intro key hkey
    refine decide_eq_decide.2 ?_
    simp [hkey]
  have hids : ∀ key ∈ d.queue.ids.keys,
      decide (key ∉ d.queue.items.keys.filter fun key => key.source = source) = decide (key.source ≠ source) :=
    fun key hkey => hitems key (h ▸ hkey)
  have hqueue : removePendingForSource source d.queue = ⟨d.queue.items.filterKeys fun key => key.source ≠ source,
      d.queue.ids.filterKeys fun key => key.source ≠ source, d.queue.next⟩ := by
    rw [removePendingForSource, TicketQueue.dropAll_eq, Dict.filterKeys_congr hitems, Dict.filterKeys_congr hids]
  unfold purgeSource keepSources
  rw [hqueue]
  rfl

/-- A purge keeps what belongs to the others, in its order. -/
theorem purgeAll_eq {d : Daemon} (h : d.queue.items.keys = d.queue.ids.keys) (gone : List String) :
    purgeAll d gone = keepSources (· ∉ gone) d := by
  induction gone generalizing d with
  | nil => simp [purgeAll, keepSources]
  | cons source gone ih =>
    have hkeep : ∀ s, (decide (s ∉ gone) && decide (s ≠ source)) = decide (s ∉ source :: gone) := by
      intro s
      rw [← Bool.decide_and]
      exact decide_eq_decide.2 (by rw [List.mem_cons, not_or, and_comm])
    have hstep : (purgeSource d source).queue.items.keys = (purgeSource d source).queue.ids.keys := by
      rw [purgeSource_eq h]
      show (d.queue.items.filterKeys _).keys = (d.queue.ids.filterKeys _).keys
      rw [Dict.keys_filterKeys, Dict.keys_filterKeys, h]
    rw [purgeAll, List.foldl_cons, ← purgeAll, ih hstep, purgeSource_eq h]
    simp only [keepSources, Dict.filterKeys_filterKeys, hkeep]

/-- Nothing is left of what belonged to a source before a map `new` was published. -/
structure Purged (new : SourceMap) (d' : Daemon) (s : String) : Prop where
  prompts : ∀ key : QuestionKey, key.source = s → d'.queue.items.get? key = none ∧ d'.queue.ids.get? key = none
  responses : ∀ ip, d'.ctx.dnsResponseCache.get? (s, ip) = none
  qnames : ∀ qtype qname, d'.ctx.dnsQnameCache.get? (s, qtype, qname) = none
  file : d'.ctx.rulesDir.get? s = none
  vanished : s ∉ new.byName.keys → d'.ctx.rules.get? s = none
  reused : ∀ sourceRules, d'.ctx.rules.get? s = some sourceRules → sourceRules = ⟨[], []⟩

/-- What belongs to a source is as before, prompts with their ids and in their order. -/
structure Unchanged (d d' : Daemon) (s : String) : Prop where
  rules : d'.ctx.rules.get? s = d.ctx.rules.get? s
  prompts : d'.queue.items.entries.filter (·.1.source = s) = d.queue.items.entries.filter (·.1.source = s)
  ids : d'.queue.ids.entries.filter (·.1.source = s) = d.queue.ids.entries.filter (·.1.source = s)
  responses : d'.ctx.dnsResponseCache.entries.filter (·.1.1 = s) = d.ctx.dnsResponseCache.entries.filter (·.1.1 = s)
  qnames : d'.ctx.dnsQnameCache.entries.filter (·.1.1 = s) = d.ctx.dnsQnameCache.entries.filter (·.1.1 = s)
  file : d'.ctx.rulesDir.get? s = d.ctx.rulesDir.get? s

section Publish

variable {d : Daemon} {new : SourceMap}

theorem Discarded.taken {s : String} (h : Discarded d.ctx.sources.byName new.byName s)
    (hknown : s ∈ d.ctx.rules.keys) : Taken d new.byName s := by
  obtain ⟨hnumbered, hold, hne⟩ := h
  obtain ⟨ips, hips⟩ := Dict.mem_keys_iff.1 hold
  refine ⟨hnumbered, ?_⟩
  cases hget : new.byName.get? s with
  | some ips' =>
    refine .inr ⟨ips, ips', hips, rfl, fun h => hne ?_⟩
    rw [hget, hips, h]
  | none => exact .inl ⟨hknown, Dict.get?_eq_none_iff.1 hget⟩

/-- Both cleanups together take what the new map discards. -/
private theorem taken_iff (hd : Accounted d) {s : String} :
    Taken d new.byName s ↔ Discarded d.ctx.sources.byName new.byName s := by
  constructor
  · rintro ⟨hnumbered, ⟨hrules, hgone⟩ | ⟨ips, ips', hold, hnew, hne⟩⟩
    · have hold := hd.rules s hrules hnumbered
      refine ⟨hnumbered, hold, fun h => hgone ?_⟩
      obtain ⟨ips, hips⟩ := Dict.mem_keys_iff.1 hold
      exact Dict.mem_keys_of_get? (h.trans hips)
    · refine ⟨hnumbered, Dict.mem_keys_of_get? hold, fun h => ?_⟩
      rw [hold, hnew] at h
      exact hne (Option.some.inj h)
  · exact fun h => h.taken (hd.known s h.2.1)

/-- The state without `gone` when the entries in the rules have been made and the table loaded. -/
private def cleanedUp (gone : List String) (d : Daemon) (ctx' : Runtime) : Daemon :=
  { keepSources (· ∉ gone) d with ctx := ctx' }

variable {gone : List String} {now : Rat} {ctx' : Runtime}

private theorem cleanedUp_purged (h : Entered sv lib new.byName.keys
    (keepSources (· ∉ gone) { d with ctx.lastSourceRefresh := now, ctx.sources := new }).ctx ctx') {s : String}
    (hs : s ∈ gone) : Purged new (cleanedUp gone d ctx') s := by
  obtain ⟨nftText, hframe⟩ := h.frame
  have hnot : decide (s ∉ gone) = false := decide_eq_false (not_not.2 hs)
  have hrules : (d.ctx.rules.filterKeys (· ∉ gone)).get? s = none := Dict.get?_filterKeys_of_not hnot
  have hfile : (d.ctx.rulesDir.filterKeys (· ∉ gone)).get? s = none := Dict.get?_filterKeys_of_not hnot
  -- an entry that is there now was made for the new map
  have hentry : ∀ r, ctx'.rules.get? s = some r → s ∈ new.byName.keys ∧ r = ⟨[], []⟩ := by
    intro r hr
    rcases h.added s r hr with hold | ⟨hname, ⟨-, rfl⟩ | ⟨text, data, htext, -⟩⟩
    · cases hrules.symm.trans hold
    · exact ⟨hname, rfl⟩
    · cases hfile.symm.trans htext
  refine ⟨fun key hkey => ?_, fun ip => ?_, fun qtype qname => ?_, ?_, fun hgone => ?_, fun r hr => (hentry r hr).2⟩
  · have hnot : decide (key.source ∉ gone) = false := by rw [hkey, hnot]
    exact ⟨Dict.get?_filterKeys_of_not hnot, Dict.get?_filterKeys_of_not hnot⟩
  · show ctx'.dnsResponseCache.get? (s, ip) = none
    rw [hframe]
    exact Dict.get?_filterKeys_of_not hnot
  · show ctx'.dnsQnameCache.get? (s, qtype, qname) = none
    rw [hframe]
    exact Dict.get?_filterKeys_of_not hnot
  · show ctx'.rulesDir.get? s = none
    rw [hframe]
    exact hfile
  · cases hr : ctx'.rules.get? s with
    | none => exact hr
    | some r => exact absurd (hentry r hr).1 hgone

private theorem cleanedUp_unchanged (h : Entered sv lib new.byName.keys
    (keepSources (· ∉ gone) { d with ctx.lastSourceRefresh := now, ctx.sources := new }).ctx ctx') {s : String}
    (hkey : s ∈ d.ctx.rules.keys) (hs : s ∉ gone) : Unchanged d (cleanedUp gone d ctx') s := by
  obtain ⟨nftText, hframe⟩ := h.frame
  have hkeep : decide (s ∉ gone) = true := decide_eq_true hs
  have hsource : ∀ source : String, decide (source = s) → decide (source ∉ gone) := by
    intro source hsource
    rw [of_decide_eq_true hsource, hkeep]
  refine ⟨?_, Dict.filter_filterKeys d.queue.items fun key => hsource key.source,
    Dict.filter_filterKeys d.queue.ids fun key => hsource key.source, ?_, ?_, ?_⟩
  · have hmem : s ∈ (d.ctx.rules.filterKeys (· ∉ gone)).keys := Dict.mem_keys_filterKeys.2 ⟨hkey, hkeep⟩
    exact (h.get?_of_mem hmem).trans (Dict.get?_filterKeys_of hkeep)
  · show ctx'.dnsResponseCache.entries.filter _ = _
    rw [hframe]
    exact Dict.filter_filterKeys d.ctx.dnsResponseCache fun key => hsource key.1
  · show ctx'.dnsQnameCache.entries.filter _ = _
    rw [hframe]
    exact Dict.filter_filterKeys d.ctx.dnsQnameCache fun key => hsource key.1
  · show ctx'.rulesDir.get? s = _
    rw [hframe]
    exact Dict.get?_filterKeys_of hkeep

end Publish

/-- A published map purges exactly the disposables that it discards, whether or not the entries and the table that follow
are made: of those nothing is left, and those that are back start with an empty entry; what belongs to any other source
with an entry is unchanged, and the remaining prompts keep their order. -/
theorem publishSources_purges {d : Daemon} (hd : Accounted d) {new : SourceMap}
    (hnew : new.same d.ctx.sources = false) (now : Rat) {d' : Daemon}
    (hd' : (publishSources sv lib io new now).leaves d = d') :
    (∀ s, Discarded d.ctx.sources.byName new.byName s → Purged new d' s) ∧
      (∀ s ∈ d.ctx.rules.keys, ¬ Discarded d.ctx.sources.byName new.byName s → Unchanged d d' s) ∧
      d'.queue.items.entries = (d.queue.items.entries.filter fun e =>
        ¬ Discarded d.ctx.sources.byName new.byName e.1.source) ∧
      ∀ b, (publishSources sv lib io new now).run d = .ok b d' → ∀ s ∈ new.byName.keys,
        Discarded d.ctx.sources.byName new.byName s → d'.ctx.rules.get? s = some ⟨[], []⟩ := by
  obtain ⟨gone, htaken, hrun⟩ := @publishSources_run sv lib io _ now _ hnew
  have hgone : ∀ s, s ∈ gone ↔ Discarded d.ctx.sources.byName new.byName s := fun s => (htaken s).trans (taken_iff hd)
  rw [replaced, purgeAll_eq (d := { d with ctx.lastSourceRefresh := now, ctx.sources := new }) hd.inStep] at hrun
  let d₂ : Daemon := keepSources (· ∉ gone) { d with ctx.lastSourceRefresh := now, ctx.sources := new }
  let ctx' := (reloadPolicy sv lib io).leaves d₂.ctx
  have hleaves : d' = cleanedUp gone d ctx' := by
    rw [← hd', EStateM.leaves, hrun, ← EStateM.leaves, onCtx_leaves, EStateM.leaves_bind_pure]
    rfl
  have hentered := reloadPolicy_entered sv lib io d₂.ctx
  have hpurged : ∀ s, Discarded d.ctx.sources.byName new.byName s → Purged new d' s := by
    intro s hs
    rw [hleaves]
    exact cleanedUp_purged sv lib hentered ((hgone s).2 hs)
  have hunchanged : ∀ s ∈ d.ctx.rules.keys, ¬ Discarded d.ctx.sources.byName new.byName s → Unchanged d d' s := by
    intro s hkey hs
    rw [hleaves]
    exact cleanedUp_unchanged sv lib hentered hkey fun h => hs ((hgone s).1 h)
  refine ⟨hpurged, hunchanged, ?_, ?_⟩
  · rw [hleaves]
    refine List.filter_congr fun e _ => ?_
    rw [decide_eq_decide, hgone]
  · intro b hok s hname hs
    -- a publication that returns has reloaded all sources
    have hreload : (reloadPolicy sv lib io).run d₂.ctx = .ok () d'.ctx := by
      rw [hrun] at hok
      simp only [EStateM.run, onCtx, bind, EStateM.bind] at hok ⊢
      cases hres : reloadPolicy sv lib io d₂.ctx with
      | error e ctx₁ =>
        rw [hres] at hok
        cases hok
      | ok u ctx₁ =>
        rw [hres] at hok
        cases hok
        rfl
    obtain ⟨r, hr⟩ := Dict.mem_keys_iff.1 (reloadPolicy_mem sv lib io hreload s hname)
    rw [hr, (hpurged s hs).reused r hr]

namespace Sample

/-- A map of one disposable. -/
def disposable (ip : IPv4) : SourceMap :=
  ⟨.ofList [("disp1234", [ip])], .ofList [(ip, "disp1234")], .empty, .ofList [(ip, "disp1234")]⟩

/-- A disposable with a rule file and a hint. -/
def disposableRunning : Daemon where
  queue := Queue.initial
  ctx :=
    { config := config
      sources := disposable ⟨10, 138, 0, 5⟩
      rules := .ofList [("disp1234", ⟨[], [⟨"example.org", "A", .allow⟩]⟩)]
      rulesDir := .ofList [("disp1234", .yaml (.map []))]
      nftText := none
      dnsResponseCache := .ofList [(("disp1234", server), ⟨"example.org", "example.org", "A", 60⟩)]
      dnsQnameCache := .empty
      lastSourceRefresh := 0 }

theorem accounted_disposableRunning : Accounted disposableRunning where
  known := by decide +kernel
  rules := by decide +kernel
  prompts := by decide +kernel
  responses := by decide +kernel
  qnames := by decide +kernel
  inStep := by decide +kernel

theorem publishSources_purges_disposable : Purged (disposable ⟨10, 138, 0, 6⟩)
    ((publishSources .empty dnspython ⟨fun _ => .error "no answer", fun _ => true, fun _ => true, fun _ => none⟩
      (disposable ⟨10, 138, 0, 6⟩) 1).leaves disposableRunning) "disp1234" :=
  (@publishSources_purges .empty dnspython _ _ accounted_disposableRunning (disposable ⟨10, 138, 0, 6⟩)
    (by decide +kernel) 1 _ rfl).1 "disp1234" (by decide +kernel)

end Sample

end QubesSnitch
