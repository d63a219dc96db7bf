import Mathlib.Logic.Relation
import QubesSnitch.PacketHandlers
import QubesSnitch.Stored

/-!
# The running daemon

The threads of the daemon share its state under two locks, and every section that holds one is a `Step`: packets prompt,
CLI connections fetch prompts and answer or discard them later, the answers of dom0 are published.  Steps come in any
order, and any number of other steps may come between the fetching of a prompt and its answer.  A section that raises
ends the daemon; what it leaves counts as a state all the same.

`Invariant` is what every section keeps: memory and disk agree, known sources have an entry in the rules, and every
prompt is a question without an answer, kept under its key.
-/

namespace QubesSnitch

/-- What the threads share, and the prompts that have been shown to a CLI so far. -/
structure System where
  daemon : Daemon
  shown : List (QuestionKey × Request)

/-- The state of the module before `main`. -/
def Runtime.initial (dir : RulesDir) : Runtime where
  config := default
  sources := .empty
  rules := .empty
  rulesDir := dir
  nftText := none
  dnsResponseCache := .empty
  dnsQnameCache := .empty
  lastSourceRefresh := 0

/-- Policy is loaded, nothing has been asked. -/
def System.start (ctx : Runtime) : System := ⟨⟨Queue.initial, ctx⟩, []⟩

/-- What a section leaves. -/
def System.after {α : Type} (s : System) (x : EStateM PyError Daemon α) : System := { s with daemon := x.leaves s.daemon }

/-- What the packet path prompts for.  It looks for hints only for flows. -/
def Promptable (lib : DnsPython) (request : Request) : Prop :=
  Built lib request ∧ (request.kind.isDns → request.host = none)

/-- What `enrich_prompt_request` may do: a flow gets a name to show. -/
def Enriches (request enriched : Request) : Prop :=
  enriched = request ∨ request.kind.isDns = false ∧ ∃ name, enriched = { request with host := some name }

section Steps

variable (sv : Services) (lib : DnsPython)

/-- One section of one thread, where what is outside behaves as `allowed`. -/
inductive Step (allowed : Io → Prop) (s : System) : System → Prop
  | identify (parsed : ParsedPacket) : Step allowed s (s.after (identifySource sv lib parsed))
  | prompt {request : Request} (h : Promptable lib request) : Step allowed s (s.after (queuePrompt sv lib request))
  | fetch {key : QuestionKey} {request : Request}
      (h : nextPendingRequest s.daemon.queue = .ok (some (key, request))) :
      Step allowed s { s with shown := (key, request) :: s.shown }
  | discard {key : QuestionKey} {request : Request} (h : (key, request) ∈ s.shown) :
      Step allowed s (s.after (onQueue (discardPendingDecision key request)))
  | answer {io : Io} {key : QuestionKey} {request enriched prepared : Request} {decision : Decision} (hio : allowed io)
      (h : (key, request) ∈ s.shown) (he : Enriches request enriched)
      (hp : prepareHostnameDecision lib io.resolver enriched decision = .ok prepared) :
      Step allowed s (s.after (saveDecision sv lib io key prepared decision))
  | refresh {io : Io} {answer : Except PyError String} {new : SourceMap} (now : Rat) (hio : allowed io)
      (h : queryDom0Sources answer s.daemon.ctx.config = .ok new) :
      Step allowed s (s.after (publishSources sv lib io new now))
  | require {io : Io} {answer : Except PyError String} {new : SourceMap} (now : Rat) (hio : allowed io)
      (h : queryDom0Sources answer s.daemon.ctx.config = .ok new) :
      Step allowed s (s.after (publishRequiredSources sv lib io new now))
  /-- The DNS caches have a lock of their own. -/
  | hints (responses : Dict (String × IPv4) ResponseEntry) (qnames : Dict (String × String × String) QnameEntry) :
      Step allowed s { s with daemon.ctx.dnsResponseCache := responses, daemon.ctx.dnsQnameCache := qnames }

/-- The states that a daemon comes to. -/
abbrev Reaches (allowed : Io → Prop) : System → System → Prop := Relation.ReflTransGen (Step sv lib allowed)

end Steps

variable {sv : Services} {lib : DnsPython} {config : Config}

/-! ### The invariant -/

/-- A prompt that waits: its source has an entry in the rules, and they do not answer it. -/
structure Pending (sv : Services) (rules : Rules) (key : QuestionKey) (request : Request) : Prop
    extends Question key request where
  entry : request.source ∈ rules.keys
  undecided : matchingAction sv request rules = .ok none

structure Invariant (sv : Services) (lib : DnsPython) (config : Config) (d : Daemon) : Prop where
  configured : d.ctx.config = config
  sources : d.ctx.sources.Consistent config.defaultDisposableVmName
  known : ∀ s ∈ d.ctx.sources.byName.keys, s ∈ d.ctx.rules.keys
  stored : Stored sv lib config.defaultDisposableVmName d.ctx.rules d.ctx.rulesDir
  pending : ∀ key request, d.queue.items.get? key = some request → Pending sv d.ctx.rules key request

theorem Pending.congr {rules rules' : Rules} {key : QuestionKey} {request : Request}
    (h : Pending sv rules key request) (hsame : rules'.get? request.source = rules.get? request.source) :
    Pending sv rules' key request := by
  refine ⟨h.toQuestion, ?_, ?_⟩
  · obtain ⟨sourceRules, hget⟩ := Dict.mem_keys_iff.1 h.entry
    exact Dict.mem_keys_of_get? (hsame.trans hget)
  · rw [matchingAction, hsame]
    exact h.undecided

theorem questionKey_source (request : Request) : (questionKey request).source = request.source := by
  unfold questionKey
  split <;> rfl

namespace Invariant

variable {d : Daemon}

/-- Prompts may go. -/
theorem fewer (h : Invariant sv lib config d) {queue : Queue}
    (hq : ∀ key request, queue.items.get? key = some request → d.queue.items.get? key = some request) :
    Invariant sv lib config { d with queue } :=
  ⟨h.configured, h.sources, h.known, h.stored, fun key request hget => h.pending key request (hq key request hget)⟩

theorem known_sound (h : Invariant sv lib config d) : Nft.Known sv d.ctx.sources.byName d.ctx.rules := by
  intro s hs
  obtain ⟨sourceRules, hget⟩ := Dict.mem_keys_iff.1 (h.known s hs)
  exact ⟨sourceRules, hget, (h.stored.sound s sourceRules hget).usable⟩

end Invariant

/-- A source with an address is known. -/
theorem entry_of_byIp {d : Daemon} (hsources : d.ctx.sources.Consistent config.defaultDisposableVmName)
    (hknown : ∀ s ∈ d.ctx.sources.byName.keys, s ∈ d.ctx.rules.keys) {ip : IPv4} {source : String}
    (hs : d.ctx.sources.byIp.get? ip = some source) : source ∈ d.ctx.rules.keys := by
  obtain ⟨ips, hips, -⟩ := (hsources.byIp_iff ip source).1 hs
  exact hknown source (Dict.mem_keys_of_get? hips)

theorem mem_of_promptSourceCurrent {sources : SourceMap} {request : Request} (h : promptSourceCurrent sources request) :
    request.source ∈ sources.byName.keys := by
  unfold promptSourceCurrent at h
  cases hget : sources.byName.get? request.source with
  | none =>
    rw [hget] at h
    cases h
  | some ips => exact Dict.mem_keys_of_get? hget

/-! ### Packets -/

theorem ensureRuleEntry_known (sv : Services) (lib : DnsPython) {ctx : Runtime} {source : String}
    (h : source ∈ ctx.rules.keys) : (ensureRuleEntry sv lib source).run ctx = .ok false ctx := by
  simp [EStateM.run, ensureRuleEntry, h]

/-- Naming the source of a packet changes nothing. -/
theorem identifySource_leaves {d : Daemon} (hsources : d.ctx.sources.Consistent config.defaultDisposableVmName)
    (hknown : ∀ s ∈ d.ctx.sources.byName.keys, s ∈ d.ctx.rules.keys) (parsed : ParsedPacket) :
    (identifySource sv lib parsed).leaves d = d := by
  unfold EStateM.leaves EStateM.run identifySource
  cases hip : d.ctx.sources.byIp.get? parsed.src with
  | none => rfl
  | some source =>
    have hrun := ensureRuleEntry_known sv lib (entry_of_byIp hsources hknown hip)
    simp only [EStateM.run, onCtx] at hrun ⊢
    rw [hrun]

/-- A prompt goes to the queue, if at all, where policy has no answer. -/
theorem queuePrompt_leaves {d : Daemon} (hknown : ∀ s ∈ d.ctx.sources.byName.keys, s ∈ d.ctx.rules.keys)
    (request : Request) :
    (queuePrompt sv lib request).leaves d = d ∨
    (promptSourceCurrent d.ctx.sources request ∧ matchingAction sv request d.ctx.rules = .ok none ∧
      (queuePrompt sv lib request).leaves d = { d with queue := (queueQuestion request d.ctx.config d.queue).2 }) := by
  unfold EStateM.leaves EStateM.run queuePrompt
  cases hcurrent : promptSourceCurrent d.ctx.sources request with
  | false => exact .inl rfl
  | true =>
    have hkey := hknown _ (mem_of_promptSourceCurrent hcurrent)
    have hrun := ensureRuleEntry_known sv lib hkey
    simp only [EStateM.run, onCtx] at hrun ⊢
    rw [hrun]
    cases haction : matchingAction sv request d.ctx.rules with
    | error e => exact .inl (by simp [haction])
    | ok found =>
      cases found with
      | some action => exact .inl (by simp [haction])
      | none => exact .inr ⟨trivial, rfl, by simp [haction]⟩

/-- What is in the queue was there, or is the new question under its key. -/
theorem queueQuestion_items {request : Request} {config : Config} {q : Queue} {key : QuestionKey} {r : Request}
    (h : (queueQuestion request config q).2.items.get? key = some r) :
    q.items.get? key = some r ∨ r = requestWithoutBody request ∧ key = questionKey r := by
  unfold queueQuestion at h
  dsimp only at h
  split at h
  · exact .inl h
  · split at h
    · exact .inl h
    · have h : (q.items.set (questionKey (requestWithoutBody request)) (requestWithoutBody request)).get? key =
          some r := h
      rw [Dict.get?_set] at h
      split at h
      · cases h
        exact .inr ⟨rfl, by assumption⟩
      · exact .inl h

/-- A prompt id that is there was there, or is the one that the new question got. -/
theorem queueQuestion_ids {request : Request} {config : Config} {q : Queue} {key : QuestionKey} {id : Nat}
    (h : (queueQuestion request config q).2.ids.get? key = some id) :
    q.ids.get? key = some id ∨ id = q.next ∧ key.source = request.source ∧
      (queueQuestion request config q).2.next = q.next + 1 := by
  unfold queueQuestion at h ⊢
  dsimp only at h ⊢
  split at h
  · exact .inl h
  · split at h
    · exact .inl h
    · rename_i hkey hroom
      have h : (q.ids.set (questionKey (requestWithoutBody request)) q.next).get? key = some id := h
      rw [Dict.get?_set] at h
      split at h
      · rename_i hsame
        cases h
        refine .inr ⟨rfl, hsame ▸ questionKey_source _, ?_⟩
        rw [if_neg hkey, if_neg hroom]
        rfl
      · exact .inl h

/-- Prompt ids grow. -/
theorem queueQuestion_next {request : Request} {config : Config} {q : Queue} :
    q.next ≤ (queueQuestion request config q).2.next := by
  unfold queueQuestion
  dsimp only
  split
  · exact le_refl _
  · split
    · exact le_refl _
    · exact Nat.le_succ _

theorem Invariant.queuePrompt {d : Daemon} (h : Invariant sv lib config d) {request : Request}
    (hr : Promptable lib request) : Invariant sv lib config ((queuePrompt sv lib request).leaves d) := by
  rcases queuePrompt_leaves h.known request with hsame | ⟨hcurrent, hnone, hqueue⟩
  · rw [hsame]
    exact h
  · have hentry := h.known _ (mem_of_promptSourceCurrent hcurrent)
    rw [hqueue]
    refine ⟨h.configured, h.sources, h.known, h.stored, fun key r hget => ?_⟩
    rcases queueQuestion_items hget with hold | ⟨rfl, rfl⟩
    · exact h.pending key r hold
    · have hwell := hr.1.wellFormed
      have hsame : matchingAction sv (requestWithoutBody request) d.ctx.rules = matchingAction sv request d.ctx.rules :=
        matchingAction_congr _ rfl rfl rfl rfl rfl
      exact ⟨⟨rfl, ⟨hwell.packet, hwell.kind⟩, hr.2⟩, hentry, hsame.trans hnone⟩

/-! ### The table -/

/-- The kernel has the table of the policy in memory. -/
def Installed (sv : Services) (ctx : Runtime) : Prop :=
  ∃ table, Nft.renderNft sv ctx.sources.byName ctx.rules ctx.config nftTable queueNum = .ok table ∧
    ctx.nftText = some table.text

/-- nft and the file operations succeed. -/
structure Io.Works (io : Io) : Prop where
  nftCheck : ∀ text, io.nftCheck text
  nftLoad : ∀ text, io.nftLoad text
  appendFault : ∀ step, io.appendFault step = none

variable {io : Io}

theorem Invariant.reloaded {d : Daemon} (h : Invariant sv lib config d) :
    Invariant sv lib config (reloaded sv io d) := by
  obtain ⟨text, htext⟩ := loadNft_leaves sv io d.ctx
  rw [QubesSnitch.reloaded, htext]
  exact ⟨h.configured, h.sources, h.known, h.stored, h.pending⟩

/-- Where nft works, the table of a daemon with the invariant loads. -/
theorem Invariant.installed_reloaded {d : Daemon} (h : Invariant sv lib config d) (hio : io.Works) :
    Installed sv (QubesSnitch.reloaded sv io d).ctx := by
  obtain ⟨table, htable, -⟩ := Nft.renderNft_spec h.sources h.known_sound d.ctx.config nftTable queueNum
  have hrun : (loadNft sv io).run d.ctx = .ok () { d.ctx with nftText := table.text } := by
    simp [EStateM.run, loadNft, htable, hio.nftCheck, hio.nftLoad]
  rw [QubesSnitch.reloaded, EStateM.leaves_of_ok hrun]
  exact ⟨table, htable, rfl⟩

/-! ### Answers -/

section Answers

variable {d : Daemon} {ctx' : Runtime} {key : QuestionKey} {prepared : Request} {decision : Decision}

/-- An answer that is not saved leaves the policy as it is. -/
theorem saveRule_error {ctx : Runtime} {e : PyError}
    (h : (saveRule sv lib io prepared decision).run ctx = .error e ctx') : ctx' = ctx := by
  unfold EStateM.run saveRule at h
  split at h
  · cases h
  · unfold EStateM.run appendRule at h
    split at h
    · cases h
      rfl
    · split at h
      · cases h
        rfl
      · cases h

theorem saveRule_ok {ctx : Runtime} (h : (saveRule sv lib io prepared decision).run ctx = .ok () ctx') :
    ctx' = ctx ∨ promptSourceCurrent ctx.sources prepared ∧
      (appendRule sv lib io prepared decision).run ctx = .ok () ctx' := by
  unfold EStateM.run saveRule at h
  split at h
  · cases h
    exact .inl rfl
  · rename_i hcurrent
    exact .inr ⟨by simpa using hcurrent, h⟩

theorem removePendingHostnameSet_prepared (hp : Prepared lib prepared decision) (q : Queue) :
    ∃ q', removePendingHostnameSet prepared decision q = .ok q' := by
  unfold removePendingHostnameSet
  split
  · exact ⟨_, rfl⟩
  · rename_i hhost
    obtain ⟨-, -, ips, hips, -⟩ := hp (by simpa using hhost)
    rw [hips]
    exact ⟨_, rfl⟩

/-- An answer for a current prompt takes the prompts, and then the rule is saved and the table loaded. -/
theorem saveDecision_leaves_of_current (sv : Services) (lib : DnsPython) (io : Io) {d : Daemon} {key : QuestionKey}
    {queue : Queue} (hcurrent : promptCurrent key prepared d.queue)
    (hqueue : removePendingHostnameSet prepared decision (d.queue.drop key) = .ok queue) :
    (saveDecision sv lib io key prepared decision).leaves d = { d with queue, ctx :=
      (do saveRule sv lib io prepared decision; loadNft sv io : EStateM PyError Runtime Unit).leaves d.ctx } := by
  have hrun : (saveDecision sv lib io key prepared decision).run d =
      (onCtx do
        saveRule sv lib io prepared decision
        loadNft sv io).run { d with queue } := by
    simp [EStateM.run, saveDecision, saveSection, hcurrent, hqueue]
  rw [EStateM.leaves, hrun, ← EStateM.leaves, onCtx_leaves]

/-- An answer that is not for a current prompt changes nothing. -/
theorem saveDecision_leaves_of_not_current (sv : Services) (lib : DnsPython) (io : Io) {d : Daemon} {key : QuestionKey}
    (hcurrent : promptCurrent key prepared d.queue = false) :
    (saveDecision sv lib io key prepared decision).leaves d = d :=
  EStateM.leaves_of_ok (a := ()) (by simp [EStateM.run, saveDecision, saveSection, hcurrent])

/-- An answer that is not for a current prompt changes nothing; else the prompts go, and then the rule is saved and the
table loaded, unless saving raises. -/
theorem saveDecision_leaves (sv : Services) (io : Io) (d : Daemon) (key : QuestionKey)
    (hp : Prepared lib prepared decision) :
    (promptCurrent key prepared d.queue = false ∧ (saveDecision sv lib io key prepared decision).leaves d = d) ∨
    (promptCurrent key prepared d.queue ∧ ∃ queue,
      removePendingHostnameSet prepared decision (d.queue.drop key) = .ok queue ∧
      (((∃ e, (saveRule sv lib io prepared decision).run d.ctx = .error e d.ctx) ∧
          (saveDecision sv lib io key prepared decision).leaves d = { d with queue }) ∨
        ∃ ctx', (saveRule sv lib io prepared decision).run d.ctx = .ok () ctx' ∧
          (saveDecision sv lib io key prepared decision).leaves d = reloaded sv io ⟨queue, ctx'⟩)) := by
  cases hc : promptCurrent key prepared d.queue with
  | false => exact .inl ⟨rfl, saveDecision_leaves_of_not_current sv lib io hc⟩
  | true =>
    obtain ⟨queue, hqueue⟩ := removePendingHostnameSet_prepared hp (d.queue.drop key)
    have hleaves := saveDecision_leaves_of_current sv lib io hc hqueue
    refine .inr ⟨rfl, queue, hqueue, ?_⟩
    cases hsave : (saveRule sv lib io prepared decision).run d.ctx with
    | error e ctx' =>
      obtain rfl := saveRule_error hsave
      refine .inl ⟨⟨e, rfl⟩, ?_⟩
      rw [hleaves, EStateM.leaves_bind_of_error hsave]
    | ok u ctx' =>
      refine .inr ⟨ctx', rfl, ?_⟩
      rw [hleaves, EStateM.leaves_bind_of_ok hsave]
      rfl

/-- The prompts that an answer leaves. -/
theorem answered_items {q queue : Queue}
    (h : removePendingHostnameSet prepared decision (q.drop key) = .ok queue) (k : QuestionKey) (r : Request) :
    queue.items.get? k = some r ↔ q.items.get? k = some r ∧ k ≠ key ∧ (decision.isHostname →
      ∀ resolved, prepared.resolvedDests = some resolved → isSibling prepared resolved r = false) := by
  rw [removePendingHostnameSet_items h, TicketQueue.drop, Dict.get?_erase]
  by_cases hk : k = key <;> simp [hk]

/-- A saved answer leaves those prompts that it does not decide. -/
theorem Pending.undecided_iff {k : QuestionKey} {r : Request} (hr : Pending sv d.ctx.rules k r)
    (hq : Question key prepared) (hp : Prepared lib prepared decision)
    (hsave : (appendRule sv lib io prepared decision).run d.ctx = .ok () ctx') :
    matchingAction sv r ctx'.rules = .ok none ↔ k ≠ key ∧ (decision.isHostname →
      ∀ resolved, prepared.resolvedDests = some resolved → isSibling prepared resolved r = false) := by
  obtain ⟨data, rules, hdecided, rfl⟩ := appendRule_ok hsave
  obtain ⟨current, appended, -, happend, -⟩ := decidedPolicy_ok hdecided
  have hsaved : decision.isHostname → prepared.resolvedDests = some (savedAddresses rules prepared.source) := by
    intro hhost
    obtain ⟨-, -, ips, hips, -⟩ := hp hhost
    rw [savedAddresses_ok hq.wellFormed hp hhost hips happend, hips]
  rw [appendDecision_exact sv hq.wellFormed happend hr.wellFormed, hr.undecided, kept_iff hq hr.toQuestion hp hsaved]
  simp [Except.map, afterAnswer]

/-- What a saved answer leaves of policy and prompts. -/
theorem Invariant.appendRule {queue : Queue} (h : Invariant sv lib config d) (hq : Question key prepared)
    (hp : Prepared lib prepared decision)
    (hqueue : removePendingHostnameSet prepared decision (d.queue.drop key) = .ok queue)
    (hcurrent : promptSourceCurrent d.ctx.sources prepared)
    (hsave : (appendRule sv lib io prepared decision).run d.ctx = .ok () ctx') :
    Invariant sv lib config ⟨queue, ctx'⟩ := by
  have hlegal := h.sources.legal _ (mem_of_promptSourceCurrent hcurrent)
  have hstored := appendRule_stored h.stored hq.wellFormed hlegal hsave
  have hpending : ∀ k r, queue.items.get? k = some r → Pending sv d.ctx.rules k r ∧
      matchingAction sv r ctx'.rules = .ok none := by
    intro k r hget
    obtain ⟨hold, hkept⟩ := (answered_items hqueue k r).1 hget
    have hr := h.pending k r hold
    exact ⟨hr, (hr.undecided_iff hq hp hsave).2 hkept⟩
  obtain ⟨data, rules, hdecided, rfl⟩ := appendRule_ok hsave
  obtain ⟨current, appended, hcur, happend, -⟩ := decidedPolicy_ok hdecided
  obtain rfl := h.stored.current hcur
  obtain ⟨sourceRules, -, -, rfl⟩ := appendDecision_stored hq.wellFormed (h.stored.sound_ofSource _) happend
  refine ⟨h.configured, h.sources, fun s hs => Dict.mem_keys_set.2 (.inr (h.known s hs)), hstored, ?_⟩
  intro k r hget
  obtain ⟨hr, hnone⟩ := hpending k r hget
  exact ⟨hr.toQuestion, Dict.mem_keys_set.2 (.inr hr.entry), hnone⟩

theorem Invariant.saveRule {queue : Queue} (h : Invariant sv lib config d) (hq : Question key prepared)
    (hp : Prepared lib prepared decision)
    (hqueue : removePendingHostnameSet prepared decision (d.queue.drop key) = .ok queue)
    (hsave : (saveRule sv lib io prepared decision).run d.ctx = .ok () ctx') :
    Invariant sv lib config ⟨queue, ctx'⟩ := by
  rcases saveRule_ok hsave with rfl | ⟨hcurrent, happend⟩
  · exact h.fewer fun k r hget => ((answered_items hqueue k r).1 hget).1
  · exact h.appendRule hq hp hqueue hcurrent happend

theorem Invariant.saveDecision (h : Invariant sv lib config d) (hq : Question key prepared)
    (hp : Prepared lib prepared decision) :
    Invariant sv lib config ((saveDecision sv lib io key prepared decision).leaves d) := by
  rcases saveDecision_leaves sv io d key hp with
    ⟨-, hsame⟩ | ⟨-, queue, hqueue, ⟨-, hleaves⟩ | ⟨ctx', hsave, hleaves⟩⟩
  · rw [hsame]
    exact h
  · rw [hleaves]
    exact h.fewer fun k r hget => ((answered_items hqueue k r).1 hget).1
  · rw [hleaves]
    exact (h.saveRule hq hp hqueue hsave).reloaded

end Answers

/-! ### Refreshes -/

theorem queryDom0Sources_consistent {answer : Except PyError String} {new : SourceMap}
    (h : queryDom0Sources answer config = .ok new) : new.Consistent config.defaultDisposableVmName := by
  obtain ⟨text, -, h⟩ := Except.exists_of_bind_eq_ok h
  exact parseSourcesOutput_consistent h

/-- A new map may take sources away, with what belongs to them, and brings empty entries. -/
theorem Invariant.refreshed {d : Daemon} (h : Invariant sv lib config d) {new : SourceMap}
    (hnew : new.Consistent config.defaultDisposableVmName) (now : Rat) (gone : List String) :
    Invariant sv lib config (refreshed new now gone d) := by
  let d₁ : Daemon := { d with ctx.lastSourceRefresh := now, ctx.sources := new }
  obtain ⟨hconfig, hsources, -⟩ := purgeAll_frame d₁ gone
  have hstored : Stored sv lib config.defaultDisposableVmName (purgeAll d₁ gone).ctx.rules
      (purgeAll d₁ gone).ctx.rulesDir := h.stored.without (purgeAll_rules d₁ gone) (purgeAll_rulesDir d₁ gone)
  refine ⟨hconfig.trans h.configured, ?_, ?_, hstored.cover _, ?_⟩
  · rw [QubesSnitch.refreshed, covered, hsources]
    exact hnew
  · intro s hs
    have hs : s ∈ (purgeAll d₁ gone).ctx.sources.byName.keys := hs
    have hget := Rules.cover_get? (purgeAll d₁ gone).ctx.rules (purgeAll d₁ gone).ctx.sources.byName.keys s
    rw [if_pos hs] at hget
    cases hold : (purgeAll d₁ gone).ctx.rules.get? s <;>
      exact Dict.mem_keys_of_get? (hget.trans (by rw [hold]; rfl))
  · intro key r hget
    have hget : (purgeAll d₁ gone).queue.items.get? key = some r := hget
    rw [purgeAll_items] at hget
    split at hget
    · cases hget
    · rename_i hkeep
      have hr := h.pending key r hget
      rw [← hr.key, questionKey_source] at hkeep
      obtain ⟨sourceRules, hentry⟩ := Dict.mem_keys_iff.1 hr.entry
      refine hr.congr ?_
      show ((purgeAll d₁ gone).ctx.rules.cover _).get? r.source = d.ctx.rules.get? r.source
      rw [Rules.cover_get?, purgeAll_rules, if_neg hkeep, show d₁.ctx.rules = d.ctx.rules from rfl, hentry,
        Option.some_or]

/-- A required refresh ends in an attempt to load the table, in a state with the invariant. -/
theorem Invariant.publishesRequired {d : Daemon} (h : Invariant sv lib config d) {answer : Except PyError String}
    {new : SourceMap} (hquery : queryDom0Sources answer d.ctx.config = .ok new) (io : Io) (now : Rat) :
    ∃ d', Invariant sv lib config d' ∧
      (publishRequiredSources sv lib io new now).leaves d = QubesSnitch.reloaded sv io d' := by
  rw [h.configured] at hquery
  obtain ⟨gone, hleaves⟩ := publishRequiredSources_leaves sv lib io fun _ => h.stored.no_file
  exact ⟨_, h.refreshed (queryDom0Sources_consistent hquery) now gone, hleaves⟩

/-- So does any other refresh that finds a new map. -/
theorem Invariant.publishes {d : Daemon} (h : Invariant sv lib config d) {answer : Except PyError String}
    {new : SourceMap} (hquery : queryDom0Sources answer d.ctx.config = .ok new) (io : Io) (now : Rat) :
    (publishSources sv lib io new now).leaves d = { d with ctx.lastSourceRefresh := now } ∨
    ∃ d', Invariant sv lib config d' ∧ (publishSources sv lib io new now).leaves d = QubesSnitch.reloaded sv io d' := by
  rw [h.configured] at hquery
  rcases publishSources_leaves sv lib io fun _ => h.stored.no_file with hsame | ⟨gone, hleaves⟩
  · exact .inl hsame
  · exact .inr ⟨_, h.refreshed (queryDom0Sources_consistent hquery) now gone, hleaves⟩

end QubesSnitch
