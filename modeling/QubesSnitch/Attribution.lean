import QubesSnitch.Answers
import QubesSnitch.PacketHandlers
import QubesSnitch.Refreshes

/-!
# The source of a packet while maps change

`add_runtime_request_fields` looks its address up, and looks it up again in a later section for the name.  Between the
two another thread may publish a map without the address, and then the second lookup raises.  So it does after its own
refresh, where the name for the log line is read without the lock.

`SourceStays` says what the call has to find so that it ends in one of the ways that it is meant to end in
(`AttributionEnds`), and `addRuntimeRequestFields_ends_iff` that it ends so exactly then.
-/

namespace QubesSnitch

/-- The alert that stops the daemon. -/
def unknownSourceAlert (parsed : ParsedPacket) : PyError :=
  .systemExit ("source IP unknown to Qubes SRC=" ++ parsed.src.text ++ " DST=" ++ parsed.dst.text ++ " PROTO=" ++
    parsed.proto.name)

/-- A map gives a request its source. -/
structure AttributedBy (m : SourceMap) (parsed : ParsedPacket) (request : Request) : Prop where
  packet : request.toParsedPacket = parsed
  source : m.byIp.get? parsed.src = some request.source
  display : request.displaySource = (m.displayByIp.get? parsed.src).getD request.source

/-- A section that looks the address up. -/
def LookedUp (src : IPv4) (known : Bool) (p : Daemon × Daemon) : Prop := (sourceKnown src).run p.1 = .ok known p.2

/-- The ways in which a call may end: with a source from one map, with a refusal after a refresh that knows the address
and is logged, or with the alert about an address that the refresh does not know. -/
inductive AttributionEnds (parsed : ParsedPacket) :
    EStateM.Result PyError (World Daemon PyError PacketVerdict) (Option Request) → Prop
  | attributed {request : Request} {w : World Daemon PyError PacketVerdict}
      (h : ∃ p ∈ w.sections, AttributedBy p.1.ctx.sources parsed request) : AttributionEnds parsed (.ok (some request) w)
  | sourceRefresh {w : World Daemon PyError PacketVerdict}
      (h : ∃ p q, w.sections.head? = some p ∧ w.sections.getLast? = some q ∧ LookedUp parsed.src false p ∧
        LookedUp parsed.src true q)
      (hlogged : w.calls = 1) : AttributionEnds parsed (.ok none w)
  | unknownSource {w : World Daemon PyError PacketVerdict}
      (h : ∃ q, w.sections.getLast? = some q ∧ LookedUp parsed.src false q)
      (halert : ∀ k < w.calls, w.faults k = none) : AttributionEnds parsed (.error (unknownSourceAlert parsed) w)

/-- Only the alert is raised. -/
theorem AttributionEnds.of_error {parsed : ParsedPacket} {e : PyError} {w : World Daemon PyError PacketVerdict}
    (h : AttributionEnds parsed (.error e w)) : e = unknownSourceAlert parsed ∧
      (∃ q, w.sections.getLast? = some q ∧ LookedUp parsed.src false q) ∧ ∀ k < w.calls, w.faults k = none := by
  cases h with
  | unknownSource hunknown halert => exact ⟨rfl, hunknown, halert⟩

section Calls

variable (sv : Services) (lib : DnsPython) (io : Io) (now : Rat) (answer : Except PyError String) (parsed : ParsedPacket)

/-- What a call finds that ends well.  An address that is known at first is still known when the source is named; else
the refresh and the alerts work, and an address that is known then is still known when its name is read. -/
def SourceStays (d : Daemon) (others : Nat → Daemon → Daemon) (faults : Nat → Option PyError) : Prop :=
  let first := others 0 d
  if parsed.src ∈ first.ctx.sources.byIp.keys then
    ∃ source added ctx, (others 1 first).ctx.sources.byIp.get? parsed.src = some source ∧
      (ensureRuleEntry sv lib source).run (others 1 first).ctx = .ok added ctx
  else
    let asked := others 2 (others 1 first)
    ∃ new changed published, queryDom0Sources answer asked.ctx.config = .ok new ∧
      (publishSources sv lib io new now).run (others 3 asked) = .ok changed published ∧ faults 0 = none ∧
      (parsed.src ∈ (others 4 published).ctx.sources.byIp.keys →
        parsed.src ∈ (others 5 (others 4 published)).ctx.sources.byIp.keys)

variable {sv lib io now answer parsed} {d : Daemon} {others : Nat → Daemon → Daemon} {faults : Nat → Option PyError}

theorem sourceKnown_run (src : IPv4) (d : Daemon) :
    (sourceKnown src).run d = .ok (decide (src ∈ d.ctx.sources.byIp.keys)) d := rfl

theorem not_lookedUp_false {src : IPv4} {p : Daemon × Daemon} (h : src ∈ p.1.ctx.sources.byIp.keys) :
    ¬ LookedUp src false p := by
  intro hlooked
  rw [LookedUp, sourceKnown_run, decide_eq_true h] at hlooked
  cases hlooked

/-- Naming a source takes the address in the map and the entry in the rules. -/
theorem identifySource_cases (d : Daemon) :
    (∃ source added ctx, d.ctx.sources.byIp.get? parsed.src = some source ∧
      (ensureRuleEntry sv lib source).run d.ctx = .ok added ctx ∧
      ∃ request d', (identifySource sv lib parsed).run d = .ok request d' ∧ AttributedBy d.ctx.sources parsed request) ∨
    (d.ctx.sources.byIp.get? parsed.src = none ∧
      (identifySource sv lib parsed).run d = .error (.keyError parsed.src.text) d) ∨
    ∃ source e d', d.ctx.sources.byIp.get? parsed.src = some source ∧
      (∀ added ctx, (ensureRuleEntry sv lib source).run d.ctx ≠ .ok added ctx) ∧
      (identifySource sv lib parsed).run d = .error e d' := by
  unfold identifySource
  simp only [EStateM.run]
  cases hip : d.ctx.sources.byIp.get? parsed.src with
  | none => exact .inr (.inl ⟨rfl, rfl⟩)
  | some source =>
    cases hentry : ensureRuleEntry sv lib source d.ctx with
    | ok added ctx =>
      refine .inl ⟨source, added, ctx, rfl, hentry, ?_⟩
      simp only [onCtx, EStateM.run, hentry]
      have hframe : ctx.sources = d.ctx.sources := by
        have hrun : (ensureRuleEntry sv lib source).run d.ctx = .ok added ctx := hentry
        have hentered := ensureRuleEntry_entered sv lib (List.mem_singleton_self source) d.ctx
        rw [EStateM.leaves_of_ok hrun] at hentered
        obtain ⟨nftText, h⟩ := hentered.frame
        rw [h]
      refine ⟨_, _, rfl, rfl, hip, ?_⟩
      show (ctx.sources.displayByIp.get? parsed.src).getD source = _
      rw [hframe]
    | error e ctx =>
      refine .inr (.inr ⟨source, e, { d with ctx }, rfl, fun added ctx' h => ?_, ?_⟩)
      · rw [hentry] at h
        cases h
      · simp only [onCtx, EStateM.run, hentry]

/-- The rest of a call that knows the address. -/
private theorem run_of_known (h : parsed.src ∈ (others 0 d).ctx.sources.byIp.keys) :
    (addRuntimeRequestFields sv lib io now answer parsed).run { shared := d, others, faults } =
      (some <$> (Thread.atomically (identifySource sv lib parsed) : Handler Request)).run
        { shared := others 0 d, others, faults, accesses := 1, sections := [(others 0 d, others 0 d)] } := by
  have hfirst : (Thread.atomically (sourceKnown parsed.src) : Handler Bool).run { shared := d, others, faults } =
      .ok true { shared := others 0 d, others, faults, accesses := 1, sections := [(others 0 d, others 0 d)] } :=
    Thread.run_atomically_of_ok (by simp [sourceKnown_run, h])
  rw [addRuntimeRequestFields, EStateM.run_bind, hfirst]
  rfl

private theorem ends_of_known (h : parsed.src ∈ (others 0 d).ctx.sources.byIp.keys) :
    AttributionEnds parsed ((addRuntimeRequestFields sv lib io now answer parsed).run { shared := d, others, faults }) ↔
      ∃ source added ctx, (others 1 (others 0 d)).ctx.sources.byIp.get? parsed.src = some source ∧
        (ensureRuleEntry sv lib source).run (others 1 (others 0 d)).ctx = .ok added ctx := by
  let w₁ : World Daemon PyError PacketVerdict :=
    { shared := others 0 d, others, faults, accesses := 1, sections := [(others 0 d, others 0 d)] }
  rw [run_of_known h, map_eq_pure_bind, EStateM.run_bind]
  rcases @identifySource_cases sv lib parsed (others 1 (others 0 d)) with
    ⟨source, added, ctx, hip, hentry, request, d', hok, hby⟩ | ⟨hip, herror⟩ | ⟨source, e, d', hip, hentry, herror⟩
  · rw [Thread.run_atomically_of_ok (w := w₁) hok]
    exact ⟨fun _ => ⟨source, added, ctx, hip, hentry⟩, fun _ => .attributed
      ⟨_, List.mem_append_right _ (List.mem_singleton_self _), hby⟩⟩
  · rw [Thread.run_atomically_of_error (w := w₁) herror]
    constructor
    · intro hends
      cases hends
    · rintro ⟨source, added, ctx, hsome, -⟩
      rw [hip] at hsome
      cases hsome
  · rw [Thread.run_atomically_of_error (w := w₁) herror]
    constructor
    · intro hends
      obtain ⟨q, hq, hnot⟩ := hends.of_error.2.1
      cases List.getLast?_concat.symm.trans hq
      exact absurd hnot (not_lookedUp_false (Dict.mem_keys_of_get? hip))
    · rintro ⟨source', added, ctx, hsome, hok⟩
      rw [hip] at hsome
      cases hsome
      exact absurd hok (hentry added ctx)

/-- A refresh that is forced reads the configuration, asks, and publishes. -/
theorem refreshSourcesAndNft_run {ω : Type} (w : World Daemon PyError ω) :
    (refreshSourcesAndNft sv lib io now answer true).run w =
      let asked := w.others (w.accesses + 1) (w.others w.accesses w.shared)
      let w' := { w with shared := asked, accesses := w.accesses + 2 }
      match queryDom0Sources answer asked.ctx.config with
      | .error e => (sourceRefreshFailed e : Thread Daemon PyError ω Bool).run w'
      | .ok new => (Thread.atomically (publishSources sv lib io new now) : Thread Daemon PyError ω Bool).run w' := by
  dsimp only
  rw [refreshSourcesAndNft, EStateM.run_bind, Thread.run_peek]
  dsimp only
  rw [if_neg (by simp), forceSourceRefresh, EStateM.run_bind, Thread.run_peek]
  dsimp only
  cases queryDom0Sources answer (w.others (w.accesses + 1) (w.others w.accesses w.shared)).ctx.config <;> rfl

/-- A failed query ends in another alert, or in what raised on the way. -/
theorem sourceRefreshFailed_run {ω α : Type} (e : PyError) (w : World Daemon PyError ω) :
    ∃ e' w', (sourceRefreshFailed e : Thread Daemon PyError ω α).run w = .error e' w' ∧
      ((∀ k < w'.calls, w'.faults k = none) → e' ≠ unknownSourceAlert parsed) := by
  unfold sourceRefreshFailed
  split
  · rw [EStateM.run_bind, Thread.run_external]
    cases hfault : w.faults w.calls with
    | none =>
      refine ⟨_, _, rfl, fun _ h => ?_⟩
      have htext := congrArg String.toList (PyError.systemExit.inj h)
      simp [String.toList_append] at htext
    | some e' =>
      refine ⟨e', _, rfl, fun hnone => ?_⟩
      have := hnone w.calls (Nat.lt_succ_self _)
      rw [show ({ w with calls := w.calls + 1 } : World Daemon PyError ω).faults = w.faults from rfl, hfault] at this
      cases this
  · rename_i hnot
    refine ⟨e, w, rfl, fun _ h => hnot ?_⟩
    rw [h]
    rfl

/-- A refresh that raises has replaced the map. -/
theorem not_lookedUp_publishSources {src : IPv4} {known : Bool} {e : PyError} {new : SourceMap} {d' : Daemon}
    (h : (publishSources sv lib io new now).run d = .error e d') : ¬ LookedUp src known (d, d') := by
  intro hlooked
  obtain rfl : d = d' := by
    rw [LookedUp, sourceKnown_run] at hlooked
    exact (EStateM.Result.ok.inj hlooked).2
  have hmap := (publishSources_map sv lib io new now d).2
  rw [EStateM.leaves_of_error h] at hmap
  have hsame : new.same d.ctx.sources := by
    by_contra hnot
    rw [if_neg hnot] at hmap
    exact hnot (hmap ▸ SourceMap.same_refl _)
  have hrun : (publishSources sv lib io new now).run d = .ok false { d with ctx.lastSourceRefresh := now } :=
    if_pos hsame
  rw [hrun] at h
  cases h

/-- What follows the refresh. -/
private def afterRefresh (parsed : ParsedPacket) : Handler (Option Request) := do
  match ← Thread.atomically (sourceKnown parsed.src) with
  | true => do
    let _ ← Thread.peek fun d => match d.ctx.sources.byIp.get? parsed.src with
      | some source => .ok source
      | none => .error (.keyError parsed.src.text)
    Thread.external
    return none
  | false => do
    Thread.external
    throw (unknownSourceAlert parsed)

private theorem ends_afterRefresh {w : World Daemon PyError PacketVerdict} {p : Daemon × Daemon}
    (hfirst : w.sections.head? = some p) (hunknown : LookedUp parsed.src false p) (hcalls : w.calls = 0) :
    AttributionEnds parsed ((afterRefresh parsed).run w) ↔ w.faults 0 = none ∧
      let found := w.others w.accesses w.shared
      (parsed.src ∈ found.ctx.sources.byIp.keys →
        parsed.src ∈ (w.others (w.accesses + 1) found).ctx.sources.byIp.keys) := by
  dsimp only
  let found := w.others w.accesses w.shared
  let w₁ : World Daemon PyError PacketVerdict :=
    { w with shared := found, accesses := w.accesses + 1, sections := w.sections ++ [(found, found)] }
  have hlookup : (Thread.atomically (sourceKnown parsed.src) : Handler Bool).run w =
      .ok (decide (parsed.src ∈ found.ctx.sources.byIp.keys)) w₁ := Thread.run_atomically_of_ok (sourceKnown_run _ _)
  have hlast : ∀ known, decide (parsed.src ∈ found.ctx.sources.byIp.keys) = known →
      w₁.sections.getLast? = some (found, found) ∧ LookedUp parsed.src known (found, found) := by
    rintro known rfl
    exact ⟨List.getLast?_concat, sourceKnown_run _ _⟩
  rw [afterRefresh, EStateM.run_bind, hlookup]
  -- the second lookup decides between the alert about the refresh and that about the source
  by_cases hknown : parsed.src ∈ found.ctx.sources.byIp.keys
  · obtain ⟨hlast, hlooked⟩ := hlast true (decide_eq_true hknown)
    rw [decide_eq_true hknown]
    dsimp only
    rw [EStateM.run_bind, Thread.run_peek]
    -- the labels are read outside the section, from a map that may be another by then
    cases hnext : (w₁.others w₁.accesses w₁.shared).ctx.sources.byIp.get? parsed.src with
    | none =>
      constructor
      · intro hends
        cases hends
      · rintro ⟨-, hstays⟩
        exact absurd (hstays hknown) (Dict.get?_eq_none_iff.1 hnext)
    | some source =>
      dsimp only
      rw [EStateM.run_bind, Thread.run_external]
      cases hfault : w.faults 0 with
      | none =>
        rw [show w₁.faults w₁.calls = none from (congrArg w.faults hcalls).trans hfault]
        refine ⟨fun _ => ⟨rfl, fun _ => Dict.mem_keys_of_get? hnext⟩, fun _ => ?_⟩
        refine .sourceRefresh ⟨p, (found, found), ?_, hlast, hunknown, hlooked⟩ (congrArg (· + 1) hcalls)
        exact List.head?_append.trans (by rw [hfirst]; rfl)
      | some e =>
        rw [show w₁.faults w₁.calls = some e from (congrArg w.faults hcalls).trans hfault]
        refine ⟨fun hends => ?_, fun ⟨h, _⟩ => by cases h⟩
        obtain ⟨q, hq, hnot⟩ := hends.of_error.2.1
        cases hlast.symm.trans hq
        exact absurd hnot (not_lookedUp_false hknown)
  · obtain ⟨hlast, hlooked⟩ := hlast false (decide_eq_false hknown)
    rw [decide_eq_false hknown]
    dsimp only
    rw [EStateM.run_bind, Thread.run_external]
    cases hfault : w.faults 0 with
    | none =>
      rw [show w₁.faults w₁.calls = none from (congrArg w.faults hcalls).trans hfault]
      refine ⟨fun _ => ⟨rfl, fun h => absurd h hknown⟩, fun _ => ?_⟩
      refine .unknownSource ⟨(found, found), hlast, hlooked⟩ fun k hk => ?_
      have hk : k < w.calls + 1 := hk
      obtain rfl : k = 0 := by omega
      exact hfault
    | some e =>
      rw [show w₁.faults w₁.calls = some e from (congrArg w.faults hcalls).trans hfault]
      refine ⟨fun hends => ?_, fun ⟨h, _⟩ => by cases h⟩
      have hnone := hends.of_error.2.2 0 (Nat.succ_pos _)
      cases hfault.symm.trans hnone

private theorem ends_of_unknown (h : parsed.src ∉ (others 0 d).ctx.sources.byIp.keys) :
    AttributionEnds parsed ((addRuntimeRequestFields sv lib io now answer parsed).run { shared := d, others, faults }) ↔
      ∃ new changed published, queryDom0Sources answer (others 2 (others 1 (others 0 d))).ctx.config = .ok new ∧
        (publishSources sv lib io new now).run (others 3 (others 2 (others 1 (others 0 d)))) = .ok changed published ∧
        faults 0 = none ∧ (parsed.src ∈ (others 4 published).ctx.sources.byIp.keys →
          parsed.src ∈ (others 5 (others 4 published)).ctx.sources.byIp.keys) := by
  let asked := others 2 (others 1 (others 0 d))
  let w : World Daemon PyError PacketVerdict := { shared := d, others, faults }
  let w₁ : World Daemon PyError PacketVerdict :=
    { w with shared := others 0 d, accesses := 1, sections := [(others 0 d, others 0 d)] }
  let w₃ : World Daemon PyError PacketVerdict := { w₁ with shared := asked, accesses := 3 }
  have hunknown : LookedUp parsed.src false (others 0 d, others 0 d) := by
    rw [LookedUp, sourceKnown_run, decide_eq_false h]
  -- the lookup, the reading of the configuration and the publication are accesses 0, 2 and 3
  have hfirst : (Thread.atomically (sourceKnown parsed.src) : Handler Bool).run w = .ok false w₁ :=
    Thread.run_atomically_of_ok hunknown
  have hrun : (addRuntimeRequestFields sv lib io now answer parsed).run w =
      ((refreshSourcesAndNft sv lib io now answer true : Handler Bool) >>= fun _ => afterRefresh parsed).run w₁ := by
    rw [addRuntimeRequestFields, EStateM.run_bind, hfirst]
    rfl
  rw [hrun, EStateM.run_bind, refreshSourcesAndNft_run]
  dsimp only
  cases hquery : queryDom0Sources answer asked.ctx.config with
  | error e =>
    obtain ⟨e', w', hfailed, hne⟩ := @sourceRefreshFailed_run parsed _ Bool e w₃
    dsimp only
    rw [show (sourceRefreshFailed e : Handler Bool).run _ = .error e' w' from hfailed]
    constructor
    · intro hends
      obtain ⟨halert, -, hnone⟩ := hends.of_error
      exact absurd halert (hne hnone)
    · rintro ⟨new, changed, published, hnew, -⟩
      cases hnew
  | ok new =>
    dsimp only
    cases hpublish : (publishSources sv lib io new now).run (others 3 asked) with
    | error e published =>
      rw [Thread.run_atomically_of_error (w := w₃) hpublish]
      constructor
      · intro hends
        obtain ⟨q, hq, hnot⟩ := hends.of_error.2.1
        cases List.getLast?_concat.symm.trans hq
        exact absurd hnot (not_lookedUp_publishSources hpublish)
      · rintro ⟨new', changed, published', hnew, hok, -⟩
        cases hnew
        cases hpublish.symm.trans hok
    | ok changed published =>
      rw [Thread.run_atomically_of_ok (w := w₃) hpublish]
      dsimp only
      rw [ends_afterRefresh rfl hunknown rfl]
      constructor
      · rintro ⟨hfault, hstays⟩
        exact ⟨new, changed, published, rfl, hpublish, hfault, hstays⟩
      · rintro ⟨new', changed', published', hnew, hok, hfault, hstays⟩
        cases hnew
        cases hpublish.symm.trans hok
        exact ⟨hfault, hstays⟩

/-- Whatever the other threads do, the call ends as it is meant to exactly if the address stays in the map from the
section that finds it to the reading of its name, and what the call asks for works. -/
theorem addRuntimeRequestFields_ends_iff (sv : Services) (lib : DnsPython) (io : Io) (now : Rat)
    (answer : Except PyError String) (parsed : ParsedPacket) (d : Daemon) (others : Nat → Daemon → Daemon)
    (faults : Nat → Option PyError) :
    AttributionEnds parsed
        ((addRuntimeRequestFields sv lib io now answer parsed).run { shared := d, others, faults }) ↔
      SourceStays sv lib io now answer parsed d others faults := by
  unfold SourceStays
  by_cases h : parsed.src ∈ (others 0 d).ctx.sources.byIp.keys
  · rw [ends_of_known h, if_pos h]
  · rw [ends_of_unknown h, if_neg h]

/-- An address that is gone when the source is named. -/
theorem addRuntimeRequestFields_keyError (h : parsed.src ∈ (others 0 d).ctx.sources.byIp.keys)
    (hgone : parsed.src ∉ (others 1 (others 0 d)).ctx.sources.byIp.keys) :
    ∃ w, (addRuntimeRequestFields sv lib io now answer parsed).run { shared := d, others, faults } =
      .error (.keyError parsed.src.text) w := by
  have hid : (identifySource sv lib parsed).run (others 1 (others 0 d)) =
      .error (.keyError parsed.src.text) (others 1 (others 0 d)) := by
    simp only [EStateM.run, identifySource, Dict.get?_eq_none_iff.2 hgone]
  rw [run_of_known h, map_eq_pure_bind, EStateM.run_bind, Thread.run_atomically_of_error hid]
  exact ⟨_, rfl⟩

end Calls

namespace Sample

/-- A packet of the disposable. -/
def disposablePacket : ParsedPacket where
  src := ⟨10, 138, 0, 5⟩
  dst := server
  proto := .flow .tcp
  sport := some 12345
  dport := some 443

/-- The watcher publishes a map in which the disposable has another address, when the first section is done. -/
def watcher : Nat → Daemon → Daemon
  | 1, d => (publishSources .empty dnspython works (disposable ⟨10, 138, 0, 6⟩) 1).leaves d
  | _, d => d

theorem watcher_map : (watcher 1 disposableRunning).ctx.sources = disposable ⟨10, 138, 0, 6⟩ := by
  have hmap := (publishSources_map .empty dnspython works (disposable ⟨10, 138, 0, 6⟩) 1 disposableRunning).2
  rwa [if_neg (by decide +kernel)] at hmap

/-- The call as it runs beside the watcher; dom0, nft and the log work. -/
def attribution : EStateM.Result PyError (World Daemon PyError PacketVerdict) (Option Request) :=
  (addRuntimeRequestFields .empty dnspython works 0 (.ok "") disposablePacket).run
    { shared := disposableRunning, others := watcher, faults := fun _ => none }

theorem addRuntimeRequestFields_raises :
    (∃ w, attribution = .error (.keyError "10.138.0.5") w) ∧ ¬ AttributionEnds disposablePacket attribution := by
  have hgone : disposablePacket.src ∉ (watcher 1 disposableRunning).ctx.sources.byIp.keys := by
    rw [watcher_map]
    decide +kernel
  obtain ⟨w, hrun⟩ := @addRuntimeRequestFields_keyError .empty dnspython works 0 (.ok "") disposablePacket
    disposableRunning watcher (fun _ => none) (by decide +kernel) hgone
  rw [show disposablePacket.src.text = "10.138.0.5" by decide +kernel] at hrun
  rw [attribution, hrun]
  refine ⟨⟨w, rfl⟩, fun hends => ?_⟩
  cases hends.of_error.1

end Sample

end QubesSnitch
