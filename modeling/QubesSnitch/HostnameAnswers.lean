import QubesSnitch.Concrete

/-!
# Host-name answers

The CLI resolves the name of a prompt and offers `A` and `R` with the addresses it shows.  Only the word of the decision
goes back to the daemon, which resolves the name once more and saves what it finds then.

So an answer covers the addresses that were shown exactly when the second lookup finds the same addresses, or addresses
with which the daemon refuses the answer, or when the prompt is not waiting any more (`hostnameAnswer_exact_iff`).
-/

namespace QubesSnitch

/-! ### The CLI -/

def Address.v4? : Address → Option IPv4
  | v4 x => some x
  | v6 => none

/-- The IPv4 addresses of a name; `none` is an exception of the resolver or of `ipaddress`. -/
def resolveHostnameIps (resolver : Resolver) (hostname : String) : Option (List IPv4) := do
  let answers ← (resolver hostname).toOption
  let addresses ← answers.mapM fun answer => ipAddress answer.toList
  return sortedAddresses (addresses.filterMap Address.v4?)

/-- On one answer that has IPv4 addresses only both sides agree. -/
theorem resolveHostnameIps_of_addressesOf {resolver : Resolver} {qname : String} {ips : List IPv4}
    (h : addressesOf resolver qname = some ips) : resolveHostnameIps resolver qname = some ips := by
  obtain ⟨answers, found, hanswers, hfound, rfl, -⟩ := resolveDestDns_eq_ok_iff.1 ((resolveDestDns_eq_ok "").2 h)
  have hparsed : answers.mapM (fun answer => ipAddress answer.toList) = some (found.map Address.v4) := by
    clear h hanswers
    induction hfound with
    | nil => rfl
    | cons hfirst _ ih => rw [List.mapM_cons, hfirst, ih]; rfl
  have hv4 : (found.map Address.v4).filterMap Address.v4? = found := by
    rw [List.filterMap_map]
    exact List.filterMap_some
  rw [resolveHostnameIps, hanswers]
  simp only [Except.toOption, Option.bind_eq_bind, Option.bind_some, hparsed, hv4]
  rfl

variable {sv : Services} {lib : DnsPython} {io : Io}

/-- `add_hostname_choices`: `SystemExit` is no `Exception`, and gets through. -/
def addHostnameChoices (lib : DnsPython) (resolver : Resolver) (request : Request) : Except PyError Request :=
  match trustedHost request.host with
  | none => .ok request
  | some host =>
    match validateDestDnsName lib "prompt" (.str host) with
    | .error (.systemExit message) => .error (.systemExit message)
    | .error _ => .ok request
    | .ok hostname =>
      match resolveHostnameIps resolver hostname with
      | none => .ok request
      | some ips =>
        .ok (if 1 < ips.length && request.dst ∈ ips then { request with resolvedDests := some ips } else request)

/-- What a key means in a prompt. -/
def keyDecision (request : Request) (key : Char) : Option Decision :=
  if key = 'a' then some .allow
  else if key = 'r' then some .reject
  else if key = 'A' && request.resolvedDests.isSome then some .allowDns
  else if key = 'R' && request.resolvedDests.isSome then some .rejectDns
  else none

/-- The answer that the keys give, if one of them is displayed as a decision. -/
def ask (lib : DnsPython) (resolver : Resolver) (request : Request) (keys : List Char) :
    Except PyError (Option Decision) := do
  let request ← addHostnameChoices lib resolver request
  return keys.findSome? (keyDecision request)

/-- The name of the prompt as both sides check it. -/
def promptName (lib : DnsPython) (request : Request) : Option String :=
  (trustedHost request.host).bind fun host => (validateDestDnsName lib "prompt" (.str host)).toOption

/-- What is shown with the choices. -/
theorem addHostnameChoices_ok {resolver : Resolver} {request asked : Request} (hsent : request.resolvedDests = none)
    (h : addHostnameChoices lib resolver request = .ok asked) {shown : List IPv4}
    (hshown : asked.resolvedDests = some shown) : asked = { request with resolvedDests := some shown } ∧
      2 ≤ shown.length ∧ request.dst ∈ shown ∧
      ∃ qname, promptName lib request = some qname ∧ resolveHostnameIps resolver qname = some shown := by
  have hnot : ∀ r : Request, (.ok r : Except PyError Request) = .ok asked → r.resolvedDests = none → False := by
    intro r hr hnone
    cases hr
    rw [hnone] at hshown
    cases hshown
  unfold addHostnameChoices at h
  split at h
  · exact (hnot request h hsent).elim
  · rename_i host hhost
    split at h
    · cases h
    · exact (hnot request h hsent).elim
    · rename_i qname hqname
      have hname : promptName lib request = some qname := by
        rw [promptName, hhost, Option.bind_some, hqname]
        rfl
      split at h
      · exact (hnot request h hsent).elim
      · rename_i ips hips
        split at h
        · rename_i hmulti
          cases h
          obtain rfl := Option.some.inj hshown
          simp only [Bool.and_eq_true, decide_eq_true_eq] at hmulti
          exact ⟨rfl, hmulti.1, hmulti.2, qname, hname, hips⟩
        · exact (hnot request h hsent).elim

/-- A host-name answer is given to a prompt that shows addresses. -/
theorem ask_hostname {resolver : Resolver} {request : Request} {keys : List Char} {decision : Decision}
    (h : ask lib resolver request keys = .ok (some decision)) (hhost : decision.isHostname) :
    ∃ asked shown, addHostnameChoices lib resolver request = .ok asked ∧ asked.resolvedDests = some shown := by
  obtain ⟨asked, hasked, h⟩ := Except.exists_of_bind_eq_ok h
  obtain ⟨key, -, hkey⟩ := List.exists_of_findSome?_eq_some (Except.ok.inj h)
  refine ⟨asked, ?_⟩
  unfold keyDecision at hkey
  split at hkey
  · cases hkey
    cases hhost
  · split at hkey
    · cases hkey
      cases hhost
    · split at hkey
      · rename_i hset
        simp only [Bool.and_eq_true, Option.isSome_iff_exists] at hset
        obtain ⟨shown, hshown⟩ := hset.2
        exact ⟨shown, hasked, hshown⟩
      · split at hkey
        · rename_i hset
          simp only [Bool.and_eq_true, Option.isSome_iff_exists] at hset
          obtain ⟨shown, hshown⟩ := hset.2
          exact ⟨shown, hasked, hshown⟩
        · cases hkey

/-! ### The daemon -/

/-- The answer is prepared when the second lookup finds several addresses with the destination among them. -/
theorem prepareHostnameDecision_eq_ok_iff {resolver : Resolver} {request prepared : Request} {decision : Decision}
    (hhost : decision.isHostname) : prepareHostnameDecision lib resolver request decision = .ok prepared ↔
      ∃ ips, (promptName lib request).bind (addressesOf resolver) = some ips ∧ 2 ≤ ips.length ∧ request.dst ∈ ips ∧
        prepared = { request with resolvedDests := some ips } := by
  unfold prepareHostnameDecision promptName
  rw [if_neg (by simp [hhost])]
  cases htrusted : trustedHost request.host with
  | none => simp
  | some host =>
    dsimp only
    rw [Option.bind_some]
    cases hqname : validateDestDnsName lib "prompt" (.str host) with
    | error e => simp [bind, Except.bind, Except.toOption]
    | ok qname =>
      show (resolveDestDns resolver "prompt" qname >>= _) = _ ↔ ∃ ips, addressesOf resolver qname = some ips ∧ _
      constructor
      · intro h
        obtain ⟨ips, hips, h⟩ := Except.exists_of_bind_eq_ok h
        split at h
        · cases h
        · rename_i hmulti
          cases h
          simp only [Bool.or_eq_true, decide_eq_true_eq, not_or, not_not, not_le] at hmulti
          exact ⟨ips, (resolveDestDns_eq_ok _).1 hips, hmulti.1, hmulti.2, rfl⟩
      · rintro ⟨ips, hips, htwo, hmem, rfl⟩
        rw [(resolveDestDns_eq_ok _).2 hips]
        show (if _ then _ else _) = _
        rw [if_neg]
        simp only [Bool.or_eq_true, decide_eq_true_eq, not_or, not_not, not_le]
        exact ⟨htwo, hmem⟩

/-- The rule that a host-name answer saves is for the addresses that the answer came with. -/
theorem saveRule_dest {ctx ctx' : Runtime} {prepared : Request} {decision : Decision} {ips : List IPv4}
    (hhost : decision.isHostname) (hips : prepared.resolvedDests = some ips) (hne : ips ≠ [])
    (h : (saveRule sv lib io prepared decision).run ctx = .ok () ctx') {rule : FlowRule}
    (hrule : (ctx'.rules.ofSource prepared.source).ip = (ctx.rules.ofSource prepared.source).ip ++ [rule]) :
    ∃ qname, rule.dest = .dns qname (some ips) := by
  have hsame : (ctx'.rules.ofSource prepared.source).ip ≠ (ctx.rules.ofSource prepared.source).ip := by
    rw [hrule]
    simp
  rcases saveRule_ok h with rfl | ⟨-, happend⟩
  · exact (hsame rfl).elim
  · obtain ⟨data, rules, hdecided, rfl⟩ := appendRule_ok happend
    obtain ⟨current, appended, -, happend, -⟩ := decidedPolicy_ok hdecided
    unfold appendDecision at happend
    split at happend
    · -- a DNS question has no addresses
      obtain ⟨_, -, happend⟩ := Except.exists_of_bind_eq_ok happend
      obtain ⟨_, -, happend⟩ := Except.exists_of_bind_eq_ok happend
      cases happend
      refine (hsame ?_).elim
      rw [Rules.ofSource_set, if_pos rfl]
    · obtain ⟨_, -, happend⟩ := Except.exists_of_bind_eq_ok happend
      obtain ⟨dest, hdest, happend⟩ := Except.exists_of_bind_eq_ok happend
      obtain ⟨_, -, happend⟩ := Except.exists_of_bind_eq_ok happend
      cases happend
      rw [Rules.ofSource_set, if_pos rfl] at hrule
      obtain rfl : _ = rule := by simpa using hrule
      rcases promptDest_ok hdest with ⟨hplain, -⟩ | ⟨-, qname, x, xs, rfl, -, -, hsame⟩
      · rw [hplain] at hhost
        cases hhost
      · exact ⟨qname, by rw [hsame ips hips hne]⟩

/-! ### Both -/

/-- What a host-name answer should do to the state that it finds, with the addresses that were shown and what the two
lookups came to. -/
structure HostnameExact (shown : List IPv4) (first second : Option (List IPv4)) (source : String)
    (found left : Daemon) : Prop where
  saved : ∀ rule : FlowRule, (left.ctx.rules.ofSource source).ip = (found.ctx.rules.ofSource source).ip ++ [rule] →
    ∃ qname, rule.dest = .dns qname (some shown)
  refused : first ≠ second → left.ctx.rules = found.ctx.rules ∧ left.ctx.rulesDir = found.ctx.rulesDir ∧
    left.queue = found.queue

section Sections

variable {key : QuestionKey} {request : Request} {decision : Decision} {w : World Daemon PyError Empty}

/-- What the daemon does with the line that the CLI sends. -/
def answerLine (sv : Services) (lib : DnsPython) (io : Io) (key : QuestionKey) (request : Request)
    (decision : Decision) : Thread Daemon PyError Empty Unit :=
  answerPrompt lib io.resolver (saveRule sv lib io) (loadNft sv io) key request (.line decision.name)

theorem answerLine_eq : answerLine sv lib io key request decision =
    savePendingDecision lib io.resolver (saveRule sv lib io) (loadNft sv io) key request decision := by
  have hname : Decision.ofName? decision.name = some decision := by cases decision <;> decide
  rw [answerLine, answerPrompt, hname]

/-- A refused answer has no section. -/
theorem answerLine_refused {e : PyError}
    (h : prepareHostnameDecision lib io.resolver request decision = .error e) :
    ((answerLine sv lib io key request decision).leaves w).sections = w.sections := by
  rw [answerLine_eq, savePendingDecision, h]
  rfl

/-- An answer that is prepared has one. -/
theorem answerLine_section {prepared : Request}
    (h : prepareHostnameDecision lib io.resolver request decision = .ok prepared) :
    ((answerLine sv lib io key request decision).leaves w).sections = w.sections ++
      [(w.others w.accesses w.shared,
        (saveDecision sv lib io key prepared decision).leaves (w.others w.accesses w.shared))] := by
  rw [answerLine_eq, savePendingDecision, h]
  dsimp only
  have hsave : saveSection (saveRule sv lib io) (loadNft sv io) key prepared decision =
      saveDecision sv lib io key prepared decision := rfl
  rw [hsave]
  cases hrun : (saveDecision sv lib io key prepared decision).run (w.others w.accesses w.shared) with
  | ok u s => rw [EStateM.leaves_of_ok (Thread.run_atomically_of_ok hrun), EStateM.leaves_of_ok hrun]
  | error e s => rw [EStateM.leaves_of_error (Thread.run_atomically_of_error hrun), EStateM.leaves_of_error hrun]

end Sections

/-- A prepared answer is exact for the addresses that it came with, and takes the prompt. -/
theorem saveDecision_hostname {d : Daemon} {key : QuestionKey} {prepared : Request} {decision : Decision}
    {ips : List IPv4} (hhost : decision.isHostname) (hips : prepared.resolvedDests = some ips) (hne : ips ≠ [])
    (hcurrent : promptCurrent key prepared d.queue) :
    (∀ rule : FlowRule,
      (((saveDecision sv lib io key prepared decision).leaves d).ctx.rules.ofSource prepared.source).ip =
        (d.ctx.rules.ofSource prepared.source).ip ++ [rule] → ∃ qname, rule.dest = .dns qname (some ips)) ∧
    ((saveDecision sv lib io key prepared decision).leaves d).queue ≠ d.queue := by
  obtain ⟨queue, hqueue⟩ : ∃ queue, removePendingHostnameSet prepared decision (d.queue.drop key) = .ok queue := by
    unfold removePendingHostnameSet
    rw [hips]
    split <;> exact ⟨_, rfl⟩
  rw [saveDecision_leaves_of_current sv lib io hcurrent hqueue]
  constructor
  · intro rule hrule
    cases hsave : (saveRule sv lib io prepared decision).run d.ctx with
    | error e ctx' =>
      rw [EStateM.leaves_bind_of_error hsave, saveRule_error hsave] at hrule
      exact absurd hrule (by simp)
    | ok u ctx' =>
      obtain ⟨text, hload⟩ := loadNft_leaves sv io ctx'
      rw [EStateM.leaves_bind_of_ok hsave, hload] at hrule
      exact saveRule_dest hhost hips hne hsave hrule
  · intro hsame
    have hwaits : key ∈ d.queue.items.keys := by
      simp only [promptCurrent, Bool.and_eq_true, decide_eq_true_eq] at hcurrent
      exact hcurrent.1
    obtain ⟨pending, hpending⟩ := Dict.mem_keys_iff.1 hwaits
    have hsame : queue = d.queue := hsame
    rw [← hsame] at hpending
    exact ((answered_items hqueue key pending).1 hpending).2.1 rfl

/-- A host-name answer covers the addresses that were shown, or is refused and changes nothing, exactly when every second
lookup with which the daemon does not refuse it agrees with the first, or when the prompt is not waiting any more. -/
theorem hostnameAnswer_exact_iff {cli : Resolver} {request asked : Request} {shown : List IPv4} {decision : Decision}
    (hsent : request.resolvedDests = none) (hasked : addHostnameChoices lib cli request = .ok asked)
    (hshown : asked.resolvedDests = some shown) (hhost : decision.isHostname) (key : QuestionKey)
    {w : World Daemon PyError Empty} (hw : w.sections = []) :
    (∀ p ∈ ((answerLine sv lib io key request decision).leaves w).sections,
      HostnameExact shown ((promptName lib request).bind (resolveHostnameIps cli))
        ((promptName lib request).bind (addressesOf io.resolver)) request.source p.1 p.2) ↔
    (∀ ips, (promptName lib request).bind (addressesOf io.resolver) = some ips → 2 ≤ ips.length → request.dst ∈ ips →
      (promptName lib request).bind (resolveHostnameIps cli) = some ips) ∨
    promptCurrent key request (w.others w.accesses w.shared).queue = false := by
  obtain ⟨-, -, -, qname, hname, hfirst⟩ := addHostnameChoices_ok hsent hasked hshown
  have hfirst : (promptName lib request).bind (resolveHostnameIps cli) = some shown := by
    rw [hname]
    exact hfirst
  rw [hfirst]
  cases hprepare : prepareHostnameDecision lib io.resolver request decision with
  | error e =>
    -- the daemon refuses, with no section
    rw [answerLine_refused hprepare, hw]
    refine iff_of_true (fun p hp => (List.not_mem_nil hp).elim) (.inl fun ips hips htwo hmem => ?_)
    have hok := (prepareHostnameDecision_eq_ok_iff hhost).2 ⟨ips, hips, htwo, hmem, rfl⟩
    rw [hprepare] at hok
    cases hok
  | ok prepared =>
    -- the daemon resolves the name again, to `ips`
    obtain ⟨ips, hips, htwo, hmem, rfl⟩ := (prepareHostnameDecision_eq_ok_iff hhost).1 hprepare
    have hne : ips ≠ [] := List.ne_nil_of_mem hmem
    rw [answerLine_section hprepare, hw, List.nil_append]
    simp only [List.mem_singleton, forall_eq]
    generalize w.others w.accesses w.shared = found
    have hcurrency : promptCurrent key { request with resolvedDests := some ips } found.queue =
        promptCurrent key request found.queue := rfl
    constructor
    · intro h
      -- other addresses than those shown, and yet the question leaves the queue
      by_contra hnot
      rw [not_or] at hnot
      obtain ⟨hdiffers, hcurrent⟩ := hnot
      have hcurrent : promptCurrent key request found.queue := by simpa using hcurrent
      obtain ⟨-, hqueue⟩ := @saveDecision_hostname sv lib io found key { request with resolvedDests := some ips } decision
        ips hhost rfl hne hcurrent
      refine hqueue (h.refused ?_).2.2
      rintro hsame
      exact hdiffers fun ips' hips' _ _ => hsame.trans hips'
    · rintro (hsame | hstale)
      · have hsame : some shown = some ips := hsame ips hips htwo hmem
        obtain rfl := Option.some.inj hsame
        refine ⟨fun rule hrule => ?_, fun hdiffers => (hdiffers hips.symm).elim⟩
        by_cases hcurrent : promptCurrent key request found.queue
        · exact (@saveDecision_hostname sv lib io found key { request with resolvedDests := some shown } decision
            shown hhost rfl hne hcurrent).1 rule hrule
        · rw [← hcurrency, Bool.not_eq_true] at hcurrent
          rw [saveDecision_leaves_of_not_current sv lib io hcurrent] at hrule
          exact absurd hrule (by simp)
      · rw [saveDecision_leaves_of_not_current sv lib io (hcurrency.trans hstale)]
        exact ⟨fun rule hrule => absurd hrule (by simp), fun _ => ⟨rfl, rfl, rfl⟩⟩

namespace Sample

def neighbour : IPv4 := ⟨1, 2, 3, 5⟩

/-- The prompt with the name of its address. -/
def named : Request := { prompted with host := some "A www.example.com" }

/-- The prompt as the CLI shows it. -/
def shownNamed : Request := { named with resolvedDests := some [server, neighbour] }

/-- Every name has these addresses. -/
def resolving (answers : List String) : Io := { works with resolver := fun _ => .ok answers }

def answerWorld : World Daemon PyError Empty where
  shared := asked.daemon
  others := fun _ d => d
  faults := fun _ => none

theorem addressesOf_resolving {text : String} {x : IPv4} (htext : ipAddress text.toList = some (.v4 x))
    (hlt : server.toNat < x.toNat) (qname : String) :
    addressesOf (resolving ["1.2.3.4", text]).resolver qname = some [server, x] := by
  have hne : server ≠ x := fun h => absurd (h ▸ hlt) (lt_irrefl _)
  have hdedup : [server, x].dedup = [server, x] := List.Nodup.dedup (by simpa using hne)
  have hsorted : sortedAddresses [server, x] = [server, x] := by
    rw [sortedAddresses, hdedup]
    exact List.mergeSort_of_pairwise (by simpa using hlt.le)
  refine (resolveDestDns_eq_ok "").1 (resolveDestDns_eq_ok_iff.2
    ⟨["1.2.3.4", text], [server, x], rfl, ?_, hsorted.symm, by simp⟩)
  exact .cons (by decide +kernel) (.cons htext .nil)

theorem addressesOf_neighbour (qname : String) :
    addressesOf (resolving ["1.2.3.4", "1.2.3.5"]).resolver qname = some [server, neighbour] :=
  addressesOf_resolving (by decide +kernel) (by decide +kernel) qname

theorem named_choices : addHostnameChoices dnspython (resolving ["1.2.3.4", "1.2.3.5"]).resolver named =
    .ok shownNamed := by
  have hname : validateDestDnsName dnspython "prompt" (.str "www.example.com") = .ok "www.example.com" := by
    decide +kernel
  have htrusted : trustedHost named.host = some "www.example.com" := by decide +kernel
  rw [addHostnameChoices, htrusted]
  dsimp only
  rw [hname]
  dsimp only
  rw [resolveHostnameIps_of_addressesOf (addressesOf_neighbour _)]
  rfl

theorem hostnameAnswer_exact_sameAnswer :
    ((answerLine .empty dnspython (resolving ["1.2.3.4", "1.2.3.5"]) (questionKey request) named
        .allowDns).leaves answerWorld).sections.Forall fun p =>
      HostnameExact [server, neighbour]
        ((promptName dnspython named).bind (resolveHostnameIps (resolving ["1.2.3.4", "1.2.3.5"]).resolver))
        ((promptName dnspython named).bind (addressesOf (resolving ["1.2.3.4", "1.2.3.5"]).resolver))
        named.source p.1 p.2 := by
  rw [List.forall_iff_forall_mem]
  refine (hostnameAnswer_exact_iff rfl named_choices rfl rfl _ rfl).2 (.inl fun ips hips _ _ => ?_)
  obtain ⟨qname, hname, hips⟩ := Option.bind_eq_some_iff.1 hips
  rw [hname]
  exact resolveHostnameIps_of_addressesOf hips

/-- Between the two lookups the second address of the name changes, and the rule that is saved is for one that was not
shown. -/
theorem not_hostnameAnswer_exact : ¬ ∀ (sv : Services) (lib : DnsPython) (io : Io) (cli : Resolver)
    (request asked : Request) (shown : List IPv4) (decision : Decision) (key : QuestionKey)
    (w : World Daemon PyError Empty), request.resolvedDests = none → addHostnameChoices lib cli request = .ok asked →
      asked.resolvedDests = some shown → decision.isHostname → w.sections = [] →
      ∀ p ∈ ((answerLine sv lib io key request decision).leaves w).sections,
        HostnameExact shown ((promptName lib request).bind (resolveHostnameIps cli))
          ((promptName lib request).bind (addressesOf io.resolver)) request.source p.1 p.2 := by
  intro h
  let rotated : IPv4 := ⟨1, 2, 3, 6⟩
  let prepared : Request := { named with resolvedDests := some [server, rotated] }
  have hprepared : prepareHostnameDecision dnspython (resolving ["1.2.3.4", "1.2.3.6"]).resolver named .allowDns =
      .ok prepared := by
    refine (prepareHostnameDecision_eq_ok_iff rfl).2 ⟨[server, rotated], ?_, le_refl _, List.mem_cons_self, rfl⟩
    have hname : promptName dnspython named = some "www.example.com" := by decide +kernel
    rw [hname]
    exact addressesOf_resolving (by decide +kernel) (by decide +kernel) _
  have hexact := h .empty dnspython (resolving ["1.2.3.4", "1.2.3.6"]) (resolving ["1.2.3.4", "1.2.3.5"]).resolver named
    shownNamed [server, neighbour] .allowDns (questionKey request) answerWorld rfl named_choices rfl rfl rfl
    (asked.daemon, (saveDecision .empty dnspython (resolving ["1.2.3.4", "1.2.3.6"]) (questionKey request) prepared
      .allowDns).leaves asked.daemon)
    (by rw [answerLine_section hprepared]; exact List.mem_singleton.2 rfl)
  -- the source had no rules, and has one now
  obtain ⟨rule, hrule⟩ : ∃ rule, (((saveDecision .empty dnspython (resolving ["1.2.3.4", "1.2.3.6"]) (questionKey request)
      prepared .allowDns).leaves asked.daemon).ctx.rules.ofSource named.source).ip = [rule] :=
    List.length_eq_one_iff.1 (by decide +kernel)
  have hsaved : rule.dest.covers neighbour = false := by
    have hall : (((saveDecision .empty dnspython (resolving ["1.2.3.4", "1.2.3.6"]) (questionKey request) prepared
        .allowDns).leaves asked.daemon).ctx.rules.ofSource named.source).ip.all
          (fun rule => !rule.dest.covers neighbour) := by decide +kernel
    rw [hrule] at hall
    simpa using hall
  obtain ⟨qname, hdest⟩ := hexact.saved rule hrule
  rw [hdest] at hsaved
  simp [Dest.covers] at hsaved

end Sample

end QubesSnitch
