import QubesSnitch.Queue
import QubesSnitch.Nft.Chains

/-!
# Policy at run time

The policy of the running daemon is in memory (`Runtime.rules`), on disk (`rulesDir`) and in the kernel (`nftText`, the
text that `nft -f` got last).  The functions here change these three and the prompt queue.  Each works on the whole
state and says what it leaves also when it raises.

What a function asks of the outside is in `Io`: the resolver, whether nft takes a text, and where writing a file fails.
-/

namespace QubesSnitch

def nftTable : String := "qubes_snitch"

def queueNum : Nat := 50

/-- `DNS_RESPONSE_CACHE` entries. -/
structure ResponseEntry where
  label : String
  qname : String
  qtype : String
  expiresAt : Rat
  deriving DecidableEq

/-- `DNS_QNAME_CACHE` entries. -/
structure QnameEntry where
  labels : Dict IPv4 String
  expiresAt : Rat
  deriving DecidableEq

/-- The module `ctx` that the runtime functions get, without the prompt queue. -/
structure Runtime where
  config : Config
  sources : SourceMap
  rules : Rules
  rulesDir : RulesDir
  nftText : Option String
  dnsResponseCache : Dict (String × IPv4) ResponseEntry
  dnsQnameCache : Dict (String × String × String) QnameEntry
  lastSourceRefresh : Rat

abbrev Daemon := Shared Runtime

/-- The file operations of `append_rule`. -/
inductive AppendStep where
  | read
  | dump
  | writeTmp
  | replace
  deriving DecidableEq, Repr

structure Io where
  resolver : Resolver
  /-- `nft -c -f` -/
  nftCheck : String → Bool
  /-- `nft -f` -/
  nftLoad : String → Bool
  appendFault : AppendStep → Option PyError

def Io.step (io : Io) (s : AppendStep) : Except PyError Unit :=
  match io.appendFault s with
  | some e => .error e
  | none => .ok ()

variable (sv : Services) (lib : DnsPython) (io : Io)

/-! ### The table -/

/-- `load_nft`: a text that fails to load is replaced by the one that lets nothing pass. -/
def loadNft : EStateM PyError Runtime Unit := fun ctx =>
  match Nft.renderNft sv ctx.sources.byName ctx.rules ctx.config nftTable queueNum with
  | .error e => .error e ctx
  | .ok table =>
    if !io.nftCheck table.text then .error Nft.nftCheckFailed ctx
    else if io.nftLoad table.text then .ok () { ctx with nftText := table.text }
    else
      let closed := (Nft.renderFailClosedNft ctx.config nftTable queueNum).text
      if io.nftCheck closed then .error Nft.nftLoadFailed { ctx with nftText := closed }
      else .error Nft.nftCheckFailed { ctx with nftText := table.text }

/-! ### Rule entries -/

def readRuleFile (stem : String) (text : RuleText) : Except PyError RuleFile := do
  validateRuleFile sv lib (rulePath stem) (← readYaml (rulePath stem) text)

/-- `ensure_rule_entry`; a file that is read here keeps its names without addresses. -/
def ensureRuleEntry (source : String) : EStateM PyError Runtime Bool := fun ctx =>
  if source ∈ ctx.rules.keys then .ok false ctx
  else match ctx.rulesDir.get? source with
    | none => .ok true { ctx with rules := ctx.rules.set source ⟨[], []⟩ }
    | some text =>
      match readRuleFile sv lib source text with
      | .ok data => .ok true { ctx with rules := ctx.rules.set source ⟨data.rules4, data.dns⟩ }
      | .error e => .error e ctx

/-- Delete what belongs to a disposable that is gone: rules, prompts, DNS hints and the rule file.  The file is deleted
without a fault: where `unlink` raises, the daemon ends, and the next one deletes the file before it loads any. -/
def purgeSource (d : Daemon) (source : String) : Daemon where
  queue := removePendingForSource source d.queue
  ctx := { d.ctx with
    rules := d.ctx.rules.erase source
    dnsResponseCache := d.ctx.dnsResponseCache.filterKeys fun key => key.1 ≠ source
    dnsQnameCache := d.ctx.dnsQnameCache.filterKeys fun key => key.1 ≠ source
    rulesDir := d.ctx.rulesDir.erase source }

def purgeAll (d : Daemon) (gone : List String) : Daemon := gone.foldl purgeSource d

/-- The disposables with rules that are not running. -/
def vanishedDispvms (ctx : Runtime) : List String :=
  ctx.rules.keys.filter fun source => source ∉ ctx.sources.byName.keys && isNumberedDispvm source

def cleanupDisposableRuleEntries (d : Daemon) : Daemon := purgeAll d (vanishedDispvms d.ctx)

/-- The names of disposables that are running with other addresses than before. -/
def reusedDispvms (oldSourcesByName sourcesByName : Nft.SourcesByName) : List String :=
  (oldSourcesByName.entries.filter fun old =>
    isNumberedDispvm old.1 && (sourcesByName.get? old.1).any (· ≠ old.2)).map Prod.fst

def cleanupReusedNumberedDispvmEntries (oldSourcesByName : Nft.SourcesByName) (d : Daemon) : Daemon :=
  purgeAll d (reusedDispvms oldSourcesByName d.ctx.sources.byName)

def cleanupNumberedDispvmFiles (ctx : Runtime) : Runtime :=
  let stems := ctx.rulesDir.keys.filter isNumberedDispvm
  { ctx with
    rules := ctx.rules.filterKeys (· ∉ stems)
    rulesDir := ctx.rulesDir.filterKeys (· ∉ stems) }

/-- `load_policy_without_sources` with a configuration that was read. -/
def loadPolicyWithoutSources (config : Config) : EStateM PyError Runtime Unit := fun ctx =>
  let ctx := cleanupNumberedDispvmFiles { ctx with config }
  match loadRules sv lib io.resolver ctx.rulesDir config.defaultDisposableVmName with
  | .ok rules => .ok () { ctx with rules }
  | .error e => .error e ctx

/-! ### Saving an answer -/

/-- Whether the source of a request still has its address. -/
def promptSourceCurrent (sources : SourceMap) (request : Request) : Bool :=
  (sources.byName.get? request.source).any (request.src ∈ ·)

/-- The rules of the file of a source, if there is one. -/
def currentRuleFile (rulesDir : RulesDir) (source : String) : Except PyError RuleFile :=
  match rulesDir.get? source with
  | none => .ok ⟨[], []⟩
  | some text => do
    io.step .read
    readRuleFile sv lib source text

/-- The new rule at the end of its list, in the file and in memory. -/
def appendDecision (request : Request) (decision : Decision) (data : RuleFile) (rules : Rules) :
    Except PyError (RuleFile × Rules) :=
  match request.kind with
  | .dns qname qtype => appendDnsRule lib (rulePath request.source) request decision qname qtype data rules
  | _ => appendFlowRule lib io.resolver (rulePath request.source) request decision data rules

/-- What `append_rule` writes to the file and to memory. -/
def decidedPolicy (ctx : Runtime) (request : Request) (decision : Decision) : Except PyError (RuleFile × Rules) := do
  let current ← currentRuleFile sv lib io ctx.rulesDir request.source
  let (data, rules) ← appendDecision lib io request decision current ctx.rules
  let data ← validateRuleFile sv lib (rulePath request.source) data.dump
  io.step .dump
  io.step .writeTmp
  io.step .replace
  return (data, rules)

def appendRule (request : Request) (decision : Decision) : EStateM PyError Runtime Unit := fun ctx =>
  if isNumberedDispvm request.source && request.source ∉ ctx.sources.byName.keys then
    .error (.systemExit ("stale numbered DispVM prompt: " ++ request.source)) ctx
  else match decidedPolicy sv lib io ctx request decision with
    | .error e => .error e ctx
    | .ok (data, rules) =>
      .ok () { ctx with rulesDir := ctx.rulesDir.set request.source (.yaml (.map data.dump)), rules }

/-- `save_rule` of the daemon: an answer for a source that has changed since is ignored. -/
def saveRule (request : Request) (decision : Decision) : EStateM PyError Runtime Unit := fun ctx =>
  if !promptSourceCurrent ctx.sources request then .ok () ctx
  else (appendRule sv lib io request decision).run ctx

/-- What the daemon does with an answer under its locks. -/
def saveDecision (key : QuestionKey) (request : Request) (decision : Decision) : EStateM PyError Daemon Unit :=
  saveSection (saveRule sv lib io) (loadNft sv io) key request decision

/-! ### Asking -/

/-- `queue_prompt` without the messages; the answer is an action that is there by now. -/
def queuePrompt (request : Request) : EStateM PyError Daemon (Option Action) := fun d =>
  if !promptSourceCurrent d.ctx.sources request then .ok none d
  else match (onCtx (ensureRuleEntry sv lib request.source)).run d with
    | .error e d => .error e d
    | .ok _ d =>
      match matchingAction sv request d.ctx.rules with
      | .error e => .error e d
      | .ok (some action) => .ok (some action) d
      | .ok none => .ok none { d with queue := (queueQuestion request d.ctx.config d.queue).2 }

/-! ### What a load leaves -/

theorem loadNft_leaves (ctx : Runtime) :
    ∃ text, (loadNft sv io).leaves ctx = { ctx with nftText := text } := by
  unfold EStateM.leaves EStateM.run loadNft
  cases Nft.renderNft sv ctx.sources.byName ctx.rules ctx.config nftTable queueNum with
  | error e => exact ⟨_, rfl⟩
  | ok table =>
    cases hcheck : io.nftCheck table.text with
    | false => exact ⟨ctx.nftText, by simp [hcheck]⟩
    | true =>
      cases hload : io.nftLoad table.text with
      | true => exact ⟨some table.text, by simp [hcheck, hload]⟩
      | false =>
        simp only [hcheck, hload, Bool.not_true, Bool.false_eq_true, if_false]
        -- the blocking table may fail its own check, and then the file keeps the table that did not load
        cases io.nftCheck (Nft.renderFailClosedNft ctx.config nftTable queueNum).text with
        | true => exact ⟨_, rfl⟩
        | false => exact ⟨_, rfl⟩

/-! ### What a purge leaves -/

section Purge

variable (d : Daemon) (gone : List String)

/-- What a purge has nothing to do with. -/
theorem purgeAll_frame : (purgeAll d gone).ctx.config = d.ctx.config ∧ (purgeAll d gone).ctx.sources = d.ctx.sources ∧
    (purgeAll d gone).ctx.nftText = d.ctx.nftText := by
  induction gone generalizing d with
  | nil => exact ⟨rfl, rfl, rfl⟩
  | cons source gone ih => exact ih (purgeSource d source)

/-- A table from which every purge erases the source. -/
theorem purgeAll_erased {ν : Type} (table : Daemon → Dict String ν)
    (htable : ∀ d source, table (purgeSource d source) = (table d).erase source) (s : String) :
    (table (purgeAll d gone)).get? s = if s ∈ gone then none else (table d).get? s := by
  induction gone generalizing d with
  | nil => rfl
  | cons source gone ih =>
    rw [purgeAll, List.foldl_cons, ← purgeAll, ih, htable, Dict.get?_erase]
    by_cases h : s = source <;> simp [h]

theorem purgeAll_rules (s : String) :
    (purgeAll d gone).ctx.rules.get? s = if s ∈ gone then none else d.ctx.rules.get? s :=
  purgeAll_erased d gone (fun d => d.ctx.rules) (fun _ _ => rfl) s

theorem purgeAll_rulesDir (s : String) :
    (purgeAll d gone).ctx.rulesDir.get? s = if s ∈ gone then none else d.ctx.rulesDir.get? s :=
  purgeAll_erased d gone (fun d => d.ctx.rulesDir) (fun _ _ => rfl) s

/-- A cache from which every purge takes the entries of the source. -/
theorem purgeAll_cached {κ ν : Type} [DecidableEq κ] (cache : Daemon → Dict (String × κ) ν)
    (hcache : ∀ d source, cache (purgeSource d source) = (cache d).filterKeys fun key => key.1 ≠ source)
    (key : String × κ) : key ∈ (cache (purgeAll d gone)).keys ↔ key ∈ (cache d).keys ∧ key.1 ∉ gone := by
  induction gone generalizing d with
  | nil => simp [purgeAll]
  | cons source gone ih =>
    rw [purgeAll, List.foldl_cons, ← purgeAll, ih, hcache, Dict.mem_keys_filterKeys]
    simp [and_assoc]

theorem purgeAll_responses (key : String × IPv4) :
    key ∈ (purgeAll d gone).ctx.dnsResponseCache.keys ↔ key ∈ d.ctx.dnsResponseCache.keys ∧ key.1 ∉ gone :=
  purgeAll_cached d gone (fun d => d.ctx.dnsResponseCache) (fun _ _ => rfl) key

theorem purgeAll_qnames (key : String × String × String) :
    key ∈ (purgeAll d gone).ctx.dnsQnameCache.keys ↔ key ∈ d.ctx.dnsQnameCache.keys ∧ key.1 ∉ gone :=
  purgeAll_cached d gone (fun d => d.ctx.dnsQnameCache) (fun _ _ => rfl) key

theorem purgeAll_next : (purgeAll d gone).queue.next = d.queue.next := by
  induction gone generalizing d with
  | nil => rfl
  | cons source gone ih => exact (ih (purgeSource d source)).trans (TicketQueue.next_dropAll _ _)

/-- A purge gives out no prompt ids. -/
theorem purgeAll_ids {key : QuestionKey} {id : Nat} (h : (purgeAll d gone).queue.ids.get? key = some id) :
    d.queue.ids.get? key = some id := by
  induction gone generalizing d with
  | nil => exact h
  | cons source gone ih => exact TicketQueue.ids_of_dropAll (ih (purgeSource d source) h)

theorem removePendingForSource_items (source : String) (q : Queue) (key : QuestionKey) :
    (removePendingForSource source q).items.get? key = if key.source = source then none else q.items.get? key := by
  rw [removePendingForSource, TicketQueue.items_dropAll]
  by_cases hmem : key ∈ q.items.keys
  · simp [hmem]
  · simp [Dict.get?_eq_none_iff.2 hmem]

theorem purgeAll_items (key : QuestionKey) : (purgeAll d gone).queue.items.get? key =
    if key.source ∈ gone then none else d.queue.items.get? key := by
  induction gone generalizing d with
  | nil => rfl
  | cons source gone ih =>
    rw [purgeAll, List.foldl_cons, ← purgeAll, ih, purgeSource, removePendingForSource_items]
    by_cases h : key.source = source <;> simp [h]

end Purge

/-! ### What is saved -/

variable {sv lib io}

/-- A saved answer is a rule after those of the file and those in memory. -/
theorem decidedPolicy_ok {ctx : Runtime} {request : Request} {decision : Decision} {data : RuleFile} {rules : Rules}
    (h : decidedPolicy sv lib io ctx request decision = .ok (data, rules)) : ∃ current appended,
      currentRuleFile sv lib io ctx.rulesDir request.source = .ok current ∧
      appendDecision lib io request decision current ctx.rules = .ok (appended, rules) ∧
      validateRuleFile sv lib (rulePath request.source) appended.dump = .ok data := by
  obtain ⟨current, hcurrent, h⟩ := Except.exists_of_bind_eq_ok h
  obtain ⟨⟨appended, rules'⟩, happend, h⟩ := Except.exists_of_bind_eq_ok h
  obtain ⟨data', hdata, h⟩ := Except.exists_of_bind_eq_ok h
  obtain ⟨_, -, h⟩ := Except.exists_of_bind_eq_ok h
  obtain ⟨_, -, h⟩ := Except.exists_of_bind_eq_ok h
  obtain ⟨_, -, h⟩ := Except.exists_of_bind_eq_ok h
  cases h
  exact ⟨current, appended, hcurrent, happend, hdata⟩

theorem appendRule_ok {ctx ctx' : Runtime} {request : Request} {decision : Decision}
    (h : (appendRule sv lib io request decision).run ctx = .ok () ctx') : ∃ data rules,
      decidedPolicy sv lib io ctx request decision = .ok (data, rules) ∧
      ctx' = { ctx with rulesDir := ctx.rulesDir.set request.source (.yaml (.map data.dump)), rules } := by
  unfold EStateM.run appendRule at h
  split at h
  · cases h
  · split at h
    · cases h
    · rename_i data rules hdecided
      cases h
      exact ⟨data, rules, hdecided, rfl⟩

end QubesSnitch
