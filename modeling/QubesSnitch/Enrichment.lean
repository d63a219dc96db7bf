import QubesSnitch.Daemon
import QubesSnitch.DnsCache
import QubesSnitch.Lib.Interleaving

/-!
# Names for a prompt

The CLI thread looks for a name of the destination before it shows a prompt: in the two caches, with the resolver for the
names that policy allows, and at last in a PTR record.  Every reading and writing of the caches is a section of its own,
and the resolver is asked between them.

All of it changes nothing but the caches, and the prompt only by a name for a flow (`enrichRequest_keeps`).
-/

namespace QubesSnitch

/-- `DNS_HINT_QTYPES` -/
def dnsHintQtypes : List String := ["A", "CNAME"]

def dnsRefreshFailureTtl : Rat := 60

/-- What the clock and the resolver say during an enrichment.  `none` is an exception of the resolver. -/
structure Lookups where
  limits : DnsCacheLimits
  staleNow : Rat
  cachedNow : String × String → Rat
  storeClock : String × String → StoreClock
  /-- The addresses of a name, and how long they are kept. -/
  addresses : String → Option (List IPv4 × Rat)
  /-- The targets of the PTR records of an address. -/
  targets : IPv4 → Option (List String)
  /-- The order in which the workers of a refresh store their answers. -/
  finished : List ((String × String) × Nat) → List ((String × String) × Nat)
  finished_perm : ∀ workers, (finished workers).Perm workers

/-- `DNS_PTR_REJECT`, or the text that was found, if any. -/
inductive LazyName where
  | ptrReject
  | found (name : Option String)
  deriving DecidableEq, Repr

def dnsRuleRefreshable (qname qtype : String) : Bool := qtype ∈ dnsHintQtypes && !isWildcard qname.toList

/-- The names that policy has an `allow` rule for. -/
def allowedDnsHintRules (source : String) (rules : Rules) : List (String × String) :=
  (rules.ofSource source).dns.filterMap fun rule =>
    let qname := String.ofList (Py.lower rule.qname.toList)
    let qtype := String.ofList (Py.upper rule.qtype.toList)
    if rule.action = .allow && dnsRuleRefreshable qname qtype then some (qname, qtype) else none

/-- The owner of an expired response. -/
def staleResponseRule (now : Rat) (source : String) (ip : IPv4) (ctx : Runtime) : Option (String × String) :=
  match ctx.dnsResponseCache.get? (source, ip) with
  | some cached => if cached.expiresAt ≤ now then some (cached.qname, cached.qtype) else none
  | none => none

def cachedQnameLabels (now : Rat) (source qname qtype : String) (ctx : Runtime) : Option (Dict IPv4 String) :=
  match ctx.dnsQnameCache.get? (source, qtype, qname) with
  | some cached => if now < cached.expiresAt then some cached.labels else none
  | none => none

/-- A section that only reads. -/
def readCtx {α : Type} (f : Runtime → α) : EStateM PyError Daemon α := fun d => .ok (f d.ctx) d

/-- A section of the cache lock. -/
def updateCtx (f : Runtime → Runtime) : EStateM PyError Daemon Unit := modify fun d => { d with ctx := f d.ctx }

section Threads

variable {ω : Type} (lookups : Lookups)

def resolveDnsRule (qname qtype : String) : Option (Dict IPv4 String × Rat) :=
  if qtype ∈ dnsHintQtypes then
    (lookups.addresses qname).map fun (ips, ttl) => (.ofList (ips.map fun ip => (ip, qname)), ttl)
  else some (.empty, dnsRefreshFailureTtl)

def storeAnswer (source qname qtype : String) (labels : Dict IPv4 String) (ttl : Rat) :
    Thread Daemon PyError ω (Dict IPv4 String) := do
  Thread.atomically (updateCtx
    (storeDnsLabels lookups.limits (lookups.storeClock (qname, qtype)) source qname qtype labels ttl))
  return labels

/-- `refresh_dns_rule`: a failure is stored as well. -/
def refreshDnsRule (source qname qtype : String) : Thread Daemon PyError ω (Dict IPv4 String) :=
  if !dnsRuleRefreshable qname qtype then return .empty
  else match resolveDnsRule lookups qname qtype with
    | some (labels, ttl) => storeAnswer lookups source qname qtype labels ttl
    | none => do
      Thread.external
      storeAnswer lookups source qname qtype .empty dnsRefreshFailureTtl

/-- The answer that takes the place of an expired one. -/
def refreshStale (source : String) : Option (String × String) → Thread Daemon PyError ω (Dict IPv4 String)
  | some (qname, qtype) => refreshDnsRule lookups source qname qtype
  | none => return .empty

/-- The loop of `lazy_dns_name` over the allowed names: those to refresh, and the labels that the others have. -/
def cachedHints (source : String) (ip : IPv4) (staleRule : Option (String × String)) :
    List (String × String) → Thread Daemon PyError ω (List (String × String) × List String)
  | [] => return ([], [])
  | (qname, qtype) :: rules =>
    if staleRule = some (qname, qtype) then cachedHints source ip staleRule rules
    else do
      let labels ← Thread.atomically (readCtx (cachedQnameLabels (lookups.cachedNow (qname, qtype)) source qname qtype))
      let (refreshRules, cachedMatches) ← cachedHints source ip staleRule rules
      match labels with
      | none => return ((qname, qtype) :: refreshRules, cachedMatches)
      | some labels => return (refreshRules, (labels.get? ip).toList ++ cachedMatches)

/-- `ptr_name`: text that is not ASCII is never shown. -/
def ptrName (ip : IPv4) : Thread Daemon PyError ω LazyName :=
  match (lookups.targets ip).bind List.head? with
  | none => return .found none
  | some answer =>
    let target := Py.rstrip '.' answer.toList
    if !Py.isascii target then do
      Thread.external
      return .ptrReject
    else return .found (some ("PTR " ++ String.ofList target))

/-- `refresh_dns_rules`: all workers run to their end, in whatever order, and after that the first exception in the order
of the names is raised. -/
def refreshDnsRules (source : String) (rules : List (String × String)) :
    Thread Daemon PyError ω (List (Dict IPv4 String)) := do
  let done ← (lookups.finished rules.zipIdx).mapM fun worker => do
    return (worker, ← attempt (refreshDnsRule lookups source worker.1.1 worker.1.2))
  rules.zipIdx.mapM fun worker =>
    match done.find? fun result => result.1 = worker with
    | some (_, result) => resume result
    | none => return .empty

def lazyDnsName (source : String) (ip : IPv4) : Thread Daemon PyError ω LazyName := do
  let staleRule ← Thread.atomically (readCtx (staleResponseRule lookups.staleNow source ip))
  let stale ← refreshStale lookups source staleRule
  match stale.get? ip with
  | some label => return .found (some ("A " ++ label))
  | none => do
    let rules ← Thread.atomically (readCtx fun ctx => allowedDnsHintRules source ctx.rules)
    let (refreshRules, cachedMatches) ← cachedHints lookups source ip staleRule rules
    let refreshed ← refreshDnsRules lookups source refreshRules
    match refreshed.findSome? fun labels => labels.get? ip with
    | some label => return .found (some ("A " ++ label))
    | none =>
      match cachedMatches.getLast? with
      | some label => return .found (some ("A " ++ label))
      | none => ptrName lookups ip

def enrichPromptRequest (request : Request) : Thread Daemon PyError ω (Option Request) :=
  if request.kind.isDns then return some request
  else if request.host.any fun host => host ≠ "" && !"A ".toList.isPrefixOf host.toList then return some request
  else do
    match ← lazyDnsName lookups request.source request.dst with
    | .ptrReject => return none
    | .found none => return some request
    | .found (some name) => return some { request with host := some name }

/-- `enrich_request` of the daemon: a prompt whose source has changed is not shown. -/
def enrichRequest (request : Request) : Thread Daemon PyError ω (Option Request) := do
  if !(← Thread.atomically (readCtx fun ctx => promptSourceCurrent ctx.sources request)) then return none
  else do
    let enriched ← enrichPromptRequest lookups request
    if !(← Thread.atomically (readCtx fun ctx => promptSourceCurrent ctx.sources request)) then return none
    else return enriched

/-! ### What an enrichment changes -/

variable {lookups} {I : Daemon → Prop}

theorem readCtx_keeps {α : Type} (f : Runtime → α) :
    Thread.Keeps I (Thread.atomically (readCtx f) : Thread Daemon PyError ω α) fun _ => True :=
  .atomically (fun _ hd => hd) fun _ _ _ _ _ => trivial

/-- Whether an invariant does not speak about the caches. -/
def IgnoresCaches (I : Daemon → Prop) : Prop := ∀ d ctx, CachesOnly d.ctx ctx → I d → I { d with ctx }

theorem refreshDnsRule_keeps (hI : IgnoresCaches I) (source qname qtype : String) :
    Thread.Keeps I (refreshDnsRule lookups source qname qtype : Thread Daemon PyError ω (Dict IPv4 String))
      fun _ => True := by
  have hstore : ∀ labels ttl, Thread.Keeps I
      (storeAnswer lookups source qname qtype labels ttl : Thread Daemon PyError ω (Dict IPv4 String)) fun _ => True :=
    fun labels ttl => .bind (Q := fun _ => True) (.atomically (fun d hd => hI d _ storeDnsLabels_cachesOnly hd)
      fun _ _ _ _ _ => trivial) fun _ _ => .pure trivial
  unfold refreshDnsRule
  split
  · exact .pure trivial
  · split
    · exact hstore _ _
    · exact .bind .external fun _ _ => hstore _ _

theorem cachedHints_keeps (source : String) (ip : IPv4) (staleRule : Option (String × String))
    (rules : List (String × String)) : Thread.Keeps I
      (cachedHints lookups source ip staleRule rules : Thread Daemon PyError ω (List (String × String) × List String))
      fun _ => True := by
  induction rules with
  | nil => exact .pure trivial
  | cons rule rules ih =>
    rw [cachedHints]
    split
    · exact ih
    · refine .bind (readCtx_keeps _) fun labels _ => .bind ih fun found _ => ?_
      cases labels with
      | none => exact .pure trivial
      | some labels => exact .pure trivial

theorem refreshDnsRules_keeps (hI : IgnoresCaches I) (source : String) (rules : List (String × String)) :
    Thread.Keeps I (refreshDnsRules lookups source rules : Thread Daemon PyError ω (List (Dict IPv4 String)))
      fun _ => True := by
  refine .bind (.mapM _ fun worker _ => .bind (.attempted (refreshDnsRule_keeps hI _ _ _)) fun _ _ => .pure trivial)
    fun done _ => .mapM _ fun worker _ => ?_
  split
  · rename_i result _
    cases result with
    | ok labels => exact .pure trivial
    | error e => exact .throw
  · exact .pure trivial

theorem lazyDnsName_keeps (hI : IgnoresCaches I) (source : String) (ip : IPv4) :
    Thread.Keeps I (lazyDnsName lookups source ip : Thread Daemon PyError ω LazyName) fun _ => True := by
  have hptr : Thread.Keeps I (ptrName lookups ip : Thread Daemon PyError ω LazyName) fun _ => True := by
    unfold ptrName
    split
    · exact .pure trivial
    · dsimp only
      split
      · exact .bind .external fun _ _ => .pure trivial
      · exact .pure trivial
  have hstale : ∀ staleRule, Thread.Keeps I
      (refreshStale lookups source staleRule : Thread Daemon PyError ω (Dict IPv4 String)) fun _ => True := by
    rintro (_ | ⟨qname, qtype⟩)
    · exact .pure trivial
    · exact refreshDnsRule_keeps hI _ _ _
  refine .bind (readCtx_keeps _) fun staleRule _ => .bind (hstale staleRule) fun stale _ => ?_
  split
  · exact .pure trivial
  · refine .bind (readCtx_keeps _) fun rules _ => .bind (cachedHints_keeps _ _ _ _) fun found _ => ?_
    refine .bind (refreshDnsRules_keeps hI _ _) fun refreshed _ => ?_
    split
    · exact .pure trivial
    · split
      · exact .pure trivial
      · exact hptr

/-- An enrichment changes nothing but the caches, and gives a flow a name at most. -/
theorem enrichRequest_keeps (hI : IgnoresCaches I) (request : Request) :
    Thread.Keeps I (enrichRequest lookups request : Thread Daemon PyError ω (Option Request))
      fun found => ∀ enriched, found = some enriched → Enriches request enriched := by
  have hsame : ∀ enriched, some request = some enriched → Enriches request enriched := by
    rintro _ ⟨⟩
    exact .inl rfl
  have hprompt : Thread.Keeps I (enrichPromptRequest lookups request : Thread Daemon PyError ω (Option Request))
      fun found => ∀ enriched, found = some enriched → Enriches request enriched := by
    unfold enrichPromptRequest
    split
    · exact .pure hsame
    · rename_i hflow
      split
      · exact .pure hsame
      · refine .bind (lazyDnsName_keeps hI _ _) fun name _ => ?_
        split
        · exact .pure fun _ hnone => by cases hnone
        · exact .pure hsame
        · refine .pure ?_
          rintro _ ⟨⟩
          exact .inr ⟨by simpa using hflow, _, rfl⟩
  unfold enrichRequest
  refine .bind (readCtx_keeps _) fun current _ => ?_
  split
  · exact .pure fun _ hnone => by cases hnone
  · refine .bind hprompt fun enriched henriched => .bind (readCtx_keeps _) fun current _ => ?_
    split
    · exact .pure fun _ hnone => by cases hnone
    · exact .pure henriched

end Threads

end QubesSnitch
