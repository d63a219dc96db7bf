import QubesSnitch.DnsCache
import QubesSnitch.LogThrottle
import QubesSnitch.Ui

/-!
# Reading `config.yml`

`readConfig` checks the mapping of `config.yml` key by key, and a `ConfigFile` carries the bounds that it has checked, so
that no other part of the program has to look at them again.  It accepts exactly the mappings that say what a
`ConfigFile` is (`Denotes`), with their keys in any order, and reads this from them.

What it refuses it refuses with a message that begins with the name of the file.  One mistake gets past the checks: a
list or a mapping as the protocol of a coloured service cannot be looked for in a set (`readConfig_exact`).
-/

namespace QubesSnitch

/-- An exception of a check, or that of a set which is asked for a list or a mapping. -/
inductive ConfigError where
  | raised (e : PyError)
  | typeError (message : String)
  deriving DecidableEq, Repr

/-- `raise SystemExit(f"{config_file}: …")` -/
def configExit (configFile message : String) : ConfigError := .raised (.systemExit (configFile ++ ": " ++ message))

/-- `data[key]` -/
def configItem (entries : List (Scalar × Yaml)) (key : String) : Except ConfigError Yaml :=
  (getItem entries key).mapError .raised

/-- `set(value) == keys` -/
def hasExactly (keys : List String) (entries : List (Scalar × Yaml)) : Bool :=
  entries.all (fun e => keys.any fun key => e.1 = .str key) && keys.all fun key => (lookupKey entries key).isSome

/-! ### Single values -/

/-- A number within bounds. -/
abbrev Bounded (minimum maximum : Nat) := { n : Nat // minimum ≤ n ∧ n ≤ maximum }

/-- `bool` is no integer here, and no negative integer is within any of the bounds. -/
def checkNat (p : Nat → Prop) [DecidablePred p] (error : ConfigError) : Yaml → Except ConfigError { n : Nat // p n }
  | .scalar (.int (.ofNat n)) => if h : p n then .ok ⟨n, h⟩ else .error error
  | _ => .error error

def checkInteger (configFile key unit : String) (minimum maximum : Nat) :
    Yaml → Except ConfigError (Bounded minimum maximum) :=
  checkNat (fun n => minimum ≤ n ∧ n ≤ maximum) (configExit configFile
    (key ++ " must be an integer from " ++ toString minimum ++ " to " ++ toString maximum ++ unit))

def checkCacheMaxGlobal (configFile : String) (perSource : Nat) :
    Yaml → Except ConfigError { n : Nat // perSource ≤ n } :=
  checkNat (perSource ≤ ·) (configExit configFile
    "dns_cache_max_global must be an integer greater than or equal to dns_cache_max_per_source")

def Theme.name : Theme → String
  | dark => "dark"
  | light => "light"

def checkTheme (configFile : String) (value : Yaml) : Except ConfigError Theme :=
  if value.isStr "dark" then .ok .dark
  else if value.isStr "light" then .ok .light
  else .error (configExit configFile "theme must be dark or light")

def checkNotifySend (configFile : String) : Yaml → Except ConfigError Bool
  | .scalar (.bool b) => .ok b
  | _ => .error (configExit configFile "notify_send must be True or False")

/-- The name of a template that policy may be stored under. -/
def PolicyName (name : String) : Prop :=
  sourceNameRe.fullmatch name.toList ∧ name ∉ reservedSources ∧ ¬ dispvmPolicyPrefix.toList.isPrefixOf name.toList ∧
    Py.isIn "unknown".toList name.toList = false ∧ Py.isIn "disp".toList name.toList = false

theorem policyName_iff {name : String} (configFile : String) : PolicyName name ↔
    validateSourceName name configFile = .ok () ∧ validateQubesVmName name "TemplateVM" configFile = .ok () := by
  unfold PolicyName validateSourceName validateQubesVmName
  by_cases hre : sourceNameRe.fullmatch name.toList <;> by_cases hres : name ∈ reservedSources <;>
    by_cases hpre : dispvmPolicyPrefix.toList.isPrefixOf name.toList <;>
    cases hunknown : Py.isIn "unknown".toList name.toList <;> cases hdisp : Py.isIn "disp".toList name.toList <;>
    simp [hre, hres, hpre]

def checkDefaultName (configFile : String) : Yaml → Except ConfigError { name : String // PolicyName name }
  | .scalar (.str name) =>
    match hsource : validateSourceName name configFile, hvm : validateQubesVmName name "TemplateVM" configFile with
    | .error e, _ => .error (.raised e)
    | .ok (), .error e => .error (.raised e)
    | .ok (), .ok () => .ok ⟨name, (policyName_iff configFile).2 ⟨hsource, hvm⟩⟩
  | _ => .error (configExit configFile "default_disposable_vm_name must be a string")

def checkLimitRate (configFile : String) (value : Yaml) :
    Except ConfigError { text : String // ∃ rate, parseLimitRate text = .ok rate } :=
  match h : parseLimitRate value.text with
  | .ok rate => .ok ⟨value.text, rate, h⟩
  | .error (.valueError error) => .error (configExit configFile ("limit rate " ++ error))
  | .error e => .error (.raised e)

/-! ### Coloured services -/

inductive ColorGroup where
  | encrypted
  | unencrypted
  deriving DecidableEq, Repr

def ColorGroup.name : ColorGroup → String
  | encrypted => "encrypted"
  | unencrypted => "unencrypted"

/-- `PROMPT_COLOR_PROTOS` -/
inductive ColorProto where
  | tcp
  | udp
  deriving DecidableEq, Repr

def ColorProto.name : ColorProto → String
  | tcp => "tcp"
  | udp => "udp"

/-- A protocol and a port. -/
abbrev ColorService := ColorProto × Bounded 1 65535

/-- The group of every listed service: `used`.  The two sets that are returned are the services of each group. -/
abbrev PromptColors := Dict ColorService ColorGroup

def PromptColors.group (colors : PromptColors) (g : ColorGroup) : List ColorService :=
  (colors.entries.filter fun e => e.2 = g).map Prod.fst

/-- `proto not in PROMPT_COLOR_PROTOS`, where `in` needs a value that can be hashed. -/
def checkColorProto (configFile : String) (g : ColorGroup) (value : Yaml) : Except ConfigError ColorProto :=
  match value with
  | .seq _ => .error (.typeError "unhashable type: 'list'")
  | .map _ => .error (.typeError "unhashable type: 'dict'")
  | .scalar _ =>
    if value.isStr "tcp" then .ok .tcp
    else if value.isStr "udp" then .ok .udp
    else .error (configExit configFile ("prompt_protocol_colors." ++ g.name ++ " proto must be tcp or udp"))

def checkColorPort (configFile : String) (g : ColorGroup) (value : Yaml) : Except ConfigError (Bounded 1 65535) :=
  checkInteger configFile ("prompt_protocol_colors." ++ g.name ++ " port") "" 1 65535 value

/-- One round of the loop over the entries of a group. -/
def addColor (configFile : String) (g : ColorGroup) (used : PromptColors) (entry : Yaml) :
    Except ConfigError PromptColors :=
  let error := configExit configFile ("prompt_protocol_colors." ++ g.name ++ " entries must have proto and port")
  match entry with
  | .map fields =>
    if !hasExactly ["proto", "port"] fields then .error error
    else do
      let proto ← checkColorProto configFile g (← configItem fields "proto")
      let port ← checkColorPort configFile g (← configItem fields "port")
      match used.get? (proto, port) with
      | some other => .error (configExit configFile (proto.name ++ "/" ++ toString port.1 ++ " is listed in both " ++
          other.name ++ " and " ++ g.name))
      | none => return used.set (proto, port) g
  | _ => .error error

def addColors (configFile : String) (g : ColorGroup) (used : PromptColors) (value : Yaml) :
    Except ConfigError PromptColors :=
  match value with
  | .seq items => items.foldlM (addColor configFile g) used
  | _ => .error (configExit configFile ("prompt_protocol_colors." ++ g.name ++ " must be a list"))

def validatePromptProtocolColors (configFile : String) (value : Yaml) : Except ConfigError PromptColors :=
  let error := configExit configFile "prompt_protocol_colors must contain exactly encrypted and unencrypted"
  match value with
  | .map fields =>
    if !hasExactly ["encrypted", "unencrypted"] fields then .error error
    else do
      let used ← addColors configFile .encrypted .empty (← configItem fields "encrypted")
      addColors configFile .unencrypted used (← configItem fields "unencrypted")
  | _ => .error error

/-! ### The file -/

def configKeys : List String :=
  ["theme", "notify_send", "notify_send_timeout", "pending_queue_size", "dns_cache_max_per_source",
    "dns_cache_max_global", "dns_cache_refresh_workers", "default_disposable_vm_name", "limit_rate", "burst",
    "log_bucket_max_entries", "prompt_column_widths", "prompt_protocol_colors"]

/-- An accepted `config.yml`. -/
structure ConfigFile where
  theme : Theme
  notifySend : Bool
  notifySendTimeout : Bounded 1000 3600000
  pendingQueueSize : Bounded 1 10000
  dnsCacheMaxPerSource : Bounded 1 1000000
  dnsCacheMaxGlobal : { n : Nat // dnsCacheMaxPerSource.1 ≤ n }
  dnsCacheRefreshWorkers : Bounded 1 1024
  defaultDisposableVmName : { name : String // PolicyName name }
  limitRate : { text : String // ∃ rate, parseLimitRate text = .ok rate }
  burst : Bounded 1 10000
  logBucketMaxEntries : Bounded 1 1000000
  promptColumnWidths : PromptWidths
  promptProtocolColors : PromptColors

def readConfig (configFile : String) (entries : List (Scalar × Yaml)) : Except ConfigError ConfigFile :=
  if !hasExactly configKeys entries then
    .error (configExit configFile
      ("expected exactly theme, notify_send, notify_send_timeout, pending_queue_size, dns_cache_max_per_source, " ++
        "dns_cache_max_global, dns_cache_refresh_workers, default_disposable_vm_name, limit_rate, burst, " ++
        "log_bucket_max_entries, prompt_column_widths, and prompt_protocol_colors"))
  else do
    let theme ← checkTheme configFile (← configItem entries "theme")
    let notifySend ← checkNotifySend configFile (← configItem entries "notify_send")
    let notifySendTimeout ← checkInteger configFile "notify_send_timeout" " milliseconds" 1000 3600000
      (← configItem entries "notify_send_timeout")
    let pendingQueueSize ← checkInteger configFile "pending_queue_size" "" 1 10000
      (← configItem entries "pending_queue_size")
    let dnsCacheMaxPerSource ← checkInteger configFile "dns_cache_max_per_source" "" 1 1000000
      (← configItem entries "dns_cache_max_per_source")
    let dnsCacheMaxGlobal ← checkCacheMaxGlobal configFile dnsCacheMaxPerSource.1
      (← configItem entries "dns_cache_max_global")
    let dnsCacheRefreshWorkers ← checkInteger configFile "dns_cache_refresh_workers" "" 1 1024
      (← configItem entries "dns_cache_refresh_workers")
    let defaultDisposableVmName ← checkDefaultName configFile (← configItem entries "default_disposable_vm_name")
    let limitRate ← checkLimitRate configFile (← configItem entries "limit_rate")
    let burst ← checkInteger configFile "burst" "" 1 10000 (← configItem entries "burst")
    let logBucketMaxEntries ← checkInteger configFile "log_bucket_max_entries" "" 1 1000000
      (← configItem entries "log_bucket_max_entries")
    let promptColumnWidths ← (validatePromptColumnWidths configFile
      (← configItem entries "prompt_column_widths")).mapError .raised
    let promptProtocolColors ← validatePromptProtocolColors configFile (← configItem entries "prompt_protocol_colors")
    return ⟨theme, notifySend, notifySendTimeout, pendingQueueSize, dnsCacheMaxPerSource, dnsCacheMaxGlobal,
      dnsCacheRefreshWorkers, defaultDisposableVmName, limitRate, burst, logBucketMaxEntries, promptColumnWidths,
      promptProtocolColors⟩

/-! ### What the values say -/

section Values

variable {configFile key unit : String} {value : Yaml} {entries : List (Scalar × Yaml)}

theorem configItem_eq_ok_iff : configItem entries key = .ok value ↔ lookupKey entries key = some value := by
  unfold configItem getItem
  cases lookupKey entries key <;> simp [Except.mapError]

theorem checkNat_eq_ok_iff {p : Nat → Prop} [DecidablePred p] {error : ConfigError} {n : { n : Nat // p n }} :
    checkNat p error value = .ok n ↔ value = .scalar (.int n.1) := by
  unfold checkNat
  constructor
  · intro h
    split at h
    · split at h
      · cases h
        rfl
      · cases h
    · cases h
  · rintro rfl
    exact dif_pos n.2

theorem checkInteger_eq_ok_iff {minimum maximum : Nat} {n : Bounded minimum maximum} :
    checkInteger configFile key unit minimum maximum value = .ok n ↔ value = .scalar (.int n.1) :=
  checkNat_eq_ok_iff

theorem checkCacheMaxGlobal_eq_ok_iff {perSource : Nat} {n : { n : Nat // perSource ≤ n }} :
    checkCacheMaxGlobal configFile perSource value = .ok n ↔ value = .scalar (.int n.1) :=
  checkNat_eq_ok_iff

theorem isStr_iff {s : String} : value.isStr s ↔ value = .str s := by
  unfold Yaml.isStr Yaml.str
  split <;> simp_all

theorem checkTheme_eq_ok_iff {theme : Theme} : checkTheme configFile value = .ok theme ↔ value = .str theme.name := by
  unfold checkTheme
  constructor
  · intro h
    split at h
    · rename_i hdark
      cases h
      exact isStr_iff.1 hdark
    · split at h
      · rename_i hlight
        cases h
        exact isStr_iff.1 hlight
      · cases h
  · rintro rfl
    cases theme <;> rfl

theorem checkNotifySend_eq_ok_iff {b : Bool} : checkNotifySend configFile value = .ok b ↔ value = .scalar (.bool b) := by
  cases value with
  | scalar s => cases s <;> simp [checkNotifySend]
  | seq items => simp [checkNotifySend]
  | map entries => simp [checkNotifySend]

theorem checkDefaultName_eq_ok_iff {name : { name : String // PolicyName name }} :
    checkDefaultName configFile value = .ok name ↔ value = .str name.1 := by
  unfold checkDefaultName
  constructor
  · intro h
    split at h
    · split at h
      · cases h
      · cases h
      · cases h
        rfl
    · cases h
  · rintro rfl
    obtain ⟨hsource, hvm⟩ := (policyName_iff configFile).1 name.2
    dsimp only [Yaml.str]
    split
    · simp_all
    · simp_all
    · rfl

theorem checkLimitRate_eq_ok_iff {text : { text : String // ∃ rate, parseLimitRate text = .ok rate }} :
    checkLimitRate configFile value = .ok text ↔ value.text = text.1 := by
  unfold checkLimitRate
  constructor
  · intro h
    split at h
    · cases h
      rfl
    · cases h
    · cases h
  · intro htext
    obtain ⟨rate, hrate⟩ := text.2
    rw [← htext] at hrate
    split
    · rw [Except.ok.injEq]
      exact Subtype.ext htext
    · simp_all
    · simp_all

/-! ### Mappings -/

/-- The mapping has no other keys. -/
def OnlyKeys (keys : List String) (entries : List (Scalar × Yaml)) : Prop := ∀ e ∈ entries, ∃ key ∈ keys, e.1 = .str key

theorem mem_keys_iff_lookupKey :
    Scalar.str key ∈ entries.map Prod.fst ↔ ∃ value, lookupKey entries key = some value := by
  rw [← Option.isSome_iff_exists, lookupKey, Option.isSome_map, List.find?_isSome]
  simp [eq_comm]

theorem hasExactly_iff {keys : List String} : hasExactly keys entries ↔
    OnlyKeys keys entries ∧ ∀ key ∈ keys, ∃ value, lookupKey entries key = some value := by
  simp only [hasExactly, OnlyKeys, Bool.and_eq_true, List.all_eq_true, List.any_eq_true, decide_eq_true_eq,
    Option.isSome_iff_exists]

theorem validatePromptColumnWidth_eq_ok_iff {minimum maximum : Nat} {width : Bounded minimum maximum} :
    validatePromptColumnWidth configFile entries key minimum maximum = .ok width ↔
      lookupKey entries key = some (.scalar (.int width.1)) := by
  unfold validatePromptColumnWidth getItem
  cases lookupKey entries key with
  | none => simp [bind, Except.bind]
  | some value =>
    simp only [bind, Except.bind, Option.some.injEq]
    constructor
    · intro h
      split at h
      · split at h
        · cases h
          rfl
        · cases h
      · cases h
    · rintro rfl
      exact dif_pos width.2

structure DenotesWidths (entries : List (Scalar × Yaml)) (widths : PromptWidths) : Prop where
  keys : OnlyKeys ["queue", "source", "target", "dns", "service"] entries
  queue : lookupKey entries "queue" = some (.scalar (.int widths.queue))
  source : lookupKey entries "source" = some (.scalar (.int widths.source))
  target : lookupKey entries "target" = some (.scalar (.int widths.target))
  dns : lookupKey entries "dns" = some (.scalar (.int widths.dns))
  service : lookupKey entries "service" = some (.scalar (.int widths.service))

theorem widthKeys_iff : ((entries.map Prod.fst).all (· ∈ promptColumnWidthKeys) &&
    promptColumnWidthKeys.all (· ∈ entries.map Prod.fst)) = true ↔
      OnlyKeys ["queue", "source", "target", "dns", "service"] entries ∧
        ∀ key ∈ ["queue", "source", "target", "dns", "service"], ∃ value, lookupKey entries key = some value := by
  simp only [← mem_keys_iff_lookupKey, OnlyKeys, promptColumnWidthKeys, Bool.and_eq_true, List.all_eq_true,
    List.mem_map, decide_eq_true_eq]
  constructor
  · rintro ⟨honly, hall⟩
    refine ⟨fun e he => ?_, fun key hkey => hall _ ⟨key, hkey, rfl⟩⟩
    obtain ⟨key, hkey, heq⟩ := honly e.1 ⟨e, he, rfl⟩
    exact ⟨key, hkey, heq.symm⟩
  · rintro ⟨honly, hall⟩
    refine ⟨?_, ?_⟩
    · rintro _ ⟨e, he, rfl⟩
      obtain ⟨key, hkey, heq⟩ := honly e he
      exact ⟨key, hkey, heq.symm⟩
    · rintro _ ⟨key, hkey, rfl⟩
      exact hall key hkey

theorem validatePromptColumnWidths_eq_ok_iff {widths : PromptWidths} :
    validatePromptColumnWidths configFile value = .ok widths ↔
      ∃ entries, value = .map entries ∧ DenotesWidths entries widths := by
  cases value with
  | scalar s => simp [validatePromptColumnWidths]
  | seq items => simp [validatePromptColumnWidths]
  | map entries =>
    simp only [validatePromptColumnWidths, Yaml.map.injEq]
    constructor
    · intro h
      split at h
      · cases h
      · rename_i hexact
        simp only [Bool.not_eq_true, Bool.not_eq_false'] at hexact
        simp only [Except.bind_eq_ok_iff, validatePromptColumnWidth_eq_ok_iff] at h
        obtain ⟨queue, hqueue, source, hsource, target, htarget, dns, hdns, service, hservice, hwidths⟩ := h
        cases hwidths
        exact ⟨entries, rfl, (widthKeys_iff.1 hexact).1, hqueue, hsource, htarget, hdns, hservice⟩
    · rintro ⟨_, rfl, h⟩
      rw [if_neg]
      · simp only [Except.bind_eq_ok_iff, validatePromptColumnWidth_eq_ok_iff]
        exact ⟨⟨widths.queue, widths.queueRange⟩, h.queue, ⟨widths.source, widths.sourceRange⟩, h.source,
          ⟨widths.target, widths.targetRange⟩, h.target, ⟨widths.dns, widths.dnsRange⟩, h.dns,
          ⟨widths.service, widths.serviceRange⟩, h.service, rfl⟩
      · rw [widthKeys_iff.2 ⟨h.keys, by simp [h.queue, h.source, h.target, h.dns, h.service]⟩]
        decide

/-! ### Services -/

/-- An entry of a group says which service it is. -/
structure DenotesService (fields : List (Scalar × Yaml)) (service : ColorService) : Prop where
  keys : OnlyKeys ["proto", "port"] fields
  proto : lookupKey fields "proto" = some (.str service.1.name)
  port : lookupKey fields "port" = some (.scalar (.int service.2.1))

theorem checkColorProto_eq_ok_iff {g : ColorGroup} {proto : ColorProto} :
    checkColorProto configFile g value = .ok proto ↔ value = .str proto.name := by
  unfold checkColorProto
  constructor
  · intro h
    split at h
    · cases h
    · cases h
    · split at h
      · rename_i htcp
        cases h
        exact isStr_iff.1 htcp
      · split at h
        · rename_i hudp
          cases h
          exact isStr_iff.1 hudp
        · cases h
  · rintro rfl
    cases proto <;> rfl

/-- A service is added where no group has it. -/
theorem addColor_eq_ok_iff {g : ColorGroup} {used used' : PromptColors} :
    addColor configFile g used value = .ok used' ↔ ∃ fields service, value = .map fields ∧
      DenotesService fields service ∧ used.get? service = none ∧ used' = used.set service g := by
  cases value with
  | scalar s => simp [addColor]
  | seq items => simp [addColor]
  | map fields =>
    simp only [addColor, Yaml.map.injEq]
    constructor
    · intro h
      split at h
      · cases h
      · rename_i hexact
        simp only [Bool.not_eq_true, Bool.not_eq_false'] at hexact
        simp only [Except.bind_eq_ok_iff, configItem_eq_ok_iff, checkColorProto_eq_ok_iff, checkColorPort,
          checkInteger_eq_ok_iff] at h
        obtain ⟨_, hproto, proto, rfl, _, hport, port, rfl, h⟩ := h
        split at h
        · cases h
        · rename_i hnew
          cases h
          exact ⟨fields, (proto, port), rfl, ⟨(hasExactly_iff.1 hexact).1, hproto, hport⟩, hnew, rfl⟩
    · rintro ⟨_, service, rfl, hservice, hnew, rfl⟩
      have hexact := hasExactly_iff.2 ⟨hservice.keys, by simp [hservice.proto, hservice.port]⟩
      rw [hexact]
      simp only [Bool.not_true, Bool.false_eq_true, if_false, Except.bind_eq_ok_iff, configItem_eq_ok_iff,
        checkColorProto_eq_ok_iff, checkColorPort, checkInteger_eq_ok_iff]
      refine ⟨_, hservice.proto, service.1, rfl, _, hservice.port, service.2, rfl, ?_⟩
      rw [show (service.1, service.2) = service from rfl, hnew]
      rfl

/-- The entries of a list say which services they are. -/
def DenotesServices (items : List Yaml) (services : List ColorService) : Prop :=
  List.Forall₂ (fun item service => ∃ fields, item = .map fields ∧ DenotesService fields service) items services

/-- The loop over the entries of a group adds them all, and none of them twice. -/
theorem addColors_eq_ok_iff {g : ColorGroup} {used used' : PromptColors} :
    addColors configFile g used value = .ok used' ↔ ∃ items services, value = .seq items ∧
      DenotesServices items services ∧ used'.entries = used.entries ++ services.map fun service => (service, g) := by
  cases value with
  | scalar s => simp [addColors]
  | map entries => simp [addColors]
  | seq items =>
    simp only [addColors, Yaml.seq.injEq]
    induction items generalizing used with
    | nil =>
      simp only [List.foldlM_nil, pure, Except.pure, Except.ok.injEq]
      constructor
      · rintro rfl
        exact ⟨[], [], rfl, .nil, by simp⟩
      · rintro ⟨_, services, rfl, hservices, hentries⟩
        cases hservices
        exact Dict.ext (by simpa using hentries.symm)
    | cons item items ih =>
      simp only [List.foldlM_cons, Except.bind_eq_ok_iff, addColor_eq_ok_iff, ih]
      constructor
      · rintro ⟨_, ⟨fields, service, rfl, hservice, hnew, rfl⟩, _, services, rfl, hservices, hentries⟩
        refine ⟨_, service :: services, rfl, .cons ⟨fields, rfl, hservice⟩ hservices, ?_⟩
        rw [hentries, Dict.entries_set_of_not_mem g (Dict.get?_eq_none_iff.1 hnew)]
        simp
      · rintro ⟨_, services, rfl, hservices, hentries⟩
        cases hservices with
        | @cons _ service _ services hitem hservices =>
          obtain ⟨fields, rfl, hservice⟩ := hitem
          -- the keys of `used'` are all different, so the service is not in `used`
          have hnot : service ∉ used.keys := by
            have hnodup := used'.nodup
            rw [hentries, List.map_append, List.map_cons, List.map_cons] at hnodup
            exact fun hmem => (List.nodup_append.1 hnodup).2.2 _ hmem _ List.mem_cons_self rfl
          refine ⟨_, ⟨fields, service, rfl, hservice, Dict.get?_eq_none_iff.2 hnot, rfl⟩, _, services, rfl, hservices, ?_⟩
          rw [hentries, Dict.entries_set_of_not_mem g hnot]
          simp

structure DenotesColors (fields : List (Scalar × Yaml)) (colors : PromptColors) : Prop where
  keys : OnlyKeys ["encrypted", "unencrypted"] fields
  encrypted : ∃ items, lookupKey fields "encrypted" = some (.seq items) ∧ DenotesServices items (colors.group .encrypted)
  unencrypted : ∃ items, lookupKey fields "unencrypted" = some (.seq items) ∧
    DenotesServices items (colors.group .unencrypted)
  ordered : colors.entries = (colors.group .encrypted).map (fun service => (service, .encrypted)) ++
    (colors.group .unencrypted).map fun service => (service, .unencrypted)

/-- The groups of a table that lists one group after the other. -/
theorem group_of_entries {colors : PromptColors} {encrypted unencrypted : List ColorService}
    (h : colors.entries = encrypted.map (fun service => (service, .encrypted)) ++
      unencrypted.map fun service => (service, .unencrypted)) :
    colors.group .encrypted = encrypted ∧ colors.group .unencrypted = unencrypted := by
  simp [PromptColors.group, h, List.filter_append, List.filter_map, Function.comp_def]

theorem validatePromptProtocolColors_eq_ok_iff {colors : PromptColors} :
    validatePromptProtocolColors configFile value = .ok colors ↔
      ∃ fields, value = .map fields ∧ DenotesColors fields colors := by
  cases value with
  | scalar s => simp [validatePromptProtocolColors]
  | seq items => simp [validatePromptProtocolColors]
  | map fields =>
    simp only [validatePromptProtocolColors, Yaml.map.injEq]
    constructor
    · intro h
      split at h
      · cases h
      · rename_i hexact
        simp only [Bool.not_eq_true, Bool.not_eq_false'] at hexact
        simp only [Except.bind_eq_ok_iff, configItem_eq_ok_iff, addColors_eq_ok_iff] at h
        obtain ⟨_, hencrypted, used, ⟨items, encrypted, rfl, hservices, hused⟩, _, hunencrypted, items', unencrypted, rfl,
          hservices', hcolors⟩ := h
        rw [hused] at hcolors
        obtain ⟨hfirst, hsecond⟩ := group_of_entries hcolors
        refine ⟨fields, rfl, (hasExactly_iff.1 hexact).1, ⟨items, hencrypted, hfirst ▸ hservices⟩,
          ⟨items', hunencrypted, hsecond ▸ hservices'⟩, ?_⟩
        rw [hfirst, hsecond]
        exact hcolors
    · rintro ⟨_, rfl, h⟩
      obtain ⟨items, hencrypted, hservices⟩ := h.encrypted
      obtain ⟨items', hunencrypted, hservices'⟩ := h.unencrypted
      rw [hasExactly_iff.2 ⟨h.keys, by simp [hencrypted, hunencrypted]⟩]
      simp only [Bool.not_true, Bool.false_eq_true, if_false, Except.bind_eq_ok_iff, configItem_eq_ok_iff,
        addColors_eq_ok_iff]
      have hnodup :
          (((colors.group .encrypted).map fun service => (service, ColorGroup.encrypted)).map Prod.fst).Nodup := by
        have hall := colors.nodup
        rw [h.ordered, List.map_append] at hall
        exact (List.nodup_append.1 hall).1
      exact ⟨_, hencrypted, ⟨_, hnodup⟩, ⟨items, _, rfl, hservices, rfl⟩, _, hunencrypted, items', _, rfl, hservices',
        h.ordered⟩

end Values

/-! ### What is accepted -/

/-- What the mapping of `config.yml` says. -/
structure Denotes (entries : List (Scalar × Yaml)) (c : ConfigFile) : Prop where
  keys : OnlyKeys configKeys entries
  theme : lookupKey entries "theme" = some (.str c.theme.name)
  notifySend : lookupKey entries "notify_send" = some (.scalar (.bool c.notifySend))
  notifySendTimeout : lookupKey entries "notify_send_timeout" = some (.scalar (.int c.notifySendTimeout.1))
  pendingQueueSize : lookupKey entries "pending_queue_size" = some (.scalar (.int c.pendingQueueSize.1))
  dnsCacheMaxPerSource : lookupKey entries "dns_cache_max_per_source" = some (.scalar (.int c.dnsCacheMaxPerSource.1))
  dnsCacheMaxGlobal : lookupKey entries "dns_cache_max_global" = some (.scalar (.int c.dnsCacheMaxGlobal.1))
  dnsCacheRefreshWorkers :
    lookupKey entries "dns_cache_refresh_workers" = some (.scalar (.int c.dnsCacheRefreshWorkers.1))
  defaultDisposableVmName : lookupKey entries "default_disposable_vm_name" = some (.str c.defaultDisposableVmName.1)
  limitRate : ∃ value, lookupKey entries "limit_rate" = some value ∧ value.text = c.limitRate.1
  burst : lookupKey entries "burst" = some (.scalar (.int c.burst.1))
  logBucketMaxEntries : lookupKey entries "log_bucket_max_entries" = some (.scalar (.int c.logBucketMaxEntries.1))
  promptColumnWidths : ∃ fields, lookupKey entries "prompt_column_widths" = some (.map fields) ∧
    DenotesWidths fields c.promptColumnWidths
  promptProtocolColors : ∃ fields, lookupKey entries "prompt_protocol_colors" = some (.map fields) ∧
    DenotesColors fields c.promptProtocolColors

section File

variable {configFile : String} {entries : List (Scalar × Yaml)} {c : ConfigFile}

theorem Denotes.present (h : Denotes entries c) : ∀ key ∈ configKeys, ∃ value, lookupKey entries key = some value := by
  obtain ⟨value, hrate, -⟩ := h.limitRate
  obtain ⟨widths, hwidths, -⟩ := h.promptColumnWidths
  obtain ⟨colors, hcolors, -⟩ := h.promptProtocolColors
  simp [configKeys, h.theme, h.notifySend, h.notifySendTimeout, h.pendingQueueSize, h.dnsCacheMaxPerSource,
    h.dnsCacheMaxGlobal, h.dnsCacheRefreshWorkers, h.defaultDisposableVmName, hrate, h.burst, h.logBucketMaxEntries,
    hwidths, hcolors]

theorem readConfig_eq_ok_iff : readConfig configFile entries = .ok c ↔ Denotes entries c := by
  unfold readConfig
  constructor
  · intro h
    split at h
    · cases h
    · rename_i hexact
      simp only [Bool.not_eq_true, Bool.not_eq_false'] at hexact
      simp only [Except.bind_eq_ok_iff, configItem_eq_ok_iff, checkTheme_eq_ok_iff, checkNotifySend_eq_ok_iff,
        checkInteger_eq_ok_iff, checkCacheMaxGlobal_eq_ok_iff, checkDefaultName_eq_ok_iff, checkLimitRate_eq_ok_iff,
        Except.mapError_eq_ok_iff, validatePromptColumnWidths_eq_ok_iff, validatePromptProtocolColors_eq_ok_iff] at h
      obtain ⟨_, htheme, theme, rfl, _, hnotify, notifySend, rfl, _, htimeout, timeout, rfl, _, hqueue, queue, rfl, _,
        hsource, perSource, rfl, _, hglobal, global, rfl, _, hworkers, workers, rfl, _, hname, name, rfl, _, hrate, rate,
        hratetext, _, hburst, burst, rfl, _, hbuckets, buckets, rfl, _, hwidths, widths, ⟨fields, rfl, hdenotes⟩, _,
        hcolors, colors, ⟨fields', rfl, hdenotes'⟩, hc⟩ := h
      cases hc
      exact ⟨(hasExactly_iff.1 hexact).1, htheme, hnotify, htimeout, hqueue, hsource, hglobal, hworkers, hname,
        ⟨_, hrate, hratetext⟩, hburst, hbuckets, ⟨fields, hwidths, hdenotes⟩, ⟨fields', hcolors, hdenotes'⟩⟩
  · intro h
    obtain ⟨value, hrate, hratetext⟩ := h.limitRate
    obtain ⟨widths, hwidths, hdenotes⟩ := h.promptColumnWidths
    obtain ⟨colors, hcolors, hdenotes'⟩ := h.promptProtocolColors
    rw [hasExactly_iff.2 ⟨h.keys, h.present⟩]
    simp only [Bool.not_true, Bool.false_eq_true, if_false, Except.bind_eq_ok_iff, configItem_eq_ok_iff,
      checkTheme_eq_ok_iff, checkNotifySend_eq_ok_iff, checkInteger_eq_ok_iff, checkCacheMaxGlobal_eq_ok_iff, checkDefaultName_eq_ok_iff,
      checkLimitRate_eq_ok_iff, Except.mapError_eq_ok_iff, validatePromptColumnWidths_eq_ok_iff,
      validatePromptProtocolColors_eq_ok_iff]
    exact ⟨_, h.theme, _, rfl, _, h.notifySend, _, rfl, _, h.notifySendTimeout, _, rfl, _, h.pendingQueueSize, _, rfl, _,
      h.dnsCacheMaxPerSource, _, rfl, _, h.dnsCacheMaxGlobal, _, rfl, _, h.dnsCacheRefreshWorkers, _, rfl, _,
      h.defaultDisposableVmName, _, rfl, _, hrate, _, hratetext, _, h.burst, _, rfl, _, h.logBucketMaxEntries, _, rfl, _,
      hwidths, _, ⟨widths, rfl, hdenotes⟩, _, hcolors, _, ⟨colors, rfl, hdenotes'⟩, rfl⟩

end File

/-! ### What is refused -/

/-- The message begins with the name of the file. -/
def NamesFile (configFile : String) (e : ConfigError) : Prop := ∃ message, e = configExit configFile message

section Refused

variable {configFile key unit : String} {value : Yaml} {entries : List (Scalar × Yaml)} {e : ConfigError}

theorem configExit_namesFile (message : String) : NamesFile configFile (configExit configFile message) := ⟨message, rfl⟩

/-- The colon may stand in one string with what follows. -/
theorem raised_namesFile {text rest : String} (message : String) (h : ": " ++ message = text) :
    NamesFile configFile (.raised (.systemExit (configFile ++ (text ++ rest)))) :=
  ⟨message ++ rest, by rw [← h, configExit, String.append_assoc, String.append_assoc]⟩

/-- A key that is there is read. -/
theorem configItem_bind_error {α : Type} {P : ConfigError → Prop} {f : Yaml → Except ConfigError α}
    (hkey : ∃ value, lookupKey entries key = some value)
    (hf : ∀ value, lookupKey entries key = some value → ∀ e, f value = .error e → P e) :
    ∀ e, configItem entries key >>= f = .error e → P e := by
  obtain ⟨value, hvalue⟩ := hkey
  have hitem := configItem_eq_ok_iff.2 hvalue
  rw [hitem]
  exact hf value hvalue

/-- A value is read and checked. -/
theorem item_error {α β : Type} {P : ConfigError → Prop} {check : Yaml → Except ConfigError α}
    {f : α → Except ConfigError β} (hkey : ∃ value, lookupKey entries key = some value)
    (hcheck : ∀ value, lookupKey entries key = some value → ∀ e, check value = .error e → P e)
    (hf : ∀ a e, f a = .error e → P e) :
    ∀ e, (configItem entries key >>= fun value => check value >>= f) = .error e → P e :=
  configItem_bind_error hkey fun value hvalue => Except.bind_errors (hcheck value hvalue) fun a _ => hf a

theorem checkNat_error {p : Nat → Prop} [DecidablePred p] {message : String} (e : ConfigError)
    (h : checkNat p (configExit configFile message) value = .error e) : NamesFile configFile e := by
  unfold checkNat at h
  split at h
  · split at h
    · cases h
    · cases h
      exact configExit_namesFile _
  · cases h
    exact configExit_namesFile _

theorem checkInteger_error {minimum maximum : Nat} (e : ConfigError)
    (h : checkInteger configFile key unit minimum maximum value = .error e) : NamesFile configFile e :=
  checkNat_error e h

theorem checkCacheMaxGlobal_error {perSource : Nat} (e : ConfigError)
    (h : checkCacheMaxGlobal configFile perSource value = .error e) : NamesFile configFile e :=
  checkNat_error e h

theorem checkTheme_error (e : ConfigError) (h : checkTheme configFile value = .error e) : NamesFile configFile e := by
  unfold checkTheme at h
  split at h
  · cases h
  · split at h
    · cases h
    · cases h
      exact configExit_namesFile _

theorem checkNotifySend_error (e : ConfigError) (h : checkNotifySend configFile value = .error e) :
    NamesFile configFile e := by
  unfold checkNotifySend at h
  split at h
  · cases h
  · cases h
    exact configExit_namesFile _

theorem validateSourceName_error {name : String} {e : PyError} (h : validateSourceName name configFile = .error e) :
    NamesFile configFile (.raised e) := by
  unfold validateSourceName at h
  split at h
  · cases h
    rw [String.append_assoc]
    exact raised_namesFile "invalid source name: " rfl
  · split at h
    · cases h
      rw [String.append_assoc]
      exact raised_namesFile "reserved source name: " rfl
    · cases h

theorem validateQubesVmName_error {name vmClass : String} {e : PyError}
    (h : validateQubesVmName name vmClass configFile = .error e) : NamesFile configFile (.raised e) := by
  unfold validateQubesVmName at h
  split at h
  · cases h
    rw [String.append_assoc]
    exact raised_namesFile "reserved VM name contains unknown: " rfl
  · split at h
    · cases h
      rw [String.append_assoc]
      exact raised_namesFile "reserved disp VM name for non-DispVM: " rfl
    · cases h

theorem checkDefaultName_error (e : ConfigError) (h : checkDefaultName configFile value = .error e) :
    NamesFile configFile e := by
  unfold checkDefaultName at h
  split at h
  · split at h
    · rename_i hsource
      cases h
      exact validateSourceName_error hsource
    · rename_i hvm
      cases h
      exact validateQubesVmName_error hvm
    · cases h
  · cases h
    exact configExit_namesFile _

theorem parseLimitRate_error {text : String} {e : PyError} (h : parseLimitRate text = .error e) :
    e = limitRateError := by
  unfold parseLimitRate at h
  split at h
  · cases h
    rfl
  · split at h
    · split at h
      · cases h
      · cases h
        rfl
    · cases h
      rfl

theorem checkLimitRate_error (e : ConfigError) (h : checkLimitRate configFile value = .error e) :
    NamesFile configFile e := by
  unfold checkLimitRate at h
  split at h
  · cases h
  · cases h
    exact configExit_namesFile _
  · rename_i hother hrate
    obtain rfl := parseLimitRate_error hrate
    exact (hother _ rfl).elim

theorem validatePromptColumnWidth_error {minimum maximum : Nat} (hkey : ∃ value, lookupKey entries key = some value)
    (e : PyError) (h : validatePromptColumnWidth configFile entries key minimum maximum = .error e) :
    NamesFile configFile (.raised e) := by
  obtain ⟨value, hvalue⟩ := hkey
  have hname : NamesFile configFile (.raised (.systemExit (configFile ++ ": prompt_column_widths." ++ key ++
      " must be an integer from " ++ toString minimum ++ " to " ++ toString maximum))) := by
    simp only [String.append_assoc]
    exact raised_namesFile "prompt_column_widths." rfl
  unfold validatePromptColumnWidth getItem at h
  rw [hvalue] at h
  simp only [bind, Except.bind] at h
  split at h
  · split at h
    · cases h
    · cases h
      exact hname
  · cases h
    exact hname

theorem validatePromptColumnWidths_error (e : PyError) (h : validatePromptColumnWidths configFile value = .error e) :
    NamesFile configFile (.raised e) := by
  have hname : NamesFile configFile (.raised (.systemExit (configFile ++
      ": prompt_column_widths must contain exactly queue, source, target, dns, and service"))) :=
    ⟨"prompt_column_widths must contain exactly queue, source, target, dns, and service", by
      simp [configExit, String.append_assoc]⟩
  cases value with
  | scalar s =>
    cases h
    exact hname
  | seq items =>
    cases h
    exact hname
  | map entries =>
    simp only [validatePromptColumnWidths] at h
    split at h
    · cases h
      exact hname
    · rename_i hexact
      simp only [Bool.not_eq_true, Bool.not_eq_false'] at hexact
      have hkeys := (widthKeys_iff.1 hexact).2
      revert h e
      refine Except.bind_errors (validatePromptColumnWidth_error (hkeys _ (by simp))) fun _ _ => ?_
      refine Except.bind_errors (validatePromptColumnWidth_error (hkeys _ (by simp))) fun _ _ => ?_
      refine Except.bind_errors (validatePromptColumnWidth_error (hkeys _ (by simp))) fun _ _ => ?_
      refine Except.bind_errors (validatePromptColumnWidth_error (hkeys _ (by simp))) fun _ _ => ?_
      refine Except.bind_errors (validatePromptColumnWidth_error (hkeys _ (by simp))) fun _ _ => ?_
      intro e h
      cases h

theorem widths_error (e : ConfigError)
    (h : (validatePromptColumnWidths configFile value).mapError .raised = .error e) : NamesFile configFile e := by
  cases hwidths : validatePromptColumnWidths configFile value with
  | ok widths =>
    rw [hwidths] at h
    cases h
  | error e' =>
    rw [hwidths] at h
    cases h
    exact validatePromptColumnWidths_error e' hwidths

/-- The protocol of an entry is a list or a mapping. -/
def UnhashableProto (entry : Yaml) : Prop :=
  ∃ fields proto, entry = .map fields ∧ lookupKey fields "proto" = some proto ∧ ∀ s, proto ≠ .scalar s

/-- A message with the name of the file, or the exception of a set where `p` holds. -/
def Refusal (configFile : String) (p : Prop) (e : ConfigError) : Prop :=
  NamesFile configFile e ∨ (∃ message, e = .typeError message) ∧ p

theorem Refusal.imp {p q : Prop} (hpq : p → q) (h : Refusal configFile p e) : Refusal configFile q e :=
  Or.imp id (And.imp id hpq) h

theorem checkColorProto_error {g : ColorGroup} (e : ConfigError) (h : checkColorProto configFile g value = .error e) :
    Refusal configFile (∀ s, value ≠ .scalar s) e := by
  cases value with
  | scalar s =>
    left
    simp only [checkColorProto] at h
    split at h
    · cases h
    · split at h
      · cases h
      · cases h
        exact configExit_namesFile _
  | seq items =>
    cases h
    exact .inr ⟨⟨_, rfl⟩, fun s => nofun⟩
  | map entries =>
    cases h
    exact .inr ⟨⟨_, rfl⟩, fun s => nofun⟩

theorem addColor_error {g : ColorGroup} {used : PromptColors} (e : ConfigError)
    (h : addColor configFile g used value = .error e) : Refusal configFile (UnhashableProto value) e := by
  cases value with
  | scalar s =>
    cases h
    exact .inl (configExit_namesFile _)
  | seq items =>
    cases h
    exact .inl (configExit_namesFile _)
  | map fields =>
    simp only [addColor] at h
    split at h
    · cases h
      exact .inl (configExit_namesFile _)
    · rename_i hexact
      simp only [Bool.not_eq_true, Bool.not_eq_false'] at hexact
      have hkeys := (hasExactly_iff.1 hexact).2
      revert h e
      refine item_error (hkeys _ (by simp)) (fun proto hproto e h => ?_) fun proto => ?_
      · exact (checkColorProto_error e h).imp fun hnot => ⟨fields, proto, rfl, hproto, hnot⟩
      · refine item_error (hkeys _ (by simp)) (fun _ _ e h => .inl (checkInteger_error e h)) fun port => ?_
        intro e h
        split at h
        · cases h
          exact .inl (configExit_namesFile _)
        · cases h

theorem addColors_error {g : ColorGroup} {used : PromptColors} (e : ConfigError)
    (h : addColors configFile g used value = .error e) :
    Refusal configFile (∃ items, value = .seq items ∧ ∃ item ∈ items, UnhashableProto item) e := by
  cases value with
  | scalar s =>
    cases h
    exact .inl (configExit_namesFile _)
  | map entries =>
    cases h
    exact .inl (configExit_namesFile _)
  | seq items =>
    simp only [addColors, Yaml.seq.injEq] at h ⊢
    induction items generalizing used with
    | nil => cases h
    | cons item items ih =>
      rw [List.foldlM_cons] at h
      rcases Except.of_bind_eq_error h with hitem | ⟨used', -, hitems⟩
      · exact (addColor_error e hitem).imp fun hproto => ⟨_, rfl, item, List.mem_cons_self, hproto⟩
      · refine (ih hitems).imp ?_
        rintro ⟨_, rfl, other, hother, hproto⟩
        exact ⟨_, rfl, other, List.mem_cons_of_mem _ hother, hproto⟩

/-- A coloured service has a list or a mapping as its protocol. -/
def UnhashableColor (value : Yaml) : Prop :=
  ∃ fields, value = .map fields ∧ ∃ (g : ColorGroup) (items : List Yaml),
    lookupKey fields g.name = some (.seq items) ∧ ∃ item ∈ items, UnhashableProto item

theorem validatePromptProtocolColors_error (e : ConfigError)
    (h : validatePromptProtocolColors configFile value = .error e) :
    Refusal configFile (UnhashableColor value) e := by
  cases value with
  | scalar s =>
    cases h
    exact .inl (configExit_namesFile _)
  | seq items =>
    cases h
    exact .inl (configExit_namesFile _)
  | map fields =>
    simp only [validatePromptProtocolColors] at h
    split at h
    · cases h
      exact .inl (configExit_namesFile _)
    · rename_i hexact
      simp only [Bool.not_eq_true, Bool.not_eq_false'] at hexact
      have hkeys := (hasExactly_iff.1 hexact).2
      revert h e
      refine item_error (hkeys _ (by simp)) (fun _ hgroup e h => ?_) fun _ => ?_
      · refine (addColors_error e h).imp ?_
        rintro ⟨items, rfl, hitem⟩
        exact ⟨fields, rfl, .encrypted, items, hgroup, hitem⟩
      · refine configItem_bind_error (hkeys _ (by simp)) fun _ hgroup e h => (addColors_error e h).imp ?_
        rintro ⟨items, rfl, hitem⟩
        exact ⟨fields, rfl, .unencrypted, items, hgroup, hitem⟩

example : validatePromptProtocolColors "config.yml" (.map [(.str "encrypted", .seq [.map [(.str "proto", .seq []),
    (.str "port", .scalar (.int 443))]]), (.str "unencrypted", .seq [])]) =
      .error (.typeError "unhashable type: 'list'") := rfl

/-- `read_config` accepts exactly the mappings that say what a configuration is; a message says in which file it refused
something, except for the protocol of a coloured service that cannot be looked for in a set. -/
theorem readConfig_exact (configFile : String) (entries : List (Scalar × Yaml)) :
    (∀ c, readConfig configFile entries = .ok c ↔ Denotes entries c) ∧
    ∀ e, readConfig configFile entries = .error e →
      Refusal configFile (∃ value, lookupKey entries "prompt_protocol_colors" = some value ∧ UnhashableColor value) e := by
  refine ⟨fun c => readConfig_eq_ok_iff, ?_⟩
  unfold readConfig
  split
  · intro e h
    cases h
    exact .inl (configExit_namesFile _)
  · rename_i hexact
    simp only [Bool.not_eq_true, Bool.not_eq_false'] at hexact
    have hkeys := (hasExactly_iff.1 hexact).2
    -- one step for each key, in the order of the checks
    refine item_error (hkeys _ (by simp [configKeys])) (fun _ _ e h => .inl (checkTheme_error e h)) fun _ => ?_
    refine item_error (hkeys _ (by simp [configKeys])) (fun _ _ e h => .inl (checkNotifySend_error e h)) fun _ => ?_
    refine item_error (hkeys _ (by simp [configKeys])) (fun _ _ e h => .inl (checkInteger_error e h)) fun _ => ?_
    refine item_error (hkeys _ (by simp [configKeys])) (fun _ _ e h => .inl (checkInteger_error e h)) fun _ => ?_
    refine item_error (hkeys _ (by simp [configKeys])) (fun _ _ e h => .inl (checkInteger_error e h)) fun _ => ?_
    refine item_error (hkeys _ (by simp [configKeys])) (fun _ _ e h => .inl (checkCacheMaxGlobal_error e h)) fun _ => ?_
    refine item_error (hkeys _ (by simp [configKeys])) (fun _ _ e h => .inl (checkInteger_error e h)) fun _ => ?_
    refine item_error (hkeys _ (by simp [configKeys])) (fun _ _ e h => .inl (checkDefaultName_error e h)) fun _ => ?_
    refine item_error (hkeys _ (by simp [configKeys])) (fun _ _ e h => .inl (checkLimitRate_error e h)) fun _ => ?_
    refine item_error (hkeys _ (by simp [configKeys])) (fun _ _ e h => .inl (checkInteger_error e h)) fun _ => ?_
    refine item_error (hkeys _ (by simp [configKeys])) (fun _ _ e h => .inl (checkInteger_error e h)) fun _ => ?_
    refine item_error (hkeys _ (by simp [configKeys])) (fun _ _ e h => .inl (widths_error e h)) fun _ => ?_
    refine item_error (hkeys _ (by simp [configKeys])) (fun value hvalue e h => ?_) fun _ e h => nomatch h
    exact (validatePromptProtocolColors_error e h).imp fun hcolor => ⟨value, hvalue, hcolor⟩

end Refused

/-- The limits of the log throttle. -/
def ConfigFile.logLimits (c : ConfigFile) : LogLimits := ⟨c.limitRate.1, c.burst.1, c.logBucketMaxEntries.1⟩

/-- The throttle is never run with limits outside the range for which it is a token bucket. -/
theorem ConfigFile.checkLogLimits_logLimits (c : ConfigFile) (configFile : String) :
    checkLogLimits configFile c.logLimits = .ok () := by
  obtain ⟨rate, hrate⟩ := c.limitRate.2
  have hlimit : parseLimitRate c.logLimits.limitRate = .ok rate := hrate
  obtain ⟨hburst, hburst'⟩ := c.burst.2
  obtain ⟨hmax, hmax'⟩ := c.logBucketMaxEntries.2
  have hburst : 1 ≤ c.logLimits.burst ∧ c.logLimits.burst ≤ 10000 := ⟨Int.ofNat_le.2 hburst, Int.ofNat_le.2 hburst'⟩
  have hmax : 1 ≤ c.logLimits.logBucketMaxEntries ∧ c.logLimits.logBucketMaxEntries ≤ 1000000 :=
    ⟨Int.ofNat_le.2 hmax, Int.ofNat_le.2 hmax'⟩
  simp [checkLogLimits, hlimit, hburst, hmax]

namespace Sample

def service (proto : ColorProto) (port : Nat) : Yaml :=
  .map [(.str "proto", .str proto.name), (.str "port", .scalar (.int port))]

/-- The template of `config.yml`. -/
def shippedConfig : List (Scalar × Yaml) :=
  [(.str "theme", .str "dark"), (.str "notify_send", .scalar (.bool true)),
    (.str "notify_send_timeout", .scalar (.int 5000)), (.str "pending_queue_size", .scalar (.int 200)),
    (.str "dns_cache_max_per_source", .scalar (.int 32768)), (.str "dns_cache_max_global", .scalar (.int 131072)),
    (.str "dns_cache_refresh_workers", .scalar (.int 32)), (.str "default_disposable_vm_name", .str "default-dvm"),
    (.str "limit_rate", .str "3/minute"), (.str "burst", .scalar (.int 5)),
    (.str "log_bucket_max_entries", .scalar (.int 4096)),
    (.str "prompt_column_widths", .map [(.str "queue", .scalar (.int 10)), (.str "source", .scalar (.int 18)),
      (.str "target", .scalar (.int 25)), (.str "dns", .scalar (.int 42)), (.str "service", .scalar (.int 22))]),
    (.str "prompt_protocol_colors", .map [
      (.str "encrypted", .seq [service .tcp 22, service .tcp 443, service .udp 443, service .tcp 465, service .tcp 587,
        service .tcp 853, service .tcp 993, service .tcp 995]),
      (.str "unencrypted", .seq [service .tcp 20, service .tcp 21, service .tcp 25, service .tcp 53, service .udp 53,
        service .tcp 80, service .tcp 110, service .tcp 119, service .tcp 143, service .tcp 389, service .tcp 631,
        service .udp 631, service .tcp 6667])])]

example : ∃ c, readConfig "config.yml" shippedConfig = .ok c := ⟨_, rfl⟩

end Sample

end QubesSnitch
