import QubesSnitch.RuleFile

/-!
# Loading the rules directory

`loadRules` reads every rule file, resolves the host names of all rules together, and builds the in-memory policy.
Where it succeeds, the policy of a source is a function of its validated file and of the resolver's answers
(`loadRules_get?`), and it succeeds exactly when every file is acceptable by itself (`exists_loadRules`); so
two directories with the same files load the same policy, in whatever order the files are read.
-/

namespace QubesSnitch

/-! ### Resolving host names -/

/-- The texts of the A records of a name, or why there are none. -/
abbrev Resolver := String → Except String (List String)

def resolvedAddress (path qname ip : String) : Except PyError IPv4 :=
  match ipAddress ip.toList with
  | none => .error (.systemExit (path ++ ": dest_dns " ++ qname ++ " resolved invalid address: " ++ ip))
  | some .v6 => .error (.systemExit (path ++ ": dest_dns " ++ qname ++ " resolved non-IPv4 address: " ++ ip))
  | some (.v4 address) => .ok address

/-- `sorted(set(ips), key=ipaddress.ip_address)` -/
def sortedAddresses (ips : List IPv4) : List IPv4 := ips.dedup.mergeSort fun x y => x.toNat ≤ y.toNat

def resolveDestDns (resolver : Resolver) (path qname : String) : Except PyError (List IPv4) :=
  match resolver qname with
  | .error error => .error (.systemExit (path ++ ": could not resolve dest_dns " ++ qname ++ ": " ++ error))
  | .ok answers => do
    let resolved := sortedAddresses (← answers.mapM (resolvedAddress path qname))
    if resolved.isEmpty then
      .error (.systemExit (path ++ ": dest_dns " ++ qname ++ " resolved no IPv4 addresses"))
    else .ok resolved

/-- The path of the first file that has each name. -/
def qnamePaths (rules : List (String × FlowRule)) : Dict String String :=
  rules.foldl (fun paths entry =>
    match entry.2.dest with
    | .dns qname _ => if qname ∈ paths.keys then paths else paths.set qname entry.1
    | _ => paths) .empty

def resolveDestDnsNames (resolver : Resolver) (paths : Dict String String) :
    Except PyError (Dict String (List IPv4)) := do
  let resolved ← (paths.entries.mergeSort fun x y => x.1 ≤ y.1).mapM fun entry => do
    return (entry.1, ← resolveDestDns resolver entry.2 entry.1)
  return .ofList resolved

/-- `runtime_flow_rule` with the names resolved before. -/
def runtimeFlowRule (resolved : Dict String (List IPv4)) (rule : FlowRule) : Except PyError FlowRule :=
  match rule.dest with
  | .dns qname _ =>
    match resolved.get? qname with
    | some ips => .ok { rule with dest := .dns qname ips }
    | none => .error (.keyError qname)
  | _ => .ok rule

/-! ### Files -/

/-- What a rule file holds: the value YAML reads, or why there is none.  The value is a tree, so no two lists of it are
one object, as YAML's aliases can make them in memory; the policy of a file does not depend on that, and what appending
to such a file does is said about the objects (`OneList`). -/
inductive RuleText where
  | unreadable (error : String)
  | nonAscii
  | invalidYaml (error : String)
  | yaml (data : Yaml)

def readYaml (path : String) (text : RuleText) : Except PyError (List (Scalar × Yaml)) :=
  match text with
  | .unreadable error => .error (.osError error)
  | .nonAscii => .error (.systemExit (path ++ ": non-ASCII bytes are not allowed"))
  | .invalidYaml error => .error (.systemExit (path ++ ": invalid YAML: " ++ error))
  | .yaml (.map entries) => .ok entries
  | .yaml _ => .error (.systemExit (path ++ ": expected YAML mapping"))

/-- The rule files, by stem. -/
abbrev RulesDir := Dict String RuleText

/-- `RULES_DIR / f"{source}.yml"` -/
def rulePath (stem : String) : String := "/rw/usrlocal/qubes-snitch/rules/" ++ stem ++ ".yml"

def checkStem (defaultDisposableVmName stem : String) : Except PyError Unit :=
  if !sourceNameRe.fullmatch stem.toList then
    .error (.systemExit (rulePath stem ++ ": invalid source filename"))
  else if stem ∈ reservedSources then .error (.systemExit (rulePath stem ++ ": reserved source filename"))
  else if stem = dispvmPolicyPrefix ++ defaultDvmTemplate || stem = dispvmPolicyPrefix ++ defaultDisposableVmName then
    .error (.systemExit (rulePath stem ++ ": default DisposableVM policy is not supported"))
  else .ok ()

def loadRuleFile (sv : Services) (lib : DnsPython) (defaultDisposableVmName : String) (file : String × RuleText) :
    Except PyError (String × RuleFile) := do
  checkStem defaultDisposableVmName file.1
  let entries ← readYaml (rulePath file.1) file.2
  return (file.1, ← validateRuleFile sv lib (rulePath file.1) entries)

def runtimeRules (resolved : Dict String (List IPv4)) (file : String × RuleFile) :
    Except PyError (String × SourceRules) := do
  return (file.1, ⟨← file.2.rules4.mapM (runtimeFlowRule resolved), file.2.dns⟩)

abbrev Rules := Dict String SourceRules

def loadRules (sv : Services) (lib : DnsPython) (resolver : Resolver) (dir : RulesDir)
    (defaultDisposableVmName : String) : Except PyError Rules := do
  let files := dir.entries.mergeSort fun x y => rulePath x.1 ≤ rulePath y.1
  let loaded ← files.mapM (loadRuleFile sv lib defaultDisposableVmName)
  let rules := loaded.flatMap fun file => file.2.rules4.map fun rule => (rulePath file.1, rule)
  let resolved ← resolveDestDnsNames resolver (qnamePaths rules)
  return .ofList (← loaded.mapM (runtimeRules resolved))

/-! ### The resolver's answers -/

/-- The addresses of a name, where there are any. -/
def addressesOf (resolver : Resolver) (qname : String) : Option (List IPv4) :=
  (resolveDestDns resolver "" qname).toOption

private theorem resolvedAddress_eq_ok_iff {path qname ip : String} {x : IPv4} :
    resolvedAddress path qname ip = .ok x ↔ ipAddress ip.toList = some (.v4 x) := by
  unfold resolvedAddress
  split <;> simp_all

theorem resolveDestDns_eq_ok_iff {resolver : Resolver} {path qname : String} {ips : List IPv4} :
    resolveDestDns resolver path qname = .ok ips ↔ ∃ answers found, resolver qname = .ok answers ∧
      List.Forall₂ (fun ip x => ipAddress ip.toList = some (.v4 x)) answers found ∧
      ips = sortedAddresses found ∧ ips ≠ [] := by
  unfold resolveDestDns
  constructor
  · intro h
    split at h
    · cases h
    · rename_i answers hanswers
      obtain ⟨found, hfound, h⟩ := Except.exists_of_bind_eq_ok h
      dsimp only at h
      split at h
      · cases h
      · rename_i hne
        cases h
        rw [Except.mapM_eq_ok_iff] at hfound
        exact ⟨answers, found, hanswers, hfound.imp fun _ _ => resolvedAddress_eq_ok_iff.1, rfl, by simpa using hne⟩
  · rintro ⟨answers, found, hanswers, hfound, rfl, hne⟩
    have hmap : answers.mapM (resolvedAddress path qname) = .ok found :=
      Except.mapM_eq_ok_iff.2 (hfound.imp fun _ _ => resolvedAddress_eq_ok_iff.2)
    have hne : (sortedAddresses found).isEmpty = false := by simpa using hne
    simp [hanswers, hmap, bind, Except.bind, hne]

/-- Resolving depends on the path in its error texts only. -/
theorem resolveDestDns_eq_ok {resolver : Resolver} (path : String) {qname : String} {ips : List IPv4} :
    resolveDestDns resolver path qname = .ok ips ↔ addressesOf resolver qname = some ips := by
  have hpath : resolveDestDns resolver path qname = .ok ips ↔ resolveDestDns resolver "" qname = .ok ips := by
    rw [resolveDestDns_eq_ok_iff, resolveDestDns_eq_ok_iff]
  rw [hpath, addressesOf]
  cases resolveDestDns resolver "" qname <;> simp [Except.toOption]

/-- The addresses of a name differ. -/
theorem addressesOf_nodup {resolver : Resolver} {qname : String} {ips : List IPv4}
    (h : addressesOf resolver qname = some ips) : ips.Nodup := by
  obtain ⟨answers, found, -, -, rfl, -⟩ := resolveDestDns_eq_ok_iff.1 ((resolveDestDns_eq_ok "").2 h)
  exact (List.mergeSort_perm _ _).nodup_iff.2 (List.nodup_dedup found)

theorem addressesOf_ne_nil {resolver : Resolver} {qname : String} {ips : List IPv4}
    (h : addressesOf resolver qname = some ips) : ips ≠ [] := by
  obtain ⟨_, _, -, -, -, hne⟩ := resolveDestDns_eq_ok_iff.1 ((resolveDestDns_eq_ok "").2 h)
  exact hne

private theorem mem_qnamePaths {rules : List (String × FlowRule)} {qname : String} :
    qname ∈ (qnamePaths rules).keys ↔ ∃ entry ∈ rules, ∃ resolved, entry.2.dest = .dns qname resolved := by
  -- the induction is over the names that are already there
  suffices key : ∀ paths : Dict String String, qname ∈ (rules.foldl (fun paths entry =>
      match entry.2.dest with
      | .dns qname _ => if qname ∈ paths.keys then paths else paths.set qname entry.1
      | _ => paths) paths).keys ↔
        qname ∈ paths.keys ∨ ∃ entry ∈ rules, ∃ resolved, entry.2.dest = .dns qname resolved by
    simpa [qnamePaths] using key .empty
  induction rules with
  | nil => simp
  | cons entry rules ih =>
    intro paths
    rw [List.foldl_cons, ih]
    cases hdest : entry.2.dest with
    | dns name resolved =>
      by_cases hmem : name ∈ paths.keys
      · simp only [hmem, if_true, List.mem_cons, exists_eq_or_imp, hdest, Dest.dns.injEq]
        constructor
        · rintro (h | h)
          · exact Or.inl h
          · exact Or.inr (Or.inr h)
        · rintro (h | ⟨_, rfl, -⟩ | h)
          · exact Or.inl h
          · exact Or.inl hmem
          · exact Or.inr h
      · simp only [hmem, if_false, Dict.mem_keys_set, List.mem_cons, exists_eq_or_imp, hdest, Dest.dns.injEq]
        constructor
        · rintro ((rfl | h) | h)
          · exact Or.inr (Or.inl ⟨resolved, rfl, rfl⟩)
          · exact Or.inl h
          · exact Or.inr (Or.inr h)
        · rintro (h | ⟨_, rfl, -⟩ | h)
          · exact Or.inl (Or.inr h)
          · exact Or.inl (Or.inl rfl)
          · exact Or.inr h
    | any => simp [hdest]
    | network n => simp [hdest]

/-- The step of `resolveDestDnsNames`. -/
private theorem resolved_pair {resolver : Resolver} {entry : String × String} {pair : String × List IPv4} :
    (do return (entry.1, ← resolveDestDns resolver entry.2 entry.1) : Except PyError (String × List IPv4)) =
      .ok pair ↔ pair.1 = entry.1 ∧ addressesOf resolver entry.1 = some pair.2 := by
  rw [← resolveDestDns_eq_ok entry.2]
  constructor
  · intro h
    obtain ⟨ips, hips, h⟩ := Except.exists_of_bind_eq_ok h
    cases h
    exact ⟨rfl, hips⟩
  · rcases pair with ⟨qname, ips⟩
    rintro ⟨rfl, h⟩
    rw [h]
    rfl

private theorem sort_perm {ν : Type} (d : Dict String ν) (le : String × ν → String × ν → Bool) :
    (d.entries.mergeSort le).Perm d.entries := List.mergeSort_perm _ _

private theorem resolveDestDnsNames_get? {resolver : Resolver} {paths : Dict String String}
    {resolved : Dict String (List IPv4)} (h : resolveDestDnsNames resolver paths = .ok resolved) {qname : String}
    (hq : qname ∈ paths.keys) : ∃ ips, resolved.get? qname = some ips ∧ addressesOf resolver qname = some ips := by
  obtain ⟨pairs, hpairs, h⟩ := Except.exists_of_bind_eq_ok h
  cases h
  have hperm := sort_perm paths fun x y => x.1 ≤ y.1
  have hkeys : pairs.map Prod.fst = (paths.entries.mergeSort fun x y => x.1 ≤ y.1).map Prod.fst :=
    Except.map_eq_of_mapM hpairs fun _ _ h => (resolved_pair.1 h).1
  have hnodup : (pairs.map Prod.fst).Nodup := hkeys ▸ ((hperm.map Prod.fst).nodup_iff.2 paths.nodup)
  obtain ⟨entry, hentry, rfl⟩ := List.mem_map.1 hq
  obtain ⟨pair, hpair, hstep⟩ := Except.exists_mem_of_mapM hpairs (hperm.mem_iff.2 hentry)
  obtain ⟨hfst, hips⟩ := resolved_pair.1 hstep
  exact ⟨pair.2, (Dict.get?_ofList hnodup).2 (hfst ▸ hpair), hips⟩

private theorem exists_resolveDestDnsNames {resolver : Resolver} (paths : Dict String String)
    (h : ∀ qname ∈ paths.keys, (addressesOf resolver qname).isSome) :
    ∃ resolved, resolveDestDnsNames resolver paths = .ok resolved := by
  obtain ⟨pairs, hpairs⟩ : ∃ pairs, (paths.entries.mergeSort fun x y => x.1 ≤ y.1).mapM (fun entry => do
      return (entry.1, ← resolveDestDns resolver entry.2 entry.1)) = Except.ok pairs := by
    apply Except.exists_mapM_eq_ok
    intro entry hentry
    have hmem := List.mem_map_of_mem (f := Prod.fst) ((sort_perm paths _).mem_iff.1 hentry)
    obtain ⟨ips, hips⟩ := Option.isSome_iff_exists.1 (h entry.1 hmem)
    exact ⟨(entry.1, ips), resolved_pair.2 ⟨rfl, hips⟩⟩
  exact ⟨.ofList pairs, by rw [resolveDestDnsNames, hpairs]; rfl⟩

/-! ### What a directory loads as -/

/-- The rule with the addresses its name has now. -/
def FlowRule.resolve (resolver : Resolver) (rule : FlowRule) : FlowRule :=
  match rule.dest with
  | .dns qname _ => { rule with dest := .dns qname (addressesOf resolver qname) }
  | _ => rule

/-- The policy that a file stands for. -/
def RuleFile.runtime (resolver : Resolver) (data : RuleFile) : SourceRules :=
  ⟨data.rules4.map (FlowRule.resolve resolver), data.dns⟩

/-- Whether every host name of the file resolves. -/
def RuleFile.Resolves (resolver : Resolver) (data : RuleFile) : Prop :=
  ∀ rule ∈ data.rules4, ∀ qname resolved, rule.dest = .dns qname resolved → (addressesOf resolver qname).isSome

/-- A file that `loadRules` accepts, with its validated content. -/
structure FileLoads (sv : Services) (lib : DnsPython) (resolver : Resolver) (defaultDisposableVmName stem : String)
    (text : RuleText) (data : RuleFile) : Prop where
  legal : LegalStem defaultDisposableVmName stem
  read : ∃ entries, readYaml (rulePath stem) text = .ok entries ∧
    validateRuleFile sv lib (rulePath stem) entries = .ok data
  resolves : data.Resolves resolver

theorem checkStem_eq_ok {dflt stem : String} : checkStem dflt stem = .ok () ↔ LegalStem dflt stem := by
  unfold checkStem LegalStem
  split
  · simp_all
  · split
    · simp_all
    · split
      · rename_i hdefault
        simp_all only [Bool.or_eq_true, decide_eq_true_eq]
        rcases hdefault with hdefault | hdefault <;> simp [hdefault]
      · simp_all

variable {sv : Services} {lib : DnsPython} {resolver : Resolver} {dflt : String}

private theorem loadRuleFile_eq_ok {file : String × RuleText} {loaded : String × RuleFile} :
    loadRuleFile sv lib dflt file = .ok loaded ↔ loaded.1 = file.1 ∧ LegalStem dflt file.1 ∧
      ∃ entries, readYaml (rulePath file.1) file.2 = .ok entries ∧
        validateRuleFile sv lib (rulePath file.1) entries = .ok loaded.2 := by
  constructor
  · intro h
    obtain ⟨_, hstem, h⟩ := Except.exists_of_bind_eq_ok h
    obtain ⟨entries, hentries, h⟩ := Except.exists_of_bind_eq_ok h
    obtain ⟨data, hdata, h⟩ := Except.exists_of_bind_eq_ok h
    cases h
    exact ⟨rfl, checkStem_eq_ok.1 hstem, entries, hentries, hdata⟩
  · rcases loaded with ⟨stem, data⟩
    rintro ⟨rfl, hstem, entries, hentries, hdata⟩
    simp only [loadRuleFile, checkStem_eq_ok.2 hstem, hentries, bind, Except.bind, hdata]
    rfl

private theorem runtimeFlowRule_resolved {resolved : Dict String (List IPv4)} {rule : FlowRule}
    (h : ∀ qname r, rule.dest = .dns qname r →
      ∃ ips, resolved.get? qname = some ips ∧ addressesOf resolver qname = some ips) :
    runtimeFlowRule resolved rule = .ok (rule.resolve resolver) := by
  unfold runtimeFlowRule FlowRule.resolve
  cases hdest : rule.dest with
  | dns qname r =>
    obtain ⟨ips, hget, haddr⟩ := h qname r hdest
    simp [hget, haddr]
  | any => rfl
  | network n => rfl

private theorem runtimeRules_resolved {resolved : Dict String (List IPv4)} {file : String × RuleFile}
    (h : ∀ rule ∈ file.2.rules4, ∀ qname r, rule.dest = .dns qname r →
      ∃ ips, resolved.get? qname = some ips ∧ addressesOf resolver qname = some ips) :
    runtimeRules resolved file = .ok (file.1, file.2.runtime resolver) := by
  have hrules : file.2.rules4.mapM (runtimeFlowRule resolved) =
      .ok (file.2.rules4.map (FlowRule.resolve resolver)) := by
    rw [Except.mapM_eq_ok_iff, List.forall₂_map_right_iff, List.forall₂_same]
    exact fun rule hrule => runtimeFlowRule_resolved (h rule hrule)
  rw [runtimeRules, hrules]
  rfl

/-- Where the names of the loaded files are resolved, the policy of each is what its file stands for. -/
private theorem runtime_of_loaded {loaded : List (String × RuleFile)} {resolved : Dict String (List IPv4)}
    (h : resolveDestDnsNames resolver (qnamePaths (loaded.flatMap fun file => file.2.rules4.map fun rule =>
      (rulePath file.1, rule))) = .ok resolved) :
    loaded.mapM (runtimeRules resolved) = .ok (loaded.map fun file => (file.1, file.2.runtime resolver)) ∧
      ∀ file ∈ loaded, file.2.Resolves resolver := by
  have hname : ∀ file ∈ loaded, ∀ rule ∈ file.2.rules4, ∀ qname r, rule.dest = .dns qname r →
      ∃ ips, resolved.get? qname = some ips ∧ addressesOf resolver qname = some ips := by
    intro file hfile rule hrule qname r hdest
    refine resolveDestDnsNames_get? h (mem_qnamePaths.2 ⟨(rulePath file.1, rule), ?_, r, hdest⟩)
    exact List.mem_flatMap.2 ⟨file, hfile, List.mem_map.2 ⟨rule, hrule, rfl⟩⟩
  constructor
  · rw [Except.mapM_eq_ok_iff, List.forall₂_map_right_iff, List.forall₂_same]
    exact fun file hfile => runtimeRules_resolved (hname file hfile)
  · intro file hfile rule hrule qname r hdest
    obtain ⟨ips, -, hips⟩ := hname file hfile rule hrule qname r hdest
    simp [hips]

/-- The loaded policy, file by file. -/
theorem loadRules_get? {dir : RulesDir} {rules : Rules} (h : loadRules sv lib resolver dir dflt = .ok rules) :
    (∀ stem text, dir.get? stem = some text → ∃ data, FileLoads sv lib resolver dflt stem text data ∧
      rules.get? stem = some (data.runtime resolver)) ∧
    ∀ stem, rules.get? stem = none ↔ dir.get? stem = none := by
  obtain ⟨loaded, hloaded, h⟩ := Except.exists_of_bind_eq_ok h
  obtain ⟨resolved, hresolved, h⟩ := Except.exists_of_bind_eq_ok h
  obtain ⟨hruntime, hresolves⟩ := runtime_of_loaded hresolved
  rw [hruntime] at h
  cases h
  -- files are read in the order of their paths, which is no matter once they are in the map
  have hperm := sort_perm dir fun x y => rulePath x.1 ≤ rulePath y.1
  have hkeys : loaded.map Prod.fst = (dir.entries.mergeSort fun x y => rulePath x.1 ≤ rulePath y.1).map Prod.fst :=
    Except.map_eq_of_mapM hloaded fun _ _ h => (loadRuleFile_eq_ok.1 h).1
  have hmap : (loaded.map fun file => (file.1, file.2.runtime resolver)).map Prod.fst = loaded.map Prod.fst := by
    simp [Function.comp_def]
  have hnodup : ((loaded.map fun file => (file.1, file.2.runtime resolver)).map Prod.fst).Nodup := by
    rw [hmap, hkeys, (hperm.map Prod.fst).nodup_iff]
    exact dir.nodup
  have hfile : ∀ stem text, dir.get? stem = some text → ∃ data, FileLoads sv lib resolver dflt stem text data ∧
      (Dict.ofList (loaded.map fun file => (file.1, file.2.runtime resolver))).get? stem =
        some (data.runtime resolver) := by
    intro stem text hget
    have hmem := hperm.mem_iff.2 (Dict.get?_eq_some_iff.1 hget)
    obtain ⟨file, hfile, hload⟩ := Except.exists_mem_of_mapM hloaded hmem
    obtain ⟨hstem, hlegal, hread⟩ := loadRuleFile_eq_ok.1 hload
    refine ⟨file.2, ⟨hlegal, hread, hresolves file hfile⟩, (Dict.get?_ofList hnodup).2 ?_⟩
    exact List.mem_map.2 ⟨file, hfile, by rw [hstem]⟩
  refine ⟨hfile, fun stem => ?_⟩
  constructor
  · intro hnone
    cases hget : dir.get? stem with
    | none => rfl
    | some text =>
      obtain ⟨data, -, hsome⟩ := hfile stem text hget
      rw [hnone] at hsome
      cases hsome
  · intro hnone
    cases hget : (Dict.ofList (loaded.map fun file => (file.1, file.2.runtime resolver))).get? stem with
    | none => rfl
    | some rules =>
      have hmem := List.mem_map_of_mem (f := Prod.fst) ((Dict.get?_ofList hnodup).1 hget)
      rw [hmap, hkeys, (hperm.map Prod.fst).mem_iff] at hmem
      exact absurd hmem (Dict.get?_eq_none_iff.1 hnone)

/-- A directory of acceptable files loads. -/
theorem exists_loadRules {dir : RulesDir}
    (h : ∀ stem text, dir.get? stem = some text → ∃ data, FileLoads sv lib resolver dflt stem text data) :
    ∃ rules, loadRules sv lib resolver dir dflt = .ok rules := by
  have hperm := sort_perm dir fun x y => rulePath x.1 ≤ rulePath y.1
  have hload : ∀ file ∈ dir.entries.mergeSort (fun x y => rulePath x.1 ≤ rulePath y.1), ∃ data,
      FileLoads sv lib resolver dflt file.1 file.2 data := fun file hfile =>
    h file.1 file.2 (Dict.get?_eq_some_iff.2 (hperm.mem_iff.1 hfile))
  obtain ⟨loaded, hloaded⟩ : ∃ loaded, (dir.entries.mergeSort fun x y => rulePath x.1 ≤ rulePath y.1).mapM
      (loadRuleFile sv lib dflt) = .ok loaded := by
    apply Except.exists_mapM_eq_ok
    intro file hfile
    obtain ⟨data, hdata⟩ := hload file hfile
    exact ⟨(file.1, data), loadRuleFile_eq_ok.2 ⟨rfl, hdata.legal, hdata.read⟩⟩
  obtain ⟨resolved, hresolved⟩ := @exists_resolveDestDnsNames resolver (qnamePaths
      (loaded.flatMap fun file => file.2.rules4.map fun rule => (rulePath file.1, rule))) (by
    intro qname hq
    obtain ⟨entry, hentry, r, hdest⟩ := mem_qnamePaths.1 hq
    obtain ⟨file, hfile, hrule⟩ := List.mem_flatMap.1 hentry
    obtain ⟨rule, hmem, rfl⟩ := List.mem_map.1 hrule
    obtain ⟨source, hsource, hread⟩ := Except.exists_of_mem_mapM hloaded hfile
    obtain ⟨data, hdata⟩ := hload source hsource
    obtain ⟨-, -, entries, hentries, hvalid⟩ := loadRuleFile_eq_ok.1 hread
    obtain ⟨entries', hentries', hvalid'⟩ := hdata.read
    have heq : file.2 = data := by
      rw [hentries] at hentries'
      cases hentries'
      rw [hvalid] at hvalid'
      exact Except.ok.inj hvalid'
    exact hdata.resolves rule (heq ▸ hmem) qname r hdest)
  refine ⟨.ofList (loaded.map fun file => (file.1, file.2.runtime resolver)), ?_⟩
  simp only [loadRules, hloaded, bind, Except.bind, hresolved, (runtime_of_loaded hresolved).1]
  rfl

end QubesSnitch
