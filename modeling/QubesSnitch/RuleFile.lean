import QubesSnitch.SourceMap

/-!
# Rule files

A rule file holds the flow rules and the DNS rules of one source.  `validateRuleFile` checks what the loader read and
rewrites DNS names and types to the form in which live questions have them; its result is a typed `RuleFile`, and
`RuleFile.dump` is what `safe_dump` writes of it.  Two facts carry the persistence results: an accepted file is `Valid`
(`validateRuleFile_valid`), and a valid file is read back as itself (`validateRuleFile_dump`).
-/

namespace QubesSnitch

/-! ### Rules -/

/-- The destination text of a rule, with the network that it names. -/
structure NetworkText where
  value : Scalar
  cidr : Cidr
  parses : ipNetwork value.text.toList = some (.v4 cidr)
  narrow : cidr.len ≠ 0

/-- `dest` or `dest_dns`; the addresses of a host name are in memory only. -/
inductive Dest where
  | any
  | network (n : NetworkText)
  | dns (qname : String) (resolvedDests : Option (List IPv4))

structure FlowRule where
  ptr : Yaml
  dest : Dest
  proto : FlowProto
  port : String
  action : Action

structure RuleFile where
  rules4 : List FlowRule
  dns : List DnsRule

/-- The in-memory rules of one source. -/
structure SourceRules where
  ip : List FlowRule
  dns : List DnsRule

/-- The network text of one address. -/
def NetworkText.host (x : IPv4) : NetworkText where
  value := .str x.text
  cidr := Cidr.host x
  parses := by simp [Scalar.text, IPv4.text, ipNetwork_chars]
  narrow := by simp [Cidr.host]

/-! ### Checks -/

/-- `rule[key]` -/
def getItem (entries : List (Scalar × Yaml)) (key : String) : Except PyError Yaml :=
  match lookupKey entries key with
  | some value => .ok value
  | none => .error (.keyError key)

/-- Whether the text is a wildcard name. -/
def isWildcard (qname : List Char) : Bool := "*.".toList.isPrefixOf qname

/-- The names that no rule may be about. -/
def dnsRuleNameRefused (qname : List Char) : Bool :=
  let labels := Py.split '.' (if isWildcard qname then qname.drop 2 else qname)
  dnsQnameIsIpv6Reverse qname || 253 < qname.length || labels.length < 2 ||
    labels.any fun label => 63 < label.length || "xn--".toList.isPrefixOf label

def dnsRuleNameMatches (qname : List Char) (qtype : String) : Bool :=
  if isWildcard qname then liveDnsQnameRe.fullmatch (qname.drop 2)
  else if qtype = "SRV" then liveDnsSrvQnameRe.fullmatch qname
  else liveDnsQnameRe.fullmatch qname

/-- The canonical name and type that `validate_dns_rule` writes into a rule. -/
def validateDnsRule (lib : DnsPython) (path : String) (qname qtype : Yaml) : Except PyError (String × String) :=
  match qname with
  | .scalar (.str text) =>
    let name := Py.lower (Py.rstrip '.' text.toList)
    if dnsRuleNameRefused name then .error (.systemExit (path ++ ": invalid DNS qname: " ++ text))
    else
      let qtypeText := Py.upper qtype.text.toList
      if "TYPE".toList.isPrefixOf qtypeText || Py.isdigit qtypeText then
        .error (.systemExit (path ++ ": unsupported DNS qtype: " ++ qtype.text))
      else match lib.rdatatypeFromText (String.ofList qtypeText) with
        | none => .error (.systemExit (path ++ ": invalid DNS qtype: " ++ qtype.text))
        | some qtypeValue =>
          let canonicalQtype := dnsQtypeText lib qtypeValue
          if canonicalQtype = "AAAA" || canonicalQtype ∉ supportedDnsQtypes then
            .error (.systemExit (path ++ ": unsupported DNS qtype: " ++ qtype.text))
          else if !dnsRuleNameMatches name canonicalQtype then
            .error (.systemExit (path ++ ": invalid DNS qname: " ++ text))
          else .ok (String.ofList name, canonicalQtype)
  | qname => .error (.systemExit (path ++ ": invalid DNS qname: " ++ qname.text))

/-- The concrete name that `dest_dns` stands for. -/
def validateDestDnsName (lib : DnsPython) (path : String) (value : Yaml) : Except PyError String := do
  let (qname, _) ← validateDnsRule lib path value (.str "A")
  if isWildcard qname.toList then .error (.systemExit (path ++ ": dest_dns must be a concrete DNS name"))
  else .ok qname

def validateAction (path error : String) (value : Yaml) : Except PyError Action :=
  match value.str?.bind Action.ofName? with
  | some action => .ok action
  | none => .error (.systemExit (path ++ error ++ value.text))

def validateProto (path : String) (value : Yaml) : Except PyError FlowProto :=
  if Py.isdigit value.text.toList then
    .error (.systemExit (path ++ ": use protocol names instead of numeric proto " ++ value.text))
  else match FlowProto.ofName? value.text with
    | some proto => .ok proto
    | none => .error (.systemExit (path ++ ": invalid proto: " ++ value.text))

def Yaml.isList : Yaml → Bool
  | seq _ => true
  | _ => false

/-- The port text of a rule whose destination and port are scalars. -/
def validatePortText (path : String) (dest port : Yaml) : Except PyError String :=
  if dest.isList || port.isList then .error (.systemExit (path ++ ": dest and port must be scalar values"))
  else match port.str? with
    | some text => .ok text
    | none => .error (.systemExit (path ++ ": port must be a quoted string"))

/-- The check of `dest`; the text of a mapping is no network either. -/
def validateNetwork (path : String) (value : Yaml) : Except PyError Dest :=
  match value with
  | .scalar value =>
    if value = .str "any" then .ok .any
    else match h : ipNetwork value.text.toList with
      | none => .error (.systemExit (path ++ ": invalid destination: " ++ value.text))
      | some .v6 => .error (.systemExit (path ++ ": rules4 contains non-IPv4 destination"))
      | some (.v4 cidr) =>
        if hlen : cidr.len = 0 then .error (.systemExit (path ++ ": use dest: any instead of 0.0.0.0/0"))
        else .ok (.network ⟨value, cidr, h, hlen⟩)
  | value => .error (.systemExit (path ++ ": invalid destination: " ++ value.text))

def validatePort (sv : Services) (path : String) (proto : FlowProto) (port : String) : Except PyError Unit :=
  if proto = .icmp && port ≠ "any" then .error (.systemExit (path ++ ": only tcp and udp rules may specify ports"))
  else match normalizePort sv (.str port) proto with
    | .ok _ => .ok ()
    | .error _ => .error (.systemExit (path ++ ": invalid port for " ++ proto.name ++ ": " ++ port))

/-- Whether a flow rule has exactly the keys of the schema. -/
def flowRuleKeys (keys : List Scalar) : Bool :=
  ["ptr", "proto", "port", "action"].all (fun key => Scalar.str key ∈ keys) &&
    (decide (Scalar.str "dest" ∈ keys) != decide (Scalar.str "dest_dns" ∈ keys)) &&
    keys.all fun key => key ∈ ["ptr", "dest", "dest_dns", "proto", "port", "action"].map Scalar.str

/-- `rule["dest_dns"] = validate_dest_dns_name(path, rule["dest_dns"])`, where the rule has that key. -/
def validateDestDns (lib : DnsPython) (path : String) (entries : List (Scalar × Yaml)) :
    Except PyError (Option String) :=
  match lookupKey entries "dest_dns" with
  | some value => return some (← validateDestDnsName lib path value)
  | none => return none

/-- The destination of a rule: its checked host name, or the value of `dest`. -/
def flowRuleDest (path : String) (destDns : Option String) (destValue : Yaml) : Except PyError Dest :=
  match destDns with
  | some qname => .ok (.dns qname none)
  | none => validateNetwork path destValue

def validateFlowRule (sv : Services) (lib : DnsPython) (path : String) (rule : Yaml) : Except PyError FlowRule :=
  match rule with
  | .map entries =>
    if !flowRuleKeys (entries.map Prod.fst) then
      .error (.systemExit (path ++
        ": every flow rule must have ptr, exactly one of dest or dest_dns, proto, port, action"))
    else do
      let action ← validateAction path ": invalid action: " (← getItem entries "action")
      let destDns ← validateDestDns lib path entries
      let proto ← validateProto path (← getItem entries "proto")
      let destValue := (lookupKey entries "dest").getD (.str (destDns.getD ""))
      let port ← validatePortText path destValue (← getItem entries "port")
      let dest ← flowRuleDest path destDns destValue
      validatePort sv path proto port
      let ptr ← getItem entries "ptr"
      return { ptr, dest, proto, port, action }
  | _ => .error (.systemExit (path ++ ": every flow rule must be a mapping"))

def validateDnsEntry (lib : DnsPython) (path : String) (rule : Yaml) : Except PyError DnsRule :=
  match rule with
  | .map entries =>
    let keys := entries.map Prod.fst
    let expected := ["qname", "qtype", "action"].map Scalar.str
    if !(keys.all (· ∈ expected) && expected.all (· ∈ keys)) then
      .error (.systemExit (path ++ ": every DNS rule must have qname, qtype, action"))
    else do
      let action ← validateAction path ": invalid DNS action: " (← getItem entries "action")
      let (qname, qtype) ← validateDnsRule lib path (← getItem entries "qname") (← getItem entries "qtype")
      return { qname, qtype, action }
  | _ => .error (.systemExit (path ++ ": every DNS rule must be a mapping"))

/-- `data[key]`, which has to be a list. -/
def ruleList (path : String) (data : List (Scalar × Yaml)) (key : String) : Except PyError (List Yaml) := do
  match ← getItem data key with
  | .seq rules => .ok rules
  | _ => .error (.systemExit (path ++ ": " ++ key ++ " must be a list"))

def validateRuleFile (sv : Services) (lib : DnsPython) (path : String) (data : List (Scalar × Yaml)) :
    Except PyError RuleFile :=
  let keys := data.map Prod.fst
  let expected := ["rules4", "dns"].map Scalar.str
  if !(keys.all (· ∈ expected) && expected.all (· ∈ keys)) then
    .error (.systemExit (path ++ ": expected exactly rules4 and dns"))
  else do
    let rules4 ← ruleList path data "rules4"
    let dns ← ruleList path data "dns"
    return { rules4 := ← rules4.mapM (validateFlowRule sv lib path), dns := ← dns.mapM (validateDnsEntry lib path) }

/-! ### What is written -/

/-- The mapping of a flow rule in a file. -/
def FlowRule.dump (rule : FlowRule) : Yaml :=
  let dest := match rule.dest with
    | .any => (Scalar.str "dest", Yaml.str "any")
    | .network n => (Scalar.str "dest", Yaml.scalar n.value)
    | .dns qname _ => (Scalar.str "dest_dns", Yaml.str qname)
  .map [(.str "ptr", rule.ptr), (.str "proto", .str rule.proto.name), (.str "port", .str rule.port),
    (.str "action", .str rule.action.name), dest]

def DnsRule.dump (rule : DnsRule) : Yaml :=
  .map [(.str "qname", .str rule.qname), (.str "qtype", .str rule.qtype), (.str "action", .str rule.action.name)]

def RuleFile.dump (data : RuleFile) : List (Scalar × Yaml) :=
  [(.str "rules4", .seq (data.rules4.map FlowRule.dump)), (.str "dns", .seq (data.dns.map DnsRule.dump))]

/-! ### Canonical names -/

/-- The questions that a rule can be about, in the form in which rules hold them. -/
structure CanonicalQuestion (qname qtype : String) : Prop where
  stable : Py.lower (Py.rstrip '.' qname.toList) = qname.toList
  allowed : dnsRuleNameRefused qname.toList = false
  supported : qtype ∈ supportedDnsQtypes
  pattern : dnsRuleNameMatches qname.toList qtype

private theorem supported_text {qtype : String} (h : qtype ∈ supportedDnsQtypes) :
    Py.upper qtype.toList = qtype.toList ∧ "TYPE".toList.isPrefixOf qtype.toList = false ∧
      Py.isdigit qtype.toList = false ∧ qtype ≠ "AAAA" := by
  revert qtype
  decide +kernel

theorem upper_of_supported {qtype : String} (h : qtype ∈ supportedDnsQtypes) :
    Py.upper qtype.toList = qtype.toList := (supported_text h).1

theorem validateDnsRule_canonical (lib : DnsPython) (path : String) {qname qtype : String}
    (h : CanonicalQuestion qname qtype) :
    validateDnsRule lib path (.str qname) (.str qtype) = .ok (qname, qtype) := by
  obtain ⟨hupper, htype, hdigit, hne⟩ := supported_text h.supported
  obtain ⟨n, hn, hback⟩ := lib.supported_roundtrip qtype h.supported
  have hcanonical : dnsQtypeText lib n = qtype := by rw [dnsQtypeText, hback, String.ofList_toList]
  simp only [validateDnsRule, Yaml.str, Yaml.text, Scalar.text, h.stable, h.allowed, hupper, htype, hdigit,
    String.ofList_toList, hn, hcanonical, hne, h.supported, h.pattern]
  simp

/-- Lower case and the trailing dot are settled by the pattern of a name. -/
private theorem stable_of_matches {name : List Char} {qtype : String} (h : dnsRuleNameMatches name qtype) :
    Py.lower (Py.rstrip '.' name) = name := by
  unfold dnsRuleNameMatches at h
  split at h
  · rename_i hwild
    obtain ⟨rest, rfl⟩ := List.isPrefixOf_iff_prefix.1 hwild
    have hrest : LiveName rest := liveName_of_qnameRe h
    have hlast : ("*.".toList ++ rest).getLast? = rest.getLast? := by
      rw [List.getLast?_append]
      cases hr : rest.getLast? with
      | none => exact absurd hrest.dotted (by simp [List.getLast?_eq_none_iff.1 hr])
      | some c => rfl
    rw [Py.rstrip_eq_self (by rw [hlast]; exact hrest.last)]
    show Py.lower ("*.".toList ++ rest) = "*.".toList ++ rest
    rw [Py.lower, List.map_append, ← Py.lower, ← Py.lower, hrest.lower_eq]
    rfl
  · have hlive : LiveName name := by
      split at h
      · exact liveName_of_srvRe h
      · exact liveName_of_qnameRe h
    rw [hlive.rstrip_eq, hlive.lower_eq]

theorem validateDnsRule_ok {lib : DnsPython} {path : String} {value qtypeValue : Yaml} {qname qtype : String}
    (h : validateDnsRule lib path value qtypeValue = .ok (qname, qtype)) : CanonicalQuestion qname qtype := by
  unfold validateDnsRule at h
  split at h
  · dsimp only at h
    split at h
    · cases h
    · rename_i hrefused
      split at h
      · cases h
      split at h
      · cases h
      split at h
      · cases h
      rename_i hsupported
      split at h
      · cases h
      rename_i hpattern
      simp only [Bool.or_eq_true, decide_eq_true_eq, not_or, not_not] at hsupported
      have hpattern := Bool.of_not_eq_false (by simpa using hpattern)
      cases h
      refine ⟨?_, ?_, hsupported.2, ?_⟩
      · rw [String.toList_ofList]
        exact stable_of_matches hpattern
      · simpa using hrefused
      · simpa using hpattern
  · cases h

/-- A supported type stays what it is. -/
theorem validateDnsRule_qtype {lib : DnsPython} {path : String} {value : Yaml} {qname qtype qtype' : String}
    (hq : qtype ∈ supportedDnsQtypes) (h : validateDnsRule lib path value (.str qtype) = .ok (qname, qtype')) :
    qtype' = qtype := by
  obtain ⟨n, hn, hback⟩ := lib.supported_roundtrip qtype hq
  have hcanonical : dnsQtypeText lib n = qtype := by rw [dnsQtypeText, hback, String.ofList_toList]
  unfold validateDnsRule at h
  simp only [Yaml.str, Yaml.text, Scalar.text, upper_of_supported hq, String.ofList_toList, hn, hcanonical] at h
  split at h
  · iterate 4 (split at h; · cases h)
    cases h
    rfl
  · cases h

/-- The question of a classified DNS query is canonical and concrete. -/
theorem canonical_of_live {qname qtype : String} (hq : qtype ∈ supportedDnsQtypes)
    (h : liveDnsQnameSupported qname qtype) : CanonicalQuestion qname qtype ∧ isWildcard qname.toList = false := by
  have hlive := liveName_of_supported h
  have hwild : isWildcard qname.toList = false := hlive.not_wildcard
  have htwo : ¬ (Py.split '.' qname.toList).length < 2 := by
    have := hlive.two_labels
    omega
  unfold liveDnsQnameSupported at h
  dsimp only at h
  split at h
  · cases h
  · rename_i hallowed
    refine ⟨⟨by rw [hlive.rstrip_eq, hlive.lower_eq], ?_, hq, ?_⟩, hwild⟩
    · simp only [dnsRuleNameRefused, hwild, Bool.false_eq_true, if_false, htwo, decide_false, Bool.or_false]
      simpa using hallowed
    · simpa only [dnsRuleNameMatches, hwild, Bool.false_eq_true, if_false] using h

/-! ### Accepted files -/

/-- A destination as it is written, without the addresses. -/
def Dest.stored : Dest → Dest
  | dns qname _ => dns qname none
  | dest => dest

def FlowRule.stored (rule : FlowRule) : FlowRule := { rule with dest := rule.dest.stored }

/-- What the checks of a flow rule leave open about it. -/
structure FlowRule.Valid (sv : Services) (rule : FlowRule) : Prop where
  port : ∃ p, normalizePort sv (.str rule.port) rule.proto = .ok p
  icmp : rule.proto = .icmp → rule.port = "any"
  name : ∀ qname resolved, rule.dest = .dns qname resolved →
    CanonicalQuestion qname "A" ∧ isWildcard qname.toList = false

/-- What a rule file has of the rules of its source. -/
def SourceRules.stored (rules : SourceRules) : RuleFile := ⟨rules.ip.map FlowRule.stored, rules.dns⟩

@[simp] theorem FlowRule.stored_stored (rule : FlowRule) : rule.stored.stored = rule.stored := by
  rcases rule with ⟨ptr, _ | _ | _, proto, port, action⟩ <;> rfl

theorem FlowRule.valid_stored {sv : Services} {rule : FlowRule} : rule.stored.Valid sv ↔ rule.Valid sv := by
  rcases rule with ⟨ptr, dest, proto, port, action⟩
  constructor
  · rintro ⟨hport, hicmp, hname⟩
    refine ⟨hport, hicmp, fun qname resolved hdest => hname qname none ?_⟩
    obtain rfl : dest = .dns qname resolved := hdest
    rfl
  · rintro ⟨hport, hicmp, hname⟩
    refine ⟨hport, hicmp, fun qname resolved hdest => ?_⟩
    cases dest with
    | any => cases hdest
    | network n => cases hdest
    | dns name ips =>
      cases hdest
      exact hname _ ips rfl

structure RuleFile.Valid (sv : Services) (data : RuleFile) : Prop where
  rules4 : ∀ rule ∈ data.rules4, rule.Valid sv ∧ rule.stored = rule
  dns : ∀ rule ∈ data.dns, CanonicalQuestion rule.qname rule.qtype

theorem validateDestDnsName_ok {lib : DnsPython} {path qname : String} {value : Yaml}
    (h : validateDestDnsName lib path value = .ok qname) :
    CanonicalQuestion qname "A" ∧ isWildcard qname.toList = false := by
  obtain ⟨⟨name, qtype⟩, hrule, h⟩ := Except.exists_of_bind_eq_ok h
  dsimp only at h
  split at h
  · cases h
  · rename_i hwild
    cases h
    have hqtype : qtype = "A" := validateDnsRule_qtype (by decide) hrule
    exact ⟨hqtype ▸ validateDnsRule_ok hrule, by simpa using hwild⟩

theorem validateDestDnsName_canonical (lib : DnsPython) (path : String) {qname : String}
    (h : CanonicalQuestion qname "A") (hw : isWildcard qname.toList = false) :
    validateDestDnsName lib path (.str qname) = .ok qname := by
  unfold validateDestDnsName
  rw [validateDnsRule_canonical lib path h]
  simp [bind, Except.bind, hw]

private theorem validatePort_ok {sv : Services} {path port : String} {proto : FlowProto} {u : Unit}
    (h : validatePort sv path proto port = .ok u) :
    (∃ p, normalizePort sv (.str port) proto = .ok p) ∧ (proto = .icmp → port = "any") := by
  unfold validatePort at h
  split at h
  · cases h
  · rename_i hicmp
    split at h
    · rename_i p hp
      refine ⟨⟨p, hp⟩, ?_⟩
      simpa using hicmp
    · cases h

theorem validateNetwork_stored {path : String} {value : Yaml} {dest : Dest}
    (h : validateNetwork path value = .ok dest) : (dest = .any ∨ ∃ n, dest = .network n) := by
  unfold validateNetwork at h
  split at h
  · split at h
    · cases h
      exact Or.inl rfl
    · split at h
      · cases h
      · cases h
      · split at h
        · cases h
        · cases h
          exact Or.inr ⟨_, rfl⟩
  · cases h

private theorem validateDestDns_ok {lib : DnsPython} {path qname : String} {entries : List (Scalar × Yaml)}
    (h : validateDestDns lib path entries = .ok (some qname)) :
    CanonicalQuestion qname "A" ∧ isWildcard qname.toList = false := by
  unfold validateDestDns at h
  split at h
  · obtain ⟨name, hname, h⟩ := Except.exists_of_bind_eq_ok h
    cases h
    exact validateDestDnsName_ok hname
  · cases h

/-- An accepted flow rule is valid and carries no addresses. -/
theorem validateFlowRule_valid {sv : Services} {lib : DnsPython} {path : String} {value : Yaml} {rule : FlowRule}
    (h : validateFlowRule sv lib path value = .ok rule) : rule.Valid sv ∧ rule.stored = rule := by
  unfold validateFlowRule at h
  split at h
  · split at h
    · cases h
    · obtain ⟨_, -, h⟩ := Except.exists_of_bind_eq_ok h
      obtain ⟨action, -, h⟩ := Except.exists_of_bind_eq_ok h
      obtain ⟨destDns, hdns, h⟩ := Except.exists_of_bind_eq_ok h
      obtain ⟨_, -, h⟩ := Except.exists_of_bind_eq_ok h
      obtain ⟨proto, -, h⟩ := Except.exists_of_bind_eq_ok h
      obtain ⟨_, -, h⟩ := Except.exists_of_bind_eq_ok h
      obtain ⟨port, -, h⟩ := Except.exists_of_bind_eq_ok h
      obtain ⟨dest, hdest, h⟩ := Except.exists_of_bind_eq_ok h
      obtain ⟨_, hport, h⟩ := Except.exists_of_bind_eq_ok h
      obtain ⟨ptr, -, h⟩ := Except.exists_of_bind_eq_ok h
      cases h
      obtain ⟨hnorm, hicmp⟩ := validatePort_ok hport
      cases destDns with
      | some qname =>
        cases hdest
        refine ⟨⟨hnorm, hicmp, ?_⟩, rfl⟩
        intro qname' resolved he
        cases he
        exact validateDestDns_ok hdns
      | none =>
        rcases validateNetwork_stored hdest with rfl | ⟨n, rfl⟩
        · exact ⟨⟨hnorm, hicmp, fun _ _ he => by cases he⟩, rfl⟩
        · exact ⟨⟨hnorm, hicmp, fun _ _ he => by cases he⟩, rfl⟩
  · cases h

theorem validateNetwork_value (path : String) (n : NetworkText) :
    validateNetwork path (.scalar n.value) = .ok (.network n) := by
  have hnone : ipNetwork "any".toList = none := by decide +kernel
  have hany : n.value ≠ .str "any" := by
    intro h
    have := n.parses
    rw [h, Scalar.text, hnone] at this
    cases this
  simp only [validateNetwork, hany, if_false]
  split
  · rename_i h
    rw [n.parses] at h
    cases h
  · rename_i h
    rw [n.parses] at h
    cases h
  · rename_i cidr h
    rw [n.parses] at h
    cases h
    simp [n.narrow]

theorem validateAction_name (path error : String) (action : Action) :
    validateAction path error (.scalar (.str action.name)) = .ok action := by
  simp [validateAction, Yaml.str?]

theorem validateProto_name (path : String) (proto : FlowProto) :
    validateProto path (.scalar (.str proto.name)) = .ok proto := by
  have hdigit : Py.isdigit proto.name.toList = false := by cases proto <;> decide +kernel
  simp [validateProto, Yaml.text, Scalar.text, hdigit]

private theorem validatePort_valid {sv : Services} (path : String) {rule : FlowRule} (h : rule.Valid sv) :
    validatePort sv path rule.proto rule.port = .ok () := by
  obtain ⟨p, hp⟩ := h.port
  have hicmp : ¬ (rule.proto = .icmp ∧ rule.port ≠ "any") := fun hne => hne.2 (h.icmp hne.1)
  simp [validatePort, hp, hicmp]

/-- A flow rule is read as what its entries are read as. -/
theorem validateFlowRule_entries {sv : Services} {lib : DnsPython} {path : String} {rule : FlowRule}
    {entries : List (Scalar × Yaml)} {destDns : Option String} {destValue : Yaml}
    (hkeys : flowRuleKeys (entries.map Prod.fst) = true)
    (hitems : ∀ item ∈ [("ptr", rule.ptr), ("proto", .str rule.proto.name), ("port", .str rule.port),
      ("action", .str rule.action.name)], getItem entries item.1 = .ok item.2)
    (hname : validateDestDns lib path entries = .ok destDns)
    (hvalue : (lookupKey entries "dest").getD (.str (destDns.getD "")) = destValue)
    (hscalar : destValue.isList = false) (hdest : flowRuleDest path destDns destValue = .ok rule.dest)
    (hport : validatePort sv path rule.proto rule.port = .ok ()) :
    validateFlowRule sv lib path (.map entries) = .ok rule := by
  simp only [List.forall_mem_cons, List.not_mem_nil, false_implies, implies_true, and_true] at hitems
  obtain ⟨hptr, hproto, htext, haction⟩ := hitems
  have hport' : validatePortText path destValue (.str rule.port) = .ok rule.port := by
    unfold validatePortText
    rw [hscalar]
    rfl
  have hproto' : validateProto path (.str rule.proto.name) = .ok rule.proto := validateProto_name path rule.proto
  have haction' : validateAction path ": invalid action: " (.str rule.action.name) = .ok rule.action :=
    validateAction_name path _ rule.action
  simp only [validateFlowRule, hkeys, hptr, hproto, htext, haction, hname, hvalue, hdest, hport, hport', hproto',
    haction', bind, Except.bind]
  rfl

/-- A written flow rule is read back, without the addresses of its name. -/
theorem validateFlowRule_dump {sv : Services} (lib : DnsPython) (path : String) {rule : FlowRule}
    (h : rule.Valid sv) : validateFlowRule sv lib path rule.dump = .ok rule.stored := by
  have hport := validatePort_valid path h
  rcases rule with ⟨ptr, dest, proto, port, action⟩
  cases dest with
  | any => exact validateFlowRule_entries rfl (by simp [getItem, lookupKey, FlowRule.stored]) rfl rfl rfl rfl hport
  | network n =>
    exact validateFlowRule_entries rfl (by simp [getItem, lookupKey, FlowRule.stored]) rfl rfl rfl
      (validateNetwork_value path n) hport
  | dns qname resolved =>
    obtain ⟨hname, hwild⟩ := h.name qname resolved rfl
    have hread : validateDestDns lib path [(.str "dest_dns", .str qname)] = .ok (some qname) := by
      show (validateDestDnsName lib path (.str qname) >>= fun name => pure (some name)) = _
      rw [validateDestDnsName_canonical lib path hname hwild]
      rfl
    exact validateFlowRule_entries rfl (by simp [getItem, lookupKey, FlowRule.stored]) hread rfl rfl rfl hport

theorem validateDnsEntry_canonical {lib : DnsPython} {path : String} {value : Yaml} {rule : DnsRule}
    (h : validateDnsEntry lib path value = .ok rule) : CanonicalQuestion rule.qname rule.qtype := by
  unfold validateDnsEntry at h
  split at h
  · dsimp only at h
    split at h
    · cases h
    · obtain ⟨_, -, h⟩ := Except.exists_of_bind_eq_ok h
      obtain ⟨_, -, h⟩ := Except.exists_of_bind_eq_ok h
      obtain ⟨_, -, h⟩ := Except.exists_of_bind_eq_ok h
      obtain ⟨_, -, h⟩ := Except.exists_of_bind_eq_ok h
      obtain ⟨⟨qname, qtype⟩, hrule, h⟩ := Except.exists_of_bind_eq_ok h
      cases h
      exact validateDnsRule_ok hrule
  · cases h

theorem validateDnsEntry_dump (lib : DnsPython) (path : String) {rule : DnsRule}
    (h : CanonicalQuestion rule.qname rule.qtype) : validateDnsEntry lib path rule.dump = .ok rule := by
  have hback := validateDnsRule_canonical lib path h
  rw [Yaml.str, Yaml.str] at hback
  simp [validateDnsEntry, DnsRule.dump, getItem, lookupKey, validateAction_name, Yaml.str, hback, bind, Except.bind,
    pure, Except.pure]

/-- An accepted file is valid. -/
theorem validateRuleFile_valid {sv : Services} {lib : DnsPython} {path : String} {entries : List (Scalar × Yaml)}
    {data : RuleFile} (h : validateRuleFile sv lib path entries = .ok data) : data.Valid sv := by
  unfold validateRuleFile at h
  dsimp only at h
  split at h
  · cases h
  · obtain ⟨rules4, -, h⟩ := Except.exists_of_bind_eq_ok h
    obtain ⟨dns, -, h⟩ := Except.exists_of_bind_eq_ok h
    obtain ⟨flows, hflows, h⟩ := Except.exists_of_bind_eq_ok h
    obtain ⟨questions, hquestions, h⟩ := Except.exists_of_bind_eq_ok h
    cases h
    constructor
    · intro rule hrule
      obtain ⟨value, -, hvalue⟩ := Except.exists_of_mem_mapM hflows hrule
      exact validateFlowRule_valid hvalue
    · intro rule hrule
      obtain ⟨value, -, hvalue⟩ := Except.exists_of_mem_mapM hquestions hrule
      exact validateDnsEntry_canonical hvalue

/-- A valid file is read back as it was written. -/
theorem validateRuleFile_dump {sv : Services} (lib : DnsPython) (path : String) {data : RuleFile}
    (h : data.Valid sv) : validateRuleFile sv lib path data.dump = .ok data := by
  have hrules4 : (data.rules4.map FlowRule.dump).mapM (validateFlowRule sv lib path) = .ok data.rules4 := by
    rw [Except.mapM_eq_ok_iff, List.forall₂_map_left_iff, List.forall₂_same]
    intro rule hrule
    rw [validateFlowRule_dump lib path (h.rules4 rule hrule).1, (h.rules4 rule hrule).2]
  have hdns : (data.dns.map DnsRule.dump).mapM (validateDnsEntry lib path) = .ok data.dns := by
    rw [Except.mapM_eq_ok_iff, List.forall₂_map_left_iff, List.forall₂_same]
    exact fun rule hrule => validateDnsEntry_dump lib path (h.dns rule hrule)
  simp [validateRuleFile, RuleFile.dump, ruleList, getItem, lookupKey, bind, Except.bind, hrules4, hdns, pure,
    Except.pure]

end QubesSnitch
