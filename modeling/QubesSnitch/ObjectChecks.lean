import QubesSnitch.RuleObjects

/-!
# The checks that rewrite

`validate_rule_file` checks the rules of a file and writes names, types and protocols back in the form in which live
questions have them.  An accepted rule `settle`s: it is read as before, and settling again changes nothing, so that a
rule may be in a file twice.
-/

namespace QubesSnitch

variable {sv : Services} {lib : DnsPython} {path : String}

/-! ### Keys -/

theorem keys_setKey {entries : List (Scalar × Yaml)} {key : String} (value : Yaml)
    (h : Scalar.str key ∈ entries.map Prod.fst) : (setKey entries key value).map Prod.fst = entries.map Prod.fst := by
  rw [setKey, if_pos h, List.map_map]
  refine List.map_congr_left fun e _ => ?_
  simp only [Function.comp_apply]
  split <;> rfl

theorem lookupKey_setKey {entries : List (Scalar × Yaml)} {key : String} (value : Yaml)
    (h : Scalar.str key ∈ entries.map Prod.fst) (key' : String) :
    lookupKey (setKey entries key value) key' = if key' = key then some value else lookupKey entries key' := by
  rw [setKey, if_pos h, lookupKey, List.find?_map]
  have hkey : ((fun e : Scalar × Yaml => decide (e.1 = .str key')) ∘
      fun e => if e.1 = .str key then (e.1, value) else e) = fun e => decide (e.1 = .str key') := by
    funext e
    simp only [Function.comp_apply]
    split <;> rfl
  rw [hkey]
  by_cases heq : key' = key
  · subst heq
    obtain ⟨e, he, hfst⟩ := List.mem_map.1 h
    have hsome : (entries.find? fun e => decide (e.1 = .str key')).isSome := by
      rw [List.find?_isSome]
      exact ⟨e, he, by simpa using hfst⟩
    obtain ⟨found, hfound⟩ := Option.isSome_iff_exists.1 hsome
    have hkey' : found.1 = .str key' := by simpa using List.find?_some hfound
    simp [hfound, hkey']
  · rw [if_neg heq, lookupKey]
    cases hfound : entries.find? fun e => decide (e.1 = .str key') with
    | none => rfl
    | some found =>
      have hkey' : found.1 = .str key' := by simpa using List.find?_some hfound
      simp [hkey', heq]

theorem getItem_setKey_self {entries : List (Scalar × Yaml)} {key : String} (value : Yaml)
    (h : Scalar.str key ∈ entries.map Prod.fst) : getItem (setKey entries key value) key = .ok value := by
  rw [getItem, lookupKey_setKey value h, if_pos rfl]

theorem getItem_setKey_of_ne {entries : List (Scalar × Yaml)} {key key' : String} (value : Yaml)
    (h : Scalar.str key ∈ entries.map Prod.fst) (hne : key' ≠ key) :
    getItem (setKey entries key value) key' = getItem entries key' := by
  rw [getItem, lookupKey_setKey value h, if_neg hne, ← getItem]

theorem mem_keys_of_getItem {entries : List (Scalar × Yaml)} {key : String} {value : Yaml}
    (h : getItem entries key = .ok value) : Scalar.str key ∈ entries.map Prod.fst := by
  unfold getItem lookupKey at h
  cases hfound : entries.find? fun e => decide (e.1 = .str key) with
  | none => simp [hfound] at h
  | some found =>
    have hkey : found.1 = .str key := by simpa using List.find?_some hfound
    exact List.mem_map.2 ⟨found, List.mem_of_find?_eq_some hfound, hkey⟩

/-- All values of the key are `value`. -/
def HasKey (entries : List (Scalar × Yaml)) (key : String) (value : Yaml) : Prop :=
  Scalar.str key ∈ entries.map Prod.fst ∧ ∀ e ∈ entries, e.1 = .str key → e.2 = value

theorem hasKey_setKey {entries : List (Scalar × Yaml)} {key : String} (value : Yaml)
    (h : Scalar.str key ∈ entries.map Prod.fst) : HasKey (setKey entries key value) key value := by
  refine ⟨by rw [keys_setKey value h]; exact h, fun e he hkey => ?_⟩
  rw [setKey, if_pos h] at he
  obtain ⟨e', -, rfl⟩ := List.mem_map.1 he
  split at hkey
  case isTrue hk => rw [if_pos hk]
  case isFalse hk => exact absurd hkey hk

theorem HasKey.setKey_of_ne {entries : List (Scalar × Yaml)} {key key' : String} {value value' : Yaml}
    (h : HasKey entries key value) (h' : Scalar.str key' ∈ entries.map Prod.fst) (hne : key ≠ key') :
    HasKey (setKey entries key' value') key value := by
  refine ⟨by rw [keys_setKey value' h']; exact h.1, fun e he hkey => ?_⟩
  rw [setKey, if_pos h'] at he
  obtain ⟨e', he', rfl⟩ := List.mem_map.1 he
  split at hkey
  case isTrue hk =>
    rw [hk] at hkey
    exact absurd (Scalar.str.inj hkey).symm hne
  case isFalse hk =>
    rw [if_neg hk]
    exact h.2 e' he' hkey

theorem HasKey.setKey_eq {entries : List (Scalar × Yaml)} {key : String} {value : Yaml}
    (h : HasKey entries key value) : setKey entries key value = entries := by
  rw [setKey, if_pos h.1]
  conv_rhs => rw [← List.map_id entries]
  refine List.map_congr_left fun e he => ?_
  split
  case isTrue hk => exact Prod.ext rfl (h.2 e he hk).symm
  case isFalse hk => rfl

theorem lookupKey_eq_none_iff {entries : List (Scalar × Yaml)} {key : String} :
    lookupKey entries key = none ↔ Scalar.str key ∉ entries.map Prod.fst := by
  rw [lookupKey, Option.map_eq_none_iff, List.find?_eq_none]
  simp only [decide_eq_true_eq, List.mem_map, not_exists, not_and]

theorem getItem_eq_ok_iff {entries : List (Scalar × Yaml)} {key : String} {value : Yaml} :
    getItem entries key = .ok value ↔ lookupKey entries key = some value := by
  unfold getItem
  cases lookupKey entries key <;> simp

theorem mem_keys_of_lookupKey {entries : List (Scalar × Yaml)} {key : String} {value : Yaml}
    (h : lookupKey entries key = some value) : Scalar.str key ∈ entries.map Prod.fst :=
  mem_keys_of_getItem (getItem_eq_ok_iff.2 h)

/-! ### Flow rules -/

/-- The entry that a destination is read from. -/
inductive DestEntry (lib : DnsPython) (path : String) (entries : List (Scalar × Yaml)) : Dest → Prop
  | name {value : Yaml} {qname : String} (hname : lookupKey entries "dest_dns" = some value)
      (hdest : lookupKey entries "dest" = none) (h : validateDestDnsName lib path value = .ok qname) :
      DestEntry lib path entries (.dns qname none)
  | network {value : Yaml} {dest : Dest} (hname : lookupKey entries "dest_dns" = none)
      (hdest : lookupKey entries "dest" = some value) (hscalar : value.isList = false)
      (h : validateNetwork path value = .ok dest) : DestEntry lib path entries dest

/-- What an accepted flow rule says about its entries. -/
structure FlowEntries (sv : Services) (lib : DnsPython) (path : String) (entries : List (Scalar × Yaml))
    (rule : FlowRule) : Prop where
  keys : flowRuleKeys (entries.map Prod.fst) = true
  ptr : getItem entries "ptr" = .ok rule.ptr
  action : getItem entries "action" = .ok (.str rule.action.name)
  proto : ∃ value, getItem entries "proto" = .ok value ∧ validateProto path value = .ok rule.proto
  port : getItem entries "port" = .ok (.str rule.port)
  dest : DestEntry lib path entries rule.dest
  valid : validatePort sv path rule.proto rule.port = .ok ()

theorem validateAction_eq_ok {path error : String} {value : Yaml} {action : Action}
    (h : validateAction path error value = .ok action) : value = .str action.name := by
  unfold validateAction at h
  split at h
  case h_2 => cases h
  case h_1 found hfound =>
    cases h
    obtain ⟨text, htext, hname⟩ := Option.bind_eq_some_iff.1 hfound
    have hvalue : value = .str text := by
      cases value with
      | scalar s => cases s <;> simp_all [Yaml.str?, Yaml.str]
      | seq items => cases htext
      | map entries => cases htext
    rw [hvalue, Action.ofName?_eq_some hname]

theorem validatePortText_eq_ok {dest port : Yaml} {text : String} (h : validatePortText path dest port = .ok text) :
    dest.isList = false ∧ port = .str text := by
  unfold validatePortText at h
  split at h
  · cases h
  · rename_i hlist
    split at h
    · rename_i found hfound
      cases h
      refine ⟨by simp_all, ?_⟩
      cases port with
      | scalar s => cases s <;> simp_all [Yaml.str?, Yaml.str]
      | seq items => cases hfound
      | map entries => cases hfound
    · cases h

/-- Exactly one of the keys of a destination is there. -/
theorem dest_keys {entries : List (Scalar × Yaml)} (h : flowRuleKeys (entries.map Prod.fst) = true) :
    (∃ value, lookupKey entries "dest_dns" = some value ∧ lookupKey entries "dest" = none) ∨
      ∃ value, lookupKey entries "dest_dns" = none ∧ lookupKey entries "dest" = some value := by
  have hone : (decide (Scalar.str "dest" ∈ entries.map Prod.fst) !=
      decide (Scalar.str "dest_dns" ∈ entries.map Prod.fst)) = true := by
    simp only [flowRuleKeys, Bool.and_eq_true] at h
    exact h.1.2
  by_cases hdest : Scalar.str "dest" ∈ entries.map Prod.fst
  · have hname : Scalar.str "dest_dns" ∉ entries.map Prod.fst := by simpa [hdest] using hone
    obtain ⟨value, hvalue⟩ := Option.ne_none_iff_exists'.1 fun hnone => lookupKey_eq_none_iff.1 hnone hdest
    exact .inr ⟨value, lookupKey_eq_none_iff.2 hname, hvalue⟩
  · have hname : Scalar.str "dest_dns" ∈ entries.map Prod.fst := by simpa [hdest] using hone
    obtain ⟨value, hvalue⟩ := Option.ne_none_iff_exists'.1 fun hnone => lookupKey_eq_none_iff.1 hnone hname
    exact .inl ⟨value, hvalue, lookupKey_eq_none_iff.2 hdest⟩

theorem FlowEntries.of_ok {entries : List (Scalar × Yaml)} {rule : FlowRule}
    (h : validateFlowRule sv lib path (.map entries) = .ok rule) : FlowEntries sv lib path entries rule := by
  unfold validateFlowRule at h
  dsimp only at h
  split at h
  · cases h
  · rename_i hkeys
    have hkeys : flowRuleKeys (entries.map Prod.fst) = true := by simpa using hkeys
    obtain ⟨actionValue, hactionItem, h⟩ := Except.exists_of_bind_eq_ok h
    obtain ⟨action, haction, h⟩ := Except.exists_of_bind_eq_ok h
    obtain ⟨destDns, hname, h⟩ := Except.exists_of_bind_eq_ok h
    obtain ⟨protoValue, hprotoItem, h⟩ := Except.exists_of_bind_eq_ok h
    obtain ⟨proto, hproto, h⟩ := Except.exists_of_bind_eq_ok h
    obtain ⟨portValue, hportItem, h⟩ := Except.exists_of_bind_eq_ok h
    obtain ⟨port, hport, h⟩ := Except.exists_of_bind_eq_ok h
    obtain ⟨dest, hdest, h⟩ := Except.exists_of_bind_eq_ok h
    obtain ⟨_, hvalid, h⟩ := Except.exists_of_bind_eq_ok h
    obtain ⟨ptr, hptr, h⟩ := Except.exists_of_bind_eq_ok h
    cases h
    obtain ⟨hscalar, hportValue⟩ := validatePortText_eq_ok hport
    refine ⟨hkeys, hptr, validateAction_eq_ok haction ▸ hactionItem, ⟨protoValue, hprotoItem, hproto⟩,
      hportValue ▸ hportItem, ?_, hvalid⟩
    rcases dest_keys hkeys with ⟨value, hthere, hgone⟩ | ⟨value, hgone, hthere⟩
    · rw [validateDestDns, hthere] at hname
      obtain ⟨qname, hqname, hname⟩ := Except.exists_of_bind_eq_ok hname
      cases hname
      cases hdest
      exact .name hthere hgone hqname
    · rw [validateDestDns, hgone] at hname
      cases hname
      rw [hthere] at hscalar hdest
      exact .network hgone hthere hscalar hdest

/-- How a destination is read from its entry. -/
theorem DestEntry.read {entries : List (Scalar × Yaml)} {dest : Dest} (h : DestEntry lib path entries dest) :
    ∃ destDns, validateDestDns lib path entries = .ok destDns ∧
      ((lookupKey entries "dest").getD (.str (destDns.getD ""))).isList = false ∧
      flowRuleDest path destDns ((lookupKey entries "dest").getD (.str (destDns.getD ""))) = .ok dest := by
  cases h with
  | @name value qname hthere hgone hqname =>
    refine ⟨some qname, ?_, by rw [hgone]; rfl, rfl⟩
    rw [validateDestDns, hthere]
    simp only [hqname, bind, Except.bind]
    rfl
  | network hgone hthere hscalar hnetwork =>
    exact ⟨none, by rw [validateDestDns, hgone]; rfl, by rw [hthere]; exact hscalar, by rw [hthere]; exact hnetwork⟩

/-- A rule with such entries is accepted. -/
theorem FlowEntries.accepted {entries : List (Scalar × Yaml)} {rule : FlowRule}
    (h : FlowEntries sv lib path entries rule) : validateFlowRule sv lib path (.map entries) = .ok rule := by
  obtain ⟨value, hproto, hvalue⟩ := h.proto
  have haction : validateAction path ": invalid action: " (.str rule.action.name) = .ok rule.action :=
    validateAction_name path _ rule.action
  obtain ⟨destDns, hname, hscalar, hdest⟩ := h.dest.read
  have hport : validatePortText path ((lookupKey entries "dest").getD (.str (destDns.getD ""))) (.str rule.port) =
      .ok rule.port := by
    unfold validatePortText
    rw [hscalar]
    rfl
  simp only [validateFlowRule, h.keys, h.ptr, h.action, haction, hproto, hvalue, h.port, hname, hport, hdest, h.valid,
    bind, Except.bind]
  rfl

/-- The entries with the name of the destination written back. -/
def nameEntries (entries : List (Scalar × Yaml)) : Dest → List (Scalar × Yaml)
  | .dns qname _ => setKey entries "dest_dns" (.str qname)
  | _ => entries

/-- The entries of an accepted flow rule after the check. -/
def flowEntries (entries : List (Scalar × Yaml)) (rule : FlowRule) : List (Scalar × Yaml) :=
  setKey (nameEntries entries rule.dest) "proto" (.str rule.proto.name)

theorem DestEntry.of_lookupKey {entries entries' : List (Scalar × Yaml)} {dest : Dest}
    (h : DestEntry lib path entries dest) (hname : lookupKey entries' "dest_dns" = lookupKey entries "dest_dns")
    (hdest : lookupKey entries' "dest" = lookupKey entries "dest") : DestEntry lib path entries' dest := by
  cases h with
  | name hthere hgone hqname => exact .name (hname.trans hthere) (hdest.trans hgone) hqname
  | network hgone hthere hscalar hnetwork =>
    exact .network (hname.trans hgone) (hdest.trans hthere) hscalar hnetwork

/-- Writing the name back leaves the other keys alone. -/
theorem DestEntry.nameEntries {entries : List (Scalar × Yaml)} {dest : Dest} (h : DestEntry lib path entries dest) :
    (nameEntries entries dest).map Prod.fst = entries.map Prod.fst ∧
      (∀ key ≠ "dest_dns", lookupKey (nameEntries entries dest) key = lookupKey entries key) ∧
      DestEntry lib path (nameEntries entries dest) dest := by
  cases h with
  | @name value qname hthere hgone hqname =>
    have hmem := mem_keys_of_lookupKey hthere
    have hother : ∀ key ≠ "dest_dns",
        lookupKey (setKey entries "dest_dns" (.str qname)) key = lookupKey entries key :=
      fun key hne => by rw [lookupKey_setKey _ hmem, if_neg hne]
    obtain ⟨hcanonical, hwild⟩ := validateDestDnsName_ok hqname
    refine ⟨keys_setKey _ hmem, hother, .name ?_ ?_ (validateDestDnsName_canonical lib path hcanonical hwild)⟩
    · rw [QubesSnitch.nameEntries, lookupKey_setKey _ hmem, if_pos rfl]
    · rw [QubesSnitch.nameEntries, hother "dest" (by decide), hgone]
  | network hgone hthere hscalar hnetwork =>
    have hsame : QubesSnitch.nameEntries entries dest = entries := by
      rcases validateNetwork_stored hnetwork with rfl | ⟨n, rfl⟩ <;> rfl
    rw [hsame]
    exact ⟨rfl, fun _ _ => rfl, .network hgone hthere hscalar hnetwork⟩

theorem FlowEntries.proto_mem {entries : List (Scalar × Yaml)} {rule : FlowRule}
    (h : FlowEntries sv lib path entries rule) :
    Scalar.str "proto" ∈ (nameEntries entries rule.dest).map Prod.fst := by
  obtain ⟨value, hproto, -⟩ := h.proto
  rw [h.dest.nameEntries.1]
  exact mem_keys_of_getItem hproto

/-- The entries after the check have the same keys and are read as before. -/
theorem FlowEntries.settled {entries : List (Scalar × Yaml)} {rule : FlowRule}
    (h : FlowEntries sv lib path entries rule) :
    (flowEntries entries rule).map Prod.fst = entries.map Prod.fst ∧
      FlowEntries sv lib path (flowEntries entries rule) rule := by
  obtain ⟨hkeys, hother, hdest⟩ := h.dest.nameEntries
  have hmem := h.proto_mem
  have hkeys' : (flowEntries entries rule).map Prod.fst = entries.map Prod.fst := (keys_setKey _ hmem).trans hkeys
  have hitem : ∀ key value, key ≠ "dest_dns" → key ≠ "proto" → getItem entries key = .ok value →
      getItem (flowEntries entries rule) key = .ok value := by
    intro key value hname hproto hvalue
    rw [flowEntries, getItem_setKey_of_ne _ hmem hproto, getItem_eq_ok_iff, hother key hname]
    exact getItem_eq_ok_iff.1 hvalue
  refine ⟨hkeys', hkeys' ▸ h.keys, hitem _ _ (by decide) (by decide) h.ptr, hitem _ _ (by decide) (by decide) h.action,
    ⟨_, getItem_setKey_self _ hmem, validateProto_name path rule.proto⟩, hitem _ _ (by decide) (by decide) h.port, ?_,
    h.valid⟩
  have hlookup : ∀ key ≠ "proto",
      lookupKey (flowEntries entries rule) key = lookupKey (nameEntries entries rule.dest) key :=
    fun key hne => by rw [flowEntries, lookupKey_setKey _ hmem, if_neg hne]
  exact hdest.of_lookupKey (hlookup _ (by decide)) (hlookup _ (by decide))

/-- A second check writes what is there. -/
theorem FlowEntries.flowEntries_flowEntries {entries : List (Scalar × Yaml)} {rule : FlowRule}
    (h : FlowEntries sv lib path entries rule) :
    flowEntries (flowEntries entries rule) rule = flowEntries entries rule := by
  have hmem := h.proto_mem
  have hproto : HasKey (flowEntries entries rule) "proto" (.str rule.proto.name) := hasKey_setKey _ hmem
  have hname : nameEntries (flowEntries entries rule) rule.dest = flowEntries entries rule := by
    cases hdest : rule.dest with
    | any => rfl
    | network n => rfl
    | dns qname resolved =>
      have hentry := h.dest
      rw [hdest] at hentry
      have hthere : Scalar.str "dest_dns" ∈ entries.map Prod.fst := by
        cases hentry with
        | name hthere => exact mem_keys_of_lookupKey hthere
        | network _ _ _ hnetwork => rcases validateNetwork_stored hnetwork with hcase | ⟨n, hcase⟩ <;> cases hcase
      have hkey : HasKey (flowEntries entries rule) "dest_dns" (.str qname) := by
        rw [flowEntries, hdest]
        rw [hdest] at hmem
        exact (hasKey_setKey _ hthere).setKey_of_ne hmem (by decide)
      exact hkey.setKey_eq
  rw [flowEntries, hname]
  exact hproto.setKey_eq

/-! ### DNS rules -/

/-- Whether a DNS rule has exactly the keys of the schema. -/
def dnsRuleKeys (keys : List Scalar) : Bool :=
  keys.all (· ∈ ["qname", "qtype", "action"].map Scalar.str) &&
    (["qname", "qtype", "action"].map Scalar.str).all (· ∈ keys)

/-- What an accepted DNS rule says about its entries. -/
structure DnsEntries (lib : DnsPython) (path : String) (entries : List (Scalar × Yaml)) (rule : DnsRule) : Prop where
  keys : dnsRuleKeys (entries.map Prod.fst) = true
  action : getItem entries "action" = .ok (.str rule.action.name)
  question : ∃ qname qtype, getItem entries "qname" = .ok qname ∧ getItem entries "qtype" = .ok qtype ∧
    validateDnsRule lib path qname qtype = .ok (rule.qname, rule.qtype)

theorem DnsEntries.of_ok {entries : List (Scalar × Yaml)} {rule : DnsRule}
    (h : validateDnsEntry lib path (.map entries) = .ok rule) : DnsEntries lib path entries rule := by
  unfold validateDnsEntry at h
  dsimp only at h
  split at h
  · cases h
  · rename_i hkeys
    obtain ⟨actionValue, hactionItem, h⟩ := Except.exists_of_bind_eq_ok h
    obtain ⟨action, haction, h⟩ := Except.exists_of_bind_eq_ok h
    obtain ⟨qname, hqname, h⟩ := Except.exists_of_bind_eq_ok h
    obtain ⟨qtype, hqtype, h⟩ := Except.exists_of_bind_eq_ok h
    obtain ⟨question, hquestion, h⟩ := Except.exists_of_bind_eq_ok h
    cases h
    have hkeys : dnsRuleKeys (entries.map Prod.fst) = true := by
      simpa only [dnsRuleKeys, Bool.not_eq_true', Bool.not_eq_false] using hkeys
    exact ⟨hkeys, validateAction_eq_ok haction ▸ hactionItem, qname, qtype, hqname, hqtype, hquestion⟩

theorem DnsEntries.accepted {entries : List (Scalar × Yaml)} {rule : DnsRule}
    (h : DnsEntries lib path entries rule) : validateDnsEntry lib path (.map entries) = .ok rule := by
  obtain ⟨qname, qtype, hqname, hqtype, hquestion⟩ := h.question
  have hkeys := h.keys
  have haction : validateAction path ": invalid DNS action: " (.str rule.action.name) = .ok rule.action :=
    validateAction_name path _ rule.action
  unfold dnsRuleKeys at hkeys
  simp only [validateDnsEntry, hkeys, h.action, haction, hqname, hqtype, hquestion, bind, Except.bind]
  rfl

/-- The entries of an accepted DNS rule after the check. -/
def dnsEntries (entries : List (Scalar × Yaml)) (rule : DnsRule) : List (Scalar × Yaml) :=
  setKey (setKey entries "qname" (.str rule.qname)) "qtype" (.str rule.qtype)

theorem DnsEntries.settled {entries : List (Scalar × Yaml)} {rule : DnsRule} (h : DnsEntries lib path entries rule) :
    (dnsEntries entries rule).map Prod.fst = entries.map Prod.fst ∧
      DnsEntries lib path (dnsEntries entries rule) rule := by
  obtain ⟨qname, qtype, hqname, hqtype, hquestion⟩ := h.question
  have hmem := mem_keys_of_getItem hqname
  have hmem' : Scalar.str "qtype" ∈ (setKey entries "qname" (.str rule.qname)).map Prod.fst := by
    rw [keys_setKey _ hmem]
    exact mem_keys_of_getItem hqtype
  have hkeys : (dnsEntries entries rule).map Prod.fst = entries.map Prod.fst :=
    (keys_setKey _ hmem').trans (keys_setKey _ hmem)
  refine ⟨hkeys, hkeys ▸ h.keys, ?_, _, _, ?_, getItem_setKey_self _ hmem',
    validateDnsRule_canonical lib path (validateDnsRule_ok hquestion)⟩
  · rw [dnsEntries, getItem_setKey_of_ne _ hmem' (by decide), getItem_setKey_of_ne _ hmem (by decide), h.action]
  · rw [dnsEntries, getItem_setKey_of_ne _ hmem' (by decide), getItem_setKey_self _ hmem]

theorem DnsEntries.dnsEntries_dnsEntries {entries : List (Scalar × Yaml)} {rule : DnsRule}
    (h : DnsEntries lib path entries rule) : dnsEntries (dnsEntries entries rule) rule = dnsEntries entries rule := by
  obtain ⟨qname, qtype, hqname, hqtype, -⟩ := h.question
  have hmem := mem_keys_of_getItem hqname
  have hmem' : Scalar.str "qtype" ∈ (setKey entries "qname" (.str rule.qname)).map Prod.fst := by
    rw [keys_setKey _ hmem]
    exact mem_keys_of_getItem hqtype
  have hname : HasKey (dnsEntries entries rule) "qname" (.str rule.qname) :=
    (hasKey_setKey _ hmem).setKey_of_ne hmem' (by decide)
  have htype : HasKey (dnsEntries entries rule) "qtype" (.str rule.qtype) := hasKey_setKey _ hmem'
  rw [dnsEntries, hname.setKey_eq, htype.setKey_eq]

/-! ### Settled rules -/

/-- No mapping is both a flow rule and a DNS rule. -/
theorem DnsEntries.not_flow {entries : List (Scalar × Yaml)} {rule : DnsRule} {flow : FlowRule}
    (h : DnsEntries lib path entries rule) : ¬ FlowEntries sv lib path entries flow := by
  intro hflow
  have hall := h.keys
  rw [dnsRuleKeys, Bool.and_eq_true, List.all_eq_true] at hall
  have hptr := hall.1 _ (mem_keys_of_getItem hflow.ptr)
  simp at hptr

variable (sv lib path)

/-- A rule as an accepting check leaves it. -/
def RuleObject.settle (r : RuleObject) : RuleObject :=
  match validateFlowRule sv lib path (.map r.entries) with
  | .ok rule => { r with entries := flowEntries r.entries rule }
  | .error _ =>
    match validateDnsEntry lib path (.map r.entries) with
    | .ok rule => { r with entries := dnsEntries r.entries rule }
    | .error _ => r

variable {sv lib path}

theorem RuleObject.settle_of_flow {r : RuleObject} {rule : FlowRule}
    (h : validateFlowRule sv lib path (.map r.entries) = .ok rule) :
    r.settle sv lib path = { r with entries := flowEntries r.entries rule } := by rw [settle, h]

theorem RuleObject.settle_of_dns {r : RuleObject} {rule : DnsRule}
    (h : validateDnsEntry lib path (.map r.entries) = .ok rule) :
    r.settle sv lib path = { r with entries := dnsEntries r.entries rule } := by
  rw [settle]
  cases hflow : validateFlowRule sv lib path (.map r.entries) with
  | ok flow => exact absurd (FlowEntries.of_ok hflow) (DnsEntries.of_ok h).not_flow
  | error e => rw [h]

/-- A settled rule is accepted as the flow rule that it was before. -/
theorem RuleObject.settle_flow {r : RuleObject} {rule : FlowRule} :
    validateFlowRule sv lib path (.map (r.settle sv lib path).entries) = .ok rule ↔
      validateFlowRule sv lib path (.map r.entries) = .ok rule := by
  cases hflow : validateFlowRule sv lib path (.map r.entries) with
  | ok flow => rw [settle_of_flow hflow, (FlowEntries.of_ok hflow).settled.2.accepted]
  | error e =>
    cases hdns : validateDnsEntry lib path (.map r.entries) with
    | ok dns =>
      rw [settle_of_dns hdns]
      have hnot : validateFlowRule sv lib path (.map (dnsEntries r.entries dns)) ≠ .ok rule :=
        fun h => (DnsEntries.of_ok hdns).settled.2.not_flow (FlowEntries.of_ok h)
      simp [hnot]
    | error e' => simp [settle, hflow, hdns]

theorem RuleObject.settle_dns {r : RuleObject} {rule : DnsRule} :
    validateDnsEntry lib path (.map (r.settle sv lib path).entries) = .ok rule ↔
      validateDnsEntry lib path (.map r.entries) = .ok rule := by
  cases hflow : validateFlowRule sv lib path (.map r.entries) with
  | ok flow =>
    rw [settle_of_flow hflow]
    have hentries := FlowEntries.of_ok hflow
    exact ⟨fun h => absurd hentries.settled.2 (DnsEntries.of_ok h).not_flow,
      fun h => absurd hentries (DnsEntries.of_ok h).not_flow⟩
  | error e =>
    cases hdns : validateDnsEntry lib path (.map r.entries) with
    | ok dns => rw [settle_of_dns hdns, (DnsEntries.of_ok hdns).settled.2.accepted]
    | error e' => simp [settle, hflow, hdns]

theorem RuleObject.settle_settle (r : RuleObject) :
    (r.settle sv lib path).settle sv lib path = r.settle sv lib path := by
  cases hflow : validateFlowRule sv lib path (.map r.entries) with
  | ok flow =>
    rw [settle_of_flow (settle_flow.2 hflow), settle_of_flow hflow, (FlowEntries.of_ok hflow).flowEntries_flowEntries]
  | error e =>
    cases hdns : validateDnsEntry lib path (.map r.entries) with
    | ok dns =>
      rw [settle_of_dns (settle_dns.2 hdns), settle_of_dns hdns, (DnsEntries.of_ok hdns).dnsEntries_dnsEntries]
    | error e' => simp [settle, hflow, hdns]

end QubesSnitch
