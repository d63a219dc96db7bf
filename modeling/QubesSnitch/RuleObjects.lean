import QubesSnitch.PolicyRuntime

/-!
# Saving a decision, object by object

`append_rule` works on Python objects.  The loaded file and the next policy share the new rule, the checks of a file
rewrite its rules in place, and the policy in memory is a deep copy of the one before, until it is published.  Here the
rules, the lists of rules and the policy tables are cells of a heap with references between them; copying and loading put
a whole graph of cells behind the others.

Every operation may raise: `SaveIo.fault` says which ones do.
-/

namespace QubesSnitch

/-! ### Objects -/

/-- A rule mapping; `_resolved_dests` is kept apart from the keys of the file. -/
structure RuleObject where
  entries : List (Scalar × Yaml)
  resolvedDests : Option (List IPv4)

/-- An element of a list of rules: a rule, or a value that is no mapping. -/
inductive Item where
  | rule (address : Nat)
  | other (value : Yaml)

/-- `{"ip": ..., "dns": ...}` -/
structure SourceObject where
  ip : Nat
  dns : Nat

structure Heap where
  rules : List RuleObject
  lists : List (List Item)
  tables : List (Dict String SourceObject)

/-- A value of the mapping in a rule file: a list, or something else. -/
inductive Node where
  | list (address : Nat)
  | other (value : Yaml)

abbrev Data := List (Scalar × Node)

namespace Item

def shift (n : Nat) : Item → Item
  | rule address => rule (n + address)
  | other value => other value

/-- Whether the rule that is referred to is older than address `n`. -/
def Below (n : Nat) : Item → Prop
  | rule address => address < n
  | other _ => True

end Item

def SourceObject.shift (n : Nat) (o : SourceObject) : SourceObject := ⟨n + o.ip, n + o.dns⟩

def Node.shift (n : Nat) : Node → Node
  | list address => list (n + address)
  | other value => other value

/-- The value of an element. -/
inductive ItemValue where
  | rule (r : RuleObject)
  | other (value : Yaml)

def ItemValue.tree : ItemValue → Yaml
  | rule r => .map r.entries
  | other value => value

/-- The rules of a source, as values. -/
structure SourceValue where
  ip : List ItemValue
  dns : List ItemValue

namespace Heap

/-- The cells of `g` behind those of `h`. -/
def append (h g : Heap) : Heap where
  rules := h.rules ++ g.rules
  lists := h.lists ++ g.lists.map (·.map (Item.shift h.rules.length))
  tables := h.tables ++ g.tables.map (·.mapValues (SourceObject.shift h.lists.length))

variable (h : Heap)

def itemValue : Item → ItemValue
  | .rule address => (h.rules[address]?).elim (.other (.scalar .null)) .rule
  | .other value => .other value

def items (address : Nat) : List Item := (h.lists[address]?).getD []

def listValue (address : Nat) : List ItemValue := (h.items address).map h.itemValue

def sourceValue (o : SourceObject) : SourceValue := ⟨h.listValue o.ip, h.listValue o.dns⟩

def table (address : Nat) : Dict String SourceObject := (h.tables[address]?).getD .empty

/-- The policy table at an address, as a value. -/
def policy (address : Nat) : Dict String SourceValue := (h.table address).mapValues h.sourceValue

def nodeTree : Node → Yaml
  | .list address => .seq ((h.listValue address).map ItemValue.tree)
  | .other value => value

def dataTree (data : Data) : List (Scalar × Yaml) := data.map fun e => (e.1, h.nodeTree e.2)

end Heap

/-- What the YAML loader returns: the mapping of a file with its objects, of which some may be shared. -/
structure Graph where
  heap : Heap
  root : Data
  listed : ∀ e ∈ root, ∀ address, e.2 = .list address → address < heap.lists.length
  closed : ∀ items ∈ heap.lists, ∀ item ∈ items, item.Below heap.rules.length

/-! ### Operations -/

/-- The outside of `append_rule`: the resolver, `yaml.load`, which operations raise, and what a failed write leaves in
the temporary file. -/
structure SaveIo where
  resolver : Resolver
  load : String → RuleText → Except PyError Graph
  load_tree : ∀ path text, (load path text).map (fun g => g.heap.dataTree g.root) = readYaml path text
  fault : Nat → Option PyError
  torn : Nat → Option RuleText

/-- The memory, where `ctx.RULES` is in it, the rule files and the temporary files, and how many operations were done. -/
structure Store where
  heap : Heap
  rules : Nat
  rulesDir : RulesDir
  tmpFiles : Dict String RuleText
  clock : Nat

/-- `ctx.RULES` as a value. -/
def Store.policy (s : Store) : Dict String SourceValue := s.heap.policy s.rules

abbrev Save := EStateM PyError Store

variable (sv : Services) (lib : DnsPython) (io : SaveIo)

def tick : Save Unit := fun s =>
  match io.fault s.clock with
  | some e => .error e { s with clock := s.clock + 1 }
  | none => .ok () { s with clock := s.clock + 1 }

variable {α : Type}

/-- A computation on values. -/
def check (x : Except PyError α) : Save α := do
  tick io
  match x with
  | .ok a => return a
  | .error e => throw e

/-- An operation on the objects. -/
def alter (f : Heap → α × Heap) : Save α := do
  tick io
  fun s => .ok (f s.heap).1 { s with heap := (f s.heap).2 }

def newRule (r : RuleObject) : Save Nat := alter io fun h => (h.rules.length, { h with rules := h.rules ++ [r] })

def newList : Save Nat := alter io fun h => (h.lists.length, { h with lists := h.lists ++ [[]] })

def ruleAt (address : Nat) : Save RuleObject := alter io fun h => ((h.rules[address]?).getD ⟨[], none⟩, h)

def itemsAt (address : Nat) : Save (List Item) := alter io fun h => (h.items address, h)

def tableAt (address : Nat) : Save (Dict String SourceObject) := alter io fun h => (h.table address, h)

/-- `entries[key] = value` -/
def setKey (entries : List (Scalar × Yaml)) (key : String) (value : Yaml) : List (Scalar × Yaml) :=
  if Scalar.str key ∈ entries.map Prod.fst then entries.map fun e => if e.1 = .str key then (e.1, value) else e
  else entries ++ [(.str key, value)]

def Heap.setItem (h : Heap) (address : Nat) (key : String) (value : Yaml) : Heap :=
  { h with rules := h.rules.modify address fun r => { r with entries := setKey r.entries key value } }

/-- `rule[key] = value` -/
def setItem (address : Nat) (key : String) (value : Yaml) : Save Unit :=
  alter io fun h => ((), h.setItem address key value)

def setResolvedDests (address : Nat) (ips : List IPv4) : Save Unit :=
  alter io fun h => ((), { h with rules := h.rules.modify address fun r => { r with resolvedDests := some ips } })

/-- `list.append(item)` -/
def appendItem (address : Nat) (item : Item) : Save Unit :=
  alter io fun h => ((), { h with lists := h.lists.modify address (· ++ [item]) })

/-- `rules[source] = value` -/
def setSource (address : Nat) (source : String) (o : SourceObject) : Save Unit :=
  alter io fun h => ((), { h with tables := h.tables.modify address (·.set source o) })

/-- Put the objects of a file into memory. -/
def place (g : Graph) : Save Data :=
  alter io fun h => (g.root.map fun e => (e.1, e.2.shift h.lists.length), h.append g.heap)

/-- `copy.deepcopy`; the objects that the table does not reach are copied too, and nothing refers to them. -/
def deepcopy (address : Nat) : Save Nat := alter io fun h => (h.tables.length + address, h.append h)

/-! ### Checking a file -/

/-- What `validate_rule_file` checks of a flow rule after it has rewritten the protocol. -/
def validateFlowTarget (path : String) (proto : FlowProto) (entries : List (Scalar × Yaml)) :
    Except PyError Unit := do
  let destValue := (lookupKey entries "dest").or (lookupKey entries "dest_dns")
  let port ← validatePortText path (destValue.getD (.scalar .null)) (← getItem entries "port")
  match lookupKey entries "dest" with
  | some value => discard (validateNetwork path value)
  | none => pure ()
  validatePort sv path proto port

/-- `rule["dest_dns"] = validate_dest_dns_name(path, rule["dest_dns"])`, where the rule has that key. -/
def rewriteDestDns (path : String) (address : Nat) (entries : List (Scalar × Yaml)) : Save Unit :=
  match lookupKey entries "dest_dns" with
  | some value => do setItem io address "dest_dns" (.str (← check io (validateDestDnsName lib path value)))
  | none => pure ()

def validateFlowObject (path : String) : Item → Save Unit
  | .other _ => check io (.error (.systemExit (path ++ ": every flow rule must be a mapping")))
  | .rule address => do
    let rule ← ruleAt io address
    check io (if flowRuleKeys (rule.entries.map Prod.fst) then .ok () else
      .error (.systemExit (path ++
        ": every flow rule must have ptr, exactly one of dest or dest_dns, proto, port, action")))
    let _ ← check io (do validateAction path ": invalid action: " (← getItem rule.entries "action"))
    rewriteDestDns lib io path address rule.entries
    let proto ← check io (do validateProto path (← getItem rule.entries "proto"))
    setItem io address "proto" (.str proto.name)
    let rule ← ruleAt io address
    check io (validateFlowTarget sv path proto rule.entries)

def validateDnsObject (path : String) : Item → Save Unit
  | .other _ => check io (.error (.systemExit (path ++ ": every DNS rule must be a mapping")))
  | .rule address => do
    let rule ← ruleAt io address
    let keys := rule.entries.map Prod.fst
    let expected := ["qname", "qtype", "action"].map Scalar.str
    check io (if keys.all (· ∈ expected) && expected.all (· ∈ keys) then .ok () else
      .error (.systemExit (path ++ ": every DNS rule must have qname, qtype, action")))
    let _ ← check io (do validateAction path ": invalid DNS action: " (← getItem rule.entries "action"))
    let question ← check io (do
      validateDnsRule lib path (← getItem rule.entries "qname") (← getItem rule.entries "qtype"))
    setItem io address "qname" (.str question.1)
    setItem io address "qtype" (.str question.2)

/-- `data[key]`, which has to be a list. -/
def listNode (path : String) (data : Data) (key : String) : Except PyError Nat :=
  match (data.find? fun e => e.1 = .str key).map Prod.snd with
  | some (.list address) => .ok address
  | some (.other _) => .error (.systemExit (path ++ ": " ++ key ++ " must be a list"))
  | none => .error (.keyError key)

/-- `validate_rule_file`, which rewrites the rules. -/
def validateData (path : String) (data : Data) : Save Unit := do
  let keys := data.map Prod.fst
  let expected := ["rules4", "dns"].map Scalar.str
  check io (if keys.all (· ∈ expected) && expected.all (· ∈ keys) then .ok () else
    .error (.systemExit (path ++ ": expected exactly rules4 and dns")))
  let rules4 ← check io (listNode path data "rules4")
  let dns ← check io (listNode path data "dns")
  (← itemsAt io rules4).forM (validateFlowObject sv lib io path)
  (← itemsAt io dns).forM (validateDnsObject lib io path)

/-- The checked content of the rule file, or that of an empty one. -/
def readData (source : String) : Save Data := do
  tick io
  match (← get).rulesDir.get? source with
  | none =>
    let rules4 ← newList io
    let dns ← newList io
    return [(.str "rules4", .list rules4), (.str "dns", .list dns)]
  | some text =>
    let data ← place io (← check io (io.load (rulePath source) text))
    validateData sv lib io (rulePath source) data
    return data

/-- `ensure_rule_entry` -/
def ensureRuleObject (source : String) : Save Bool := do
  let rules := (← get).rules
  if source ∈ (← tableAt io rules).keys then return false
  else
    let data ← readData sv lib io source
    let ip ← check io (listNode (rulePath source) data "rules4")
    let dns ← check io (listNode (rulePath source) data "dns")
    setSource io rules source ⟨ip, dns⟩
    return true

/-! ### The new rule -/

/-- The lists of a source; a new source gets the shape of an empty rule file. -/
def sourceLists (table : Nat) (source : String) : Save SourceObject := do
  match (← tableAt io table).get? source with
  | some o => return o
  | none =>
    let ip ← newList io
    let dns ← newList io
    setSource io table source ⟨ip, dns⟩
    return ⟨ip, dns⟩

/-- `append_dns_rule`: the file and the policy get the same object. -/
def appendDnsObject (request : Request) (decision : Decision) (qname qtype : String) (data : Data) (table : Nat) :
    Save Unit := do
  let rule ← newRule io ⟨[(.str "qname", .str qname), (.str "qtype", .str qtype),
    (.str "action", .str decision.name)], none⟩
  appendItem io (← check io (listNode (rulePath request.source) data "dns")) (.rule rule)
  let lists ← sourceLists io table request.source
  appendItem io lists.dns (.rule rule)

/-- The name of a host-name answer. -/
def decidedName (request : Request) (decision : Decision) : Except PyError (Option String) :=
  if decision.isHostname then
    match trustedHost request.host with
    | none => .error (.systemExit "refusing hostname rule without trusted A-cache hint")
    | some host => do return some (← validateDestDnsName lib "prompt" (.str host))
  else .ok none

def destEntry (request : Request) : Option String → Scalar × Yaml
  | some qname => (.str "dest_dns", .str qname)
  | none => (.str "dest", .str request.dst.text)

/-- The addresses of the name of a host-name answer. -/
def resolveRuntimeRule (request : Request) (address : Nat) : Option String → Save Unit
  | some qname => do setResolvedDests io address (← check io (promptAddresses io.resolver request qname))
  | none => pure ()

/-- `append_flow_rule`: the policy gets a copy of the rule of the file, with the addresses of its name. -/
def appendFlowObject (request : Request) (decision : Decision) (data : Data) (table : Nat) : Save Unit := do
  let port ← check io (promptPort request)
  let name ← check io (decidedName lib request decision)
  let rule ← newRule io ⟨[(.str "ptr", .str (promptPtr request decision)), (.str "proto", .str request.proto.name),
    (.str "port", .str port), (.str "action", .str decision.action.name), destEntry request name], none⟩
  appendItem io (← check io (listNode (rulePath request.source) data "rules4")) (.rule rule)
  let lists ← sourceLists io table request.source
  let runtimeRule ← newRule io (← ruleAt io rule)
  resolveRuntimeRule io request runtimeRule name
  appendItem io lists.ip (.rule runtimeRule)

def appendObject (request : Request) (decision : Decision) (data : Data) (table : Nat) : Save Unit :=
  match request.kind with
  | .dns qname qtype => appendDnsObject io request decision qname qtype data table
  | _ => appendFlowObject lib io request decision data table

/-! ### Saving -/

/-- `yaml.safe_dump` -/
def dumpData (data : Data) : Save RuleText := alter io fun h => (.yaml (.map (h.dataTree data)), h)

/-- `tmp_path.write_text`; a write that fails leaves anything in the temporary file. -/
def writeTmp (source : String) (text : RuleText) : Save Unit := fun s =>
  match io.fault s.clock with
  | some e => .error e { s with
      clock := s.clock + 1
      tmpFiles := (io.torn s.clock).elim s.tmpFiles (s.tmpFiles.set source) }
  | none => .ok () { s with clock := s.clock + 1, tmpFiles := s.tmpFiles.set source text }

/-- `os.replace`, which is atomic. -/
def replaceFile (source : String) : Save Unit := do
  tick io
  fun s => match s.tmpFiles.get? source with
    | some text => .ok () { s with rulesDir := s.rulesDir.set source text, tmpFiles := s.tmpFiles.erase source }
    | none => .error (.osError "No such file or directory") s

/-- `append_rule` on objects. -/
def appendRuleObject (sources : SourceMap) (request : Request) (decision : Decision) : Save Unit := do
  check io (if isNumberedDispvm request.source && request.source ∉ sources.byName.keys then
    .error (.systemExit ("stale numbered DispVM prompt: " ++ request.source)) else .ok ())
  let data ← readData sv lib io request.source
  let nextRules ← deepcopy io (← get).rules
  appendObject lib io request decision data nextRules
  validateData sv lib io (rulePath request.source) data
  writeTmp io request.source (← dumpData io data)
  replaceFile io request.source
  modify fun s => { s with rules := nextRules }

end QubesSnitch
