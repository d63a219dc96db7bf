import QubesSnitch.Ipaddress

/-!
# Vocabulary

The exceptions the program raises or lets through, the protocols, actions and answers it names, the values YAML
files hold, and the `/etc/services` table.
-/

namespace QubesSnitch

inductive PyError where
  | systemExit (message : String)
  | valueError (message : String)
  | keyError (key : String)
  | indexError
  | structError
  | osError (message : String)
  | calledProcessError (message : String)
  deriving DecidableEq, Repr, Inhabited

/-- `FLOW_PROTOS` -/
inductive FlowProto where
  | tcp
  | udp
  | icmp
  deriving DecidableEq, Repr

namespace FlowProto

def name : FlowProto → String
  | tcp => "tcp"
  | udp => "udp"
  | icmp => "icmp"

def ofName? (s : String) : Option FlowProto := [tcp, udp, icmp].find? fun p => p.name = s

@[simp] theorem ofName?_name (p : FlowProto) : ofName? p.name = some p := by cases p <;> decide

theorem ofName?_eq_some {s : String} {p : FlowProto} (h : ofName? s = some p) : s = p.name := by
  have := List.find?_some h
  simpa [eq_comm] using this

end FlowProto

/-- The protocol of a packet: a named one, or the decimal text of its number. -/
inductive Proto where
  | flow (p : FlowProto)
  | number (n : Nat)
  deriving DecidableEq, Repr

namespace Proto

def name : Proto → String
  | flow p => p.name
  | number n => toString n

/-- `{1: "icmp", 6: "tcp", 17: "udp"}.get(proto_num, str(proto_num))` -/
def ofNumber (n : Nat) : Proto :=
  if n = 1 then flow .icmp else if n = 6 then flow .tcp else if n = 17 then flow .udp else number n

end Proto

inductive Action where
  | allow
  | reject
  deriving DecidableEq, Repr

namespace Action

def name : Action → String
  | allow => "allow"
  | reject => "reject"

def ofName? (s : String) : Option Action := [allow, reject].find? fun a => a.name = s

@[simp] theorem ofName?_name (a : Action) : ofName? a.name = some a := by cases a <;> decide

theorem ofName?_eq_some {s : String} {a : Action} (h : ofName? s = some a) : s = a.name := by
  have := List.find?_some h
  simpa [eq_comm] using this

end Action

/-- The answers of the CLI that save a rule. -/
inductive Decision where
  | allow
  | allowDns
  | reject
  | rejectDns
  deriving DecidableEq, Repr

namespace Decision

def name : Decision → String
  | allow => "allow"
  | allowDns => "allow-dns"
  | reject => "reject"
  | rejectDns => "reject-dns"

/-- `action in ("allow-dns", "reject-dns")` -/
def isHostname : Decision → Bool
  | allowDns | rejectDns => true
  | allow | reject => false

/-- `{"allow-dns": "allow", "reject-dns": "reject"}.get(action, action)` -/
def action : Decision → Action
  | allow | allowDns => .allow
  | reject | rejectDns => .reject

end Decision

/-! ### YAML values -/

/-- A YAML scalar; `other` is a float, a date or binary data, known by its `str`. -/
inductive Scalar where
  | null
  | bool (b : Bool)
  | int (n : Int)
  | other (text : String)
  | str (s : String)
  deriving DecidableEq, Repr, Inhabited

/-- `str(value)` -/
def Scalar.text : Scalar → String
  | null => "None"
  | bool true => "True"
  | bool false => "False"
  | int n => toString n
  | other text => text
  | str s => s

inductive Yaml where
  | scalar (s : Scalar)
  | seq (items : List Yaml)
  | map (entries : List (Scalar × Yaml))
  deriving Repr, Inhabited

namespace Yaml

def str (s : String) : Yaml := scalar (.str s)

/-- `str(value)`; the text of a list or mapping is abbreviated, no check looks past its bracket. -/
def text : Yaml → String
  | scalar s => s.text
  | seq _ => "[...]"
  | map _ => "\x7b...\x7d"

def isStr (s : String) : Yaml → Bool
  | scalar (.str t) => t = s
  | _ => false

def str? : Yaml → Option String
  | scalar (.str s) => some s
  | _ => none

end Yaml

/-- `mapping.get(key)` -/
def lookupKey (entries : List (Scalar × Yaml)) (key : String) : Option Yaml :=
  (entries.find? fun e => e.1 = .str key).map Prod.snd

/-- The service names of `/etc/services`; the ports there are between 1 and 65535. -/
structure Services where
  getservbyname : String → FlowProto → Option Nat
  valid : ∀ name proto port, getservbyname name proto = some port → 1 ≤ port ∧ port ≤ 65535

/-- A system without `/etc/services`. -/
def Services.empty : Services := ⟨fun _ _ => none, by simp⟩

/-- The values of `config.yml` that the policy and the queue read. -/
structure Config where
  limitRate : String
  burst : Nat
  pendingQueueSize : Nat
  defaultDisposableVmName : String
  deriving DecidableEq, Repr, Inhabited

end QubesSnitch
