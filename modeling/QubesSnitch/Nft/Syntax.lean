import QubesSnitch.Packets
import QubesSnitch.Lib.FirstMatch

/-!
# The nftables fragment

The statements that the renderer writes, with their text and their meaning.  Rules of a chain run in order; a rule
whose matches all hold takes its verdict, except that a rejecting rule first passes its `limit rate`, which stops the
rule while the rate is exceeded; `jump` runs another chain and comes back if that chain gives no verdict; a base chain
ends with its policy.  Chains of one name are one chain.

An address operand is text that nft has to read.  Its grammar has a dotted quad, and a dotted quad with a prefix
length, which is in base 8 if it begins with a zero; it ignores the host bits.  A table with an operand of another form,
or with a jump to a chain that is not there, is refused as a whole (`Table.loads`).

Which rules a packet meets does not depend on the limiters.  `Table.hits` is that list, and the verdict of a chain is
the first hit that takes effect (`evalChain_eq_decide`).
-/

namespace QubesSnitch.Nft

/-! ### Packets -/

inductive CtState where
  | invalid
  | established
  | related
  | new
  | untracked
  deriving DecidableEq, Repr

inductive CtDirection where
  | original
  | reply
  deriving DecidableEq, Repr

/-- What the matches look at.  There are addresses for IPv4 only, and the ports count for TCP and UDP only. -/
structure Packet where
  iifname : String
  daddrIsLocal : Bool
  addrs : Option (IPv4 × IPv4)
  proto : Proto
  sport : Nat
  dport : Nat
  ctState : CtState
  ctDirection : CtDirection
  deriving DecidableEq, Repr

/-! ### Rules -/

/-- `a`, or `\x7b a, b \x7d` for a set. -/
inductive Operand where
  | one (text : String)
  | set (texts : List String)
  deriving DecidableEq, Repr

inductive Match where
  | metaNfprotoIpv4
  | ipSaddr (addr : Operand)
  | ipDaddr (addr : Operand)
  | metaL4proto (proto : FlowProto)
  | ipProtocol (proto : FlowProto)
  | sport (proto : FlowProto) (port : NormPort)
  | dport (proto : FlowProto) (port : NormPort)
  | ctState (states : List CtState)
  | ctDirection (direction : CtDirection)
  | iifname (start : String)
  | fibDaddrLocal
  deriving DecidableEq, Repr

/-- How a rule ends: `limit rate … log prefix … counter reject`, or at once. -/
inductive Statement where
  | accept
  | queue (num : Nat)
  | jump (chain : String)
  | reject (rate : String) (burst : Nat) (logPrefix : String)
  deriving DecidableEq, Repr

structure Rule where
  conds : List Match
  statement : Statement
  deriving DecidableEq, Repr

inductive Hook where
  | input
  | forward
  deriving DecidableEq, Repr

inductive Verdict where
  | accept
  | reject
  | queue
  | drop
  deriving DecidableEq, Repr

/-- A chain; a base chain has a hook and a policy. -/
structure Chain where
  name : String
  base : Option (Hook × Verdict)
  rules : List Rule
  deriving DecidableEq, Repr

structure Table where
  name : String
  chains : List Chain
  deriving DecidableEq, Repr

/-! ### Text -/

def CtState.text : CtState → String
  | invalid => "invalid"
  | established => "established"
  | related => "related"
  | new => "new"
  | untracked => "untracked"

def CtDirection.text : CtDirection → String
  | original => "original"
  | reply => "reply"

def Operand.text : Operand → String
  | one text => text
  | set texts => "\x7b " ++ String.intercalate ", " texts ++ " \x7d"

def Match.text : Match → String
  | metaNfprotoIpv4 => "meta nfproto ipv4"
  | ipSaddr addr => "ip saddr " ++ addr.text
  | ipDaddr addr => "ip daddr " ++ addr.text
  | metaL4proto proto => "meta l4proto " ++ proto.name
  | ipProtocol proto => "ip protocol " ++ proto.name
  | sport proto port => proto.name ++ " sport " ++ port.text
  | dport proto port => proto.name ++ " dport " ++ port.text
  | ctState states => "ct state " ++ String.intercalate "," (states.map CtState.text)
  | ctDirection direction => "ct direction " ++ direction.text
  | iifname start => "iifname \"" ++ start ++ "*\""
  | fibDaddrLocal => "fib daddr type local"

/-- `nft_quote` -/
def quote (text : String) : String :=
  "\"" ++ String.ofList (text.toList.flatMap fun c => if c = '\\' || c = '"' then ['\\', c] else [c]) ++ "\""

def Statement.text : Statement → String
  | accept => "accept"
  | queue num => "queue num " ++ toString num
  | jump chain => "jump " ++ chain
  | reject rate burst logPrefix =>
    "limit rate " ++ rate ++ " burst " ++ toString burst ++ " packets log prefix " ++ quote logPrefix ++
      " counter reject with icmpx admin-prohibited"

def Rule.text (rule : Rule) : String :=
  "  " ++ String.intercalate " " (rule.conds.map Match.text ++ [rule.statement.text])

def Chain.lines (chain : Chain) : List String :=
  let header := match chain.base with
    | some (.input, policy) => ["  type filter hook input priority filter; policy " ++ policyText policy ++ ";"]
    | some (.forward, policy) => ["  type filter hook forward priority filter; policy " ++ policyText policy ++ ";"]
    | none => []
  [" chain " ++ chain.name ++ " \x7b"] ++ header ++ chain.rules.map Rule.text ++ [" \x7d"]
where
  policyText : Verdict → String
    | .accept => "accept"
    | _ => "drop"

/-- The batch that replaces the table. -/
def Table.text (table : Table) : String :=
  String.intercalate "\n" (["destroy table inet " ++ table.name, "table inet " ++ table.name ++ " \x7b"] ++
    table.chains.flatMap Chain.lines ++ ["\x7d"]) ++ "\n"

/-! ### Meaning -/

/-- A number as nft scans it: in base 8 if it begins with a zero, and in base 10 otherwise. -/
def scanNumber (s : List Char) : Option Nat :=
  let base := if s.head? = some '0' then 8 else 10
  if s.isEmpty || !s.all fun c => c.isDigit && c.toNat < '0'.toNat + base then none
  else some (Nat.ofDigitChars base s 0)

/-- The network that an address operand names, if nft can read it. -/
def readPrefix (text : String) : Option Cidr :=
  match Py.split '/' text.toList with
  | [a] => do cidrOf (← ipv4Address a) 32
  | [a, len] => do cidrOf (← ipv4Address a) (← scanNumber len)
  | _ => none

def Operand.texts : Operand → List String
  | one text => [text]
  | set texts => texts

def Operand.loads (addr : Operand) : Bool := addr.texts.all fun text => (readPrefix text).isSome

def Operand.contains (addr : Operand) (x : IPv4) : Bool :=
  addr.texts.any fun text => (readPrefix text).any fun n => n.contains x

def Match.loads : Match → Bool
  | ipSaddr addr | ipDaddr addr => addr.loads
  | _ => true

def Match.holds (packet : Packet) : Match → Bool
  | metaNfprotoIpv4 => packet.addrs.isSome
  | ipSaddr addr => packet.addrs.any fun a => addr.contains a.1
  | ipDaddr addr => packet.addrs.any fun a => addr.contains a.2
  | metaL4proto proto => packet.proto = .flow proto
  | ipProtocol proto => packet.addrs.isSome && packet.proto = .flow proto
  | sport proto port => packet.proto = .flow proto && port.covers (some packet.sport)
  | dport proto port => packet.proto = .flow proto && port.covers (some packet.dport)
  | ctState states => packet.ctState ∈ states
  | ctDirection direction => packet.ctDirection = direction
  | iifname start => start.toList.isPrefixOf packet.iifname.toList
  | fibDaddrLocal => packet.daddrIsLocal

def Rule.applies (packet : Packet) (rule : Rule) : Bool := rule.conds.all (Match.holds packet)

namespace Table

/-- The rules of the chain `name`. -/
def chainRules (table : Table) (name : String) : List Rule :=
  (table.chains.filter fun chain => chain.name = name).flatMap Chain.rules

def hasChain (table : Table) (name : String) : Bool := table.chains.any fun chain => chain.name = name

def ruleLoads (table : Table) (rule : Rule) : Bool :=
  rule.conds.all Match.loads &&
    match rule.statement with
    | .jump name => table.hasChain name
    | _ => true

/-- Whether nft takes the table. -/
def loads (table : Table) : Bool := table.chains.all fun chain => chain.rules.all table.ruleLoads

/-- A limiter is known by its chain and by the position of its rule there. -/
abbrev Limiter := String × Nat

/-- The verdict of a chain, `none` if it has none.  `lim` says which limiters are under their rate; jumps nest at most
`depth` deep. -/
def evalChain (table : Table) (lim : Limiter → Bool) (packet : Packet) : Nat → String → Option Verdict
  | 0, _ => none
  | depth + 1, name => (table.chainRules name).zipIdx.findSome? fun (rule, i) =>
    if !rule.applies packet then none
    else match rule.statement with
      | .accept => some .accept
      | .queue _ => some .queue
      | .jump chain => evalChain table lim packet depth chain
      | .reject _ _ _ => if lim (name, i) then some .reject else none

def maxJumpDepth : Nat := 16

/-- The chain of a hook with its policy. -/
def baseChain (table : Table) (hook : Hook) : Option (String × Verdict) :=
  table.chains.findSome? fun chain => chain.base.bind fun base => if base.1 = hook then some (chain.name, base.2) else none

/-- What the table does with a packet at a hook; `none` if nft refuses the table. -/
def eval (table : Table) (lim : Limiter → Bool) (hook : Hook) (packet : Packet) : Option Verdict :=
  if !table.loads then none
  else match table.baseChain hook with
    | none => some .accept
    | some (name, policy) => some ((table.evalChain lim packet maxJumpDepth name).getD policy)

/-- The rules that the packet meets in a chain, were none of them to end the walk. -/
def hits (table : Table) (packet : Packet) : Nat → String → List (Hit Limiter Verdict)
  | 0, _ => []
  | depth + 1, name => (table.chainRules name).zipIdx.flatMap fun (rule, i) =>
    if !rule.applies packet then []
    else match rule.statement with
      | .accept => [.hard .accept]
      | .queue _ => [.hard .queue]
      | .jump chain => hits table packet depth chain
      | .reject _ _ _ => [.soft (name, i) .reject]

theorem evalChain_eq_decide (table : Table) (lim : Limiter → Bool) (packet : Packet) (depth : Nat) (name : String) :
    table.evalChain lim packet depth name = Hit.decide lim (table.hits packet depth name) := by
  induction depth generalizing name with
  | zero => rfl
  | succ depth ih =>
    rw [evalChain, hits, Hit.decide_flatMap]
    congr 1
    funext ⟨rule, i⟩
    dsimp only
    split
    · rfl
    · cases rule.statement with
      | accept => rfl
      | queue num => rfl
      | jump chain => exact ih chain
      | reject rate burst logPrefix => rfl

/-- Only rejecting rules have a limiter. -/
theorem soft_hits (table : Table) (packet : Packet) {depth : Nat} {name : String} {p : Limiter} {v : Verdict}
    (h : Hit.soft p v ∈ table.hits packet depth name) : v = .reject := by
  induction depth generalizing name with
  | zero => cases h
  | succ depth ih =>
    obtain ⟨⟨rule, i⟩, -, h⟩ := List.mem_flatMap.1 h
    dsimp only at h
    split at h
    · cases h
    · cases hs : rule.statement with
      | accept => simp [hs] at h
      | queue num => simp [hs] at h
      | jump chain => exact ih (by simpa [hs] using h)
      | reject rate burst logPrefix => exact (by simpa [hs] using h : _ ∧ v = .reject).2

end Table

end QubesSnitch.Nft
