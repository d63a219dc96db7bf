import QubesSnitch.Nft.Syntax
import QubesSnitch.Policy
import QubesSnitch.Lib.Blake2s

/-!
# Rendering

`renderNft` writes the table for a source map and a policy: the mirrored reply rules of every source, the jumps into the
chain of each source, the reply accepts, the jump for unknown sources, and one chain for each source.  The definitions
follow `nft.py` line by line, with a line of text as a `Rule`.  On usable rules nothing is raised, and the table is
`policyTable`, whose parts are the pure bodies of the rendering functions.
-/

namespace QubesSnitch.Nft

/-- The text of the file, character by character: what is not a letter or a digit becomes `_`. -/
def sanitize (source : String) : String := String.ofList (source.toList.map fun c => if c.isAlphanum then c else '_')

def nftChainName (source : String) : String :=
  "source_" ++ sanitize source ++ "_" ++ String.ofList (Blake2s.hexdigest 4 source.toUTF8.toList)

/-! ### Matches -/

def nftValue : Dest → Option String
  | .network n => some n.value.text
  | _ => none

def resolvedDests (ips : Option (List IPv4)) : Except PyError (List IPv4) :=
  match ips with
  | some ips => .ok ips
  | none => .error (.keyError "_resolved_dests")

/-- One address as it is, several as a set. -/
def ipOperand : List IPv4 → Operand
  | [ip] => .one ip.text
  | ips => .set (ips.map IPv4.text)

def nftDestMatchValue (dest : Dest) : Except PyError (Option Operand) :=
  match dest with
  | .dns _ ips => do return some (ipOperand (← resolvedDests ips))
  | dest => .ok ((nftValue dest).map .one)

def nftReplySources (dest : Dest) : Except PyError (List (Option String)) :=
  match dest with
  | .dns _ ips => do return (← resolvedDests ips).map fun ip => some ip.text
  | dest => .ok [nftValue dest]

/-- `nft_port`; `none` where every port matches. -/
def nftPort (sv : Services) (rule : FlowRule) : Except PyError (Option NormPort) := do
  match ← normalizePort sv (.str rule.port) rule.proto with
  | .any => return none
  | port => return some port

/-- The protocol part of a match, with the port at the remote end. -/
def protoConds (field : FlowProto → NormPort → Match) (proto : FlowProto) (port : Option NormPort) : List Match :=
  match proto, port with
  | .icmp, _ => [.ipProtocol .icmp]
  | proto, some port => [field proto port]
  | proto, none => [.metaL4proto proto]

def destConds (dest : Option Operand) : List Match := (dest.map Match.ipDaddr).toList

def renderMatch (sv : Services) (rule : FlowRule) : Except PyError (List Match) := do
  let dest ← nftDestMatchValue rule.dest
  let port ← nftPort sv rule
  return [.metaNfprotoIpv4] ++ destConds dest ++ protoConds .dport rule.proto port

def udpRuleIncludesDns (sv : Services) (rule : FlowRule) : Except PyError Bool :=
  if rule.proto ≠ .udp then .ok false
  else do
    match ← normalizePort sv (.str rule.port) .udp with
    | .any => return true
    | .one n => return n = 53
    | .range start stop => return start ≤ 53 && 53 ≤ stop

def renderDnsQueueMatch (rule : FlowRule) : Except PyError (List Match) := do
  let dest ← nftDestMatchValue rule.dest
  return [.metaNfprotoIpv4] ++ destConds dest ++ [.dport .udp (.one 53)]

/-! ### Rules -/

/-- The limited, logged reject. -/
def rejectLog (config : Config) (logPrefix : String) : Statement := .reject config.limitRate config.burst logPrefix

def ruleReject (source : String) (config : Config) : Statement :=
  rejectLog config ("QUBES-SNITCH " ++ source ++ " reject ")

/-- The end of a line that carries out an action. -/
def actionStatement (source : String) (config : Config) : Action → Statement
  | .allow => .accept
  | .reject => ruleReject source config

def renderAllow (sv : Services) (rule : FlowRule) (conds : List Match) (queueNum : Nat) :
    Except PyError (List Rule) := do
  if ← udpRuleIncludesDns sv rule then
    let queueRule : Rule := ⟨← renderDnsQueueMatch rule, .queue queueNum⟩
    if (← normalizePort sv (.str rule.port) .udp) = .one 53 then return [queueRule]
    return [queueRule, ⟨conds, .accept⟩]
  return [⟨conds, .accept⟩]

def renderRule (sv : Services) (source : String) (rule : FlowRule) (config : Config) (queueNum : Nat) :
    Except PyError (List Rule) := do
  let conds ← renderMatch sv rule
  match rule.action with
  | .allow => renderAllow sv rule conds queueNum
  | .reject => return [⟨conds, ruleReject source config⟩]

def renderEstablishedReplyRule (sv : Services) (source : String) (sourceIp : IPv4) (rule : FlowRule) (config : Config)
    (replySource : Option String) : Except PyError Rule := do
  let port ← nftPort sv rule
  let conds := [.metaNfprotoIpv4] ++ (replySource.map fun addr => Match.ipSaddr (.one addr)).toList ++
    [.ipDaddr (.one sourceIp.text)] ++ protoConds .sport rule.proto port ++
    [.ctState [.established, .related], .ctDirection .reply]
  return ⟨conds, actionStatement source config rule.action⟩

def renderEstablishedReplyRules (sv : Services) (source : String) (sourceIp : IPv4) (rule : FlowRule)
    (config : Config) : Except PyError (List Rule) := do
  (← nftReplySources rule.dest).mapM (renderEstablishedReplyRule sv source sourceIp rule config)

def nftSourceJump (ip : IPv4) (chain : String) : Rule := ⟨[.ipSaddr (.one ip.text)], .jump chain⟩

/-! ### Running nft -/

/-- The exception of a run of nft that fails. -/
def nftFailed (arguments : String) : PyError :=
  .calledProcessError ("Command '['nft', " ++ arguments ++
    ", '/run/qubes-snitch/rules.nft']' returned non-zero exit status 1.")

/-- `nft -c -f` -/
def nftCheckFailed : PyError := nftFailed "'-c', '-f'"

/-- `nft -f` -/
def nftLoadFailed : PyError := nftFailed "'-f'"

/-! ### Tables -/

def renderLocalInputChain (config : Config) : Chain where
  name := "input"
  base := some (.input, .accept)
  rules := [⟨[.iifname "vif", .fibDaddrLocal], rejectLog config "QUBES-SNITCH local reject "⟩]

def invalidReject (config : Config) (logPrefix : String) : Rule := ⟨[.ctState [.invalid]], rejectLog config logPrefix⟩

def renderFailClosedNft (config : Config) (nftTable : String) (queueNum : Nat) : Table where
  name := nftTable
  chains := [renderLocalInputChain config,
    { name := "forward"
      base := some (.forward, .drop)
      rules := [invalidReject config "QUBES-SNITCH invalid ", ⟨[.metaNfprotoIpv4], .queue queueNum⟩,
        ⟨[], rejectLog config "QUBES-SNITCH fail-closed reject "⟩] }]

abbrev SourcesByName := Dict String (List IPv4)

/-- Every source with every address of it, in order. -/
def sourceIps (sources : SourcesByName) : List (String × IPv4) :=
  sources.entries.flatMap fun entry => entry.2.map fun ip => (entry.1, ip)

/-- `rules[source]["ip"]` -/
def rulesIp (rules : Rules) (source : String) : Except PyError (List FlowRule) :=
  match rules.get? source with
  | some sourceRules => .ok sourceRules.ip
  | none => .error (.keyError source)

def renderReplySection (sv : Services) (sources : SourcesByName) (rules : Rules) (config : Config) :
    Except PyError (List Rule) := do
  let blocks ← (sourceIps sources).mapM fun entry => do
    let blocks ← (← rulesIp rules entry.1).mapM fun rule =>
      renderEstablishedReplyRules sv entry.1 entry.2 rule config
    return blocks.flatten
  return blocks.flatten

/-- The lines of the forward chain after the mirrored rules. -/
def forwardTail (sources : SourcesByName) (config : Config) : List Rule :=
  ((sourceIps sources).map fun (source, ip) =>
    ⟨[.ipSaddr (.one ip.text), .dport .udp (.one 53)], .jump (nftChainName source)⟩) ++
  ((sourceIps sources).map fun (source, ip) => nftSourceJump ip (nftChainName source)) ++
  ((sourceIps sources).map fun (_, ip) =>
    ⟨[.ipDaddr (.one ip.text), .ctState [.established, .related], .ctDirection .reply], .accept⟩) ++
  [⟨[], .jump (nftChainName "unknown")⟩, invalidReject config "QUBES-SNITCH invalid "]

def renderSourceChain (sv : Services) (rules : Rules) (config : Config) (queueNum : Nat) (source : String) :
    Except PyError Chain := do
  let blocks ← (← rulesIp rules source).mapM fun rule => renderRule sv source rule config queueNum
  return {
    name := nftChainName source
    base := none
    rules := [invalidReject config ("QUBES-SNITCH " ++ source ++ " invalid "), ⟨[.dport .udp (.one 53)], .queue queueNum⟩]
      ++ blocks.flatten ++ [⟨[], .queue queueNum⟩, ⟨[], ruleReject source config⟩] }

def unknownChain (config : Config) (queueNum : Nat) : Chain where
  name := nftChainName "unknown"
  base := none
  rules := [⟨[.metaNfprotoIpv4], .queue queueNum⟩, ⟨[], ruleReject "unknown" config⟩]

def renderNft (sv : Services) (sources : SourcesByName) (rules : Rules) (config : Config) (nftTable : String)
    (queueNum : Nat) : Except PyError Table := do
  let replies ← renderReplySection sv sources rules config
  let chains ← sources.keys.mapM (renderSourceChain sv rules config queueNum)
  return {
    name := nftTable
    chains := [renderLocalInputChain config,
      { name := "forward", base := some (.forward, .drop), rules := replies ++ forwardTail sources config }]
      ++ chains ++ [unknownChain config queueNum] }

end QubesSnitch.Nft
