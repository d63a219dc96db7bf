import QubesSnitch.Basic
import QubesSnitch.Lib.Computation

/-!
# Packet field extraction

`parsePacket` reads the IPv4 and transport headers of a queued packet.  It returns no request for something that
is not IPv4, a request with `malformed` set when a header is not what it should be, and otherwise a request with
the header fields.  A request without `malformed` is TCP or UDP with two nonzero 16-bit ports, or ICMP without
ports (`parsePacket_wellFormed`); the policy code relies on that.
-/

namespace QubesSnitch

/-! ### Ports -/

/-- The text `normalize_port` returns, by what it says: `any`, `n` or `n-m`. -/
inductive NormPort where
  | any
  | one (n : Nat)
  | range (lo hi : Nat)
  deriving DecidableEq, Repr

def NormPort.text : NormPort → String
  | any => "any"
  | one n => String.ofList (Py.decimal n)
  | range lo hi => String.ofList (Py.decimal lo ++ '-' :: Py.decimal hi)

/-- The ports that the text stands for; `any` also covers having none. -/
def NormPort.covers : NormPort → Option Nat → Bool
  | any, _ => true
  | one n, port => port = some n
  | range lo hi, port => port.any fun n => lo ≤ n && n ≤ hi

private def portNumber (n : Int) : Except PyError NormPort :=
  if 1 ≤ n ∧ n ≤ 65535 then .ok (.one n.toNat) else .error (.valueError "port out of range")

/-- `f"{start}-{end}"` for a text of two digit groups. -/
private def portRange (text : List Char) : Except PyError NormPort :=
  match Py.splitFirst '-' text with
  | some (lo, hi) =>
    if Py.isdigit lo && Py.isdigit hi then
      match Py.int lo, Py.int hi with
      | some lo, some hi =>
        if 1 ≤ lo ∧ lo ≤ hi ∧ hi ≤ 65535 then .ok (.range lo hi)
        else .error (.valueError "port range out of range")
      | _, _ => .error (.valueError "invalid literal for int()")
    else .error (.valueError "unknown service name or port range")
  | none => .error (.valueError "unknown service name or port range")

def normalizePort (sv : Services) (value : Scalar) (proto : FlowProto) : Except PyError NormPort :=
  match value with
  | .bool _ => .error (.valueError "port must be a number, range, service name, or any")
  | .int n => portNumber n
  | value =>
    if value = .str "any" then .ok .any
    else if Py.isdigit value.text.toList then
      match Py.int value.text.toList with
      | some n => portNumber n
      | none => .error (.valueError "invalid literal for int()")
    else if proto = .icmp then .error (.valueError "service names require tcp or udp")
    else match sv.getservbyname value.text proto with
      | some n => .ok (.one n)
      | none => portRange value.text.toList

/-- A normalized port stays within 1..65535. -/
def NormPort.Bounded : NormPort → Prop
  | any => True
  | one n => 1 ≤ n ∧ n ≤ 65535
  | range lo hi => 1 ≤ lo ∧ lo ≤ hi ∧ hi ≤ 65535

private theorem portNumber_bounded {n : Int} {p : NormPort} (h : portNumber n = .ok p) : p.Bounded := by
  unfold portNumber at h
  split at h
  · rename_i hn
    obtain rfl := Except.ok.inj h
    simp only [NormPort.Bounded]
    omega
  · cases h

private theorem portRange_bounded {text : List Char} {p : NormPort} (h : portRange text = .ok p) : p.Bounded := by
  unfold portRange at h
  split at h
  · split at h
    · split at h
      · split at h
        · rename_i hb
          obtain rfl := Except.ok.inj h
          exact hb
        · cases h
      · cases h
    · cases h
  · cases h

theorem normalizePort_bounded {sv : Services} {value : Scalar} {proto : FlowProto} {p : NormPort}
    (h : normalizePort sv value proto = .ok p) : p.Bounded := by
  unfold normalizePort at h
  split at h
  · cases h
  · exact portNumber_bounded h
  · split at h
    · obtain rfl := Except.ok.inj h
      trivial
    · split at h
      · split at h
        · exact portNumber_bounded h
        · cases h
      · split at h
        · cases h
        · split at h
          · rename_i n hn
            obtain rfl := Except.ok.inj h
            exact sv.valid _ _ _ hn
          · exact portRange_bounded h

@[simp] theorem normalizePort_any (sv : Services) (proto : FlowProto) :
    normalizePort sv (.str "any") proto = .ok .any := rfl

private theorem decimal_ne_any (n : Nat) : String.ofList (Py.decimal n) ≠ "any" := fun h => by
  have hmem : 'a' ∈ Py.decimal n := by
    have : Py.decimal n = "any".toList := by rw [← h, String.toList_ofList]
    rw [this]
    decide
  have := Py.isDigit_of_mem_decimal hmem
  simp at this

/-- The decimal text of a port is read as that port. -/
theorem normalizePort_decimal (sv : Services) (proto : FlowProto) {n : Nat} (h1 : 1 ≤ n) (h2 : n ≤ 65535) :
    normalizePort sv (.str (String.ofList (Py.decimal n))) proto = .ok (.one n) := by
  unfold normalizePort
  simp only [Scalar.str.injEq, decimal_ne_any, if_false, Scalar.text, String.toList_ofList, Py.isdigit_decimal,
    if_true, Py.int_decimal, portNumber]
  rw [if_pos (by omega)]
  rfl

/-! ### Packets -/

structure ParsedPacket where
  src : IPv4
  dst : IPv4
  proto : Proto
  sport : Option Nat := none
  dport : Option Nat := none
  body : Option (List UInt8) := some []
  malformed : Option String := none
  deriving DecidableEq, Repr

/-- `payload[i]` -/
def byteAt (payload : List UInt8) (i : Nat) : Except PyError UInt8 :=
  match payload[i]? with
  | some b => .ok b
  | none => .error .indexError

/-- `struct.unpack("!H", payload[i:i + 2])[0]` -/
def unpackH (payload : List UInt8) (i : Nat) : Except PyError Nat :=
  match (payload.drop i).take 2 with
  | [hi, lo] => .ok (hi.toNat * 256 + lo.toNat)
  | _ => .error .structError

/-- `socket.inet_ntop(socket.AF_INET, payload[i:i + 4])` -/
def inetNtop (payload : List UInt8) (i : Nat) : Except PyError IPv4 :=
  match (payload.drop i).take 4 with
  | [a, b, c, d] => .ok ⟨a, b, c, d⟩
  | _ => .error (.valueError "invalid length of packed IP address string")

/-- The checks of the TCP header or the UDP header, and the UDP body. -/
def parseTransport (payload : List UInt8) (request : ParsedPacket) (proto : FlowProto)
    (headerLen totalLength : Nat) : Except PyError ParsedPacket := do
  if payload.length < headerLen + 4 then return { request with malformed := some "missing transport ports" }
  if proto = .udp && payload.length < headerLen + 8 then
    return { request with malformed := some "missing udp header" }
  let sport ← unpackH payload headerLen
  let dport ← unpackH payload (headerLen + 2)
  let request := { request with sport := some sport, dport := some dport }
  if sport = 0 then return { request with malformed := some "tcp/udp source port 0" }
  if dport = 0 then return { request with malformed := some "tcp/udp destination port 0" }
  if proto = .tcp then
    if payload.length < headerLen + 20 then return { request with malformed := some "missing tcp header" }
    let offset ← byteAt payload (headerLen + 12)
    let tcpHeaderLen := (offset.toNat >>> 4) * 4
    if tcpHeaderLen < 20 || headerLen + tcpHeaderLen > totalLength then
      return { request with malformed := some "bad tcp data offset" }
    return request
  else
    let udpLength ← unpackH payload (headerLen + 4)
    if udpLength < 8 || headerLen + udpLength ≠ totalLength then
      return { request with malformed := some "bad udp length" }
    return { request with body := some ((payload.drop (headerLen + 8)).take (udpLength - 8)) }

/-- The first reason why the IPv4 header is not a whole, unfragmented packet. -/
def ipHeaderFault (headerLen totalLength fragmentField length : Nat) : Option String :=
  if headerLen < 20 || headerLen > length then some "bad ipv4 header length"
  else if totalLength ≠ length then some "ipv4 total length mismatch"
  else if fragmentField &&& 0x8000 ≠ 0 then some "ipv4 reserved flag set"
  else if fragmentField &&& 0x3fff ≠ 0 then some "ipv4 fragments unsupported"
  else none

def parsePacket (payload : List UInt8) : Except PyError (Option ParsedPacket) := do
  if payload.length < 20 then return none
  let first ← byteAt payload 0
  if first.toNat >>> 4 ≠ 4 then return none
  let headerLen := (first.toNat &&& 15) * 4
  let totalLength ← unpackH payload 2
  let protoNum ← byteAt payload 9
  let fragmentField ← unpackH payload 6
  let src ← inetNtop payload 12
  let dst ← inetNtop payload 16
  let request : ParsedPacket := { src, dst, proto := .ofNumber protoNum.toNat }
  match ipHeaderFault headerLen totalLength fragmentField payload.length with
  | some reason => return some { request with malformed := some reason }
  | none =>
    match request.proto with
    | .number _ => return some { request with malformed := some "unsupported ipv4 protocol" }
    | .flow .icmp =>
      if payload.length < headerLen + 4 then return some { request with malformed := some "missing icmp header" }
      return some request
    | .flow proto => return some (← parseTransport payload request proto headerLen totalLength)

/-- TCP and UDP have a destination port between 1 and 65535, ICMP has none, and there is nothing else. -/
def ParsedPacket.WellFormed (p : ParsedPacket) : Prop :=
  ∃ proto, p.proto = .flow proto ∧
    ((proto = .icmp ∧ p.dport = none) ∨ (proto ≠ .icmp ∧ ∃ n, p.dport = some n ∧ 1 ≤ n ∧ n ≤ 65535))

/-! ### What a request without `malformed` is -/

theorem unpackH_lt {payload : List UInt8} {i n : Nat} (h : unpackH payload i = .ok n) : n ≤ 65535 := by
  unfold unpackH at h
  split at h
  · rename_i hi lo _
    obtain rfl := Except.ok.inj h
    have := hi.toNat_lt
    have := lo.toNat_lt
    omega
  · cases h

private theorem parseTransport_ok {payload : List UInt8} {request r : ParsedPacket} {proto : FlowProto}
    {headerLen totalLength : Nat} (h : parseTransport payload request proto headerLen totalLength = .ok r)
    (hm : r.malformed = none) : r.proto = request.proto ∧ ∃ n, r.dport = some n ∧ 1 ≤ n ∧ n ≤ 65535 := by
  unfold parseTransport at h
  split at h
  · obtain rfl := Except.ok.inj h; cases hm
  split at h
  · obtain rfl := Except.ok.inj h; cases hm
  obtain ⟨sport, -, h⟩ := Except.exists_of_bind_eq_ok h
  obtain ⟨dport, hdport, h⟩ := Except.exists_of_bind_eq_ok h
  dsimp only at h
  split at h
  · obtain rfl := Except.ok.inj h; cases hm
  split at h
  · obtain rfl := Except.ok.inj h; cases hm
  rename_i hd0
  have hport : 1 ≤ dport ∧ dport ≤ 65535 := ⟨by omega, unpackH_lt hdport⟩
  split at h
  · split at h
    · obtain rfl := Except.ok.inj h; cases hm
    obtain ⟨offset, -, h⟩ := Except.exists_of_bind_eq_ok h
    split at h
    · obtain rfl := Except.ok.inj h; cases hm
    obtain rfl := Except.ok.inj h
    exact ⟨rfl, dport, rfl, hport⟩
  · obtain ⟨udpLength, -, h⟩ := Except.exists_of_bind_eq_ok h
    split at h
    · obtain rfl := Except.ok.inj h; cases hm
    obtain rfl := Except.ok.inj h
    exact ⟨rfl, dport, rfl, hport⟩

theorem parsePacket_wellFormed {payload : List UInt8} {p : ParsedPacket}
    (h : parsePacket payload = .ok (some p)) (hm : p.malformed = none) : p.WellFormed := by
  unfold parsePacket at h
  split at h
  · cases h
  obtain ⟨first, -, h⟩ := Except.exists_of_bind_eq_ok h
  split at h
  · cases h
  obtain ⟨totalLength, -, h⟩ := Except.exists_of_bind_eq_ok h
  obtain ⟨protoNum, -, h⟩ := Except.exists_of_bind_eq_ok h
  obtain ⟨fragmentField, -, h⟩ := Except.exists_of_bind_eq_ok h
  obtain ⟨src, -, h⟩ := Except.exists_of_bind_eq_ok h
  obtain ⟨dst, -, h⟩ := Except.exists_of_bind_eq_ok h
  dsimp only at h
  split at h
  · obtain rfl := Option.some.inj (Except.ok.inj h); cases hm
  split at h
  · obtain rfl := Option.some.inj (Except.ok.inj h); cases hm
  · rename_i hproto
    split at h
    · obtain rfl := Option.some.inj (Except.ok.inj h); cases hm
    obtain rfl := Option.some.inj (Except.ok.inj h)
    exact ⟨.icmp, hproto, Or.inl ⟨rfl, rfl⟩⟩
  · rename_i proto hne hproto
    obtain ⟨r, hr, h⟩ := Except.exists_of_bind_eq_ok h
    obtain rfl := Option.some.inj (Except.ok.inj h)
    obtain ⟨hp, hport⟩ := parseTransport_ok hr hm
    exact ⟨proto, hp.trans hproto, Or.inr ⟨hne, hport⟩⟩

/-! ### Requests -/

/-- What a request is about: a flow, a classified DNS question, or DNS that never enters policy. -/
inductive Kind where
  | flow
  | dns (qname qtype : String)
  | dnsError (reason : String) (question : Option (String × String))
  deriving DecidableEq, Repr

/-- A request as the packet path enriches it; the last three fields are added on the CLI side. -/
structure Request extends ParsedPacket where
  source : String
  displaySource : String
  sourceLabel : Option String := none
  host : Option String := none
  kind : Kind := .flow
  promptId : Option Nat := none
  remaining : Option Nat := none
  resolvedDests : Option (List IPv4) := none
  deriving DecidableEq, Repr

/-- `request_port`; `none` is the text `any`, which port 0 gives too. -/
def requestPort (r : Request) : Option Nat :=
  match r.dport with
  | some 0 => none
  | port => port

/-- `str(request_port(request))` -/
def portText : Option Nat → String
  | some n => String.ofList (Py.decimal n)
  | none => "any"

def requestWithoutBody (r : Request) : Request := { r with body := none }

/-- A well-formed request says by its port whether it is ICMP. -/
theorem requestPort_wellFormed {r : Request} (h : r.toParsedPacket.WellFormed) :
    ∃ proto, r.proto = .flow proto ∧
      ((proto = .icmp ∧ requestPort r = none) ∨
        (proto ≠ .icmp ∧ ∃ n, requestPort r = some n ∧ r.dport = some n ∧ 1 ≤ n ∧ n ≤ 65535)) := by
  obtain ⟨proto, hp, ⟨hi, hd⟩ | ⟨hi, n, hd, h1, h2⟩⟩ := h
  · exact ⟨proto, hp, Or.inl ⟨hi, by simp [requestPort, hd]⟩⟩
  · refine ⟨proto, hp, Or.inr ⟨hi, n, ?_, hd, h1, h2⟩⟩
    unfold requestPort
    rw [hd]
    split
    · simp_all
    · rfl

end QubesSnitch
