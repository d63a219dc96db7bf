import QubesSnitch.Packets

/-!
# The packets the parser accepts

The layout of an IPv4 packet, by octet positions and without the order in which the parser looks at them:
`WellFormedHeader` is a whole, unfragmented IPv4 packet, `WellFormedTransport` a transport header that fits in it.
`parsePacket` reads every payload without an access out of range, returns no request for what is not IPv4, and leaves
`malformed` unset for exactly the packets with both (`parsePacket_reads`).
-/

namespace QubesSnitch

/-! ### The layout -/

namespace Wire

/-- The octet at position `i`; it is 0 behind the end. -/
def octet (payload : List UInt8) (i : Nat) : Nat := (payload.getD i 0).toNat

/-- The 16-bit number at position `i`, in network order. -/
def word (payload : List UInt8) (i : Nat) : Nat := octet payload i * 256 + octet payload (i + 1)

def address (payload : List UInt8) (i : Nat) : IPv4 :=
  ⟨payload.getD i 0, payload.getD (i + 1) 0, payload.getD (i + 2) 0, payload.getD (i + 3) 0⟩

def version (payload : List UInt8) : Nat := octet payload 0 / 16

def headerLength (payload : List UInt8) : Nat := 4 * (octet payload 0 % 16)

def protocol (payload : List UInt8) : Nat := octet payload 9

/-- A whole IPv4 packet that is not a fragment: its lengths are true, the reserved flag (bit 15) and the flag for more
fragments (bit 13) are clear, and it starts at offset 0. -/
structure WellFormedHeader (payload : List UInt8) : Prop where
  header_ge : 20 ≤ headerLength payload
  header_le : headerLength payload ≤ payload.length
  total : word payload 2 = payload.length
  reserved : (word payload 6).testBit 15 = false
  moreFragments : (word payload 6).testBit 13 = false
  offset : word payload 6 % 2 ^ 13 = 0

def HasPorts (payload : List UInt8) : Prop :=
  word payload (headerLength payload) ≠ 0 ∧ word payload (headerLength payload + 2) ≠ 0

/-- The length of the TCP header, from its data offset. -/
def tcpHeaderLength (payload : List UInt8) : Nat := 4 * (octet payload (headerLength payload + 12) / 16)

def WellFormedTcp (payload : List UInt8) : Prop :=
  HasPorts payload ∧ headerLength payload + 20 ≤ payload.length ∧ 20 ≤ tcpHeaderLength payload ∧
    headerLength payload + tcpHeaderLength payload ≤ payload.length

def udpLength (payload : List UInt8) : Nat := word payload (headerLength payload + 4)

def WellFormedUdp (payload : List UInt8) : Prop :=
  HasPorts payload ∧ headerLength payload + 8 ≤ payload.length ∧ 8 ≤ udpLength payload ∧
    headerLength payload + udpLength payload = payload.length

/-- The part of the transport header that policy depends on is there and fits in the packet. -/
def WellFormedTransport (payload : List UInt8) : Prop :=
  (protocol payload = 1 ∧ headerLength payload + 4 ≤ payload.length) ∨
    (protocol payload = 6 ∧ WellFormedTcp payload) ∨ (protocol payload = 17 ∧ WellFormedUdp payload)

end Wire

open Wire

/-- The fields of a request without `malformed` are those of the headers; for UDP the body is what follows them. -/
structure ParsedPacket.FieldsOf (p : ParsedPacket) (payload : List UInt8) : Prop where
  icmp : protocol payload = 1 → p.proto = .flow .icmp ∧ p.sport = none ∧ p.dport = none ∧ p.body = some []
  tcp : protocol payload = 6 → p.proto = .flow .tcp ∧ p.sport = some (word payload (headerLength payload)) ∧
    p.dport = some (word payload (headerLength payload + 2)) ∧ p.body = some []
  udp : protocol payload = 17 → p.proto = .flow .udp ∧ p.sport = some (word payload (headerLength payload)) ∧
    p.dport = some (word payload (headerLength payload + 2)) ∧
    ∃ body, p.body = some body ∧
      payload.take (headerLength payload) ++ (payload.drop (headerLength payload)).take 8 ++ body = payload

/-- What a request says about the payload it was parsed from. -/
structure ParsedPacket.ReadFrom (p : ParsedPacket) (payload : List UInt8) : Prop where
  src : p.src = address payload 12
  dst : p.dst = address payload 16
  proto : p.proto = .ofNumber (protocol payload)
  accepted : p.malformed = none ↔ WellFormedHeader payload ∧ WellFormedTransport payload
  fields : p.malformed = none → p.FieldsOf payload
  body_of_malformed : p.malformed ≠ none → p.body = some []

/-! ### Reading within the payload -/

section Reads

variable {payload : List UInt8} {i : Nat}

theorem octet_lt (payload : List UInt8) (i : Nat) : octet payload i < 256 := (payload.getD i 0).toNat_lt

theorem byteAt_eq (h : i < payload.length) : byteAt payload i = .ok (payload.getD i 0) := by
  unfold byteAt
  rw [List.getElem?_eq_getElem h, List.getD_eq_getElem _ _ h]

private theorem drop_eq_getD_cons (h : i < payload.length) :
    payload.drop i = payload.getD i 0 :: payload.drop (i + 1) := by
  rw [List.drop_eq_getElem_cons h, List.getD_eq_getElem _ _ h]

theorem unpackH_eq (h : i + 2 ≤ payload.length) : unpackH payload i = .ok (word payload i) := by
  have h0 : i < payload.length := by omega
  have h1 : i + 1 < payload.length := by omega
  unfold unpackH
  rw [drop_eq_getD_cons h0, drop_eq_getD_cons h1]
  rfl

theorem inetNtop_eq (h : i + 4 ≤ payload.length) : inetNtop payload i = .ok (address payload i) := by
  have h0 : i < payload.length := by omega
  have h1 : i + 1 < payload.length := by omega
  have h2 : i + 1 + 1 < payload.length := by omega
  have h3 : i + 1 + 1 + 1 < payload.length := by omega
  unfold inetNtop
  rw [drop_eq_getD_cons h0, drop_eq_getD_cons h1, drop_eq_getD_cons h2, drop_eq_getD_cons h3]
  rfl

end Reads

/-! ### The checks -/

private theorem reserved_iff (n : Nat) : n &&& 0x8000 = 0 ↔ n.testBit 15 = false := by
  have h : n &&& 0x8000 = (n.testBit 15).toNat * 2 ^ 15 := Nat.and_two_pow n 15
  rw [h]
  cases n.testBit 15 <;> simp

private theorem fragment_iff (n : Nat) : n &&& 0x3fff = 0 ↔ n.testBit 13 = false ∧ n % 2 ^ 13 = 0 := by
  have h : n &&& 0x3fff = n % 2 ^ 14 := Nat.and_two_pow_sub_one_eq_mod n 14
  rw [h, Nat.testBit_eq_decide_div_mod_eq, decide_eq_false_iff_not]
  omega

theorem ipHeaderFault_eq_none_iff (payload : List UInt8) :
    ipHeaderFault (headerLength payload) (word payload 2) (word payload 6) payload.length = none ↔
      WellFormedHeader payload := by
  constructor
  · intro h
    unfold ipHeaderFault at h
    split at h
    · cases h
    rename_i hlen
    split at h
    · cases h
    rename_i htotal
    split at h
    · cases h
    rename_i hreserved
    split at h
    · cases h
    rename_i hfragment
    simp only [Bool.or_eq_true, decide_eq_true_eq, not_or, not_lt] at hlen
    have hfrag := (fragment_iff _).1 (not_not.1 hfragment)
    exact ⟨hlen.1, hlen.2, not_not.1 htotal, (reserved_iff _).1 (not_not.1 hreserved), hfrag.1, hfrag.2⟩
  · intro h
    have hlen : ¬ (headerLength payload < 20 ∨ headerLength payload > payload.length) := by
      have := h.header_ge
      have := h.header_le
      omega
    unfold ipHeaderFault
    simp [hlen, h.total, (reserved_iff _).2 h.reserved, (fragment_iff _).2 ⟨h.moreFragments, h.offset⟩]

/-- What the transport checks make of a request whose malformed field is not set yet: `accepted` when the headers are
as `accepts` says, otherwise a malformed request with the same addresses and no body. -/
private structure Checked (request accepted p : ParsedPacket) (accepts : Prop) : Prop where
  base : p.src = request.src ∧ p.dst = request.dst ∧ p.proto = request.proto
  accepted_iff : p.malformed = none ↔ accepts
  result : p.malformed = none → p = accepted
  body_of_malformed : p.malformed ≠ none → p.body = some []

private theorem Checked.reject {request accepted p : ParsedPacket} {accepts : Prop}
    (hbase : p.src = request.src ∧ p.dst = request.dst ∧ p.proto = request.proto) (hm : p.malformed ≠ none)
    (hbody : p.body = some []) (h : ¬ accepts) : Checked request accepted p accepts where
  base := hbase
  accepted_iff := iff_of_false hm h
  result hnone := absurd hnone hm
  body_of_malformed _ := hbody

private theorem Checked.accept {request p : ParsedPacket} {accepts : Prop}
    (hbase : p.src = request.src ∧ p.dst = request.dst ∧ p.proto = request.proto) (hm : p.malformed = none)
    (h : accepts) : Checked request p p accepts where
  base := hbase
  accepted_iff := iff_of_true hm h
  result _ := rfl
  body_of_malformed hne := absurd hm hne

/-- The request with the two ports at position `i`. -/
private def withPorts (payload : List UInt8) (i : Nat) (request : ParsedPacket) : ParsedPacket :=
  { request with sport := some (word payload i), dport := some (word payload (i + 2)) }

/-- The bytes of the datagram behind the UDP header. -/
private def udpBody (payload : List UInt8) : List UInt8 :=
  (payload.drop (headerLength payload + 8)).take (udpLength payload - 8)

section Transport

variable {payload : List UInt8} {request : ParsedPacket}

private theorem parseTransport_tcp (hm : request.malformed = none) (hbody : request.body = some []) :
    ∃ p, parseTransport payload request .tcp (headerLength payload) payload.length = .ok p ∧
      Checked request (withPorts payload (headerLength payload) request) p (WellFormedTcp payload) := by
  unfold parseTransport
  split
  · rename_i h4
    have hnot : ¬ WellFormedTcp payload := by
      intro h
      have := h.2.1
      omega
    exact ⟨_, rfl, .reject ⟨rfl, rfl, rfl⟩ (by simp) hbody hnot⟩
  rename_i h4
  rw [unpackH_eq (i := headerLength payload) (by omega), unpackH_eq (i := headerLength payload + 2) (by omega)]
  dsimp only [bind, Except.bind]
  split
  · rename_i h8
    simp at h8
  split
  · rename_i hsport
    have hnot : ¬ WellFormedTcp payload := fun h => h.1.1 hsport
    exact ⟨_, rfl, .reject ⟨rfl, rfl, rfl⟩ (by simp) hbody hnot⟩
  split
  · rename_i hdport
    have hnot : ¬ WellFormedTcp payload := fun h => h.1.2 hdport
    exact ⟨_, rfl, .reject ⟨rfl, rfl, rfl⟩ (by simp) hbody hnot⟩
  rename_i hsport hdport
  simp only [if_true]
  split
  · rename_i h20
    have hnot : ¬ WellFormedTcp payload := by
      intro h
      have := h.2.1
      omega
    exact ⟨_, rfl, .reject ⟨rfl, rfl, rfl⟩ (by simp) hbody hnot⟩
  rename_i h20
  rw [byteAt_eq (by omega)]
  have hoffset : ((payload.getD (headerLength payload + 12) 0).toNat >>> 4) * 4 = tcpHeaderLength payload := by
    rw [Nat.shiftRight_eq_div_pow, Nat.mul_comm]
    rfl
  simp only [hoffset]
  split
  · rename_i hlen
    simp only [Bool.or_eq_true, decide_eq_true_eq] at hlen
    have hnot : ¬ WellFormedTcp payload := by
      intro h
      have := h.2.2
      omega
    exact ⟨_, rfl, .reject ⟨rfl, rfl, rfl⟩ (by simp) hbody hnot⟩
  · rename_i hlen
    simp only [Bool.or_eq_true, decide_eq_true_eq, not_or, not_lt] at hlen
    exact ⟨_, rfl, .accept ⟨rfl, rfl, rfl⟩ hm ⟨⟨hsport, hdport⟩, by omega, hlen.1, hlen.2⟩⟩

private theorem parseTransport_udp (hm : request.malformed = none) (hbody : request.body = some []) :
    ∃ p, parseTransport payload request .udp (headerLength payload) payload.length = .ok p ∧
      Checked request { withPorts payload (headerLength payload) request with body := some (udpBody payload) } p
        (WellFormedUdp payload) := by
  unfold parseTransport
  split
  · rename_i h4
    have hnot : ¬ WellFormedUdp payload := by
      intro h
      have := h.2.1
      omega
    exact ⟨_, rfl, .reject ⟨rfl, rfl, rfl⟩ (by simp) hbody hnot⟩
  rename_i h4
  split
  · rename_i h8
    simp only [Bool.and_eq_true, decide_eq_true_eq] at h8
    have hnot : ¬ WellFormedUdp payload := by
      intro h
      have := h.2.1
      omega
    exact ⟨_, rfl, .reject ⟨rfl, rfl, rfl⟩ (by simp) hbody hnot⟩
  rename_i h8
  simp only [decide_true, Bool.true_and, decide_eq_true_eq, not_lt] at h8
  rw [unpackH_eq (i := headerLength payload) (by omega), unpackH_eq (i := headerLength payload + 2) (by omega)]
  dsimp only [bind, Except.bind]
  split
  · rename_i hsport
    have hnot : ¬ WellFormedUdp payload := fun h => h.1.1 hsport
    exact ⟨_, rfl, .reject ⟨rfl, rfl, rfl⟩ (by simp) hbody hnot⟩
  split
  · rename_i hdport
    have hnot : ¬ WellFormedUdp payload := fun h => h.1.2 hdport
    exact ⟨_, rfl, .reject ⟨rfl, rfl, rfl⟩ (by simp) hbody hnot⟩
  rename_i hsport hdport
  rw [if_neg (by decide), unpackH_eq (i := headerLength payload + 4) (by omega)]
  dsimp only
  split
  · rename_i hlen
    simp only [Bool.or_eq_true, decide_eq_true_eq] at hlen
    have hnot : ¬ WellFormedUdp payload := by
      intro h
      have h1 : 8 ≤ word payload (headerLength payload + 4) := h.2.2.1
      have h2 : headerLength payload + word payload (headerLength payload + 4) = payload.length := h.2.2.2
      omega
    exact ⟨_, rfl, .reject ⟨rfl, rfl, rfl⟩ (by simp) hbody hnot⟩
  · rename_i hlen
    simp only [Bool.or_eq_true, decide_eq_true_eq, not_or, not_lt, not_not] at hlen
    exact ⟨_, rfl, .accept ⟨rfl, rfl, rfl⟩ hm ⟨⟨hsport, hdport⟩, h8, hlen.1, hlen.2⟩⟩

end Transport

/-! ### The whole packet -/

private theorem udp_concat {payload : List UInt8} (h : WellFormedUdp payload) :
    payload.take (headerLength payload) ++ (payload.drop (headerLength payload)).take 8 ++ udpBody payload = payload := by
  have hend : headerLength payload + 8 + (udpLength payload - 8) = payload.length := by
    have h8 := h.2.2.1
    have htotal := h.2.2.2
    omega
  have hbody : udpBody payload = payload.drop (headerLength payload + 8) := by
    rw [udpBody, List.take_of_length_le]
    rw [List.length_drop]
    omega
  rw [hbody, ← List.take_add, List.take_append_drop]

private theorem ofNumber_flow {n : Nat} {proto : FlowProto} (h : Proto.ofNumber n = .flow proto) :
    (proto = .icmp ∧ n = 1) ∨ (proto = .tcp ∧ n = 6) ∨ (proto = .udp ∧ n = 17) := by
  unfold Proto.ofNumber at h
  split at h
  · exact Or.inl ⟨(Proto.flow.inj h).symm, by assumption⟩
  split at h
  · exact Or.inr (Or.inl ⟨(Proto.flow.inj h).symm, by assumption⟩)
  split at h
  · exact Or.inr (Or.inr ⟨(Proto.flow.inj h).symm, by assumption⟩)
  · cases h

private theorem ofNumber_number {n m : Nat} (h : Proto.ofNumber n = .number m) : n ≠ 1 ∧ n ≠ 6 ∧ n ≠ 17 := by
  unfold Proto.ofNumber at h
  split at h
  · cases h
  split at h
  · cases h
  split at h
  · cases h
  · exact ⟨by assumption, by assumption, by assumption⟩

/-- The transport part of a packet whose IPv4 header is well formed, for each protocol. -/
private theorem readFrom_of_checked {payload : List UInt8} {request accepted p : ParsedPacket}
    (hheader : WellFormedHeader payload) {accepts : Prop} (hp : Checked request accepted p accepts)
    (hsrc : request.src = address payload 12) (hdst : request.dst = address payload 16)
    (hproto : request.proto = .ofNumber (protocol payload)) (haccepts : accepts ↔ WellFormedTransport payload)
    (hfields : accepts → accepted.FieldsOf payload) : p.ReadFrom payload where
  src := hp.base.1.trans hsrc
  dst := hp.base.2.1.trans hdst
  proto := hp.base.2.2.trans hproto
  accepted := by
    rw [hp.accepted_iff, haccepts]
    exact ⟨fun h => ⟨hheader, h⟩, fun h => h.2⟩
  fields hm := by
    rw [hp.result hm]
    exact hfields (hp.accepted_iff.1 hm)
  body_of_malformed := hp.body_of_malformed

/-- What the parser has read before it looks at the transport header. -/
private def headerRequest (payload : List UInt8) : ParsedPacket :=
  { src := address payload 12, dst := address payload 16, proto := .ofNumber (protocol payload) }

private theorem readFrom_rejected {payload : List UInt8} (reason : String)
    (hnot : ¬ (WellFormedHeader payload ∧ WellFormedTransport payload)) :
    ParsedPacket.ReadFrom { headerRequest payload with malformed := some reason } payload where
  src := rfl
  dst := rfl
  proto := rfl
  accepted := iff_of_false (by simp) hnot
  fields := by simp
  body_of_malformed := fun _ => rfl

/-- The part of `parsePacket` after the IPv4 header. -/
private def readTransport (payload : List UInt8) : Except PyError (Option ParsedPacket) := do
  let request := headerRequest payload
  match request.proto with
  | .number _ => return some { request with malformed := some "unsupported ipv4 protocol" }
  | .flow .icmp =>
    if payload.length < headerLength payload + 4 then
      return some { request with malformed := some "missing icmp header" }
    return some request
  | .flow proto => return some (← parseTransport payload request proto (headerLength payload) (word payload 2))

private theorem shiftRight_version (payload : List UInt8) : (payload.getD 0 0).toNat >>> 4 = version payload :=
  Nat.shiftRight_eq_div_pow _ 4

private theorem parsePacket_of_ipv4 {payload : List UInt8} (hlen : 20 ≤ payload.length) (hv : version payload = 4) :
    parsePacket payload = match ipHeaderFault (headerLength payload) (word payload 2) (word payload 6) payload.length with
      | some reason => .ok (some { headerRequest payload with malformed := some reason })
      | none => readTransport payload := by
  have hheaderLen : ((payload.getD 0 0).toNat &&& 15) * 4 = headerLength payload := by
    have : (payload.getD 0 0).toNat &&& 15 = (payload.getD 0 0).toNat % 16 := Nat.and_two_pow_sub_one_eq_mod _ 4
    rw [this, Nat.mul_comm]
    rfl
  unfold parsePacket
  rw [if_neg (by omega), byteAt_eq (i := 0) (by omega)]
  dsimp only [bind, Except.bind]
  rw [shiftRight_version, hheaderLen, if_neg (not_not.2 hv), unpackH_eq (i := 2) (by omega), byteAt_eq (i := 9) (by omega),
    unpackH_eq (i := 6) (by omega), inetNtop_eq (i := 12) (by omega), inetNtop_eq (i := 16) (by omega)]
  rfl

private theorem readTransport_icmp {payload : List UInt8} (hheader : WellFormedHeader payload)
    (hicmp : Proto.ofNumber (protocol payload) = .flow .icmp) (h1 : protocol payload = 1) :
    ∃ p, readTransport payload = .ok (some p) ∧ p.ReadFrom payload := by
  have htransport : WellFormedTransport payload ↔ headerLength payload + 4 ≤ payload.length := by
    unfold WellFormedTransport
    simp [h1]
  simp only [readTransport, headerRequest, hicmp]
  split
  · rename_i hshort
    have hnot : ¬ WellFormedTransport payload := by
      rw [htransport]
      omega
    rw [← hicmp]
    exact ⟨_, rfl, readFrom_rejected _ fun h => hnot h.2⟩
  · rename_i hfits
    have haccepted : WellFormedHeader payload ∧ WellFormedTransport payload :=
      ⟨hheader, htransport.2 (not_lt.1 hfits)⟩
    exact ⟨_, rfl, rfl, rfl, hicmp.symm, iff_of_true rfl haccepted,
      fun _ => ⟨fun _ => ⟨rfl, rfl, rfl, rfl⟩, by omega, by omega⟩, by simp⟩

private theorem readTransport_flow {payload : List UInt8} {proto : FlowProto} {p : ParsedPacket}
    (hheader : WellFormedHeader payload) (hproto : Proto.ofNumber (protocol payload) = .flow proto)
    (hne : proto ≠ .icmp)
    (hp : parseTransport payload (headerRequest payload) proto (headerLength payload) payload.length = .ok p) :
    readTransport payload = .ok (some p) := by
  simp only [readTransport, headerRequest, hproto, hheader.total] at hp ⊢
  cases proto with
  | icmp => exact absurd rfl hne
  | tcp | udp =>
    rw [hp]
    rfl

private theorem readTransport_reads {payload : List UInt8} (hheader : WellFormedHeader payload) :
    ∃ p, readTransport payload = .ok (some p) ∧ p.ReadFrom payload := by
  cases hproto : Proto.ofNumber (protocol payload) with
  | number n =>
    have hother := ofNumber_number hproto
    have hnot : ¬ WellFormedTransport payload := by
      rintro (h | h | h)
      · exact hother.1 h.1
      · exact hother.2.1 h.1
      · exact hother.2.2 h.1
    refine ⟨{ headerRequest payload with malformed := some "unsupported ipv4 protocol" }, ?_,
      readFrom_rejected _ fun h => hnot h.2⟩
    simp only [readTransport, headerRequest, hproto]
    rfl
  | flow proto =>
    obtain ⟨rfl, h1⟩ | ⟨rfl, h6⟩ | ⟨rfl, h17⟩ := ofNumber_flow hproto
    · exact readTransport_icmp hheader hproto h1
    · obtain ⟨p, hp, hchecked⟩ := @parseTransport_tcp payload (headerRequest payload) rfl rfl
      have htransport : WellFormedTcp payload ↔ WellFormedTransport payload := by
        unfold WellFormedTransport
        simp [h6]
      refine ⟨p, readTransport_flow hheader hproto (by decide) hp,
        readFrom_of_checked hheader hchecked rfl rfl rfl htransport fun _ => ?_⟩
      exact ⟨by omega, fun _ => ⟨hproto, rfl, rfl, rfl⟩, by omega⟩
    · obtain ⟨p, hp, hchecked⟩ := @parseTransport_udp payload (headerRequest payload) rfl rfl
      have htransport : WellFormedUdp payload ↔ WellFormedTransport payload := by
        unfold WellFormedTransport
        simp [h17]
      refine ⟨p, readTransport_flow hheader hproto (by decide) hp,
        readFrom_of_checked hheader hchecked rfl rfl rfl htransport fun h => ?_⟩
      exact ⟨by omega, by omega, fun _ => ⟨hproto, rfl, rfl, _, rfl, udp_concat h⟩⟩

/-- Every payload is read: without an IPv4 packet there is no request, otherwise the request says what the headers
say. -/
theorem parsePacket_reads (payload : List UInt8) :
    (parsePacket payload = .ok none ∧ (payload.length < 20 ∨ version payload ≠ 4)) ∨
      ∃ p, parsePacket payload = .ok (some p) ∧ (20 ≤ payload.length ∧ version payload = 4) ∧ p.ReadFrom payload := by
  by_cases hlen : payload.length < 20
  · exact Or.inl ⟨by simp [parsePacket, hlen, pure, Except.pure], Or.inl hlen⟩
  by_cases hv : version payload = 4
  · rw [parsePacket_of_ipv4 (not_lt.1 hlen) hv]
    refine Or.inr ?_
    split
    · rename_i reason hfault
      have hnot : ¬ WellFormedHeader payload := by
        intro h
        rw [(ipHeaderFault_eq_none_iff payload).2 h] at hfault
        cases hfault
      exact ⟨_, rfl, ⟨not_lt.1 hlen, hv⟩, readFrom_rejected reason fun h => hnot h.1⟩
    · rename_i hfault
      obtain ⟨p, hp, hread⟩ := readTransport_reads ((ipHeaderFault_eq_none_iff payload).1 hfault)
      exact ⟨p, hp, ⟨not_lt.1 hlen, hv⟩, hread⟩
  · refine Or.inl ⟨?_, Or.inr hv⟩
    unfold parsePacket
    rw [if_neg hlen, byteAt_eq (i := 0) (by omega)]
    dsimp only [bind, Except.bind]
    rw [shiftRight_version, if_pos hv]
    rfl

/-- The parser accepts exactly the well-formed, unfragmented IPv4 packets of TCP, UDP and ICMP, and reads their
fields. -/
theorem parsePacket_accepts_wellFormed (payload : List UInt8) :
    (∃ result, parsePacket payload = .ok result) ∧
      (parsePacket payload = .ok none ↔ payload.length < 20 ∨ version payload ≠ 4) ∧
      ∀ p, parsePacket payload = .ok (some p) →
        (p.malformed = none ↔ WellFormedHeader payload ∧ WellFormedTransport payload) ∧
        (p.malformed = none → p.src = address payload 12 ∧ p.dst = address payload 16 ∧ p.FieldsOf payload) ∧
        (p.malformed ≠ none → p.body = some []) := by
  obtain ⟨h, hnot⟩ | ⟨p, h, his, hp⟩ := parsePacket_reads payload
  · refine ⟨⟨_, h⟩, iff_of_true h hnot, fun p hp => ?_⟩
    rw [h] at hp
    cases hp
  · refine ⟨⟨_, h⟩, iff_of_false (by simp [h]) (by omega), fun q hq => ?_⟩
    obtain rfl : q = p := by
      rw [h] at hq
      exact (Option.some.inj (Except.ok.inj hq)).symm
    exact ⟨hp.accepted, fun hm => ⟨hp.src, hp.dst, hp.fields hm⟩, hp.body_of_malformed⟩

end QubesSnitch
