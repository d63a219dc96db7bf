import QubesSnitch.PacketFormat
import QubesSnitch.Lib.OnesComplement

/-!
# The synthetic DNS reply

A rejected question is answered with a REFUSED message in a fresh UDP packet.  dnspython writes the message; the
headers around it and the two checksums are the program's own.  The checksum is the one's-complement sum of the
16-bit words, complemented (`inetChecksum_eq`), so a packet that carries it sums to all ones, and what
`dnsRejectPayload` builds is a packet that `parsePacket` accepts.
-/

namespace QubesSnitch

/-! ### Checksums -/

/-- `struct.unpack(f"!{len(data) // 2}H", data)` for an even number of bytes. -/
def unpackWords : List UInt8 → List Nat
  | hi :: lo :: rest => (hi.toNat * 256 + lo.toNat) :: unpackWords rest
  | _ => []

/-- One round of the loop of `inet_checksum`. -/
def foldCarry (total : Nat) : Nat := (total &&& 0xffff) + (total >>> 16)

theorem foldCarry_eq_carry (total : Nat) : foldCarry total = OnesComplement.carry 16 total := by
  have hlow : total &&& 0xffff = total % 2 ^ 16 := Nat.and_two_pow_sub_one_eq_mod total 16
  rw [foldCarry, hlow, Nat.shiftRight_eq_div_pow]
  rfl

/-- `while total >> 16` -/
def foldCarries (total : Nat) : Nat :=
  if total >>> 16 = 0 then total else foldCarries (foldCarry total)
termination_by total
decreasing_by
  rename_i h
  rw [foldCarry_eq_carry]
  rw [Nat.shiftRight_eq_div_pow] at h
  exact OnesComplement.carry_lt_self (by decide) (Nat.le_of_not_lt fun hlt => h (Nat.div_eq_of_lt hlt))

def inetChecksum (data : List UInt8) : Nat :=
  let data := if data.length % 2 = 1 then data ++ [0] else data
  let total := foldCarries (unpackWords data).sum
  -- the complement of Python's unbounded integers, cut to 16 bits
  0xffff - total % 0x10000

/-- `struct.pack("!H", n)` -/
def packH (n : Nat) : Except PyError (List UInt8) :=
  if n ≤ 0xffff then .ok [UInt8.ofNat (n / 256), UInt8.ofNat n] else .error .structError

/-- `address.packed` -/
def IPv4.packed (x : IPv4) : List UInt8 := [x.a, x.b, x.c, x.d]

def pseudoHeader (src dst : IPv4) (udpLength : Nat) : Except PyError (List UInt8) := do
  return src.packed ++ dst.packed ++ [0, 17] ++ (← packH udpLength)

def udpChecksum (src dst : IPv4) (udpPacket : List UInt8) : Except PyError Nat := do
  let pseudo ← pseudoHeader src dst udpPacket.length
  let checksum := inetChecksum (pseudo ++ udpPacket)
  return if checksum = 0 then 0xffff else checksum

/-! ### The packet -/

/-- `struct.pack("!HHHH", sport, dport, length, checksum)`; a port that is `None` cannot be packed. -/
def packUdpHeader (sport dport : Option Nat) (length checksum : Nat) : Except PyError (List UInt8) := do
  let some sport := sport | throw .structError
  let some dport := dport | throw .structError
  return (← packH sport) ++ (← packH dport) ++ (← packH length) ++ (← packH checksum)

/-- `struct.pack("!BBHHHBBH4s4s", 0x45, 0, total_length, query_id, reply_flags, 64, IPPROTO_UDP, checksum, …)` -/
def packIpHeader (totalLength queryId replyFlags checksum : Nat) (src dst : IPv4) : Except PyError (List UInt8) := do
  return [0x45, 0] ++ (← packH totalLength) ++ (← packH queryId) ++ (← packH replyFlags) ++ [64, 17] ++
    (← packH checksum) ++ src.packed ++ dst.packed

/-- The id and the DF bit of the query. -/
def queryIdFlags (payload : List UInt8) : Except PyError (Nat × Nat) :=
  if payload.length ≥ 8 then do
    let queryId ← unpackH payload 4
    let fragmentField ← unpackH payload 6
    return (queryId, fragmentField &&& 0x4000)
  else return (0, 0)

/-- `refused` is what dnspython makes of the query's body: the wire format of the REFUSED response, or an exception. -/
def dnsRejectPayload (refused : List UInt8 → Except PyError (List UInt8)) (payload : List UInt8)
    (request : ParsedPacket) : Except PyError (List UInt8) := do
  let some body := request.body | throw (.keyError "body")
  let wire ← refused body
  let udpLength := 8 + wire.length
  let udpWithoutChecksum := (← packUdpHeader request.dport request.sport udpLength 0) ++ wire
  let checksum ← udpChecksum request.dst request.src udpWithoutChecksum
  let udpPacket := (← packUdpHeader request.dport request.sport udpLength checksum) ++ wire
  let totalLength := 20 + udpPacket.length
  let (queryId, replyFlags) ← queryIdFlags payload
  let headerWithoutChecksum ← packIpHeader totalLength queryId replyFlags 0 request.dst request.src
  let header ← packIpHeader totalLength queryId replyFlags (inetChecksum headerWithoutChecksum) request.dst request.src
  return header ++ udpPacket

/-! ### What the checksums are for -/

namespace Wire

/-- The 16-bit words of a byte string, an odd byte at the end followed by a zero byte. -/
def words : List UInt8 → List Nat
  | hi :: lo :: rest => (hi.toNat * 256 + lo.toNat) :: words rest
  | [hi] => [hi.toNat * 256]
  | [] => []

/-- The one's-complement sum that receivers check. -/
def onesSum (bytes : List UInt8) : Nat := OnesComplement.sum 16 (words bytes)

/-- What stands for the IPv4 header in the UDP checksum: the addresses, the protocol and the length of the datagram. -/
def pseudoHeader (payload : List UInt8) : List UInt8 :=
  (payload.drop 12).take 8 ++ [0, payload.getD 9 0] ++ (payload.drop (headerLength payload + 4)).take 2

/-- The checksums of the IPv4 header and of the UDP datagram, which must have one. -/
structure ValidChecksums (payload : List UInt8) : Prop where
  header : onesSum (payload.take (headerLength payload)) = 0xffff
  datagram : onesSum (pseudoHeader payload ++ payload.drop (headerLength payload)) = 0xffff
  present : word payload (headerLength payload + 6) ≠ 0

end Wire

open Wire

theorem words_lt (bytes : List UInt8) : ∀ x ∈ words bytes, x < 2 ^ 16 := by
  fun_induction words bytes with
  | case1 hi lo rest ih =>
    intro x hx
    rcases List.mem_cons.1 hx with rfl | hx
    · have := hi.toNat_lt
      have := lo.toNat_lt
      omega
    · exact ih x hx
  | case2 hi =>
    intro x hx
    obtain rfl := List.mem_singleton.1 hx
    have := hi.toNat_lt
    omega
  | case3 => simp

private theorem unpackWords_padded (data : List UInt8) :
    unpackWords (if data.length % 2 = 1 then data ++ [0] else data) = words data := by
  fun_induction words data with
  | case1 hi lo rest ih =>
    have hlen : (hi :: lo :: rest).length % 2 = rest.length % 2 := by
      rw [List.length_cons, List.length_cons]
      omega
    rw [hlen, ← ih]
    split <;> rfl
  | case2 hi => simp [unpackWords]
  | case3 => rfl

/-- The loop runs while there is something to carry, and ends with a 16-bit number. -/
theorem foldCarries_rounds (total : Nat) :
    ∃ rounds, (∀ j < rounds, 2 ^ 16 ≤ foldCarry^[j] total) ∧ foldCarry^[rounds] total = foldCarries total ∧
      foldCarries total < 2 ^ 16 := by
  fun_induction foldCarries total with
  | case1 total h =>
    rw [Nat.shiftRight_eq_div_pow] at h
    refine ⟨0, by simp, rfl, ?_⟩
    omega
  | case2 total h ih =>
    rw [Nat.shiftRight_eq_div_pow] at h
    obtain ⟨rounds, hrun, hend, hlt⟩ := ih
    refine ⟨rounds + 1, fun j hj => ?_, hend, hlt⟩
    cases j with
    | zero =>
      show 2 ^ 16 ≤ total
      omega
    | succ j => exact hrun j (by omega)

private theorem foldCarry_eq : foldCarry = OnesComplement.carry 16 := funext foldCarry_eq_carry

/-- The checksum is the complement of the one's-complement sum. -/
theorem inetChecksum_eq (data : List UInt8) : inetChecksum data = 0xffff - onesSum data := by
  obtain ⟨rounds, -, hend, hlt⟩ := foldCarries_rounds (words data).sum
  have hsum : foldCarries (words data).sum = onesSum data := by
    rw [foldCarry_eq] at hend
    rw [← hend] at hlt ⊢
    exact OnesComplement.iterate_carry_eq_sum (words_lt data) hlt
  unfold inetChecksum
  simp only [unpackWords_padded]
  rw [show (0x10000 : Nat) = 2 ^ 16 from rfl, Nat.mod_eq_of_lt hlt, hsum]

theorem inetChecksum_le (data : List UInt8) : inetChecksum data ≤ 0xffff := by
  rw [inetChecksum_eq]
  omega

/-! ### The bytes of the reply -/

/-- A 16-bit number in network order. -/
private def be16 (n : Nat) : List UInt8 := [UInt8.ofNat (n / 256), UInt8.ofNat n]

private def ipHeader (totalLength queryId replyFlags checksum : Nat) (src dst : IPv4) : List UInt8 :=
  [0x45, 0] ++ be16 totalLength ++ be16 queryId ++ be16 replyFlags ++ [64, 17] ++ be16 checksum ++ src.packed ++ dst.packed

private def udpHeader (sport dport length checksum : Nat) : List UInt8 :=
  be16 sport ++ be16 dport ++ be16 length ++ be16 checksum

private theorem packH_eq {n : Nat} (h : n ≤ 0xffff) : packH n = .ok (be16 n) := if_pos h

private theorem be16_word {n : Nat} (h : n ≤ 0xffff) :
    (UInt8.ofNat (n / 256)).toNat * 256 + (UInt8.ofNat n).toNat = n := by
  rw [UInt8.toNat_ofNat', UInt8.toNat_ofNat']
  omega

private theorem packIpHeader_eq {totalLength queryId replyFlags checksum : Nat} (src dst : IPv4)
    (ht : totalLength ≤ 0xffff) (hi : queryId ≤ 0xffff) (hf : replyFlags ≤ 0xffff) (hc : checksum ≤ 0xffff) :
    packIpHeader totalLength queryId replyFlags checksum src dst =
      .ok (ipHeader totalLength queryId replyFlags checksum src dst) := by
  unfold packIpHeader
  rw [packH_eq ht, packH_eq hi, packH_eq hf, packH_eq hc]
  rfl

private theorem packUdpHeader_eq {sport dport length checksum : Nat} (hs : sport ≤ 0xffff) (hd : dport ≤ 0xffff)
    (hl : length ≤ 0xffff) (hc : checksum ≤ 0xffff) :
    packUdpHeader (some sport) (some dport) length checksum = .ok (udpHeader sport dport length checksum) := by
  unfold packUdpHeader
  dsimp only
  rw [packH_eq hs, packH_eq hd, packH_eq hl, packH_eq hc]
  rfl

private theorem pseudoHeader_eq {length : Nat} (src dst : IPv4) (hl : length ≤ 0xffff) :
    QubesSnitch.pseudoHeader src dst length = .ok (src.packed ++ dst.packed ++ [0, 17] ++ be16 length) := by
  unfold QubesSnitch.pseudoHeader
  rw [packH_eq hl]
  rfl

/-- The two words of an address. -/
private def IPv4.words (x : IPv4) : List Nat := [x.a.toNat * 256 + x.b.toNat, x.c.toNat * 256 + x.d.toNat]

private theorem words_ipHeader {totalLength queryId replyFlags checksum : Nat} (src dst : IPv4)
    (ht : totalLength ≤ 0xffff) (hi : queryId ≤ 0xffff) (hf : replyFlags ≤ 0xffff) (hc : checksum ≤ 0xffff) :
    words (ipHeader totalLength queryId replyFlags checksum src dst) =
      [0x4500, totalLength, queryId, replyFlags, 0x4011, checksum] ++ src.words ++ dst.words := by
  simp only [ipHeader, be16, IPv4.packed, IPv4.words, List.cons_append, List.nil_append, words, be16_word ht,
    be16_word hi, be16_word hf, be16_word hc]
  rfl

private theorem words_datagram {sport dport length checksum : Nat} (src dst : IPv4) (wire : List UInt8)
    (hs : sport ≤ 0xffff) (hd : dport ≤ 0xffff) (hl : length ≤ 0xffff) (hc : checksum ≤ 0xffff) :
    words (src.packed ++ dst.packed ++ [0, 17] ++ be16 length ++ (udpHeader sport dport length checksum ++ wire)) =
      src.words ++ dst.words ++ [17, length, sport, dport, length, checksum] ++ words wire := by
  simp only [udpHeader, be16, IPv4.packed, IPv4.words, List.cons_append, List.nil_append, words, be16_word hs,
    be16_word hd, be16_word hl, be16_word hc]
  rfl

/-- The header with its checksum sums to all ones. -/
private theorem onesSum_ipHeader {totalLength queryId replyFlags : Nat} (src dst : IPv4)
    (ht : totalLength ≤ 0xffff) (hi : queryId ≤ 0xffff) (hf : replyFlags ≤ 0xffff) :
    onesSum (ipHeader totalLength queryId replyFlags
      (inetChecksum (ipHeader totalLength queryId replyFlags 0 src dst)) src dst) = 0xffff := by
  have hc := inetChecksum_le (ipHeader totalLength queryId replyFlags 0 src dst)
  have hsum := inetChecksum_eq (ipHeader totalLength queryId replyFlags 0 src dst)
  refine OnesComplement.sum_complement (by decide) (words_lt (ipHeader totalLength queryId replyFlags 0 src dst))
    (words_lt _) (congrArg (· % OnesComplement.ones 16) hsum) ?_ ?_
  · rw [words_ipHeader src dst ht hi hf hc, words_ipHeader src dst ht hi hf (by decide)]
    simp only [List.sum_append, List.sum_cons, List.sum_nil]
    omega
  · rw [words_ipHeader src dst ht hi hf hc]
    simp only [List.sum_append, List.sum_cons, List.sum_nil]
    omega

/-- The datagram with its checksum sums to all ones, together with the pseudo header, and the checksum is not 0. -/
private theorem udpChecksum_spec {sport dport : Nat} (src dst : IPv4) (wire : List UInt8) (hs : sport ≤ 0xffff)
    (hd : dport ≤ 0xffff) (hl : 8 + wire.length ≤ 0xffff) :
    ∃ checksum, udpChecksum src dst (udpHeader sport dport (8 + wire.length) 0 ++ wire) = .ok checksum ∧
      checksum ≤ 0xffff ∧ checksum ≠ 0 ∧
      onesSum (src.packed ++ dst.packed ++ [0, 17] ++ be16 (8 + wire.length) ++
        (udpHeader sport dport (8 + wire.length) checksum ++ wire)) = 0xffff := by
  have hlen : (udpHeader sport dport (8 + wire.length) 0 ++ wire).length = 8 + wire.length := List.length_append
  let data := src.packed ++ dst.packed ++ [0, 17] ++ be16 (8 + wire.length) ++
    (udpHeader sport dport (8 + wire.length) 0 ++ wire)
  let checksum := if inetChecksum data = 0 then 0xffff else inetChecksum data
  have hle : checksum ≤ 0xffff := by
    have := inetChecksum_le data
    show (if inetChecksum data = 0 then 0xffff else inetChecksum data) ≤ 0xffff
    split <;> omega
  have hne : checksum ≠ 0 := by
    show (if inetChecksum data = 0 then 0xffff else inetChecksum data) ≠ 0
    split <;> omega
  -- the substitution of all ones for 0 changes the number and not its residue
  have hmod : checksum ≡ 0xffff - onesSum data [MOD OnesComplement.ones 16] := by
    rw [← inetChecksum_eq]
    show (if inetChecksum data = 0 then 0xffff else inetChecksum data) ≡ _ [MOD OnesComplement.ones 16]
    split
    · rename_i h0
      rw [h0]
      rfl
    · rfl
  refine ⟨checksum, ?_, hle, hne, ?_⟩
  · unfold udpChecksum
    rw [hlen, pseudoHeader_eq src dst hl]
    rfl
  · refine OnesComplement.sum_complement (by decide) (words_lt data) (words_lt _) hmod ?_ ?_
    · rw [words_datagram src dst wire hs hd hl hle, words_datagram src dst wire hs hd hl (by decide)]
      simp only [List.sum_append, List.sum_cons, List.sum_nil]
      omega
    · rw [words_datagram src dst wire hs hd hl hle]
      simp only [List.sum_append, List.sum_cons, List.sum_nil]
      omega

/-! ### The reply -/

private def replyOf (totalLength queryId replyFlags : Nat) (src dst : IPv4) (sport dport udpLength checksum : Nat)
    (wire : List UInt8) : List UInt8 :=
  ipHeader totalLength queryId replyFlags (inetChecksum (ipHeader totalLength queryId replyFlags 0 src dst)) src dst ++
    (udpHeader sport dport udpLength checksum ++ wire)

private theorem word_cons_be16 {n : Nat} (h : n ≤ 0xffff) {payload : List UInt8} {i : Nat}
    (hhi : payload.getD i 0 = UInt8.ofNat (n / 256)) (hlo : payload.getD (i + 1) 0 = UInt8.ofNat n) :
    word payload i = n := by
  unfold word octet
  rw [hhi, hlo]
  exact be16_word h

section Reply

variable {totalLength queryId flags sport dport udpLength checksum : Nat} {src dst : IPv4} {wire : List UInt8}

private theorem replyOf_length : (replyOf totalLength queryId flags src dst sport dport udpLength checksum wire).length =
    20 + (8 + wire.length) := by
  rw [replyOf, List.length_append, List.length_append]
  rfl

private theorem replyOf_first :
    octet (replyOf totalLength queryId flags src dst sport dport udpLength checksum wire) 0 = 0x45 := by
  have h : (replyOf totalLength queryId flags src dst sport dport udpLength checksum wire).getD 0 0 = 0x45 := rfl
  rw [octet, h]
  rfl

private theorem replyOf_headerLength :
    headerLength (replyOf totalLength queryId flags src dst sport dport udpLength checksum wire) = 20 := by
  rw [headerLength, replyOf_first]

private theorem replyOf_version :
    version (replyOf totalLength queryId flags src dst sport dport udpLength checksum wire) = 4 := by
  rw [version, replyOf_first]

private theorem replyOf_protocol :
    protocol (replyOf totalLength queryId flags src dst sport dport udpLength checksum wire) = 17 := by
  have h : (replyOf totalLength queryId flags src dst sport dport udpLength checksum wire).getD 9 0 = 17 := rfl
  rw [protocol, octet, h]
  rfl

private theorem replyOf_total (h : totalLength ≤ 0xffff) :
    word (replyOf totalLength queryId flags src dst sport dport udpLength checksum wire) 2 = totalLength :=
  word_cons_be16 h rfl rfl

private theorem replyOf_id (h : queryId ≤ 0xffff) :
    word (replyOf totalLength queryId flags src dst sport dport udpLength checksum wire) 4 = queryId :=
  word_cons_be16 h rfl rfl

private theorem replyOf_flags (h : flags ≤ 0xffff) :
    word (replyOf totalLength queryId flags src dst sport dport udpLength checksum wire) 6 = flags :=
  word_cons_be16 h rfl rfl

private theorem replyOf_sport (h : sport ≤ 0xffff) :
    word (replyOf totalLength queryId flags src dst sport dport udpLength checksum wire) 20 = sport :=
  word_cons_be16 h rfl rfl

private theorem replyOf_dport (h : dport ≤ 0xffff) :
    word (replyOf totalLength queryId flags src dst sport dport udpLength checksum wire) 22 = dport :=
  word_cons_be16 h rfl rfl

private theorem replyOf_udpLength (h : udpLength ≤ 0xffff) :
    word (replyOf totalLength queryId flags src dst sport dport udpLength checksum wire) 24 = udpLength :=
  word_cons_be16 h rfl rfl

private theorem replyOf_checksum (h : checksum ≤ 0xffff) :
    word (replyOf totalLength queryId flags src dst sport dport udpLength checksum wire) 26 = checksum :=
  word_cons_be16 h rfl rfl

end Reply

private theorem dontFragment_le (n : Nat) : n &&& 0x4000 ≤ 0xffff := le_trans Nat.and_le_right (by decide)

/-- A reply with these fields is well formed and says so. -/
private theorem parsePacket_replyOf {queryId n sport dport checksum : Nat} (src dst : IPv4) {wire : List UInt8}
    (hs : sport ≤ 0xffff) (hs0 : sport ≠ 0) (hd : dport ≤ 0xffff) (hd0 : dport ≠ 0) (hlen : wire.length ≤ 65507) :
    ∃ q, parsePacket (replyOf (20 + (8 + wire.length)) queryId (n &&& 0x4000) src dst sport dport (8 + wire.length)
        checksum wire) = .ok (some q) ∧
      q.malformed = none ∧ q.src = src ∧ q.dst = dst ∧ q.proto = .flow .udp ∧ q.sport = some sport ∧
      q.dport = some dport ∧ q.body = some wire := by
  generalize hreply : replyOf (20 + (8 + wire.length)) queryId (n &&& 0x4000) src dst sport dport (8 + wire.length)
    checksum wire = reply
  have hlength : reply.length = 20 + (8 + wire.length) := by rw [← hreply, replyOf_length]
  have hhl : headerLength reply = 20 := by rw [← hreply, replyOf_headerLength]
  have hversion : version reply = 4 := by rw [← hreply, replyOf_version]
  have hprotocol : protocol reply = 17 := by rw [← hreply, replyOf_protocol]
  have hflags : word reply 6 = n &&& 0x4000 := by rw [← hreply, replyOf_flags (dontFragment_le n)]
  have hsport : word reply (headerLength reply) = sport := by rw [hhl, ← hreply, replyOf_sport hs]
  have hdport : word reply (headerLength reply + 2) = dport := by rw [hhl, ← hreply, replyOf_dport hd]
  have hudp : udpLength reply = 8 + wire.length := by
    unfold udpLength
    rw [hhl, ← hreply, replyOf_udpLength (by omega)]
  have hheader : WellFormedHeader reply := by
    have hbit : ∀ i, i ≠ 14 → (n &&& 0x4000).testBit i = false := by
      intro i hi
      rw [Nat.testBit_and, show (0x4000 : Nat) = 2 ^ 14 from rfl, Nat.testBit_two_pow_of_ne (Ne.symm hi), Bool.and_false]
    -- only the DF bit, which is bit 14, is copied from the query
    refine ⟨by omega, by omega, ?_, ?_, ?_, ?_⟩
    · rw [hlength, ← hreply, replyOf_total (by omega)]
    · rw [hflags]
      exact hbit 15 (by decide)
    · rw [hflags]
      exact hbit 13 (by decide)
    · have hand : n &&& 0x4000 = (n.testBit 14).toNat * 2 ^ 14 := Nat.and_two_pow n 14
      rw [hflags, hand]
      omega
  have htransport : WellFormedTransport reply := by
    refine Or.inr (Or.inr ⟨hprotocol, ⟨?_, ?_⟩, by omega, by omega, by omega⟩)
    · rw [hsport]
      exact hs0
    · rw [hdport]
      exact hd0
  obtain ⟨-, hnot⟩ | ⟨q, hq, -, hreads⟩ := parsePacket_reads reply
  · omega
  · have hm : q.malformed = none := hreads.accepted.2 ⟨hheader, htransport⟩
    obtain ⟨hproto, hqs, hqd, body, hbody, hconcat⟩ := (hreads.fields hm).udp hprotocol
    have hwire : body = wire := by
      rw [hhl] at hconcat
      subst hreply
      exact List.append_cancel_left hconcat
    refine ⟨q, hq, hm, ?_, ?_, hproto, by rw [hqs, hsport], by rw [hqd, hdport], by rw [hbody, hwire]⟩
    · rw [hreads.src, ← hreply]
      rfl
    · rw [hreads.dst, ← hreply]
      rfl

/-- The query that a reply answers has a source port and a body. -/
private theorem query_fields {payload : List UInt8} {p : ParsedPacket} (hparse : parsePacket payload = .ok (some p))
    (hm : p.malformed = none) (hproto : p.proto = .flow .udp) :
    20 ≤ payload.length ∧ ∃ sport body, p.sport = some sport ∧ sport ≠ 0 ∧ sport ≤ 0xffff ∧ p.body = some body := by
  obtain ⟨h, -⟩ | ⟨q, hq, ⟨hlen, -⟩, hreads⟩ := parsePacket_reads payload
  · rw [h] at hparse
    cases hparse
  obtain rfl : p = q := by
    rw [hq] at hparse
    exact (Option.some.inj (Except.ok.inj hparse)).symm
  have hfields := hreads.fields hm
  obtain ⟨-, htransport⟩ := hreads.accepted.1 hm
  obtain ⟨h1, -⟩ | ⟨h6, -⟩ | ⟨h17, hudp⟩ := htransport
  · rw [(hfields.icmp h1).1] at hproto
    cases hproto
  · rw [(hfields.tcp h6).1] at hproto
    cases hproto
  · obtain ⟨-, hsport, -, body, hbody, -⟩ := hfields.udp h17
    refine ⟨hlen, _, body, hsport, hudp.1.1, ?_, hbody⟩
    have hhi := octet_lt payload (headerLength payload)
    have hlo := octet_lt payload (headerLength payload + 1)
    unfold word
    omega

/-- The reply, once the checksum of its datagram is known. -/
private theorem dnsRejectPayload_ok {refused : List UInt8 → Except PyError (List UInt8)} {payload body : List UInt8}
    {request : ParsedPacket} (hport : request.dport = some 53) (hsport : request.sport = some sport)
    (hbody : request.body = some body) (hpayload : 20 ≤ payload.length) (hwire : refused body = .ok wire)
    (hlen : wire.length ≤ 65507) (hsportLe : sport ≤ 0xffff) (hchecksumLe : checksum ≤ 0xffff)
    (hchecksum : udpChecksum request.dst request.src (udpHeader 53 sport (8 + wire.length) 0 ++ wire) = .ok checksum) :
    dnsRejectPayload refused payload request =
      .ok (replyOf (20 + (8 + wire.length)) (word payload 4) (word payload 6 &&& 0x4000) request.dst request.src 53
        sport (8 + wire.length) checksum wire) := by
  have hid : word payload 4 ≤ 0xffff := unpackH_lt (unpackH_eq (by omega))
  have hflags := dontFragment_le (word payload 6)
  have htotal : 20 + (8 + wire.length) ≤ 0xffff := by omega
  have hqueryIdFlags : queryIdFlags payload = .ok (word payload 4, word payload 6 &&& 0x4000) := by
    unfold queryIdFlags
    rw [if_pos (by omega), unpackH_eq (by omega), unpackH_eq (by omega)]
    rfl
  have hudpLen : (udpHeader 53 sport (8 + wire.length) checksum ++ wire).length = 8 + wire.length :=
    List.length_append
  unfold dnsRejectPayload
  rw [hbody, hport, hsport]
  dsimp only [Option.getD_some]
  rw [hwire]
  dsimp only [bind, Except.bind]
  -- the header of the datagram is packed twice, with the checksum 0 first
  rw [packUdpHeader_eq (by decide) hsportLe (by omega) (by decide)]
  dsimp only
  rw [hchecksum]
  dsimp only
  rw [packUdpHeader_eq (by decide) hsportLe (by omega) hchecksumLe]
  dsimp only
  rw [hqueryIdFlags, hudpLen]
  dsimp only
  rw [packIpHeader_eq _ _ htotal hid hflags (by decide)]
  dsimp only
  rw [packIpHeader_eq _ _ htotal hid hflags (inetChecksum_le _)]
  rfl

/-- The REFUSED packet for a well-formed query is accepted by the parser as the reply to it: addresses and ports are
exchanged, the body is the message of dnspython, the checksums are valid, and of the IP fields of the query it has the
id and the DF bit (bit 14) and no other flag or fragment offset.  The loop in the checksum ends for every number. -/
theorem dnsRejectPayload_accepted (refused : List UInt8 → Except PyError (List UInt8)) {payload : List UInt8}
    {request : ParsedPacket} {wire : List UInt8} (hparse : parsePacket payload = .ok (some request))
    (hm : request.malformed = none) (hproto : request.proto = .flow .udp) (hport : request.dport = some 53)
    (hwire : refused (request.body.getD []) = .ok wire) (hlen : wire.length ≤ 65507) :
    (∃ reply q, dnsRejectPayload refused payload request = .ok reply ∧ parsePacket reply = .ok (some q) ∧
      q.malformed = none ∧ q.src = request.dst ∧ q.dst = request.src ∧ q.proto = .flow .udp ∧ q.sport = some 53 ∧
      q.dport = request.sport ∧ q.body = some wire ∧ ValidChecksums reply ∧
      word reply 4 = word payload 4 ∧ (word reply 6).testBit 14 = (word payload 6).testBit 14 ∧
      ∀ i, i ≠ 14 → (word reply 6).testBit i = false) ∧
    (∀ total, ∃ rounds, (∀ j < rounds, 2 ^ 16 ≤ foldCarry^[j] total) ∧ foldCarry^[rounds] total = foldCarries total ∧
      foldCarries total < 2 ^ 16) ∧
    ∀ data, inetChecksum data ≤ 0xffff := by
  refine ⟨?_, foldCarries_rounds, inetChecksum_le⟩
  obtain ⟨hpayload, sport, body, hsport, hsport0, hsportLe, hbody⟩ := query_fields hparse hm hproto
  obtain ⟨checksum, hchecksum, hchecksumLe, hchecksum0, hsum⟩ :=
    @udpChecksum_spec 53 sport request.dst request.src wire (by decide) hsportLe (by omega)
  have hid : word payload 4 ≤ 0xffff := unpackH_lt (unpackH_eq (by omega))
  have hflags := dontFragment_le (word payload 6)
  have htotal : 20 + (8 + wire.length) ≤ 0xffff := by omega
  let reply := replyOf (20 + (8 + wire.length)) (word payload 4) (word payload 6 &&& 0x4000) request.dst request.src 53
    sport (8 + wire.length) checksum wire
  rw [hbody] at hwire
  have hreply : dnsRejectPayload refused payload request = .ok reply :=
    dnsRejectPayload_ok hport hsport hbody hpayload hwire hlen hsportLe hchecksumLe hchecksum
  obtain ⟨q, hq, hqm, hqsrc, hqdst, hqproto, hqsport, hqdport, hqbody⟩ :=
    @parsePacket_replyOf (word payload 4) (word payload 6) 53 sport checksum request.dst request.src wire (by decide)
      (by decide) hsportLe hsport0 hlen
  refine ⟨reply, q, hreply, hq, hqm, hqsrc, hqdst, hqproto, hqsport, hqdport.trans hsport.symm, hqbody, ?_,
    replyOf_id hid, ?_, ?_⟩
  · have hhl : headerLength reply = 20 := replyOf_headerLength
    refine ⟨?_, ?_, ?_⟩
    · rw [hhl]
      exact onesSum_ipHeader request.dst request.src htotal hid hflags
    · unfold Wire.pseudoHeader
      rw [hhl]
      exact hsum
    · rw [hhl, replyOf_checksum hchecksumLe]
      exact hchecksum0
  · rw [replyOf_flags hflags, Nat.testBit_and]
    exact Bool.and_true _
  · intro i hi
    rw [replyOf_flags hflags, Nat.testBit_and, show (0x4000 : Nat) = 2 ^ 14 from rfl,
      Nat.testBit_two_pow_of_ne (Ne.symm hi), Bool.and_false]

/-- An `A` question for `www.example.com`, with recursion desired. -/
def Sample.dnsBody : List UInt8 :=
  [0x1a, 0x2b, 1, 0, 0, 1, 0, 0, 0, 0, 0, 0, 3, 119, 119, 119, 7, 101, 120, 97, 109, 112, 108, 101, 3, 99, 111, 109, 0,
   0, 1, 0, 1]

/-- The packet of the question, with the DF bit, from port 40000. -/
def Sample.dnsQuery : List UInt8 :=
  [0x45, 0, 0, 61, 0x12, 0x34, 0x40, 0, 64, 17, 0x12, 0x63, 10, 137, 0, 5, 10, 139, 1, 1, 0x9c, 0x40, 0, 53, 0, 41, 0xe8,
   0x85] ++ Sample.dnsBody

def Sample.dnsRequest : ParsedPacket :=
  { src := ⟨10, 137, 0, 5⟩, dst := ⟨10, 139, 1, 1⟩, proto := .flow .udp, sport := some 40000, dport := some 53,
    body := some Sample.dnsBody }

/-- The wire that dnspython makes for a query of one question and nothing else: the header with the QR bit, the opcode and
the RD bit of the query and REFUSED, and the question. -/
def Sample.refused : List UInt8 → Except PyError (List UInt8)
  | i :: j :: flags :: _ :: 0 :: 1 :: 0 :: 0 :: 0 :: 0 :: 0 :: 0 :: question =>
    .ok (i :: j :: (0x80 ||| flags &&& 0x79) :: 5 :: 0 :: 1 :: 0 :: 0 :: 0 :: 0 :: 0 :: 0 :: question)
  | _ => .error (.valueError "ShortHeader")

theorem dnsRejectPayload_accepted_sample :
    ∃ reply q, dnsRejectPayload Sample.refused Sample.dnsQuery Sample.dnsRequest = .ok reply ∧
      parsePacket reply = .ok (some q) ∧ q.malformed = none ∧ q.dport = some 40000 ∧
        q.body = some ([0x1a, 0x2b, 0x81, 5, 0, 1, 0, 0, 0, 0, 0, 0] ++ Sample.dnsBody.drop 12) := by
  obtain ⟨⟨reply, q, hreply, hq, hm, -, -, -, -, hdport, hbody, -⟩, -⟩ :=
    @dnsRejectPayload_accepted Sample.refused Sample.dnsQuery Sample.dnsRequest
      ([0x1a, 0x2b, 0x81, 5, 0, 1, 0, 0, 0, 0, 0, 0] ++ Sample.dnsBody.drop 12) (by rfl) rfl rfl rfl rfl (by decide)
  exact ⟨reply, q, hreply, hq, hm, hdport, hbody⟩

end QubesSnitch
