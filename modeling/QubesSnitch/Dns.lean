import QubesSnitch.Packets
import QubesSnitch.Lib.Regex

/-!
# DNS questions

Domain policy is about one question of an ordinary client query.  `addDnsQueryFields` classifies the body of a
UDP/53 packet: everything that is not such a question becomes a `dnsError` with a reason and never enters policy.
Parsing wire format and the tables of record types are dnspython's (`DnsPython`); its parser raises `DNSException`
and nothing else.

A name that `liveDnsQnameSupported` accepts is written in lower case, has a dot, does not end in one and is no
wildcard (`LiveName`), whichever of the two patterns it matches.
-/

namespace QubesSnitch

/-! ### Names -/

/-- `[a-z0-9]` -/
def isAlnum (c : Char) : Bool := c.isDigit || ('a' ≤ c && c ≤ 'z')

/-- `[a-z0-9]([a-z0-9-]{0,61}[a-z0-9])?` -/
def labelRe : Regex :=
  .seq (.cls isAlnum) (.opt (.seq (.upTo (.cls fun c => isAlnum c || c = '-') 61) (.cls isAlnum)))

/-- `LIVE_DNS_QNAME_RE`: a label and one or more dotted labels. -/
def liveDnsQnameRe : Regex := .seq labelRe (.plus (.seq (.char '.') labelRe))

/-- `LIVE_DNS_SRV_QNAME_RE`: `_service._proto.` in front of such a name. -/
def liveDnsSrvQnameRe : Regex :=
  .seq (.char '_') (.seq labelRe (.seq (.char '.') (.seq (.char '_') (.seq labelRe
    (.seq (.char '.') liveDnsQnameRe)))))

def supportedDnsQtypes : List String :=
  ["A", "CNAME", "MX", "TXT", "SRV", "PTR", "CAA", "NS", "SOA", "HTTPS", "SVCB", "NAPTR", "DS", "DNSKEY", "RRSIG",
   "NSEC", "NSEC3"]

def dnsQnameIsIpv6Reverse (qname : List Char) : Bool :=
  qname = "ip6.arpa".toList || ".ip6.arpa".toList.isSuffixOf qname

def liveDnsQnameSupported (qname qtype : String) : Bool :=
  let name := qname.toList
  let labels := Py.split '.' name
  if dnsQnameIsIpv6Reverse name || 253 < name.length ||
      labels.any fun label => 63 < label.length || "xn--".toList.isPrefixOf label then false
  else if qtype = "SRV" then liveDnsSrvQnameRe.fullmatch name
  else liveDnsQnameRe.fullmatch name

/-! ### dnspython -/

/-- A name as its labels; an absolute name ends in the empty label. -/
structure DnsName where
  labels : List (List UInt8)
  deriving DecidableEq, Repr

/-- The text of one byte of a label: special characters and bytes that do not print are escaped. -/
def escapifyByte (b : UInt8) : List Char :=
  let c := Char.ofNat b.toNat
  if c ∈ "\"().;\\@$".toList then ['\\', c]
  else if 0x20 < b.toNat && b.toNat < 0x7f then [c]
  else ['\\', Nat.digitChar (b.toNat / 100), Nat.digitChar (b.toNat / 10 % 10), Nat.digitChar (b.toNat % 10)]

/-- `str(name)` -/
def DnsName.text (name : DnsName) : List Char :=
  match name.labels with
  | [] => ['@']
  | [[]] => ['.']
  | labels => ['.'].intercalate (labels.map fun label => label.flatMap escapifyByte)

structure DnsQuestion where
  name : DnsName
  rdtype : Nat
  rdclass : Nat
  deriving DecidableEq, Repr

/-- What the classifier reads of a parsed message. -/
structure DnsMessage where
  flags : Nat
  opcode : Nat
  rcode : Nat
  question : List DnsQuestion
  hasAnswer : Bool
  hasAuthority : Bool
  hasAdditional : Bool
  edns : Int
  ednsflags : Nat
  deriving DecidableEq, Repr

/-- The functions taken from dnspython.  `fromWire` is `none` where `dns.message.from_wire` raises `DNSException`,
the only exception it raises; `rdatatypeFromText` is `none` likewise.  The names of the supported types are read
back as themselves. -/
structure DnsPython where
  fromWire : List UInt8 → Option DnsMessage
  rdatatypeToText : Nat → String
  rdatatypeFromText : String → Option Nat
  rdataclassToText : Nat → String
  supported_roundtrip : ∀ qtype ∈ supportedDnsQtypes, ∃ n, rdatatypeFromText qtype = some n ∧
    Py.upper (rdatatypeToText n).toList = qtype.toList

/-- The record types with a name of their own, of those that a question can be about. -/
def rdatatypes : List (String × Nat) :=
  [("A", 1), ("NS", 2), ("CNAME", 5), ("SOA", 6), ("PTR", 12), ("MX", 15), ("TXT", 16), ("AAAA", 28), ("SRV", 33),
   ("NAPTR", 35), ("DS", 43), ("RRSIG", 46), ("NSEC", 47), ("DNSKEY", 48), ("NSEC3", 50), ("SVCB", 64),
   ("HTTPS", 65), ("CAA", 257)]

/-- dnspython with these names, over a parser. -/
def DnsPython.ofParser (fromWire : List UInt8 → Option DnsMessage) : DnsPython where
  fromWire := fromWire
  rdatatypeToText n := ((rdatatypes.find? fun e => e.2 = n).map Prod.fst).getD ("TYPE" ++ toString n)
  rdatatypeFromText text := (rdatatypes.find? fun e => e.1 = text).map Prod.snd
  rdataclassToText n := if n = 1 then "IN" else "CLASS" ++ toString n
  supported_roundtrip := by
    have hall : ∀ qtype ∈ supportedDnsQtypes, (rdatatypes.find? fun e => e.1 = qtype).any fun e =>
        Py.upper (((rdatatypes.find? fun d => d.2 = e.2).map Prod.fst).getD ("TYPE" ++ toString e.2)).toList =
          qtype.toList := by decide +kernel
    intro qtype h
    obtain ⟨e, he, ht⟩ := (Option.any_eq_true _ _).1 (hall qtype h)
    exact ⟨e.2, by rw [he]; rfl, by simpa using ht⟩

def normalizeDnsName (name : DnsName) : String := String.ofList (Py.lower (Py.rstrip '.' name.text))

def dnsQtypeText (lib : DnsPython) (rdtype : Nat) : String :=
  String.ofList (Py.upper (lib.rdatatypeToText rdtype).toList)

/-! ### Classifying a query -/

def maxLiveDnsBodyBytes : Nat := 1232

/-- `dns.flags.QR | 0x7800 | dns.flags.RD | dns.flags.AD | dns.flags.CD | 0x000f` -/
def allowedQueryFlags : Nat := 0x8000 ||| 0x7800 ||| 0x0100 ||| 0x0020 ||| 0x0010 ||| 0x000f

def unsupportedDns (lib : DnsPython) (request : Request) (reason : String) (question : Option DnsQuestion := none) :
    Bool × Request :=
  let fields := question.map fun q => (normalizeDnsName q.name, dnsQtypeText lib q.rdtype)
  (true, { request with kind := .dnsError reason fields })

/-- The checks of the one question of a query, in the order in which they are made. -/
def classifyQuestion (lib : DnsPython) (request : Request) (message : DnsMessage) (question : DnsQuestion) :
    Bool × Request :=
  let qtype := dnsQtypeText lib question.rdtype
  let qclass := Py.upper (lib.rdataclassToText question.rdclass).toList
  let qname := normalizeDnsName question.name
  if question.name.labels.any fun label => label.any fun b => 127 < b.toNat then
    unsupportedDns lib request "non-ascii-qname" question
  else if message.edns ≠ -1 && message.edns ≠ 0 then
    unsupportedDns lib request "unsupported-edns-version" question
  else if message.rcode ≠ 0 then unsupportedDns lib request "non-query-rcode" question
  else if message.ednsflags &&& 0x8000 ≠ message.ednsflags then
    unsupportedDns lib request "unsupported-edns-flags" question
  else if qclass ≠ "IN".toList then unsupportedDns lib request "unsupported-qclass" question
  else if qtype = "AAAA" then unsupportedDns lib request "unsupported-aaaa" question
  else if qtype ∉ supportedDnsQtypes then unsupportedDns lib request "unsupported-qtype" question
  else if !liveDnsQnameSupported qname qtype then unsupportedDns lib request "unsupported-qname" question
  else (true, { request with kind := .dns qname qtype })

def addDnsQueryFields (lib : DnsPython) (request : Request) : Bool × Request :=
  let body := request.body.getD []
  if request.proto ≠ .flow .udp || request.dport ≠ some 53 then (false, request)
  else if body.isEmpty then unsupportedDns lib request "empty-body"
  else if body.length > maxLiveDnsBodyBytes then unsupportedDns lib request "oversize-body"
  else match lib.fromWire body with
    | none => unsupportedDns lib request "parse-failed"
    | some message =>
      if message.flags &&& 0x8000 ≠ 0 then unsupportedDns lib request "not-client-query"
      else if message.flags &&& 0x000f ≠ 0 then unsupportedDns lib request "non-query-rcode"
      else if message.opcode ≠ 0 then unsupportedDns lib request "non-query-opcode"
      else if message.flags &&& allowedQueryFlags ≠ message.flags then
        unsupportedDns lib request "non-query-flags"
      else if message.hasAnswer || message.hasAuthority || message.hasAdditional then
        unsupportedDns lib request "unexpected-sections"
      else match message.question with
        | [question] => classifyQuestion lib request message question
        | [] => (true, { request with kind := .dnsError "no-question" none })
        | _ => (true, { request with kind := .dnsError "multi-question" none })

/-! ### Rules -/

structure DnsRule where
  qname : String
  qtype : String
  action : Action
  deriving DecidableEq, Repr

/-- Whether the rule speaks about the question `qname`, `qtype`. -/
def dnsRuleMatches (qname qtype : String) (rule : DnsRule) : Bool :=
  if qtype.toList ≠ Py.upper rule.qtype.toList then false
  else
    let name := qname.toList
    let ruleName := Py.lower rule.qname.toList
    if "*.".toList.isPrefixOf ruleName then
      let suffix := ruleName.drop 2
      ('.' :: suffix).isSuffixOf name && name ≠ suffix
    else name = ruleName

/-! ### What a live name looks like -/

def IsLiveChar (c : Char) : Prop := isAlnum c ∨ c = '-' ∨ c = '.' ∨ c = '_'

structure LiveName (s : List Char) : Prop where
  chars : ∀ c ∈ s, IsLiveChar c
  last : s.getLast? ≠ some '.'
  dotted : '.' ∈ s

private theorem labelRe_last {w : List Char} (hw : w ∈ labelRe.lang) :
    ∃ c, w.getLast? = some c ∧ isAlnum c := by
  obtain ⟨u, v, ⟨c, hc, rfl⟩, ⟨ws, hlen, hws, rfl⟩, rfl⟩ := hw
  rcases ws with _ | ⟨x, _ | ⟨y, ws⟩⟩
  · exact ⟨c, rfl, hc⟩
  · obtain ⟨u, v, -, ⟨d, hd, rfl⟩, rfl⟩ := hws x (by simp)
    exact ⟨d, by simp [List.getLast?_cons, List.getLast?_append], hd⟩
  · simp at hlen

private theorem isAlnum_ne_dot {c : Char} (h : isAlnum c) : c ≠ '.' := by
  rintro rfl
  exact absurd h (by decide)

private theorem dotLabel_last {w : List Char} (hw : w ∈ (Regex.seq (.char '.') labelRe).lang) :
    ∃ c, w.getLast? = some c ∧ isAlnum c :=
  Regex.getLast?_mem_seq (fun _ => labelRe_last) hw

private theorem liveDnsQnameRe_last {w : List Char} (hw : w ∈ liveDnsQnameRe.lang) :
    ∃ c, w.getLast? = some c ∧ isAlnum c :=
  Regex.getLast?_mem_seq (fun _ => Regex.getLast?_mem_plus fun _ => dotLabel_last) hw

private theorem liveDnsQnameRe_dotted {w : List Char} (hw : w ∈ liveDnsQnameRe.lang) : '.' ∈ w := by
  obtain ⟨u, v, -, ⟨x, y, ⟨a, b, ⟨c, hc, rfl⟩, -, rfl⟩, -, rfl⟩, rfl⟩ := hw
  have : c = '.' := by simpa using hc
  simp [this]

private theorem labelRe_within : labelRe.Within IsLiveChar := by
  refine ⟨fun c hc => Or.inl hc, ?_, fun c hc => Or.inl hc⟩
  intro c hc
  rcases Bool.or_eq_true _ _ ▸ hc with hc | hc
  · exact Or.inl hc
  · exact Or.inr (Or.inl (by simpa using hc))

private theorem char_within {c : Char} (h : IsLiveChar c) : (Regex.char c).Within IsLiveChar := by
  intro d hd
  have : d = c := by simpa using hd
  exact this ▸ h

private theorem liveDnsQnameRe_within : liveDnsQnameRe.Within IsLiveChar := by
  have hdot : (Regex.char '.').Within IsLiveChar := char_within (Or.inr (Or.inr (Or.inl rfl)))
  exact ⟨labelRe_within, ⟨hdot, labelRe_within⟩, hdot, labelRe_within⟩

private theorem liveDnsSrvQnameRe_within : liveDnsSrvQnameRe.Within IsLiveChar := by
  have hdot : (Regex.char '.').Within IsLiveChar := char_within (Or.inr (Or.inr (Or.inl rfl)))
  have hund : (Regex.char '_').Within IsLiveChar := char_within (Or.inr (Or.inr (Or.inr rfl)))
  exact ⟨hund, labelRe_within, hdot, hund, labelRe_within, hdot, liveDnsQnameRe_within⟩

theorem liveName_of_qnameRe {s : List Char} (h : liveDnsQnameRe.fullmatch s) : LiveName s := by
  rw [Regex.fullmatch_iff] at h
  refine ⟨liveDnsQnameRe_within.mem h, ?_, liveDnsQnameRe_dotted h⟩
  obtain ⟨c, hc, ha⟩ := liveDnsQnameRe_last h
  rw [hc]
  exact fun he => isAlnum_ne_dot ha (Option.some.inj he)

theorem liveName_of_srvRe {s : List Char} (h : liveDnsSrvQnameRe.fullmatch s) : LiveName s := by
  rw [Regex.fullmatch_iff] at h
  have hchars := liveDnsSrvQnameRe_within.mem h
  obtain ⟨a, t, -, ⟨b, t, -, ⟨c, t, -, ⟨d, t, -, ⟨e, t, -, ⟨f, t, -, ht, rfl⟩, rfl⟩, rfl⟩, rfl⟩, rfl⟩, rfl⟩ := h
  obtain ⟨x, hx, ha⟩ := liveDnsQnameRe_last ht
  refine ⟨hchars, ?_, by simp [liveDnsQnameRe_dotted ht]⟩
  have hlast : (a ++ (b ++ (c ++ (d ++ (e ++ (f ++ t)))))).getLast? = some x := by
    simp [List.getLast?_append, hx]
  rw [hlast]
  exact fun he => isAlnum_ne_dot ha (Option.some.inj he)

theorem liveName_of_supported {qname qtype : String} (h : liveDnsQnameSupported qname qtype) :
    LiveName qname.toList := by
  unfold liveDnsQnameSupported at h
  dsimp only at h
  split at h
  · cases h
  · split at h
    · exact liveName_of_srvRe h
    · exact liveName_of_qnameRe h

private theorem isLiveChar_bounds {c : Char} (h : IsLiveChar c) : c ≠ '\u212a' ∧ ¬ c.isUpper ∧ c ≠ '*' := by
  rcases h with h | rfl | rfl | rfl
  · refine ⟨by rintro rfl; exact absurd h (by decide), ?_, by rintro rfl; exact absurd h (by decide)⟩
    intro hu
    simp only [isAlnum, Char.isDigit, Char.isUpper, Bool.or_eq_true, Bool.and_eq_true, decide_eq_true_eq,
      Char.le_def] at h hu
    rcases h with ⟨h1, h2⟩ | ⟨h1, h2⟩
    · have := UInt32.le_trans hu.1 h2
      exact absurd this (by decide)
    · have := UInt32.le_trans h1 hu.2
      exact absurd this (by decide)
  all_goals decide

namespace LiveName

variable {s : List Char}

theorem lower_eq (h : LiveName s) : Py.lower s = s :=
  Py.lower_eq_self fun c hc => ⟨(isLiveChar_bounds (h.chars c hc)).1, (isLiveChar_bounds (h.chars c hc)).2.1⟩

theorem rstrip_eq (h : LiveName s) : Py.rstrip '.' s = s := Py.rstrip_eq_self h.last

theorem not_wildcard (h : LiveName s) : "*.".toList.isPrefixOf s = false := by
  rcases s with _ | ⟨c, s⟩
  · rfl
  · have hc := (isLiveChar_bounds (h.chars c (by simp))).2.2
    have hne : ('*' == c) = false := by simpa using hc.symm
    show ('*' == c && ['.'].isPrefixOf s) = false
    rw [hne]
    rfl

theorem two_labels (h : LiveName s) : 2 ≤ (Py.split '.' s).length := by
  obtain ⟨a, b, rfl⟩ := List.append_of_mem h.dotted
  have ha := List.length_pos_iff.2 (List.splitOn_ne_nil '.' a)
  have hb := List.length_pos_iff.2 (List.splitOn_ne_nil '.' b)
  rw [Py.split, List.splitOn_append_cons_self, List.length_append]
  omega

end LiveName

/-- What a request with a DNS body becomes: an error, or a question that policy can be about. -/
def Classified (request : Request) (result : Bool × Request) : Prop :=
  (∃ reason fields, result = (true, { request with kind := .dnsError reason fields })) ∨
    ∃ qname qtype, result = (true, { request with kind := .dns qname qtype }) ∧ qtype ∈ supportedDnsQtypes ∧
      liveDnsQnameSupported qname qtype

namespace Classified

variable {lib : DnsPython} {request : Request}

theorem unsupported (reason : String) (question : Option DnsQuestion) :
    Classified request (unsupportedDns lib request reason question) := .inl ⟨reason, _, rfl⟩

/-- A check that rejects, before another result. -/
theorem check {c : Prop} [Decidable c] {reason : String} {question : Option DnsQuestion} {rest : Bool × Request}
    (h : ¬ c → Classified request rest) :
    Classified request (if c then unsupportedDns lib request reason question else rest) :=
  iteInduction (motive := Classified request) (fun _ => unsupported reason question) h

end Classified

theorem classifyQuestion_classified (lib : DnsPython) (request : Request) (message : DnsMessage)
    (question : DnsQuestion) : Classified request (classifyQuestion lib request message question) := by
  unfold classifyQuestion
  iterate 6 refine .check fun _ => ?_
  refine .check fun hqtype => .check fun hqname => ?_
  exact .inr ⟨_, _, rfl, not_not.1 hqtype, by simpa using hqname⟩

/-- A request is for the DNS port of UDP and classified, or as it was. -/
theorem addDnsQueryFields_cases (lib : DnsPython) (request : Request) :
    addDnsQueryFields lib request = (false, request) ∨ (request.proto = .flow .udp ∧ request.dport = some 53) ∧
      Classified request (addDnsQueryFields lib request) := by
  by_cases hudp : (request.proto ≠ .flow .udp || request.dport ≠ some 53) = true
  · exact .inl (if_pos hudp)
  refine .inr ⟨by simpa using hudp, ?_⟩
  unfold addDnsQueryFields
  dsimp only
  rw [if_neg hudp]
  refine .check fun _ => .check fun _ => ?_
  cases lib.fromWire (request.body.getD []) with
  | none => exact .unsupported _ _
  | some message =>
    iterate 5 refine .check fun _ => ?_
    -- only a body with one question is looked at further
    rcases message.question with _ | ⟨question, _ | ⟨_, _⟩⟩
    · exact .inl ⟨_, _, rfl⟩
    · exact classifyQuestion_classified lib request message question
    · exact .inl ⟨_, _, rfl⟩

/-- What a question that became policy looks like. -/
theorem addDnsQueryFields_dns {lib : DnsPython} {request r : Request} {b : Bool} {qname qtype : String}
    (h : addDnsQueryFields lib request = (b, r)) (hf : request.kind = .flow) (hk : r.kind = .dns qname qtype) :
    r = { request with kind := .dns qname qtype } ∧ qtype ∈ supportedDnsQtypes ∧
      liveDnsQnameSupported qname qtype ∧ request.proto = .flow .udp ∧ request.dport = some 53 := by
  obtain hkept | ⟨hudp, ⟨reason, fields, herror⟩ | ⟨qname', qtype', hdns, hqtype, hqname⟩⟩ :=
    addDnsQueryFields_cases lib request
  · cases h.symm.trans hkept
    rw [hf] at hk
    cases hk
  · cases h.symm.trans herror
    cases hk
  · cases h.symm.trans hdns
    cases hk
    exact ⟨rfl, hqtype, hqname, hudp⟩

/-- A body that is classified makes a DNS request. -/
theorem addDnsQueryFields_kind {lib : DnsPython} {request r : Request} (h : addDnsQueryFields lib request = (true, r)) :
    r.kind ≠ .flow := by
  obtain hkept | ⟨-, ⟨reason, fields, herror⟩ | ⟨qname, qtype, hdns, -⟩⟩ := addDnsQueryFields_cases lib request
  · cases h.symm.trans hkept
  · cases h.symm.trans herror
    exact nofun
  · cases h.symm.trans hdns
    exact nofun

/-- What is classified and is no error is a question. -/
theorem addDnsQueryFields_question {lib : DnsPython} {request r : Request}
    (h : addDnsQueryFields lib request = (true, r)) (hf : request.kind = .flow)
    (hnot : ∀ reason fields, r.kind ≠ .dnsError reason fields) :
    ∃ qname qtype, r = { request with kind := .dns qname qtype } := by
  cases hk : r.kind with
  | flow => exact absurd hk (addDnsQueryFields_kind h)
  | dns qname qtype => exact ⟨qname, qtype, (addDnsQueryFields_dns h hf hk).1⟩
  | dnsError reason fields => exact absurd hk (hnot reason fields)

example : liveDnsQnameSupported "_sip._udp.example.org" "SRV" ∧
    ¬ liveDnsQnameSupported "_sip._udp.example.org" "A" := by decide +kernel

end QubesSnitch
