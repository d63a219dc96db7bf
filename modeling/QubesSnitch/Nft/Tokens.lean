import QubesSnitch.Nft.Guarantees

/-!
# The tokens of a line

A rendered line is a sequence of tokens, joined by blanks: words of a fixed vocabulary, addresses, ports, numbers and
texts of the configuration, and the quoted log prefix.  The words and the ports are well formed whatever the rule is; of
an address operand the same is true but for the network of a `dest`, whose text is written as it stands in the file.
It is a token of nft's grammar if the mask is a plain number (`rendered_wellFormed_iff`), and nft then reads it as it is
meant (`readAlike_of_plain`).
-/

namespace QubesSnitch.Nft

/-- The words that the renderer knows. -/
def vocabulary : List String :=
  ["meta", "nfproto", "ipv4", "l4proto", "ip", "saddr", "daddr", "protocol", "tcp", "udp", "icmp", "sport", "dport",
   "ct", "state", "established,related", "direction", "reply", "accept", "queue", "num", "limit", "rate", "burst",
   "packets", "log", "prefix", "counter", "reject", "with", "icmpx", "admin-prohibited"]

inductive Token where
  | word (text : String)
  | address (text : String)
  | port (text : String)
  | queueNum (text : String)
  | rate (text : String)
  | burst (text : String)
  | quoted (text : String)
  deriving DecidableEq, Repr

def Token.text : Token → String
  | word text | address text | port text | queueNum text | rate text | burst text | quoted text => text

def Match.tokens : Match → List Token
  | metaNfprotoIpv4 => [.word "meta", .word "nfproto", .word "ipv4"]
  | ipSaddr addr => [.word "ip", .word "saddr", .address addr.text]
  | ipDaddr addr => [.word "ip", .word "daddr", .address addr.text]
  | metaL4proto proto => [.word "meta", .word "l4proto", .word proto.name]
  | ipProtocol proto => [.word "ip", .word "protocol", .word proto.name]
  | sport proto port => [.word proto.name, .word "sport", .port port.text]
  | dport proto port => [.word proto.name, .word "dport", .port port.text]
  | ctState states => [.word "ct", .word "state", .word (String.intercalate "," (states.map CtState.text))]
  | ctDirection direction => [.word "ct", .word "direction", .word direction.text]
  | iifname start => [.word "iifname", .quoted ("\"" ++ start ++ "*\"")]
  | fibDaddrLocal => [.word "fib", .word "daddr", .word "type", .word "local"]

def Statement.tokens : Statement → List Token
  | accept => [.word "accept"]
  | queue num => [.word "queue", .word "num", .queueNum (toString num)]
  | jump chain => [.word "jump", .word chain]
  | reject rate burst logPrefix =>
    [.word "limit", .word "rate", .rate rate, .word "burst", .burst (toString burst), .word "packets", .word "log",
     .word "prefix", .quoted (quote logPrefix), .word "counter", .word "reject", .word "with", .word "icmpx",
     .word "admin-prohibited"]

def Rule.tokens (rule : Rule) : List Token := rule.conds.flatMap Match.tokens ++ rule.statement.tokens

/-- Texts joined by blanks. -/
def spaced (texts : List String) : String := String.intercalate " " texts

theorem Match.text_eq (m : Match) : m.text = spaced (m.tokens.map Token.text) := by
  cases m <;> apply String.toList_inj.1 <;> simp [Match.text, Match.tokens, spaced, Token.text]

theorem Statement.text_eq (s : Statement) : s.text = spaced (s.tokens.map Token.text) := by
  cases s <;> apply String.toList_inj.1 <;> simp [Statement.text, Statement.tokens, spaced, Token.text]

private theorem Match.tokens_ne_nil (m : Match) : m.tokens ≠ [] := by cases m <;> simp [Match.tokens]

private theorem Statement.tokens_ne_nil (s : Statement) : s.tokens ≠ [] := by cases s <;> simp [Statement.tokens]

private theorem spaced_append {l l' : List String} (h : l ≠ []) (h' : l' ≠ []) :
    spaced (l ++ l') = spaced l ++ " " ++ spaced l' := String.intercalate_append_of_ne_nil h h'

private theorem conds_text (conds : List Match) (statement : Statement) :
    spaced (conds.map Match.text ++ [statement.text]) =
      spaced ((conds.flatMap Match.tokens ++ statement.tokens).map Token.text) := by
  induction conds with
  | nil => simp [spaced, statement.text_eq]
  | cons m conds ih =>
    have hm : m.tokens.map Token.text ≠ [] := by simpa using m.tokens_ne_nil
    have hrest : (conds.flatMap Match.tokens ++ statement.tokens).map Token.text ≠ [] := by
      simp [statement.tokens_ne_nil]
    rw [List.flatMap_cons, List.append_assoc, List.map_append, spaced_append hm hrest, ← ih, ← m.text_eq]
    exact String.intercalate_cons_of_ne_nil (by simp)

/-- A line is its tokens, joined by blanks. -/
theorem Rule.text_eq (rule : Rule) : rule.text = "  " ++ spaced (rule.tokens.map Token.text) := by
  rw [Rule.tokens, ← conds_text]
  rfl

/-! ### Well-formed tokens -/

/-- A dotted quad, one with a prefix length, or a set of dotted quads. -/
def IsAddress (text : String) : Prop :=
  (∃ ip : IPv4, text = ip.text) ∨
  (∃ (ip : IPv4) (n : Nat), n ≤ 32 ∧ text = ip.text ++ "/" ++ String.ofList (Py.decimal n)) ∨
  ∃ ips : List IPv4, ips ≠ [] ∧ text = "\x7b " ++ String.intercalate ", " (ips.map IPv4.text) ++ " \x7d"

/-- A port, or a range of ports. -/
def IsPort (text : String) : Prop :=
  ∃ n m, 1 ≤ n ∧ n ≤ m ∧ m ≤ 65535 ∧
    (text = String.ofList (Py.decimal n) ∨ text = String.ofList (Py.decimal n ++ '-' :: Py.decimal m))

/-- The log prefix of a source in quotes, with nothing in it that could end the quoted text or escape its end. -/
def IsLogPrefix (source text : String) : Prop :=
  text = "\"" ++ ("QUBES-SNITCH " ++ source ++ " reject ") ++ "\"" ∧ '"' ∉ source.toList ∧ '\\' ∉ source.toList

def Token.WellFormed (source : String) (config : Config) (num : Nat) : Token → Prop
  | word text => text ∈ vocabulary
  | address text => IsAddress text
  | port text => IsPort text
  | queueNum text => text = toString num
  | rate text => text = config.limitRate
  | burst text => text = toString config.burst
  | quoted text => IsLogPrefix source text

/-- The text of a line is well-formed tokens, joined by blanks. -/
def Rule.WellFormed (source : String) (config : Config) (num : Nat) (line : Rule) : Prop :=
  line.text = "  " ++ spaced (line.tokens.map Token.text) ∧ ∀ t ∈ line.tokens, t.WellFormed source config num

/-! ### Networks -/

private theorem chars_of_split {s a m : List Char} (h : Py.split '/' s = [a, m]) : s = a ++ '/' :: m := by
  have hjoin : ['/'].intercalate (s.splitOn '/') = s := List.intercalate_splitOn '/'
  rw [show s.splitOn '/' = _ from h] at hjoin
  rw [← hjoin]
  simp [List.intercalate_cons_cons]

private theorem oddMask_len (x : IPv4) {n : Nat} (h : n ≤ 32) : oddMask (x.chars ++ '/' :: Py.decimal n) = false := by
  have hplain : ∀ n < 33, ('.' ∈ Py.decimal n || ((Py.decimal n).head? = some '0' && 1 < (Py.decimal n).length)) =
      false := by decide
  unfold oddMask
  rw [show x.chars ++ '/' :: Py.decimal n = Cidr.chars ⟨x, n, h⟩ from rfl, split_slash_cidr]
  exact hplain n (Nat.lt_succ_of_le h)

private theorem head?_ip (x : IPv4) : ∃ c, x.chars.head? = some c ∧ c.isDigit := by
  obtain ⟨c, s, hs⟩ := List.exists_cons_of_ne_nil (Nat.toDigits_ne_nil (b := 10) (n := x.a.toNat))
  have hs : Py.decimal x.a.toNat = c :: s := hs
  exact ⟨c, by simp [IPv4.chars, hs], Py.isDigit_of_mem_decimal (n := x.a.toNat) (by simp [hs])⟩

/-- A network begins with a digit. -/
private theorem head?_network (n : NetworkText) : ∃ c, n.value.text.toList.head? = some c ∧ c.isDigit := by
  have hnet := ipv4Network_value n
  unfold ipv4Network at hnet
  split at hnet
  · rename_i a hsplit
    obtain ⟨x, hx, -⟩ := Option.bind_eq_some_iff.1 hnet
    have hjoin : ['/'].intercalate (n.value.text.toList.splitOn '/') = n.value.text.toList := List.intercalate_splitOn '/'
    rw [show n.value.text.toList.splitOn '/' = _ from hsplit, List.intercalate_singleton] at hjoin
    rw [← hjoin, ipv4Address_eq_some_iff.1 hx]
    exact head?_ip x
  · rename_i a m hsplit
    obtain ⟨x, hx, -⟩ := Option.bind_eq_some_iff.1 hnet
    obtain ⟨c, hc, hdigit⟩ := head?_ip x
    exact ⟨c, by rw [chars_of_split hsplit, ipv4Address_eq_some_iff.1 hx, List.head?_append, hc]; rfl, hdigit⟩
  · cases hnet

theorem isAddress_network (n : NetworkText) : IsAddress n.value.text ↔ oddMask n.value.text.toList = false := by
  constructor
  · rintro (⟨y, hy⟩ | ⟨y, k, hk, hy⟩ | ⟨ips, hips, hy⟩)
    · rw [hy, IPv4.text, String.toList_ofList, oddMask, split_slash_chars]
    · rw [hy]
      simpa [IPv4.text] using oddMask_len y hk
    · -- a set begins with a brace
      obtain ⟨c, hc, hdigit⟩ := head?_network n
      rw [hy] at hc
      obtain rfl : '\x7b' = c := by simpa using hc
      cases hdigit
  · intro hodd
    obtain ⟨x, htext, -⟩ | htext := plain_text hodd
    · exact .inl ⟨x, htext⟩
    · refine .inr (.inl ⟨n.cidr.addr, n.cidr.len, n.cidr.len_le, ?_⟩)
      rw [htext]
      apply String.toList_inj.1
      simp [Cidr.chars, IPv4.text]

/-! ### The lines of a rule -/

theorem isAddress_ip (ip : IPv4) : IsAddress ip.text := .inl ⟨ip, rfl⟩

theorem isAddress_ipOperand {ips : List IPv4} (h : ips ≠ []) : IsAddress (ipOperand ips).text := by
  unfold ipOperand
  split
  · exact isAddress_ip _
  · exact .inr (.inr ⟨ips, h, rfl⟩)

/-- Whether a destination is written with an odd mask. -/
def destOddMask : Dest → Bool
  | .network n => oddMask n.value.text.toList
  | _ => false

theorem isPort_text {p : NormPort} (h : p.Bounded) (hp : p ≠ .any) : IsPort p.text := by
  cases p with
  | any => exact absurd rfl hp
  | one n => exact ⟨n, n, h.1, Nat.le_refl n, h.2, .inl rfl⟩
  | range lo hi => exact ⟨lo, hi, h.1, h.2.1, h.2.2, .inr rfl⟩

/-! ### Conditions and statements -/

section Parts

variable (source : String) (config : Config) (num : Nat)

def CondsWellFormed (conds : List Match) : Prop := ∀ m ∈ conds, ∀ t ∈ m.tokens, t.WellFormed source config num

def StatementWellFormed (s : Statement) : Prop := ∀ t ∈ s.tokens, t.WellFormed source config num

variable {source config num}

theorem wellFormed_append {conds conds' : List Match} : CondsWellFormed source config num (conds ++ conds') ↔
    CondsWellFormed source config num conds ∧ CondsWellFormed source config num conds' := List.forall_mem_append

theorem Rule.wellFormed_iff {line : Rule} : line.WellFormed source config num ↔
    CondsWellFormed source config num line.conds ∧ StatementWellFormed source config num line.statement := by
  rw [Rule.WellFormed, Rule.tokens, List.forall_mem_append, List.forall_mem_flatMap]
  exact and_iff_right line.text_eq

private theorem wellFormed_meta : CondsWellFormed source config num [.metaNfprotoIpv4] := by
  simp [CondsWellFormed, Match.tokens, Token.WellFormed, vocabulary]

private theorem wellFormed_daddr {addr : Operand} :
    CondsWellFormed source config num [.ipDaddr addr] ↔ IsAddress addr.text := by
  simp [CondsWellFormed, Match.tokens, Token.WellFormed, vocabulary]

private theorem wellFormed_saddr {addr : Operand} :
    CondsWellFormed source config num [.ipSaddr addr] ↔ IsAddress addr.text := by
  simp [CondsWellFormed, Match.tokens, Token.WellFormed, vocabulary]

private theorem wellFormed_reply :
    CondsWellFormed source config num [.ctState [.established, .related], .ctDirection .reply] := by
  have hstates : String.intercalate "," [CtState.text .established, CtState.text .related] = "established,related" := rfl
  simp [CondsWellFormed, Match.tokens, Token.WellFormed, hstates, CtDirection.text, vocabulary]

private theorem wellFormed_port {p : NormPort} (h : p.Bounded) (hp : p ≠ .any) (proto : FlowProto) :
    CondsWellFormed source config num [.dport proto p] ∧ CondsWellFormed source config num [.sport proto p] := by
  cases proto <;>
    simp [CondsWellFormed, Match.tokens, Token.WellFormed, FlowProto.name, isPort_text h hp, vocabulary]

private theorem wellFormed_proto {field : FlowProto → NormPort → Match} {proto : FlowProto} {p : NormPort}
    (hfield : p ≠ .any → CondsWellFormed source config num [field proto p]) :
    CondsWellFormed source config num (protoConds field proto (if p = .any then none else some p)) := by
  have hl4 : CondsWellFormed source config num [.metaL4proto proto] := by
    cases proto <;> simp [CondsWellFormed, Match.tokens, Token.WellFormed, FlowProto.name, vocabulary]
  have hicmp : CondsWellFormed source config num [.ipProtocol .icmp] := by
    simp [CondsWellFormed, Match.tokens, Token.WellFormed, FlowProto.name, vocabulary]
  by_cases hany : p = .any
  · rw [if_pos hany]
    cases proto
    · exact hl4
    · exact hl4
    · exact hicmp
  · rw [if_neg hany]
    cases proto
    · exact hfield hany
    · exact hfield hany
    · exact hicmp

theorem wellFormed_dest {dest : Dest} (h : ∀ qname ips, dest = .dns qname ips → ∃ x xs, ips = some (x :: xs)) :
    CondsWellFormed source config num (destConds (destOperand dest)) ↔ destOddMask dest = false := by
  cases dest with
  | any => exact iff_of_true (List.forall_mem_nil _) rfl
  | network n => exact wellFormed_daddr.trans (isAddress_network n)
  | dns qname ips =>
    obtain ⟨x, xs, rfl⟩ := h qname ips rfl
    exact iff_of_true (wellFormed_daddr.2 (isAddress_ipOperand (List.cons_ne_nil x xs))) rfl

private theorem wellFormed_queue : StatementWellFormed source config num (.queue num) := by
  simp [StatementWellFormed, Statement.tokens, Token.WellFormed, vocabulary]

private theorem sourceNameRe_within : sourceNameRe.Within fun c => isNameEnd c || c = '_' || c = '.' || c = '-' := by
  have hend : ∀ c, isNameEnd c → (isNameEnd c || c = '_' || c = '.' || c = '-') := fun c hc => by simp [hc]
  exact ⟨hend, fun c hc => hc, hend⟩

/-- The characters of a source name are none that a quoted text would have to escape. -/
theorem plain_of_sourceNameRe (h : sourceNameRe.fullmatch source.toList) :
    '"' ∉ source.toList ∧ '\\' ∉ source.toList := by
  have hchars := fun c => sourceNameRe_within.mem ((Regex.fullmatch_iff _ _).1 h) c
  exact ⟨fun hmem => absurd (hchars _ hmem) (by decide), fun hmem => absurd (hchars _ hmem) (by decide)⟩

theorem quote_plain {text : String} (h : '"' ∉ text.toList ∧ '\\' ∉ text.toList) : quote text = "\"" ++ text ++ "\"" := by
  have hmap : text.toList.flatMap (fun c => if c = '\\' || c = '"' then ['\\', c] else [c]) = text.toList := by
    have hone : ∀ c ∈ text.toList, (if c = '\\' || c = '"' then ['\\', c] else [c]) = [c] := by
      intro c hc
      have hslash : c ≠ '\\' := fun he => h.2 (he ▸ hc)
      have hmark : c ≠ '"' := fun he => h.1 (he ▸ hc)
      simp [hslash, hmark]
    rw [List.flatMap_congr hone, List.flatMap_singleton']
  rw [quote, hmap, String.ofList_toList]

private theorem wellFormed_action (h : sourceNameRe.fullmatch source.toList) (action : Action) :
    StatementWellFormed source config num (actionStatement source config action) := by
  cases action with
  | allow => simp [StatementWellFormed, actionStatement, Statement.tokens, Token.WellFormed, vocabulary]
  | reject =>
    have hplain := plain_of_sourceNameRe h
    have hquote : quote ("QUBES-SNITCH " ++ source ++ " reject ") =
        "\"" ++ ("QUBES-SNITCH " ++ source ++ " reject ") ++ "\"" := quote_plain (by simp [hplain])
    simp [StatementWellFormed, actionStatement, ruleReject, rejectLog, Statement.tokens, Token.WellFormed, vocabulary,
      IsLogPrefix, hquote, hplain]

end Parts

/-! ### Rendered lines -/

section Rendered

variable {sv : Services} {rule : FlowRule} {source : String} {config : Config} {num : Nat}

/-- A line with the destination of a rule, whose other parts are well formed. -/
private theorem wellFormed_line (h : rule.Usable sv) {tail : List Match} {statement : Statement}
    (htail : CondsWellFormed source config num tail) (hstatement : StatementWellFormed source config num statement) :
    Rule.WellFormed source config num ⟨[.metaNfprotoIpv4] ++ destConds (destOperand rule.dest) ++ tail, statement⟩ ↔
      destOddMask rule.dest = false := by
  rw [Rule.wellFormed_iff, wellFormed_append, wellFormed_append, ← wellFormed_dest h.resolved]
  exact ⟨fun hline => hline.1.1.2, fun hdest => ⟨⟨⟨wellFormed_meta, hdest⟩, htail⟩, hstatement⟩⟩

private theorem bounded_dns : (NormPort.one 53).Bounded := ⟨by decide, by decide⟩

theorem renderRule_wellFormed (h : rule.Usable sv) (hs : sourceNameRe.fullmatch source.toList) :
    ∃ lines, renderRule sv source rule config num = .ok lines ∧
      ((∀ line ∈ lines, line.WellFormed source config num) ↔ destOddMask rule.dest = false) := by
  obtain ⟨p, hp⟩ := h.port
  have hproto : CondsWellFormed source config num (protoConds .dport rule.proto (if p = .any then none else some p)) :=
    wellFormed_proto fun hany => (wellFormed_port (normalizePort_bounded hp) hany rule.proto).1
  have hdns : CondsWellFormed source config num [.dport .udp (.one 53)] :=
    (wellFormed_port bounded_dns (by decide) .udp).1
  let conds := [Match.metaNfprotoIpv4] ++ destConds (destOperand rule.dest) ++
    protoConds .dport rule.proto (if p = .any then none else some p)
  have hconds : renderMatch sv rule = .ok conds := by
    rw [renderMatch, nftDestMatchValue_resolved h.resolved, nftPort_ok hp]
    rfl
  have hline := fun action => @wellFormed_line _ _ _ config num h _ _ hproto (wellFormed_action hs action)
  cases haction : rule.action with
  | reject =>
    refine ⟨_, by rw [renderRule, hconds, haction]; rfl, ?_⟩
    rw [List.forall_mem_singleton]
    exact hline .reject
  | allow =>
    have hrender : renderRule sv source rule config num = renderAllow sv rule conds num := by
      rw [renderRule, hconds, haction]
      rfl
    rw [hrender, renderAllow_usable h hp]
    have hqueue : (dnsQueueLine rule.dest num).WellFormed source config num ↔ destOddMask rule.dest = false :=
      wellFormed_line h hdns wellFormed_queue
    refine ⟨_, rfl, ?_⟩
    split
    · split
      · rw [List.forall_mem_singleton, hqueue]
      · rw [List.forall_mem_cons, List.forall_mem_singleton, hqueue]
        exact and_iff_left_of_imp (hline .allow).2
    · rw [List.forall_mem_singleton]
      exact hline .allow

/-- The mirrored lines have one remote address each. -/
theorem renderReply_wellFormed (h : rule.Usable sv) (hs : sourceNameRe.fullmatch source.toList) (ip : IPv4) :
    ∃ lines, renderEstablishedReplyRules sv source ip rule config = .ok lines ∧
      ((∀ line ∈ lines, line.WellFormed source config num) ↔ destOddMask rule.dest = false) := by
  obtain ⟨p, hp⟩ := h.port
  have hproto : CondsWellFormed source config num (protoConds .sport rule.proto (if p = .any then none else some p)) :=
    wellFormed_proto fun hany => (wellFormed_port (normalizePort_bounded hp) hany rule.proto).2
  let line (addr : Option String) : Rule := ⟨[.metaNfprotoIpv4] ++
    (addr.map fun addr => Match.ipSaddr (.one addr)).toList ++ [.ipDaddr (.one ip.text)] ++
    protoConds .sport rule.proto (if p = .any then none else some p) ++
    [.ctState [.established, .related], .ctDirection .reply], actionStatement source config rule.action⟩
  have hline : ∀ addr, (line addr).WellFormed source config num ↔ ∀ text, addr = some text → IsAddress text := by
    intro addr
    have hrest : CondsWellFormed source config num [.ipDaddr (.one ip.text)] := wellFormed_daddr.2 (isAddress_ip ip)
    rw [Rule.wellFormed_iff, and_iff_left (wellFormed_action hs rule.action)]
    simp only [line, wellFormed_append, wellFormed_meta, hrest, hproto, wellFormed_reply, true_and, and_true]
    cases addr with
    | none => exact iff_of_true (List.forall_mem_nil _) fun text ht => nomatch ht
    | some text =>
      simp only [Option.map_some, Option.toList_some, Option.some.injEq, forall_eq']
      exact wellFormed_saddr
  have hlines : renderEstablishedReplyRules sv source ip rule config = .ok ((replySources rule.dest).map line) := by
    rw [renderEstablishedReplyRules, nftReplySources_resolved h.resolved]
    show (replySources rule.dest).mapM (renderEstablishedReplyRule sv source ip rule config) = _
    rw [Except.mapM_eq_ok_iff, List.forall₂_map_right_iff, List.forall₂_same]
    intro addr _
    rw [renderEstablishedReplyRule, nftPort_ok hp]
    rfl
  refine ⟨_, hlines, ?_⟩
  rw [List.forall_mem_map]
  simp only [hline]
  cases hdest : rule.dest with
  | any => exact iff_of_true (fun addr haddr text ht => by simp_all [replySources, nftValue]) rfl
  | network n =>
    rw [destOddMask, ← isAddress_network]
    simp [replySources, nftValue]
  | dns qname ips =>
    refine iff_of_true (fun addr haddr text ht => ?_) rfl
    obtain ⟨x, -, rfl⟩ := List.mem_map.1 haddr
    exact Option.some.inj ht ▸ isAddress_ip x

/-! ### Spellings -/

/-- Another way to write a rule that is the same to nft. -/
inductive Respelled (sv : Services) (rule : FlowRule) : FlowRule → Prop
  | ptr (ptr : Yaml) : Respelled sv rule { rule with ptr }
  | name {qname : String} {ips : Option (List IPv4)} (h : rule.dest = .dns qname ips) (qname' : String) :
      Respelled sv rule { rule with dest := .dns qname' ips }
  | service {n : Nat} (hany : rule.port ≠ "any") (hdigit : Py.isdigit rule.port.toList = false)
      (h : sv.getservbyname rule.port rule.proto = some n) :
      Respelled sv rule { rule with port := String.ofList (Py.decimal n) }

theorem normalizePort_service {port : String} {proto : FlowProto} {n : Nat} (hproto : proto ≠ .icmp)
    (hany : port ≠ "any") (hdigit : Py.isdigit port.toList = false) (h : sv.getservbyname port proto = some n) :
    normalizePort sv (.str port) proto = .ok (.one n) := by
  simp [normalizePort, Scalar.text, hany, hdigit, hproto, h]

/-- Rules that differ in the text of a port that is read as the same. -/
private theorem render_port {rule : FlowRule} {port : String}
    (h : normalizePort sv (.str port) rule.proto = normalizePort sv (.str rule.port) rule.proto) (ip : IPv4) :
    renderRule sv source { rule with port } config num = renderRule sv source rule config num ∧
      renderEstablishedReplyRules sv source ip { rule with port } config =
        renderEstablishedReplyRules sv source ip rule config := by
  have hport : nftPort sv { rule with port } = nftPort sv rule := by
    simp only [nftPort, h]
  have hdns : udpRuleIncludesDns sv { rule with port } = udpRuleIncludesDns sv rule := by
    unfold udpRuleIncludesDns
    by_cases hudp : rule.proto = .udp
    · rw [hudp] at h
      simp [hudp, h]
    · simp [hudp]
  have hallow : ∀ conds, renderAllow sv { rule with port } conds num = renderAllow sv rule conds num := by
    intro conds
    by_cases hudp : rule.proto = .udp
    · rw [hudp] at h
      simp only [renderAllow, hdns, renderDnsQueueMatch, h]
    · have hno : udpRuleIncludesDns sv rule = .ok false := by simp [udpRuleIncludesDns, hudp]
      rw [renderAllow, renderAllow, hdns, hno]
      rfl
  constructor
  · simp only [renderRule, renderMatch, hport, hallow]
  · have hreply : renderEstablishedReplyRule sv source ip { rule with port } config =
        renderEstablishedReplyRule sv source ip rule config := by
      funext addr
      simp only [renderEstablishedReplyRule, hport]
    simp only [renderEstablishedReplyRules, hreply]

theorem respelled_render {rule' : FlowRule} (h : rule.Usable sv) (hr : Respelled sv rule rule') (ip : IPv4) :
    renderRule sv source rule' config num = renderRule sv source rule config num ∧
      renderEstablishedReplyRules sv source ip rule' config = renderEstablishedReplyRules sv source ip rule config := by
  cases hr with
  | ptr ptr => exact ⟨rfl, rfl⟩
  | name hdest qname' =>
    obtain ⟨ptr, dest, proto, port, action⟩ := rule
    cases hdest
    exact ⟨rfl, rfl⟩
  | @service n hany hdigit hn =>
    have hproto : rule.proto ≠ .icmp := fun hicmp => hany (h.icmp hicmp)
    obtain ⟨hlow, hhigh⟩ := sv.valid _ _ _ hn
    refine render_port ?_ ip
    rw [normalizePort_service hproto hany hdigit hn]
    exact normalizePort_decimal sv _ hlow hhigh

/-- The lines of a rule are well formed exactly when its destination has no odd mask, and they do not depend on how the
rule is written otherwise. -/
theorem rendered_wellFormed_iff (h : rule.Usable sv) {dflt : String} (hs : LegalStem dflt source) (ip : IPv4) :
    ∃ lines replies, renderRule sv source rule config num = .ok lines ∧
      renderEstablishedReplyRules sv source ip rule config = .ok replies ∧
      ((∀ line ∈ lines ++ replies, line.WellFormed source config num) ↔ destOddMask rule.dest = false) ∧
      ∀ rule', Respelled sv rule rule' → renderRule sv source rule' config num = .ok lines ∧
        renderEstablishedReplyRules sv source ip rule' config = .ok replies := by
  obtain ⟨lines, hlines, hline⟩ := @renderRule_wellFormed _ _ _ config num h hs.1
  obtain ⟨replies, hreplies, hreply⟩ := @renderReply_wellFormed _ _ _ config num h hs.1 ip
  refine ⟨lines, replies, hlines, hreplies, ?_, fun rule' hr => ?_⟩
  · rw [List.forall_mem_append, hline, hreply, and_self]
  · obtain ⟨hrule, hreply'⟩ := @respelled_render _ _ source config num _ h hr ip
    exact ⟨hrule.trans hlines, hreply'.trans hreplies⟩

end Rendered

namespace Sample

open QubesSnitch.Sample

theorem work_legal : LegalStem "default-dvm" "work" := checkStem_eq_ok.1 (by decide +kernel)

/-- A rule with a netmask is accepted, and its line is not well formed. -/
theorem rendered_netmask_malformed :
    Accepted .empty dnspython "default-dvm" oneVm (workRules [rule (.network netmask) "any" .allow]) ∧
    ∃ lines, renderRule .empty "work" (rule (.network netmask) "any" .allow) config 50 = .ok lines ∧
      ¬ ∀ line ∈ lines, line.WellFormed "work" config 50 := by
  have husable : (rule (.network netmask) "any" .allow).Usable .empty := usable (.inl rfl) (by simp)
  obtain ⟨lines, hlines, hiff⟩ := @renderRule_wellFormed _ _ _ config 50 husable work_legal.1
  refine ⟨accepted_netmask, lines, hlines, fun h => ?_⟩
  have hodd : destOddMask (.network netmask) = true := by decide +kernel
  rw [show (rule (.network netmask) "any" .allow).dest = .network netmask from rfl, hodd] at hiff
  cases hiff.1 h

theorem rendered_wellFormed_server : ∃ lines replies,
    renderRule .empty "work" (rule (.network (.host server)) "443" .reject) config 50 = .ok lines ∧
      renderEstablishedReplyRules .empty "work" work (rule (.network (.host server)) "443" .reject) config = .ok replies ∧
      ∀ line ∈ lines ++ replies, line.WellFormed "work" config 50 := by
  have husable : (rule (.network (.host server)) "443" .reject).Usable .empty := usable (.inr rfl) (by simp)
  obtain ⟨lines, replies, hlines, hreplies, hiff, -⟩ :=
    @rendered_wellFormed_iff _ _ "work" config 50 husable _ work_legal work
  exact ⟨lines, replies, hlines, hreplies, hiff.2 (by decide +kernel)⟩

end Sample

end QubesSnitch.Nft
