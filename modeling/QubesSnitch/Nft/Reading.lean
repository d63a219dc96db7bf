import QubesSnitch.Nft.Render

/-!
# How nft reads a policy

The network of a `dest` is written into the table as it stands in the rule file.  The checks read it with `ipaddress`
and nft reads it with its own grammar: a netmask or a hostmask nft cannot read at all (`destReadable`), and a length
that begins with a zero it takes for a number in base 8, so `10.0.0.0/010` is a network of eight bits there and
`10.0.0.0/08` is none.  `Rules.asRead` is the policy with the networks that nft reads, and a destination whose length is
written plainly is in it what it is for the checks (`readAlike_of_plain`).
-/

namespace QubesSnitch

open Nft

/-- A network, as a destination text that is read as it. -/
def NetworkText.ofCidr (n : Cidr) (h : n.len ≠ 0) : NetworkText where
  value := .str (String.ofList n.chars)
  cidr := n
  parses := by simp [Scalar.text, ipNetwork, ipv4Network_cidr]
  narrow := h

/-- The destination that nft has for a destination of a rule, where it can read it; a network of no bits is every
address. -/
def Dest.asRead : Dest → Dest
  | .network n => match readPrefix n.value.text with
    | some c => if h : c.len ≠ 0 then .network (.ofCidr c h) else .any
    | none => .network n
  | dest => dest

def FlowRule.asRead (rule : FlowRule) : FlowRule := { rule with dest := rule.dest.asRead }

def SourceRules.asRead (rules : SourceRules) : SourceRules := { rules with ip := rules.ip.map FlowRule.asRead }

/-- The policy with the networks that nft reads. -/
def Rules.asRead (rules : Rules) : Rules := rules.mapValues SourceRules.asRead

@[simp] theorem FlowRule.asRead_proto (rule : FlowRule) : rule.asRead.proto = rule.proto := rfl

@[simp] theorem FlowRule.asRead_action (rule : FlowRule) : rule.asRead.action = rule.action := rfl

@[simp] theorem FlowRule.asRead_dest (rule : FlowRule) : rule.asRead.dest = rule.dest.asRead := rfl

@[simp] theorem FlowRule.asRead_portCovers (sv : Services) (rule : FlowRule) (port : Option Nat) :
    rule.asRead.portCovers sv port = rule.portCovers sv port := rfl

theorem Rules.get?_asRead (rules : Rules) (source : String) :
    (Rules.asRead rules).get? source = (rules.get? source).map SourceRules.asRead := Dict.get?_mapValues _ _ _

theorem Rules.ofSource_asRead (rules : Rules) (source : String) :
    (Rules.asRead rules).ofSource source = (rules.ofSource source).asRead := by
  rw [Rules.ofSource, Rules.get?_asRead, Rules.ofSource]
  cases rules.get? source <;> rfl

/-- Only networks are read in another way. -/
theorem Dest.asRead_dns {dest : Dest} {qname : String} {ips : Option (List IPv4)} (h : dest.asRead = .dns qname ips) :
    dest = .dns qname ips := by
  cases dest with
  | any => cases h
  | dns qname ips => exact h
  | network n =>
    unfold Dest.asRead at h
    dsimp only at h
    split at h
    · split at h <;> cases h
    · cases h

theorem FlowRule.Usable.asRead {sv : Services} {rule : FlowRule} (h : rule.Usable sv) : rule.asRead.Usable sv where
  port := h.port
  icmp := h.icmp
  name qname ips hdest := h.name qname ips (Dest.asRead_dns hdest)
  resolved qname ips hdest := h.resolved qname ips (Dest.asRead_dns hdest)

theorem SourceRules.Usable.asRead {sv : Services} {rules : SourceRules} (h : rules.Usable sv) :
    rules.asRead.Usable sv := by
  intro rule hrule
  obtain ⟨rule', hrule', rfl⟩ := List.mem_map.1 hrule
  exact (h rule' hrule').asRead

namespace Nft

/-! ### Reading -/

theorem readPrefix_ip (x : IPv4) : readPrefix x.text = some (Cidr.host x) := by
  simp [readPrefix, IPv4.text, split_slash_chars, ipv4Address_chars, cidrOf, Cidr.host]

theorem scanNumber_decimal {n : Nat} (h : n ≤ 32) : scanNumber (Py.decimal n) = some n := by
  have hall : ∀ n < 33, scanNumber (Py.decimal n) = some n := by decide +kernel
  exact hall n (Nat.lt_succ_of_le h)

theorem readPrefix_cidr (n : Cidr) : readPrefix (String.ofList n.chars) = some n := by
  simp [readPrefix, split_slash_cidr, ipv4Address_chars, scanNumber_decimal n.len_le, cidrOf, n.len_le]

/-- Whether nft can read a destination. -/
def destReadable : Dest → Bool
  | .network n => (readPrefix n.value.text).isSome
  | _ => true

/-- A network of no bits is every address. -/
private theorem contains_all {c : Cidr} (h : c.len = 0) (x : IPv4) : c.contains x := by
  have hlt : ∀ y : IPv4, y.toNat / 2 ^ 32 = 0 := by
    intro y
    have ha := y.a.toNat_lt; have hb := y.b.toNat_lt; have hc := y.c.toNat_lt; have hd := y.d.toNat_lt
    rw [IPv4.toNat]
    omega
  simp only [Cidr.contains, h, Nat.sub_zero, hlt, decide_true]

/-- A readable network contains for nft what its reading covers. -/
theorem contains_network {n : NetworkText} (h : destReadable (.network n)) (x : IPv4) :
    (Operand.one n.value.text).contains x = (Dest.network n).asRead.covers x := by
  obtain ⟨c, hc⟩ := Option.isSome_iff_exists.1 h
  simp only [Operand.contains, Operand.texts, List.any_cons, List.any_nil, Bool.or_false, hc, Option.any_some,
    Dest.asRead]
  by_cases hlen : c.len ≠ 0
  · rw [dif_pos hlen]
    rfl
  · rw [dif_neg hlen, contains_all (not_not.1 hlen)]
    rfl

/-! ### Read alike -/

/-- Whether nft reads a destination as the checks do. -/
def readAlike : Dest → Bool
  | .network n => readPrefix n.value.text = some n.cidr
  | _ => true

theorem readable_of_alike {dest : Dest} (h : readAlike dest) : destReadable dest := by
  cases dest with
  | any => rfl
  | dns qname ips => rfl
  | network n => simp [destReadable, of_decide_eq_true h]

theorem asRead_covers {dest : Dest} (h : readAlike dest) (x : IPv4) : dest.asRead.covers x = dest.covers x := by
  cases dest with
  | any => rfl
  | dns qname ips => rfl
  | network n => simp [Dest.asRead, of_decide_eq_true h, n.narrow, Dest.covers, NetworkText.ofCidr]

theorem asRead_covers_rule {sv : Services} {rule : FlowRule} (h : readAlike rule.dest) (flow : Flow) :
    rule.asRead.covers sv flow = rule.covers sv flow := by
  rw [FlowRule.covers, FlowRule.asRead_dest, asRead_covers h]
  rfl

/-- Rules that are read alike answer alike. -/
theorem firstAction_asRead {sv : Services} {rules : SourceRules} (h : ∀ rule ∈ rules.ip, readAlike rule.dest)
    (flow : Flow) : firstAction sv rules.asRead.ip flow = firstAction sv rules.ip flow := by
  have hfind : rules.ip.find? (fun rule => rule.asRead.covers sv flow) =
      rules.ip.find? fun rule => rule.covers sv flow :=
    List.find?_congr fun rule hrule => asRead_covers_rule (h rule hrule) flow
  simp [firstAction, SourceRules.asRead, List.find?_map, Function.comp_def, hfind, Option.map_map]

/-- Whether the mask of a network is anything but a plain number: a netmask, a hostmask, or a number that begins with
a zero. -/
def oddMask (text : List Char) : Bool :=
  match Py.split '/' text with
  | [_, mask] => '.' ∈ mask || (mask.head? = some '0' && 1 < mask.length)
  | _ => false

/-- A mask that is a plain number. -/
private theorem decimal_of_mask {m : List Char} {len : Nat}
    (h : (prefixFromPrefixString m).or (prefixFromIpString m) = some len)
    (hodd : ('.' ∈ m || (m.head? = some '0' && 1 < m.length)) = false) : len ≤ 32 ∧ m = Py.decimal len := by
  simp only [Bool.or_eq_false_iff, decide_eq_false_iff_not, Bool.and_eq_false_iff] at hodd
  obtain ⟨hdot, hzero⟩ := hodd
  have hmask : prefixFromIpString m = none := by
    unfold prefixFromIpString
    cases hip : ipv4Address m with
    | none => rfl
    | some y =>
      rw [ipv4Address_eq_some_iff.1 hip] at hdot
      exact absurd (by simp [IPv4.chars]) hdot
  rw [hmask, Option.or_none] at h
  unfold prefixFromPrefixString at h
  split at h
  · cases h
  · rename_i hdigits
    simp only [Bool.or_eq_true, List.isEmpty_iff, Bool.not_eq_true', not_or, Bool.not_eq_false, List.all_eq_true] at hdigits
    split at h
    · rename_i n hn
      split at h
      · rename_i hle
        obtain rfl := Option.some.inj h
        refine ⟨hle, Py.decimal_of_int hdigits.1 hdigits.2 ?_ hn⟩
        rcases m with _ | ⟨c, _ | ⟨d, m⟩⟩
        · exact absurd rfl hdigits.1
        · by_cases hc : c = '0'
          · exact .inl (by rw [hc])
          · exact .inr (by simpa using hc)
        · exact .inr (by simpa using hzero)
      · cases h
    · cases h

theorem ipv4Network_value (n : NetworkText) : ipv4Network n.value.text.toList = some n.cidr := by
  have := n.parses
  unfold ipNetwork at this
  split at this
  · rename_i c hc
    rw [hc, Network.v4.inj (Option.some.inj this)]
  · split at this <;> cases this

/-- A network without an odd mask is written as an address, or as an address with its length. -/
theorem plain_text {n : NetworkText} (h : oddMask n.value.text.toList = false) :
    (∃ x : IPv4, n.value.text = x.text ∧ n.cidr = Cidr.host x) ∨ n.value.text = String.ofList n.cidr.chars := by
  have hnet := ipv4Network_value n
  have hjoin : ['/'].intercalate (n.value.text.toList.splitOn '/') = n.value.text.toList := List.intercalate_splitOn '/'
  unfold ipv4Network at hnet
  split at hnet
  · rename_i a hsplit
    obtain ⟨x, hx, hcidr⟩ := Option.bind_eq_some_iff.1 hnet
    rw [show n.value.text.toList.splitOn '/' = _ from hsplit, ipv4Address_eq_some_iff.1 hx] at hjoin
    refine .inl ⟨x, String.toList_inj.1 ?_, by simpa [cidrOf, Cidr.host, eq_comm] using hcidr⟩
    rw [← hjoin]
    simp [IPv4.text]
  · rename_i a m hsplit
    obtain ⟨x, hx, hnet⟩ := Option.bind_eq_some_iff.1 hnet
    obtain ⟨len, hlen, hcidr⟩ := Option.bind_eq_some_iff.1 hnet
    rw [oddMask, hsplit] at h
    obtain ⟨hle, rfl⟩ := decimal_of_mask hlen h
    have hcidr : n.cidr = ⟨x, len, hle⟩ := by simpa [cidrOf, hle, eq_comm] using hcidr
    rw [show n.value.text.toList.splitOn '/' = _ from hsplit, ipv4Address_eq_some_iff.1 hx] at hjoin
    refine .inr (String.toList_inj.1 ?_)
    rw [← hjoin, hcidr]
    simp [Cidr.chars, List.intercalate_cons_cons]
  · cases hnet

/-- A plain mask is read by nft as it is by the checks. -/
theorem readAlike_of_plain {n : NetworkText} (h : oddMask n.value.text.toList = false) : readAlike (.network n) := by
  refine decide_eq_true ?_
  obtain ⟨x, htext, hcidr⟩ | htext := plain_text h
  · rw [htext, hcidr, readPrefix_ip]
  · rw [htext, readPrefix_cidr]

example : readPrefix "10.0.0.0/010" = some ⟨⟨10, 0, 0, 0⟩, 8, by decide⟩ := by decide +kernel

example : readPrefix "10.0.0.0/08" = none := by decide +kernel

end Nft

end QubesSnitch
