import QubesSnitch.Lib.PyText

/-!
# IPv4 addresses and networks

The part of Python's `ipaddress` the firewall relies on.  An address is its four bytes; its text is the dotted
quad without leading zeros, and that is the only text `IPv4Address` accepts for it (`ipv4Address_eq_some_iff`), so
comparing texts and comparing addresses are the same thing.  `ip_network` with `strict=False` accepts more than one
text for a network: the mask may be a prefix length, with or without leading zeros, a netmask or a hostmask.
-/

namespace QubesSnitch

structure IPv4 where
  a : UInt8
  b : UInt8
  c : UInt8
  d : UInt8
  deriving DecidableEq, Repr, Inhabited

namespace IPv4

def toNat (x : IPv4) : Nat := ((x.a.toNat * 256 + x.b.toNat) * 256 + x.c.toNat) * 256 + x.d.toNat

def chars (x : IPv4) : List Char :=
  Py.decimal x.a.toNat ++ '.' :: (Py.decimal x.b.toNat ++ '.' ::
    (Py.decimal x.c.toNat ++ '.' :: Py.decimal x.d.toNat))

/-- `str(address)` -/
def text (x : IPv4) : String := String.ofList x.chars

end IPv4

/-- `IPv4Address._parse_octet` -/
def parseOctet (s : List Char) : Option UInt8 :=
  if s.isEmpty || !s.all Char.isDigit || 3 < s.length || (s ≠ ['0'] && s.head? = some '0') then none
  else match Py.int s with
    | some n => if n ≤ 255 then some (UInt8.ofNat n) else none
    | none => none

/-- `IPv4Address(text)`; `none` is the `AddressValueError`. -/
def ipv4Address (s : List Char) : Option IPv4 :=
  match Py.split '.' s with
  | [a, b, c, d] => do return ⟨← parseOctet a, ← parseOctet b, ← parseOctet c, ← parseOctet d⟩
  | _ => none

/-! ### The text of an address -/

private theorem parseOctet_decimal (n : UInt8) : parseOctet (Py.decimal n.toNat) = some n := by
  have h : ∀ m < 256, parseOctet (Py.decimal m) = some (UInt8.ofNat m) := by decide +kernel
  simpa using h n.toNat n.toNat_lt

private theorem parseOctet_eq_some {s : List Char} {n : UInt8} (h : parseOctet s = some n) :
    s = Py.decimal n.toNat := by
  unfold parseOctet at h
  split at h
  · cases h
  · rename_i hc
    simp only [Bool.or_eq_true, Bool.not_eq_true', Bool.and_eq_true, decide_eq_true_eq, not_or, not_and,
      List.isEmpty_iff, Bool.not_eq_false] at hc
    obtain ⟨⟨⟨hne, hd⟩, hl⟩, hz⟩ := hc
    split at h
    · rename_i m hm
      split at h
      · rename_i hle
        obtain rfl := Option.some.inj h
        have hz' : s = ['0'] ∨ s.head? ≠ some '0' := by
          by_cases h0 : s = ['0']
          · exact Or.inl h0
          · exact Or.inr (hz h0)
        have := Py.decimal_of_int hne (List.all_eq_true.1 hd) hz' hm
        rw [this, UInt8.toNat_ofNat_of_lt' (by simpa using Nat.lt_succ_of_le hle)]
      · cases h
    · cases h

private theorem dot_not_mem_decimal (n : Nat) : '.' ∉ Py.decimal n := fun h => by
  have := Py.isDigit_of_mem_decimal h
  simp at this

private theorem split_chars (x : IPv4) : Py.split '.' x.chars =
    [Py.decimal x.a.toNat, Py.decimal x.b.toNat, Py.decimal x.c.toNat, Py.decimal x.d.toNat] := by
  unfold Py.split IPv4.chars
  rw [List.splitOn_append_cons_self_of_not_mem (dot_not_mem_decimal _),
    List.splitOn_append_cons_self_of_not_mem (dot_not_mem_decimal _),
    List.splitOn_append_cons_self_of_not_mem (dot_not_mem_decimal _),
    List.splitOn_eq_singleton (dot_not_mem_decimal _)]

theorem ipv4Address_chars (x : IPv4) : ipv4Address x.chars = some x := by
  simp [ipv4Address, split_chars, parseOctet_decimal]

/-- The dotted quad without leading zeros is the only text of an address. -/
theorem ipv4Address_eq_some_iff {s : List Char} {x : IPv4} : ipv4Address s = some x ↔ s = x.chars := by
  constructor
  · intro h
    unfold ipv4Address at h
    split at h
    · rename_i a b c d hs
      simp only [Option.pure_def, Option.bind_eq_bind, Option.bind_eq_some_iff, Option.some.injEq] at h
      obtain ⟨a', ha, b', hb, c', hc, d', hd, rfl⟩ := h
      have hjoin : ['.'].intercalate (s.splitOn '.') = s := List.intercalate_splitOn '.'
      rw [show s.splitOn '.' = _ from hs, parseOctet_eq_some ha, parseOctet_eq_some hb, parseOctet_eq_some hc,
        parseOctet_eq_some hd] at hjoin
      rw [← hjoin]
      simp [IPv4.chars, List.intercalate_cons_cons]
    · cases h
  · rintro rfl
    exact ipv4Address_chars x

theorem IPv4.chars_injective : Function.Injective IPv4.chars := fun x y h => by
  have := ipv4Address_chars x
  rw [h, ipv4Address_chars] at this
  exact (Option.some.inj this).symm

theorem IPv4.text_injective : Function.Injective IPv4.text := fun x y h =>
  IPv4.chars_injective (by simpa [IPv4.text] using congrArg String.toList h)

/-! ### Networks -/

/-- An address with a prefix length; the host bits of the address play no role. -/
structure Cidr where
  addr : IPv4
  len : Nat
  len_le : len ≤ 32
  deriving DecidableEq, Repr

namespace Cidr

/-- `address in network` -/
def contains (n : Cidr) (x : IPv4) : Bool := x.toNat / 2 ^ (32 - n.len) = n.addr.toNat / 2 ^ (32 - n.len)

/-- The network of one address. -/
def host (x : IPv4) : Cidr := ⟨x, 32, Nat.le_refl _⟩

theorem contains_host {x y : IPv4} : (host x).contains y ↔ y = x := by
  have hinj : y.toNat = x.toNat ↔ y = x := by
    constructor
    · intro h
      have ha := x.a.toNat_lt; have hb := x.b.toNat_lt; have hc := x.c.toNat_lt; have hd := x.d.toNat_lt
      have ha' := y.a.toNat_lt; have hb' := y.b.toNat_lt; have hc' := y.c.toNat_lt; have hd' := y.d.toNat_lt
      unfold IPv4.toNat at h
      rcases x with ⟨a, b, c, d⟩
      rcases y with ⟨a', b', c', d'⟩
      simp only [IPv4.mk.injEq, ← UInt8.toNat_inj]
      dsimp only at *
      omega
    · rintro rfl; rfl
  simp [contains, host, hinj]

end Cidr

/-- `_prefix_from_ip_int`: the number of leading ones of a netmask. -/
def prefixFromIpInt (n : Nat) : Option Nat :=
  (List.range 33).find? fun p => n = (2 ^ p - 1) * 2 ^ (32 - p)

/-- `_prefix_from_prefix_string` -/
def prefixFromPrefixString (s : List Char) : Option Nat :=
  if s.isEmpty || !s.all Char.isDigit then none
  else match Py.int s with
    | some n => if n ≤ 32 then some n else none
    | none => none

/-- `_prefix_from_ip_string`: a netmask, or else a hostmask. -/
def prefixFromIpString (s : List Char) : Option Nat :=
  match ipv4Address s with
  | some x => (prefixFromIpInt x.toNat).or (prefixFromIpInt (2 ^ 32 - 1 - x.toNat))
  | none => none

def cidrOf (x : IPv4) (len : Nat) : Option Cidr := if h : len ≤ 32 then some ⟨x, len, h⟩ else none

/-- `IPv4Network(text, strict=False)` -/
def ipv4Network (s : List Char) : Option Cidr :=
  match Py.split '/' s with
  | [a] => do cidrOf (← ipv4Address a) 32
  | [a, m] => do cidrOf (← ipv4Address a) (← (prefixFromPrefixString m).or (prefixFromIpString m))
  | _ => none

private theorem slash_not_mem_decimal (n : Nat) : '/' ∉ Py.decimal n := fun h => by
  have := Py.isDigit_of_mem_decimal h
  simp at this

private theorem slash_not_mem_chars (x : IPv4) : '/' ∉ x.chars := by
  simp [IPv4.chars, slash_not_mem_decimal]

theorem split_slash_chars (x : IPv4) : Py.split '/' x.chars = [x.chars] :=
  List.splitOn_eq_singleton (slash_not_mem_chars x)

/-- The text of an address is the network of that address. -/
theorem ipv4Network_chars (x : IPv4) : ipv4Network x.chars = some (Cidr.host x) := by
  simp [ipv4Network, split_slash_chars, ipv4Address_chars, cidrOf, Cidr.host]

/-- The address and the length of a network. -/
def Cidr.chars (n : Cidr) : List Char := n.addr.chars ++ '/' :: Py.decimal n.len

theorem split_slash_cidr (n : Cidr) : Py.split '/' n.chars = [n.addr.chars, Py.decimal n.len] := by
  unfold Py.split Cidr.chars
  rw [List.splitOn_append_cons_self_of_not_mem (slash_not_mem_chars n.addr),
    List.splitOn_eq_singleton (slash_not_mem_decimal n.len)]

private theorem prefixFromPrefixString_decimal {n : Nat} (h : n ≤ 32) :
    prefixFromPrefixString (Py.decimal n) = some n := by
  have hall : ∀ n < 33, prefixFromPrefixString (Py.decimal n) = some n := by decide +kernel
  exact hall n (Nat.lt_succ_of_le h)

/-- The text of a network is read back as the network. -/
theorem ipv4Network_cidr (n : Cidr) : ipv4Network n.chars = some n := by
  simp [ipv4Network, split_slash_cidr, ipv4Address_chars, prefixFromPrefixString_decimal n.len_le, cidrOf, n.len_le]

/-! ### IPv6, which is only ever refused -/

def isHextet (s : List Char) : Bool :=
  !s.isEmpty && s.length ≤ 4 && s.all fun c => c.isDigit || ('a' ≤ c && c ≤ 'f') || ('A' ≤ c && c ≤ 'F')

/-- The parts of an IPv6 address, with an IPv4 suffix replaced by two hextets. -/
def ipv6Parts (s : List Char) : Option (List (List Char)) :=
  let parts := Py.split ':' s
  if parts.length < 3 then none
  else
    let last := parts.getLast?.getD []
    if '.' ∈ last then
      if (ipv4Address last).isSome then some (parts.dropLast ++ [['0'], ['0']]) else none
    else some parts

/-- Whether the parts, with at most one run of zeros skipped by `::`, are eight hextets. -/
def hextetsValid (parts : List (List Char)) : Bool :=
  let gaps := (List.range parts.length).filter fun i => 0 < i && i + 1 < parts.length && (parts.getD i []).isEmpty
  match gaps with
  | [] => parts.length = 8 && parts.all isHextet
  | [i] =>
    let hi := parts.take i
    let lo := parts.drop (i + 1)
    let hi' := if (hi.getD 0 []).isEmpty then hi.drop 1 else hi
    let lo' := if (lo.getLast?.getD []).isEmpty then lo.dropLast else lo
    ((hi.getD 0 []).isEmpty → hi'.isEmpty) && ((lo.getLast?.getD []).isEmpty → lo'.isEmpty) &&
      hi'.length + lo'.length < 8 && hi'.all isHextet && lo'.all isHextet
  | _ => false

/-- Whether `IPv6Address(text)` accepts the text. -/
def isIPv6Address (s : List Char) : Bool :=
  let addr := s.takeWhile (· ≠ '%')
  let scope := (s.dropWhile (· ≠ '%')).drop 1
  !('/' ∈ s) && (!('%' ∈ s) || (!scope.isEmpty && !('%' ∈ scope))) && !addr.isEmpty &&
    match ipv6Parts addr with
    | some parts => parts.length ≤ 9 && hextetsValid parts
    | none => false

/-- Whether `IPv6Network(text, strict=False)` accepts the text. -/
def isIPv6Network (s : List Char) : Bool :=
  match Py.split '/' s with
  | [a] => isIPv6Address a
  | [a, m] => isIPv6Address a && !m.isEmpty && m.all Char.isDigit && ((Py.int m).any fun n => n ≤ 128)
  | _ => false

inductive Address where
  | v4 (x : IPv4)
  | v6
  deriving DecidableEq, Repr

/-- `ipaddress.ip_address(text)`; `none` is the `ValueError`. -/
def ipAddress (s : List Char) : Option Address :=
  match ipv4Address s with
  | some x => some (.v4 x)
  | none => if isIPv6Address s then some .v6 else none

inductive Network where
  | v4 (n : Cidr)
  | v6
  deriving DecidableEq, Repr

/-- `ipaddress.ip_network(text, strict=False)`; `none` is the `ValueError`. -/
def ipNetwork (s : List Char) : Option Network :=
  match ipv4Network s with
  | some n => some (.v4 n)
  | none => if isIPv6Network s then some .v6 else none

theorem ipNetwork_chars (x : IPv4) : ipNetwork x.chars = some (.v4 (Cidr.host x)) := by
  simp [ipNetwork, ipv4Network_chars]

example : (ipv4Network "10.1.2.0/255.255.255.0".toList).map Cidr.len = some 24 := by decide +kernel

example : ipAddress "fe80::1%eth0".toList = some .v6 := by decide +kernel

end QubesSnitch
