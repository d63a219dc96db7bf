import QubesSnitch.SourceRows
import QubesSnitch.NetvmWalk
import QubesSnitch.Display

/-!
# The source service of dom0

`main` is the script that dom0 runs for `qubes.SnitchSources`: it reads the domains of `qubes.xml` and prints a row for
every one with a label and an IPv4 address whose NetVM chain leads to the Snitch VM.

What the daemon then knows of an address is what `qubes.xml` says of it (`table_of_qubesXml`), and addresses that the script makes
up from ids do not clash (`generated_apart`).
-/

namespace QubesSnitch

/-! ### `qubes.xml` -/

structure QubesProperty where
  name : Option String
  ref : Option String
  text : Option String

structure QubesDomain where
  id : Option String
  vmClass : Option String
  properties : List QubesProperty

/-- The parsed file; properties are the `property` elements in a `properties` element, in the order of the file. -/
structure QubesXml where
  properties : List QubesProperty
  domains : List QubesDomain

/-! ### The script -/

/-- `value or None` -/
def orNone (value : Option String) : Option String := value.filter (· ≠ "")

def prop (properties : List QubesProperty) (name : String) : Option String :=
  match properties.find? fun node => node.name = some name with
  | none => none
  | some node => orNone (node.ref.or node.text)

/-- `int(text)` for any text; `none` is the `ValueError`. -/
def intOfText (text : String) : Option Int :=
  let space (c : Char) : Bool := isspace (codePoint c)
  let stripped := ((text.toList.dropWhile space).reverse.dropWhile space).reverse
  let digits := match stripped with
    | '-' :: rest | '+' :: rest => rest
    | rest => rest
  let groups := Py.split '_' digits
  if groups.all fun group => !group.isEmpty && group.all fun c => (Py.decimalValue c).isSome then
    (Py.int groups.flatten).map fun n => if stripped.head? = some '-' then -n else n
  else none

def qid (domain : QubesDomain) : Option Int :=
  let ident := (domain.id.getD "").toList
  if !"domain-".toList.isPrefixOf ident then none
  else (Py.splitFirst '-' ident).bind fun parts => intOfText (String.ofList parts.2)

/-- A number from 0 on as a part of an address. -/
def octetText (n : Int) : String := String.ofList (Py.decimal n.toNat)

def ipFromId (net : String) (value : Int) : String :=
  if value < 255 then net ++ "." ++ octetText (value / 256 % 256) ++ "." ++ octetText (value % 256)
  else net ++ "." ++ octetText ((value - 1) / 254) ++ "." ++ octetText ((value - 1) % 254 + 1)

def labelName (value : Option String) : Option String :=
  value.map fun value =>
    if "label-".toList.isPrefixOf value.toList then String.ofList (value.toList.drop 6) else value

def domainClass (domain : QubesDomain) : String := (orNone domain.vmClass).getD "-"

/-- The id that the address of a domain is made up from, and whether it is one of a disposable; an id that is no number
raises. -/
def addressId (domain : QubesDomain) : Except PyError (Option (Bool × Int)) :=
  if domainClass domain = "DispVM" then
    match prop domain.properties "dispid" with
    | none => .ok none
    | some text =>
      match intOfText text with
      | none => .error (.valueError ("invalid literal for int() with base 10: " ++ String.ofList (Py.repr text.toList)))
      | some id => .ok (some (true, id))
  else .ok ((qid domain).map fun id => (false, id))

def netOf (disposable : Bool) : String := if disposable then "10.138" else "10.137"

def domainIp (domain : QubesDomain) : Except PyError (Option String) :=
  match prop domain.properties "ip" with
  | some ip => .ok (some ip)
  | none => (addressId domain).map fun id => id.map fun id => ipFromId (netOf id.1) id.2

structure DomainRow where
  name : String
  ip : Option String
  label : Option String
  vmClass : String
  template : String

/-- What the first loop has collected. -/
structure Reading where
  rows : List DomainRow
  netvms : Dict String String

def domainNetvm (defaultNetvm : Option String) (domain : QubesDomain) : Option String :=
  match prop domain.properties "netvm" with
  | none => if domainClass domain ≠ "TemplateVM" then defaultNetvm else none
  | some netvm => some netvm

def domainTemplate (domain : QubesDomain) : String := (prop domain.properties "template").getD "-"

def domainLabel (domain : QubesDomain) : Option String := labelName (prop domain.properties "label")

def readDomain (defaultNetvm : Option String) (reading : Reading) (domain : QubesDomain) : Except PyError Reading :=
  match prop domain.properties "name" with
  | none => .ok reading
  | some name =>
    if name = "dom0" then .ok reading
    else do
      let netvms := match domainNetvm defaultNetvm domain with
        | some netvm => reading.netvms.set name netvm
        | none => reading.netvms
      let ip ← domainIp domain
      return ⟨reading.rows ++ [⟨name, ip, domainLabel domain, domainClass domain, domainTemplate domain⟩], netvms⟩

def readDomains (xml : QubesXml) : Except PyError Reading :=
  xml.domains.foldlM (readDomain (prop xml.properties "default_netvm")) ⟨[], .empty⟩

/-- `f"{name}|{ip}|{label}|{vm_class}|{template}"` -/
def rowLine (name ip label vmClass template : String) : List Char :=
  name.toList ++ '|' :: (ip.toList ++ '|' :: (label.toList ++ '|' :: (vmClass.toList ++ '|' :: template.toList)))

/-- The line of a row, if it is printed. -/
def printedLine (snitchVm : String) (netvms : Dict String String) (row : DomainRow) : Option (List Char) := do
  let ip ← orNone row.ip
  let label ← orNone row.label
  match ipAddress ip.toList with
  | some (.v4 _) =>
    if vmUsesSnitch snitchVm netvms (netvms.size + 2) row.name = some true then
      some (rowLine row.name ip label row.vmClass row.template)
    else none
  | _ => none

def main (snitchVm : String) (xml : QubesXml) : Except PyError String := do
  let reading ← readDomains xml
  return String.ofList ((reading.rows.filterMap (printedLine snitchVm reading.netvms)).flatMap fun line => line ++ ['\n'])

/-! ### Lines -/

theorem splitlinesFrom_line {s : List Char} (h : ∀ c ∈ s, Py.isLineEnd c = false) (line rest : List Char) :
    Py.splitlinesFrom line (s ++ '\n' :: rest) = (line ++ s) :: Py.splitlinesFrom [] rest := by
  induction s generalizing line with
  | nil =>
    rw [List.nil_append, Py.splitlinesFrom, if_pos (by decide), List.append_nil]
    rintro _ ⟨⟩
  | cons c s ih =>
    have hc := h c (List.mem_cons_self ..)
    rw [List.cons_append, Py.splitlinesFrom, hc, if_neg (by simp), ih (fun d hd => h d (List.mem_cons_of_mem _ hd)),
      List.append_assoc]
    · rfl
    · rintro _ rfl
      cases hc

/-- Lines without line ends are read as they were printed. -/
theorem splitlines_flatMap {lines : List (List Char)} (h : ∀ line ∈ lines, ∀ c ∈ line, Py.isLineEnd c = false) :
    Py.splitlines (lines.flatMap fun line => line ++ ['\n']) = lines := by
  induction lines with
  | nil => rfl
  | cons line lines ih =>
    have hlines := ih fun l hl => h l (List.mem_cons_of_mem _ hl)
    rw [Py.splitlines] at hlines ⊢
    rw [List.flatMap_cons, List.append_assoc, List.singleton_append,
      splitlinesFrom_line (h line (List.mem_cons_self ..)), hlines]
    rfl

theorem length_splitOn_append (s t : List Char) :
    (Py.split '|' (s ++ '|' :: t)).length = (Py.split '|' s).length + (Py.split '|' t).length := by
  rw [Py.split, List.splitOn_append_cons_self, List.length_append]
  rfl

theorem not_mem_of_length_split {s : List Char} (h : (Py.split '|' s).length ≤ 1) : '|' ∉ s := by
  intro hmem
  obtain ⟨t, u, rfl⟩ := List.append_of_mem hmem
  have ht := List.length_pos_iff.2 (List.splitOn_ne_nil '|' t)
  have hu := List.length_pos_iff.2 (List.splitOn_ne_nil '|' u)
  rw [length_splitOn_append] at h
  simp only [Py.split] at h
  omega

/-- A line of five parts has no bar but the four that were printed. -/
theorem split_rowLine {name ip label vmClass template : String}
    (h : (Py.split '|' (rowLine name ip label vmClass template)).length = 5) :
    (Py.split '|' (rowLine name ip label vmClass template)).map String.ofList = [name, ip, label, vmClass, template] := by
  have hpos : ∀ s : List Char, 0 < (Py.split '|' s).length := fun s => List.length_pos_iff.2 (List.splitOn_ne_nil '|' s)
  simp only [rowLine, length_splitOn_append] at h
  have hname := hpos name.toList
  have hip := hpos ip.toList
  have hlabel := hpos label.toList
  have hclass := hpos vmClass.toList
  have htemplate := hpos template.toList
  have hbar : ∀ {s : String}, (Py.split '|' s.toList).length ≤ 1 → '|' ∉ s.toList := not_mem_of_length_split
  simp only [rowLine, Py.split]
  rw [List.splitOn_append_cons_self_of_not_mem (hbar (by omega)),
    List.splitOn_append_cons_self_of_not_mem (hbar (by omega)),
    List.splitOn_append_cons_self_of_not_mem (hbar (by omega)),
    List.splitOn_append_cons_self_of_not_mem (hbar (by omega)), List.splitOn_eq_singleton (hbar (by omega))]
  simp

/-! ### Rows -/

section Rows

variable {snitchVm sourceName dflt : String} {netvms : Dict String String} {row : DomainRow}

/-- A VM with an IPv4 address and a label whose NetVM chain leads to Snitch. -/
structure Listed (snitchVm : String) (netvms : Dict String String) (row : DomainRow) (label : String) (address : IPv4) :
    Prop where
  ip : ∃ ip, row.ip = some ip ∧ ipAddress ip.toList = some (.v4 address)
  label : row.label = some label ∧ label ≠ ""
  behind : UsesNetvm netvms snitchVm row.name

theorem vmUsesSnitch_iff {name : String} :
    vmUsesSnitch snitchVm netvms (netvms.size + 2) name = some true ↔ UsesNetvm netvms snitchVm name := by
  have hkeys : ∀ vm next, netvms.get? vm = some next → vm ∈ netvms.keys := fun _ _ => Dict.mem_keys_of_get?
  have hsize : netvms.keys.length = netvms.size := by rw [Dict.keys, Dict.size, List.length_map]
  obtain ⟨uses, hrun, huses⟩ := ChainWalk.run_decides isVmName snitchVm hkeys name le_rfl
  rw [hsize] at hrun
  rw [vmUsesSnitch, hrun, Option.some.injEq, huses, usesNetvm_iff_reaches]

theorem printedLine_eq_some {line : List Char} : printedLine snitchVm netvms row = some line ↔
    ∃ ip label address, row.ip = some ip ∧ ipAddress ip.toList = some (.v4 address) ∧
      Listed snitchVm netvms row label address ∧ line = rowLine row.name ip label row.vmClass row.template := by
  unfold printedLine
  simp only [Option.bind_eq_bind, Option.bind_eq_some_iff, orNone, Option.filter_eq_some_iff, decide_eq_true_eq]
  constructor
  · rintro ⟨ip, ⟨hip, -⟩, label, hlabel, h⟩
    split at h
    · rename_i address haddress
      split at h
      · rename_i hbehind
        exact ⟨ip, label, address, hip, haddress, ⟨⟨ip, hip, haddress⟩, hlabel, vmUsesSnitch_iff.1 hbehind⟩,
          (Option.some.inj h).symm⟩
      · cases h
    · cases h
  · rintro ⟨ip, label, address, hip, haddress, hlisted, rfl⟩
    have hne : ip ≠ "" := by
      rintro rfl
      cases haddress
    refine ⟨ip, ⟨hip, hne⟩, label, hlisted.label, ?_⟩
    simp only [haddress, vmUsesSnitch_iff.2 hlisted.behind, if_true]

/-- What the daemon makes of a printed line that it accepts. -/
theorem acceptedRow_rowLine {name ip label vmClass template : String} {address : IPv4}
    (haddress : ipAddress ip.toList = some (.v4 address))
    (hchecked : LineChecked sourceName dflt (rowLine name ip label vmClass template)) :
    ∃ policySource, dispvmPolicySource name vmClass template dflt = .ok policySource ∧
      acceptedRow sourceName dflt (rowLine name ip label vmClass template) =
        policySource.map fun policySource => ⟨name, label, vmClass, template, address, policySource⟩ := by
  obtain ⟨o, ho⟩ := hchecked
  rw [acceptedRow, ho]
  have hstrip : (Py.strip (rowLine name ip label vmClass template)).isEmpty = false := by
    rw [← Bool.not_eq_true, List.isEmpty_iff]
    intro hnil
    exact absurd (Py.isSpace_of_strip_eq_nil hnil (show '|' ∈ _ by simp [rowLine])) (by decide)
  unfold sourceRow at ho
  rw [hstrip, if_neg Bool.false_ne_true] at ho
  have hlength : (Py.split '|' (rowLine name ip label vmClass template)).length = 5 := by
    rw [← List.length_map String.ofList]
    generalize (Py.split '|' (rowLine name ip label vmClass template)).map String.ofList = parts at ho
    rcases parts with _ | ⟨a, _ | ⟨b, _ | ⟨c, _ | ⟨d, _ | ⟨e, _ | ⟨f, rest⟩⟩⟩⟩⟩⟩
    case cons.cons.cons.cons.cons.nil => rfl
    all_goals cases ho
  have hne : (ip = "" || ip = "-") = false := by
    simp only [Bool.or_eq_false_iff, decide_eq_false_iff_not]
    constructor <;> rintro rfl <;> cases haddress
  rw [split_rowLine hlength] at ho
  dsimp only at ho
  rw [hne, if_neg Bool.false_ne_true, haddress] at ho
  obtain ⟨-, -, ho⟩ := Except.exists_of_bind_eq_ok ho
  obtain ⟨-, -, ho⟩ := Except.exists_of_bind_eq_ok ho
  obtain ⟨-, -, ho⟩ := Except.exists_of_bind_eq_ok ho
  obtain ⟨policySource, hpolicy, ho⟩ := Except.exists_of_bind_eq_ok ho
  refine ⟨policySource, hpolicy, ?_⟩
  cases policySource with
  | none =>
    obtain rfl := Except.ok.inj ho
    rfl
  | some policySource =>
    obtain rfl := Except.ok.inj ho
    rfl

end Rows

/-! ### What is read of `qubes.xml` -/

/-- The domain is the VM of a name. -/
def QubesDomain.IsVm (domain : QubesDomain) (vm : String) : Prop :=
  prop domain.properties "name" = some vm ∧ vm ≠ "dom0"

/-- What the first loop makes of a domain. -/
structure RowOf (domain : QubesDomain) (row : DomainRow) : Prop where
  vm : domain.IsVm row.name
  ip : domainIp domain = .ok row.ip
  label : row.label = domainLabel domain
  vmClass : row.vmClass = domainClass domain
  template : row.template = domainTemplate domain

/-- VM names stand for one domain each. -/
def UniqueNames (domains : List QubesDomain) : Prop :=
  domains.Pairwise fun domain other => ∀ vm, domain.IsVm vm → ¬ other.IsVm vm

structure Reading.Of (defaultNetvm : Option String) (domains : List QubesDomain) (reading : Reading) : Prop where
  rows : ∀ row, row ∈ reading.rows ↔ ∃ domain ∈ domains, RowOf domain row
  netvms : UniqueNames domains → ∀ vm next, reading.netvms.get? vm = some next ↔
    ∃ domain ∈ domains, domain.IsVm vm ∧ domainNetvm defaultNetvm domain = some next

section Read

variable {defaultNetvm : Option String} {domains : List QubesDomain} {domain : QubesDomain} {reading reading' : Reading}

theorem readDomain_cases (h : readDomain defaultNetvm reading domain = .ok reading') :
    ((∀ vm, ¬ domain.IsVm vm) ∧ reading' = reading) ∨
    ∃ vm ip, domain.IsVm vm ∧ domainIp domain = .ok ip ∧
      reading'.rows = reading.rows ++ [⟨vm, ip, domainLabel domain, domainClass domain, domainTemplate domain⟩] ∧
      ∀ name, reading'.netvms.get? name =
        if name = vm then (domainNetvm defaultNetvm domain).or (reading.netvms.get? name)
        else reading.netvms.get? name := by
  unfold readDomain at h
  split at h
  · rename_i hname
    obtain rfl := Except.ok.inj h
    exact Or.inl ⟨fun vm hvm => by simp [hvm.1] at hname, rfl⟩
  · rename_i vm hname
    split at h
    · rename_i hdom0
      obtain rfl := Except.ok.inj h
      refine Or.inl ⟨fun other hother => hother.2 ?_, rfl⟩
      rw [hother.1, Option.some.injEq] at hname
      rw [hname, hdom0]
    · rename_i hdom0
      obtain ⟨ip, hip, h⟩ := Except.exists_of_bind_eq_ok h
      obtain rfl := Except.ok.inj h
      refine Or.inr ⟨vm, ip, ⟨hname, hdom0⟩, hip, rfl, fun name => ?_⟩
      cases domainNetvm defaultNetvm domain with
      | none => simp
      | some netvm => rw [Dict.get?_set]; rfl

theorem QubesDomain.IsVm.eq {vm other : String} (h : domain.IsVm vm) (hother : domain.IsVm other) : vm = other :=
  Option.some.inj (h.1.symm.trans hother.1)

/-- One domain more. -/
theorem Reading.Of.step (h : reading.Of defaultNetvm domains)
    (hread : readDomain defaultNetvm reading domain = .ok reading') : reading'.Of defaultNetvm (domains ++ [domain]) := by
  rcases readDomain_cases hread with ⟨hnot, rfl⟩ | ⟨vm, ip, hvm, hip, hrows, hnetvms⟩
  · refine ⟨fun row => (h.rows row).trans ?_, fun hunique name next => (h.netvms ?_ name next).trans ?_⟩
    · simp only [List.mem_append, List.mem_singleton, or_and_right, exists_or, exists_eq_left]
      exact (or_iff_left fun hrow => hnot _ hrow.vm).symm
    · exact (List.pairwise_append.1 hunique).1
    · simp only [List.mem_append, List.mem_singleton, or_and_right, exists_or, exists_eq_left]
      exact (or_iff_left fun hvm => hnot _ hvm.1).symm
  · refine ⟨fun row => ?_, fun hunique name next => ?_⟩
    · simp only [hrows, List.mem_append, List.mem_singleton, or_and_right, exists_or, exists_eq_left, h.rows]
      refine or_congr_right ⟨?_, fun hrow => ?_⟩
      · rintro rfl
        exact ⟨hvm, hip, rfl, rfl, rfl⟩
      · have hname := hrow.vm.eq hvm
        have hrowip := Except.ok.inj (hrow.ip.symm.trans hip)
        obtain ⟨rname, rip, rlabel, rclass, rtemplate⟩ := row
        simp only [DomainRow.mk.injEq]
        exact ⟨hname, hrowip, hrow.label, hrow.vmClass, hrow.template⟩
    · obtain ⟨hold, -, hcross⟩ := List.pairwise_append.1 hunique
      rw [hnetvms]
      simp only [List.mem_append, List.mem_singleton, or_and_right, exists_or, exists_eq_left]
      rw [← h.netvms hold]
      split
      · rename_i hname
        subst hname
        -- No domain before had the name, so nothing is looked up but what this one says.
        have hnone : reading.netvms.get? name = none := by
          rw [Option.eq_none_iff_forall_ne_some]
          intro old hget
          obtain ⟨other, hmem, hother, -⟩ := (h.netvms hold name old).1 hget
          exact hcross other hmem domain (List.mem_singleton_self _) name hother hvm
        simp [hnone, hvm]
      · rename_i hname
        exact (or_iff_left fun hthis => hname (hthis.1.eq hvm)).symm

theorem readDomains_of {xml : QubesXml} (h : readDomains xml = .ok reading) :
    reading.Of (prop xml.properties "default_netvm") xml.domains := by
  unfold readDomains at h
  generalize prop xml.properties "default_netvm" = defaultNetvm at h
  generalize xml.domains = domains at h
  induction domains using List.reverseRecOn generalizing reading with
  | nil =>
    obtain rfl := Except.ok.inj h
    exact ⟨by simp, by simp⟩
  | append_singleton domains domain ih =>
    rw [List.foldlM_append] at h
    obtain ⟨before, hbefore, h⟩ := Except.exists_of_bind_eq_ok h
    obtain ⟨after, hafter, h⟩ := Except.exists_of_bind_eq_ok h
    obtain rfl := Except.ok.inj h
    exact (ih hbefore).step hafter

end Read

/-! ### What the daemon reads -/

/-- VM names stand for one domain each, and nothing that is printed of a VM has a line end. -/
structure QubesXml.Regular (xml : QubesXml) : Prop where
  unique : UniqueNames xml.domains
  lines : ∀ domain ∈ xml.domains, ∀ vm, domain.IsVm vm →
    ∀ text ∈ vm :: domainClass domain :: domainTemplate domain :: (domainLabel domain).toList,
      ∀ c ∈ text.toList, Py.isLineEnd c = false

/-- Snitch is the VM, its NetVM, the NetVM of that, and so on. -/
inductive QubesXml.Behind (xml : QubesXml) (snitchVm : String) : String → Prop
  | self (h : isVmName snitchVm) : xml.Behind snitchVm snitchVm
  | netvm {domain : QubesDomain} {vm next : String} (hmem : domain ∈ xml.domains) (hvm : domain.IsVm vm)
      (hname : isVmName vm) (hnext : domainNetvm (prop xml.properties "default_netvm") domain = some next)
      (hrest : xml.Behind snitchVm next) : xml.Behind snitchVm vm

/-- `qubes.xml` has a VM behind Snitch with the name, the label, the class, the template and the address of the row, and
the policy source is the one of such a VM. -/
structure QubesXml.Says (xml : QubesXml) (snitchVm dflt : String) (row : SourceRow) : Prop where
  domain : ∃ domain ∈ xml.domains, domain.IsVm row.source ∧ domainLabel domain = some row.label ∧
    domainClass domain = row.vmClass ∧ domainTemplate domain = row.template ∧
    ∃ ip, domainIp domain = .ok (some ip) ∧ ipAddress ip.toList = some (.v4 row.address)
  label : row.label ≠ ""
  behind : xml.Behind snitchVm row.source
  policySource : dispvmPolicySource row.source row.vmClass row.template dflt = .ok (some row.policySource)

section Daemon

variable {xml : QubesXml} {reading : Reading} {text snitchVm sourceName dflt : String} {m : SourceMap}

theorem usesNetvm_iff_behind (hread : reading.Of (prop xml.properties "default_netvm") xml.domains)
    (hunique : UniqueNames xml.domains) {vm : String} :
    UsesNetvm reading.netvms snitchVm vm ↔ xml.Behind snitchVm vm := by
  constructor
  · intro h
    induction h with
    | self h => exact .self h
    | netvm hname hnext _ ih =>
      obtain ⟨domain, hmem, hvm, hnetvm⟩ := (hread.netvms hunique _ _).1 hnext
      exact .netvm hmem hvm hname hnetvm ih
  · intro h
    induction h with
    | self h => exact .self h
    | netvm hmem hvm hname hnext _ ih =>
      exact .netvm hname ((hread.netvms hunique _ _).2 ⟨_, hmem, hvm, hnext⟩) ih

/-- An address has no line end. -/
theorem not_isLineEnd_of_ipAddress {ip : String} {address : IPv4} (h : ipAddress ip.toList = some (.v4 address)) :
    ∀ c ∈ ip.toList, Py.isLineEnd c = false := by
  unfold ipAddress at h
  split at h
  · rename_i x hx
    rw [ipv4Address_eq_some_iff.1 hx]
    intro c hc
    simp only [IPv4.chars, List.mem_append, List.mem_cons] at hc
    have hdigit : ∀ n, c ∈ Py.decimal n → Py.isLineEnd c = false := by
      intro n hn
      have := Py.isDigit_of_mem_decimal hn
      simp only [Char.isDigit, Bool.and_eq_true, decide_eq_true_eq] at this
      simp only [Py.isLineEnd, Bool.or_eq_false_iff, decide_eq_false_iff_not]
      have h48 : 48 ≤ c.toNat := this.1
      omega
    rcases hc with hc | rfl | hc | rfl | hc | rfl | hc
    all_goals first | exact hdigit _ hc | decide
  · split at h <;> cases h

/-- The lines of the printed text are the lines that were printed. -/
theorem sourceLines_main (hxml : xml.Regular) (hread : readDomains xml = .ok reading)
    (hmain : main snitchVm xml = .ok text) :
    sourceLines text = reading.rows.filterMap (printedLine snitchVm reading.netvms) := by
  unfold main at hmain
  rw [hread] at hmain
  obtain rfl := Except.ok.inj hmain
  rw [sourceLines, String.toList_ofList]
  refine splitlines_flatMap fun line hline => ?_
  obtain ⟨row, hrow, hprinted⟩ := List.mem_filterMap.1 hline
  obtain ⟨ip, label, address, -, haddress, hlisted, rfl⟩ := printedLine_eq_some.1 hprinted
  obtain ⟨domain, hmem, hof⟩ := ((readDomains_of hread).rows row).1 hrow
  have hfields := hxml.lines domain hmem row.name hof.vm
  have hlabel := hof.label.symm.trans hlisted.label.1
  simp only [hlabel, ← hof.vmClass, ← hof.template, Option.toList_some, List.mem_cons, List.not_mem_nil, or_false,
    forall_eq_or_imp, forall_eq] at hfields
  obtain ⟨hname, hclass, htemplate, hlabel⟩ := hfields
  intro c hc
  simp only [rowLine, List.mem_append, List.mem_cons] at hc
  rcases hc with hc | rfl | hc | rfl | hc | rfl | hc | rfl | hc
  · exact hname c hc
  · decide
  · exact not_isLineEnd_of_ipAddress haddress c hc
  · decide
  · exact hlabel c hc
  · decide
  · exact hclass c hc
  · decide
  · exact htemplate c hc

/-- The rows that the daemon accepts are those of `qubes.xml`. -/
theorem mem_acceptedRows_main (hxml : xml.Regular) (hmain : main snitchVm xml = .ok text)
    (hchecked : ∀ line ∈ sourceLines text, LineChecked sourceName dflt line) {row : SourceRow} :
    row ∈ acceptedRows sourceName dflt (sourceLines text) ↔ xml.Says snitchVm dflt row := by
  obtain ⟨reading, hread, -⟩ := Except.exists_of_bind_eq_ok hmain
  have hof := readDomains_of hread
  have hlines := sourceLines_main hxml hread hmain
  constructor
  · intro hrow
    obtain ⟨line, hline, haccepted⟩ := List.mem_filterMap.1 hrow
    have hline' := hline
    rw [hlines] at hline'
    obtain ⟨printed, hprinted, hprint⟩ := List.mem_filterMap.1 hline'
    obtain ⟨ip, label, address, hip, haddress, hlisted, rfl⟩ := printedLine_eq_some.1 hprint
    obtain ⟨domain, hmem, hdomain⟩ := (hof.rows printed).1 hprinted
    obtain ⟨policySource, hpolicy, heq⟩ := acceptedRow_rowLine haddress (hchecked _ hline)
    rw [heq] at haccepted
    obtain ⟨policySource, rfl, rfl⟩ := Option.map_eq_some_iff.1 haccepted
    exact ⟨⟨domain, hmem, hdomain.vm, hdomain.label.symm.trans hlisted.label.1, hdomain.vmClass.symm,
      hdomain.template.symm, ip, hdomain.ip.trans (congrArg _ hip), haddress⟩, hlisted.label.2,
      (usesNetvm_iff_behind hof hxml.unique).1 hlisted.behind, hpolicy⟩
  · rintro ⟨⟨domain, hmem, hvm, hlabel, hclass, htemplate, ip, hip, haddress⟩, hne, hbehind, hpolicy⟩
    obtain ⟨source, label, vmClass, template, address, policySource⟩ := row
    dsimp only at hvm hlabel hclass htemplate haddress hne hbehind hpolicy
    have hprinted := (hof.rows ⟨source, some ip, some label, vmClass, template⟩).2
      ⟨domain, hmem, hvm, hip, hlabel.symm, hclass.symm, htemplate.symm⟩
    have hline : rowLine source ip label vmClass template ∈ sourceLines text := by
      rw [hlines]
      refine List.mem_filterMap.2 ⟨_, hprinted, printedLine_eq_some.2 ⟨ip, label, address, rfl, haddress, ?_, rfl⟩⟩
      exact ⟨⟨ip, rfl, haddress⟩, ⟨rfl, hne⟩, (usesNetvm_iff_behind hof hxml.unique).2 hbehind⟩
    obtain ⟨policySource', hpolicy', heq⟩ := acceptedRow_rowLine haddress (hchecked _ hline)
    obtain rfl : some policySource = policySource' := Except.ok.inj (hpolicy.symm.trans hpolicy')
    exact List.mem_filterMap.2 ⟨_, hline, heq⟩

/-- What the daemon knows of an address and of a source is what `qubes.xml` says. -/
theorem table_of_qubesXml (hxml : xml.Regular) (hmain : main snitchVm xml = .ok text)
    (hparse : parseSourcesOutput text sourceName dflt = .ok m) :
    (∀ address source, m.byIp.get? address = some source ↔
      ∃ row, xml.Says snitchVm dflt row ∧ row.address = address ∧ row.policySource = source) ∧
    (∀ source label, m.labels.get? source = some label ↔
      ∃ row, xml.Says snitchVm dflt row ∧ row.policySource = source ∧ row.label = label) ∧
    (∀ address source, m.displayByIp.get? address = some source ↔
      ∃ row, xml.Says snitchVm dflt row ∧ row.address = address ∧ row.displaySource = source) := by
  obtain ⟨-, hgood, hlists⟩ := lists_of_parse hparse
  have hrows : ∀ row, row ∈ acceptedRows sourceName dflt (sourceLines text) ↔ xml.Says snitchVm dflt row :=
    fun row => mem_acceptedRows_main hxml hmain hgood.checked
  refine ⟨fun address source => ?_, fun source label => ?_, fun address source => ?_⟩
  · simp only [hlists.byIp, hrows]
  · simp only [hlists.labels, hrows]
  · simp only [hlists.displayByIp, hrows]

end Daemon

/-! ### Addresses made up from ids -/

/-- Four numbers with dots. -/
def dotted (a b c d : Nat) : List Char :=
  Py.decimal a ++ '.' :: (Py.decimal b ++ '.' :: (Py.decimal c ++ '.' :: Py.decimal d))

theorem IPv4.chars_eq_dotted (x : IPv4) : x.chars = dotted x.a.toNat x.b.toNat x.c.toNat x.d.toNat := by
  simp [IPv4.chars, dotted]

theorem dotted_inj {a b c d a' b' c' d' : Nat} (h : dotted a b c d = dotted a' b' c' d') :
    a = a' ∧ b = b' ∧ c = c' ∧ d = d' := by
  have hdot : ∀ n, '.' ∉ Py.decimal n := fun n hn => absurd (Py.isDigit_of_mem_decimal hn) (by decide)
  have hsplit : ∀ a b c d, Py.split '.' (dotted a b c d) =
      [Py.decimal a, Py.decimal b, Py.decimal c, Py.decimal d] := by
    intro a b c d
    rw [Py.split, dotted, List.splitOn_append_cons_self_of_not_mem (hdot _),
      List.splitOn_append_cons_self_of_not_mem (hdot _), List.splitOn_append_cons_self_of_not_mem (hdot _),
      List.splitOn_eq_singleton (hdot _)]
  have hdecimal : ∀ m n, Py.decimal m = Py.decimal n → m = n := by
    intro m n hmn
    have hint := Py.int_decimal m
    rw [hmn, Py.int_decimal] at hint
    exact (Option.some.inj hint).symm
  have hparts := hsplit a b c d
  rw [h, hsplit] at hparts
  simp only [List.cons.injEq, and_true] at hparts
  obtain ⟨ha, hb, hc, hd⟩ := hparts
  exact ⟨(hdecimal _ _ ha).symm, (hdecimal _ _ hb).symm, (hdecimal _ _ hc).symm, (hdecimal _ _ hd).symm⟩

/-- Four numbers are an address exactly when each is below 256. -/
theorem exists_address_dotted {a b c d : Nat} :
    (∃ address, ipAddress (dotted a b c d) = some (.v4 address)) ↔ a < 256 ∧ b < 256 ∧ c < 256 ∧ d < 256 := by
  constructor
  · rintro ⟨address, h⟩
    unfold ipAddress at h
    split at h
    · rename_i x hx
      have hchars := ipv4Address_eq_some_iff.1 hx
      rw [x.chars_eq_dotted] at hchars
      obtain ⟨rfl, rfl, rfl, rfl⟩ := dotted_inj hchars
      exact ⟨x.a.toNat_lt, x.b.toNat_lt, x.c.toNat_lt, x.d.toNat_lt⟩
    · split at h <;> cases h
  · rintro ⟨ha, hb, hc, hd⟩
    refine ⟨⟨.ofNat a, .ofNat b, .ofNat c, .ofNat d⟩, ?_⟩
    have hchars : dotted a b c d = IPv4.chars ⟨.ofNat a, .ofNat b, .ofNat c, .ofNat d⟩ := by
      rw [IPv4.chars_eq_dotted]
      simp only [UInt8.toNat_ofNat_of_lt' ha, UInt8.toNat_ofNat_of_lt' hb, UInt8.toNat_ofNat_of_lt' hc,
        UInt8.toNat_ofNat_of_lt' hd]
    simp only [ipAddress, ipv4Address_eq_some_iff.2 hchars]

/-- The third number of a made-up address counts in steps of 254, so that the fourth is neither 0 nor 255 from id 1 on. -/
theorem ipFromId_dotted (disposable : Bool) {id : Int} (h : 0 ≤ id) :
    ∃ c d : Nat, (ipFromId (netOf disposable) id).toList = dotted 10 (if disposable then 138 else 137) c d ∧
      id = 254 * c + d ∧ d < 255 ∧ (c = 0 ∨ 0 < d) := by
  have hnet : ∀ c d : Int, (netOf disposable ++ "." ++ octetText c ++ "." ++ octetText d).toList =
      dotted 10 (if disposable then 138 else 137) c.toNat d.toNat := by
    intro c d
    cases disposable <;> simp [netOf, octetText, dotted] <;> rfl
  unfold ipFromId
  split
  · refine ⟨_, _, hnet _ _, ?_, ?_, ?_⟩ <;> omega
  · refine ⟨_, _, hnet _ _, ?_, ?_, ?_⟩ <;> omega

theorem ipFromId_inj {disposable disposable' : Bool} {id id' : Int} (hid : 0 ≤ id) (hid' : 0 ≤ id')
    (h : ipFromId (netOf disposable) id = ipFromId (netOf disposable') id') : (disposable, id) = (disposable', id') := by
  obtain ⟨c, d, htext, heq, hd, hc⟩ := ipFromId_dotted disposable hid
  obtain ⟨c', d', htext', heq', hd', hc'⟩ := ipFromId_dotted disposable' hid'
  rw [h, htext'] at htext
  obtain ⟨-, hnet, rfl, rfl⟩ := dotted_inj htext
  rw [heq, heq']
  cases disposable <;> cases disposable' <;> simp_all

/-- Addresses made up from ids do not clash, and those of too large ids are no addresses, so that the VM has no row. -/
theorem generated_apart {domain other : QubesDomain} {disposable disposable' : Bool} {id id' : Int} {ip ip' : String}
    (hgenerated : prop domain.properties "ip" = none) (hgenerated' : prop other.properties "ip" = none)
    (hid : addressId domain = .ok (some (disposable, id))) (hid' : addressId other = .ok (some (disposable', id')))
    (hpos : 0 ≤ id) (hpos' : 0 ≤ id') (hip : domainIp domain = .ok (some ip)) (hip' : domainIp other = .ok (some ip')) :
    (ip = ip' ↔ (disposable, id) = (disposable', id')) ∧
      ((∃ address, ipAddress ip.toList = some (.v4 address)) ↔ id ≤ 65024) := by
  unfold domainIp at hip hip'
  rw [hgenerated, hid] at hip
  rw [hgenerated', hid'] at hip'
  obtain rfl := Option.some.inj (Except.ok.inj hip)
  obtain rfl := Option.some.inj (Except.ok.inj hip')
  refine ⟨⟨ipFromId_inj hpos hpos', ?_⟩, ?_⟩
  · rintro ⟨⟩
    rfl
  · obtain ⟨c, d, htext, heq, hd, hc⟩ := ipFromId_dotted disposable hpos
    dsimp only
    rw [htext, exists_address_dotted]
    have hnet : (if disposable then 138 else 137) < 256 := by split <;> decide
    constructor
    · rintro ⟨-, -, hc256, -⟩
      omega
    · intro hle
      exact ⟨by decide, hnet, by omega, by omega⟩

/-! ### A machine with one VM behind Snitch -/

namespace Sample

def workDomain : QubesDomain := ⟨some "domain-7", some "AppVM",
  [⟨some "name", none, some "work"⟩, ⟨some "label", none, some "green"⟩, ⟨some "netvm", some "sys-snitch", none⟩]⟩

def sysNetDomain : QubesDomain := ⟨some "domain-2", some "AppVM",
  [⟨some "name", none, some "sys-net"⟩, ⟨some "label", some "label-red", none⟩, ⟨some "netvm", none, none⟩]⟩

def qubesXml : QubesXml := ⟨[⟨some "default_netvm", some "sys-net", none⟩], [workDomain, sysNetDomain]⟩

theorem regular_qubesXml : qubesXml.Regular where
  unique := by simp [UniqueNames, QubesDomain.IsVm, qubesXml, workDomain, sysNetDomain, prop, orNone]
  lines := by
    intro domain hmem vm hvm
    simp only [qubesXml, List.mem_cons, List.not_mem_nil, or_false] at hmem
    rcases hmem with rfl | rfl
    · obtain rfl : "work" = vm := Option.some.inj hvm.1
      simp [workDomain, domainClass, domainTemplate, domainLabel, labelName, prop, orNone, Option.filter_some, Py.isLineEnd]
    · obtain rfl : "sys-net" = vm := Option.some.inj hvm.1
      simp [sysNetDomain, domainClass, domainTemplate, domainLabel, labelName, prop, orNone, Option.filter_some, Py.isLineEnd]

theorem main_qubesXml : main "sys-snitch" qubesXml = .ok "work|10.137.0.7|green|AppVM|-\n" := by decide +kernel

def workTable : SourceMap where
  byName := ⟨[("work", [⟨10, 137, 0, 7⟩])], List.nodup_singleton _⟩
  byIp := ⟨[(⟨10, 137, 0, 7⟩, "work")], List.nodup_singleton _⟩
  labels := ⟨[("work", "green")], List.nodup_singleton _⟩
  displayByIp := ⟨[(⟨10, 137, 0, 7⟩, "work")], List.nodup_singleton _⟩

/-- Only the VM behind Snitch is read. -/
theorem table_of_qubesXml_sample :
    parseSourcesOutput "work|10.137.0.7|green|AppVM|-\n" "qubes.SnitchSources" "default-dvm" = .ok workTable ∧
    (∃ row, qubesXml.Says "sys-snitch" "default-dvm" row ∧ row.address = ⟨10, 137, 0, 7⟩ ∧ row.policySource = "work") ∧
    ¬ ∃ row, qubesXml.Says "sys-snitch" "default-dvm" row ∧ row.address = ⟨10, 137, 0, 2⟩ ∧
      row.policySource = "sys-net" := by
  have hparse : parseSourcesOutput "work|10.137.0.7|green|AppVM|-\n" "qubes.SnitchSources" "default-dvm" =
      .ok workTable := by decide +kernel
  obtain ⟨htable, -, -⟩ := table_of_qubesXml regular_qubesXml main_qubesXml hparse
  exact ⟨hparse, (htable _ _).1 (by decide), mt (htable _ _).2 (by decide)⟩

theorem generated_apart_sample : domainIp workDomain = .ok (some "10.137.0.7") ∧
    domainIp sysNetDomain = .ok (some "10.137.0.2") ∧
    ("10.137.0.7" = "10.137.0.2" ↔ (false, (7 : Int)) = (false, 2)) := by
  have hwork : domainIp workDomain = .ok (some "10.137.0.7") := by decide +kernel
  have hnet : domainIp sysNetDomain = .ok (some "10.137.0.2") := by decide +kernel
  exact ⟨hwork, hnet, (generated_apart (by decide +kernel) (by decide +kernel) (by decide +kernel) (by decide +kernel)
    (by decide) (by decide) hwork hnet).1⟩

end Sample
end QubesSnitch
