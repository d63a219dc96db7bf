import QubesSnitch.Dns
import QubesSnitch.Lib.Dict

/-!
# The source map

dom0 sends one line `name|ip|label|class|template` for every VM row.  `parseSourcesOutput` turns the text into four
dictionaries, row by row; a row may be skipped, renamed to the policy file of its DispVM base, or refused.  What the
rest of the program relies on is `SourceMap.Consistent`: the map from names to addresses and the map from addresses
to names say the same, and every name is a legal rule file stem.
-/

namespace QubesSnitch

/-- `[A-Za-z0-9]` -/
def isNameEnd (c : Char) : Bool := c.isAlphanum

/-- `SOURCE_NAME_RE`: `[A-Za-z0-9](?:[A-Za-z0-9_.-]*[A-Za-z0-9])?` -/
def sourceNameRe : Regex :=
  .seq (.cls isNameEnd) (.opt (.seq (.star (.cls fun c => isNameEnd c || c = '_' || c = '.' || c = '-'))
    (.cls isNameEnd)))

/-- `NUMBERED_DISPVM_RE`: `disp[0-9]{1,4}` -/
def numberedDispvmRe : Regex :=
  .seq (.char 'd') (.seq (.char 'i') (.seq (.char 's') (.seq (.char 'p')
    (.seq (.cls Char.isDigit) (.upTo (.cls Char.isDigit) 3)))))

def isNumberedDispvm (source : String) : Bool := numberedDispvmRe.fullmatch source.toList

def reservedSources : List String := ["unknown"]

def dispvmPolicyPrefix : String := "dispvm-"

def defaultDvmTemplate : String := "default-dvm"

def validateSourceName (source sourceName : String) : Except PyError Unit :=
  if !sourceNameRe.fullmatch source.toList then
    .error (.systemExit (sourceName ++ ": invalid source name: " ++ source))
  else if source ∈ reservedSources || dispvmPolicyPrefix.toList.isPrefixOf source.toList then
    .error (.systemExit (sourceName ++ ": reserved source name: " ++ source))
  else .ok ()

def validateQubesVmName (source vmClass sourceName : String) : Except PyError Unit :=
  if Py.isIn "unknown".toList source.toList then
    .error (.systemExit (sourceName ++ ": reserved VM name contains unknown: " ++ source))
  else if Py.isIn "disp".toList source.toList && vmClass ≠ "DispVM" then
    .error (.systemExit (sourceName ++ ": reserved disp VM name for non-DispVM: " ++ source))
  else .ok ()

/-- The policy file of a VM; `none` for a row that is ignored. -/
def dispvmPolicySource (source vmClass template defaultDvmTemplate' : String) : Except PyError (Option String) := do
  if vmClass ≠ "DispVM" then return some source
  validateSourceName template "DispVM template"
  validateQubesVmName template "TemplateVM" "DispVM template"
  if template = defaultDvmTemplate' || template = defaultDvmTemplate then
    if !isNumberedDispvm source then return none
    return some source
  return some (dispvmPolicyPrefix ++ template)

def dispvmDisplaySource (source vmClass template : String) : String :=
  if vmClass ≠ "DispVM" then source else source ++ "(" ++ template ++ ")"

structure SourceMap where
  byName : Dict String (List IPv4)
  byIp : Dict IPv4 String
  labels : Dict String String
  displayByIp : Dict IPv4 String
  deriving DecidableEq, Inhabited

namespace SourceMap

def empty : SourceMap := ⟨.empty, .empty, .empty, .empty⟩

/-- Equality of the four dictionaries, as `==` compares them. -/
def same (m n : SourceMap) : Bool :=
  m.byName.same n.byName && m.byIp.same n.byIp && m.labels.same n.labels && m.displayByIp.same n.displayByIp

theorem same_refl (m : SourceMap) : m.same m := by
  simp [same, Dict.same_refl]

theorem names_of_same {m n : SourceMap} (h : m.same n) {s : String} (hs : s ∈ m.byName.keys) : s ∈ n.byName.keys := by
  simp only [same, Bool.and_eq_true] at h
  obtain ⟨ips, hips⟩ := Dict.mem_keys_iff.1 hs
  exact Dict.mem_keys_of_get? (Dict.get?_of_same h.1.1.1 hips)

end SourceMap

/-- Enter one accepted address. -/
def enterSource (m : SourceMap) (sourceName policySource displaySource label : String) (ip : IPv4) :
    Except PyError SourceMap :=
  if ip ∈ m.byIp.keys then .error (.systemExit (sourceName ++ ": duplicate source IP " ++ ip.text))
  else if (m.labels.get? policySource).any (· ≠ label) then
    .error (.systemExit (sourceName ++ ": conflicting labels for " ++ policySource))
  else .ok {
    byName := m.byName.set policySource ((m.byName.get? policySource).getD [] ++ [ip])
    byIp := m.byIp.set ip policySource
    labels := m.labels.set policySource label
    displayByIp := m.displayByIp.set ip displaySource }

def validateVmClass (source vmClass template sourceName : String) : Except PyError Unit :=
  if vmClass ∉ ["AppVM", "TemplateVM", "StandaloneVM", "DispVM"] then
    .error (.systemExit (sourceName ++ ": unsupported VM class: " ++ vmClass))
  else if vmClass = "DispVM" && (template = "" || template = "-") then
    .error (.systemExit (sourceName ++ ": DispVM missing template: " ++ source))
  else .ok ()

/-- What `ipaddress.ip_address` raises. -/
def notAnAddress (ip : String) : PyError :=
  .valueError (String.ofList (Py.repr ip.toList) ++ " does not appear to be an IPv4 or IPv6 address")

/-- One round of the loop of `parse_sources_output`. -/
def addSourceLine (sourceName defaultDvmTemplate' : String) (m : SourceMap) (line : List Char) :
    Except PyError SourceMap := do
  if (Py.strip line).isEmpty then return m
  match (Py.split '|' line).map String.ofList with
  | [source, ip, label, vmClass, template] =>
    if ip = "" || ip = "-" then return m
    validateSourceName source sourceName
    validateQubesVmName source vmClass sourceName
    validateVmClass source vmClass template sourceName
    match ← dispvmPolicySource source vmClass template defaultDvmTemplate' with
    | none => return m
    | some policySource =>
      match ipAddress ip.toList with
      | none => .error (notAnAddress ip)
      | some .v6 => .error (.systemExit (sourceName ++ ": non-IPv4 source address is unsupported: " ++ ip))
      | some (.v4 address) =>
        enterSource m sourceName policySource (dispvmDisplaySource source vmClass template) label address
  | _ => .error (.systemExit (sourceName ++ ": expected name|ip|label|class|template line: " ++ String.ofList line))

def parseSourcesOutput (text sourceName defaultDvmTemplate' : String) : Except PyError SourceMap :=
  if !Py.isascii text.toList then
    .error (.systemExit (sourceName ++ ": non-ASCII source identity text is not supported"))
  else (Py.splitlines text.toList).foldlM (addSourceLine sourceName defaultDvmTemplate') SourceMap.empty

/-! ### What an accepted map looks like -/

/-- A stem that `load_rules` accepts as a source. -/
def LegalStem (defaultDvmTemplate' stem : String) : Prop :=
  sourceNameRe.fullmatch stem.toList ∧ stem ∉ reservedSources ∧
    stem ≠ dispvmPolicyPrefix ++ defaultDvmTemplate ∧ stem ≠ dispvmPolicyPrefix ++ defaultDvmTemplate'

structure SourceMap.Consistent (defaultDvmTemplate' : String) (m : SourceMap) : Prop where
  byIp_iff : ∀ ip s, m.byIp.get? ip = some s ↔ ∃ ips, m.byName.get? s = some ips ∧ ip ∈ ips
  legal : ∀ s ∈ m.byName.keys, LegalStem defaultDvmTemplate' s

theorem validateSourceName_ok {source sourceName : String} (h : validateSourceName source sourceName = .ok ()) :
    sourceNameRe.fullmatch source.toList ∧ source ∉ reservedSources ∧
      ¬ dispvmPolicyPrefix.toList.isPrefixOf source.toList := by
  unfold validateSourceName at h
  split at h
  · cases h
  · rename_i hre
    split at h
    · cases h
    · rename_i hres
      simp only [Bool.or_eq_true, decide_eq_true_eq, not_or] at hres
      exact ⟨by simpa using hre, hres.1, hres.2⟩

private theorem legalStem_of_validated {source sourceName dflt : String}
    (h : validateSourceName source sourceName = .ok ()) : LegalStem dflt source := by
  obtain ⟨hre, hres, hpre⟩ := validateSourceName_ok h
  refine ⟨hre, hres, ?_, ?_⟩ <;>
  · rintro rfl
    exact hpre (by rw [String.toList_append, List.isPrefixOf_iff_prefix]; exact List.prefix_append _ _)

/-- Letters and digits in front of a name, joined by a hyphen, are a name. -/
private theorem sourceNameRe_dispvm {template : String} (h : sourceNameRe.fullmatch template.toList) :
    sourceNameRe.fullmatch (dispvmPolicyPrefix ++ template).toList := by
  rw [Regex.fullmatch_iff] at h ⊢
  obtain ⟨u, v, ⟨c, hc, rfl⟩, ⟨ws, hlen, hws, rfl⟩, hw⟩ := h
  have hinner : ∀ d : Char, isNameEnd d → isNameEnd d || d = '_' || d = '.' || d = '-' := by
    intro d hd
    simp [hd]
  -- the middle of the new name: the rest of the prefix, and of the template all but its last character
  have build : ∀ (mid : List Char) (e : Char), (∀ d ∈ mid, isNameEnd d || d = '_' || d = '.' || d = '-') →
      isNameEnd e → dispvmPolicyPrefix.toList ++ template.toList = 'd' :: (mid ++ [e]) →
      (dispvmPolicyPrefix ++ template).toList ∈ sourceNameRe.lang := by
    intro mid e hmid he heq
    refine ⟨['d'], mid ++ [e], ⟨'d', by decide, rfl⟩,
      ⟨[mid ++ [e]], by simp, ?_, by simp⟩, by rw [String.toList_append, heq]; rfl⟩
    intro x hx
    obtain rfl := List.mem_singleton.1 hx
    refine ⟨mid, [e], ⟨mid.map fun d => [d], ?_, ?_⟩, ⟨e, he, rfl⟩, rfl⟩
    · intro y hy
      obtain ⟨d, hd, rfl⟩ := List.mem_map.1 hy
      exact ⟨d, hmid d hd, rfl⟩
    · simp [← List.flatMap_def]
  have hpre : ∀ d ∈ "ispvm-".toList, isNameEnd d || d = '_' || d = '.' || d = '-' := by
    simp [isNameEnd, Char.isAlphanum, Char.isAlpha, Char.isLower]
  rcases ws with _ | ⟨x, _ | ⟨y, ws⟩⟩
  · exact build "ispvm-".toList c hpre hc (by rw [hw]; rfl)
  · obtain ⟨p, q, ⟨ps, hps, rfl⟩, ⟨e, he, rfl⟩, rfl⟩ := hws x (by simp)
    refine build ("ispvm-".toList ++ c :: ps.flatten) e ?_ he ?_
    · intro d hd
      simp only [List.mem_append, List.mem_cons, List.mem_flatten] at hd
      rcases hd with hd | rfl | ⟨z, hz, hd⟩
      · exact hpre d hd
      · exact hinner _ hc
      · obtain ⟨d', hd', rfl⟩ := hps z hz
        obtain rfl := List.mem_singleton.1 hd
        exact hd'
    · rw [hw]
      simp [dispvmPolicyPrefix]
  · simp at hlen

private theorem legalStem_dispvm {template dflt : String} (h : validateSourceName template "DispVM template" = .ok ())
    (hd : ¬ (template = dflt || template = defaultDvmTemplate)) : LegalStem dflt (dispvmPolicyPrefix ++ template) := by
  simp only [Bool.or_eq_true, decide_eq_true_eq, not_or] at hd
  have hinj : ∀ t : String, dispvmPolicyPrefix ++ template = dispvmPolicyPrefix ++ t → template = t := by
    intro t ht
    have := congrArg String.toList ht
    rw [String.toList_append, String.toList_append] at this
    exact String.toList_inj.1 (List.append_cancel_left this)
  refine ⟨sourceNameRe_dispvm (validateSourceName_ok h).1, ?_, fun e => hd.2 (hinj _ e), fun e => hd.1 (hinj _ e)⟩
  intro hmem
  have := congrArg String.toList (List.mem_singleton.1 hmem)
  rw [String.toList_append] at this
  cases this

theorem dispvmPolicySource_legal {source vmClass template dflt sourceName p : String}
    (hs : validateSourceName source sourceName = .ok ())
    (h : dispvmPolicySource source vmClass template dflt = .ok (some p)) : LegalStem dflt p := by
  unfold dispvmPolicySource at h
  split at h
  · cases h
    exact legalStem_of_validated hs
  · obtain ⟨_, htemplate, h⟩ := Except.exists_of_bind_eq_ok h
    obtain ⟨_, -, h⟩ := Except.exists_of_bind_eq_ok h
    split at h
    · split at h
      · cases h
      · cases h
        exact legalStem_of_validated hs
    · rename_i hd
      cases h
      exact legalStem_dispvm htemplate hd

/-- Entering a new address for a legal name keeps the maps consistent. -/
theorem enterSource_consistent {dflt sourceName p display label : String} {m m' : SourceMap} {ip : IPv4}
    (hm : m.Consistent dflt) (hp : LegalStem dflt p)
    (h : enterSource m sourceName p display label ip = .ok m') : m'.Consistent dflt := by
  unfold enterSource at h
  split at h
  · cases h
  · rename_i hnew
    split at h
    · cases h
    · cases h
      refine ⟨?_, ?_⟩
      · intro ip' s
        simp only [Dict.get?_set]
        have hnone : m.byIp.get? ip = none := Dict.get?_eq_none_iff.2 hnew
        -- an address that is not listed is listed under no name
        have hfresh : ∀ s' ips, m.byName.get? s' = some ips → ip ∉ ips := fun s' ips hs hmem => by
          have := (hm.byIp_iff ip s').2 ⟨ips, hs, hmem⟩
          rw [hnone] at this
          cases this
        by_cases hi : ip' = ip <;> by_cases hs : s = p
        · subst hi hs
          simp
        · subst hi
          simp only [if_true, hs, if_false]
          constructor
          · intro e
            exact absurd (Option.some.inj e).symm hs
          · rintro ⟨ips, h1, h2⟩
            exact absurd h2 (hfresh s ips h1)
        · subst hs
          simp only [hi, if_false, if_true, hm.byIp_iff]
          constructor
          · rintro ⟨ips, h1, h2⟩
            exact ⟨_, rfl, by simp [h1, h2]⟩
          · rintro ⟨ips, h1, h2⟩
            cases h1
            have h2 : ip' ∈ (m.byName.get? s).getD [] := by simpa [hi] using h2
            cases hg : m.byName.get? s with
            | none => simp [hg] at h2
            | some ips => exact ⟨ips, rfl, by simpa [hg] using h2⟩
        · simp only [hi, hs, if_false]
          exact hm.byIp_iff ip' s
      · intro s hs
        rcases Dict.mem_keys_set.1 hs with rfl | hs
        · exact hp
        · exact hm.legal s hs

theorem addSourceLine_consistent {sourceName dflt : String} {m m' : SourceMap} {line : List Char}
    (hm : m.Consistent dflt) (h : addSourceLine sourceName dflt m line = .ok m') : m'.Consistent dflt := by
  unfold addSourceLine at h
  split at h
  · cases h; exact hm
  split at h
  · rename_i source ip label vmClass template _
    split at h
    · cases h; exact hm
    obtain ⟨_, hname, h⟩ := Except.exists_of_bind_eq_ok h
    obtain ⟨_, -, h⟩ := Except.exists_of_bind_eq_ok h
    obtain ⟨_, -, h⟩ := Except.exists_of_bind_eq_ok h
    obtain ⟨policySource, hpolicy, h⟩ := Except.exists_of_bind_eq_ok h
    split at h
    · cases h; exact hm
    · split at h
      · cases h
      · cases h
      · exact enterSource_consistent hm (dispvmPolicySource_legal hname hpolicy) h
  · cases h

/-- Whatever dom0 sends, an accepted map is consistent. -/
theorem parseSourcesOutput_consistent {text sourceName dflt : String} {m : SourceMap}
    (h : parseSourcesOutput text sourceName dflt = .ok m) : m.Consistent dflt := by
  unfold parseSourcesOutput at h
  split at h
  · cases h
  · have key : ∀ (lines : List (List Char)) (m₀ : SourceMap), m₀.Consistent dflt →
        lines.foldlM (addSourceLine sourceName dflt) m₀ = .ok m → m.Consistent dflt := by
      intro lines
      induction lines with
      | nil =>
        intro m₀ hm₀ h
        cases h
        exact hm₀
      | cons line lines ih =>
        intro m₀ hm₀ h
        rw [List.foldlM_cons] at h
        obtain ⟨m₁, h₁, h⟩ := Except.exists_of_bind_eq_ok h
        exact ih m₁ (addSourceLine_consistent hm₀ h₁) h
    refine key _ _ ⟨?_, ?_⟩ h
    · intro ip s
      simp [SourceMap.empty]
    · intro s hs
      simp [SourceMap.empty] at hs

namespace SourceMap.Consistent

variable {dflt : String} {m : SourceMap}

/-- An address belongs to one name. -/
theorem unique (hm : m.Consistent dflt) {s s' : String} {ips ips' : List IPv4} {ip : IPv4}
    (hs : m.byName.get? s = some ips) (hi : ip ∈ ips) (hs' : m.byName.get? s' = some ips') (hi' : ip ∈ ips') :
    s = s' := by
  have h := (hm.byIp_iff ip s).2 ⟨ips, hs, hi⟩
  rw [(hm.byIp_iff ip s').2 ⟨ips', hs', hi'⟩] at h
  exact (Option.some.inj h).symm

end SourceMap.Consistent

/-! ### A sample -/

namespace Sample

def dnspython : DnsPython := .ofParser fun _ => none

def config : Config := ⟨"1/second", 5, 100, "default-dvm"⟩

def work : IPv4 := ⟨10, 137, 0, 5⟩

def server : IPv4 := ⟨1, 2, 3, 4⟩

/-- One VM with one address. -/
def oneVm : SourceMap where
  byName := ⟨[("work", [work])], by simp⟩
  byIp := ⟨[(work, "work")], by simp⟩
  labels := ⟨[("work", "green")], by simp⟩
  displayByIp := ⟨[(work, "work")], by simp⟩

/-- What dom0 sends for it. -/
theorem parse_oneVm : parseSourcesOutput "work|10.137.0.5|green|AppVM|-" "qubes.SnitchSources" "default-dvm" =
    .ok oneVm := by decide +kernel

end Sample

end QubesSnitch
