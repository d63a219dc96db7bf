import QubesSnitch.Enrichment
import QubesSnitch.Answers
import QubesSnitch.Lib.FirstMatch

/-!
# Names that are looked up, and policy

The CLI looks up the names that a source has `allow` rules for.  It goes through the rules one by one, while policy takes
the first rule that speaks about a question, and a rule with a wildcard speaks about many.  So a name is looked up that
policy refuses when a `reject` rule stands before its `allow` rule and no other `allow` rule before both
(`allowedDnsHintRules_allowed_iff`).
-/

namespace QubesSnitch

/-- Every DNS rule has been accepted by `validate_rule_file`. -/
def ValidatedDns (lib : DnsPython) (rules : Rules) : Prop :=
  ∀ source, ∀ rule ∈ (rules.ofSource source).dns, ∃ path value, validateDnsEntry lib path value = .ok rule

/-- Rules for the same type and the same name, or for a name below that of a wildcard. -/
def DnsRule.Covers (general rule : DnsRule) : Prop :=
  general.qtype = rule.qtype ∧
    (general.qname = rule.qname ∨ ∃ parent labels, general.qname = "*." ++ parent ∧ rule.qname = labels ++ "." ++ parent)

/-- A `reject` rule that covers a concrete name of an `allow` rule stands behind an `allow` rule that covers it. -/
def Unshadowed (dns : List DnsRule) : Prop :=
  ∀ rule ∈ dns, rule.action = .allow → dnsRuleRefreshable rule.qname rule.qtype →
    ∀ front reject back, dns = front ++ reject :: back → reject.action = .reject → reject.Covers rule →
      ∃ earlier ∈ front, earlier.action = .allow ∧ earlier.Covers rule

/-! ### Names -/

section Names

variable {general rule : DnsRule}

theorem lower_of_canonical {qname qtype : String} (h : CanonicalQuestion qname qtype) :
    Py.lower qname.toList = qname.toList := by rw [← h.stable, Py.lower_lower]

/-- Of validated rules, one matches the question of another that has a concrete name if it covers it. -/
theorem dnsRuleMatches_iff_covers (hg : CanonicalQuestion general.qname general.qtype)
    (hconcrete : isWildcard rule.qname.toList = false) :
    dnsRuleMatches rule.qname rule.qtype general ↔ general.Covers rule := by
  unfold DnsRule.Covers
  by_cases hwild : isWildcard general.qname.toList
  · obtain ⟨parent, hparent⟩ : ∃ parent, general.qname = "*." ++ parent := by
      obtain ⟨suffix, hsuffix⟩ := List.isPrefixOf_iff_prefix.1 hwild
      exact ⟨String.ofList suffix, String.toList_inj.1 (by rw [← hsuffix]; simp)⟩
    have hmatch : dnsRuleMatches rule.qname rule.qtype general = true ↔
        rule.qtype = general.qtype ∧ ('.' :: parent.toList) <:+ rule.qname.toList ∧ rule.qname.toList ≠ parent.toList := by
      have hlist : general.qname.toList = '*' :: '.' :: parent.toList := by rw [hparent]; simp
      have hwild : "*.".toList.isPrefixOf ('*' :: '.' :: parent.toList) = true := rfl
      unfold dnsRuleMatches
      rw [upper_of_supported hg.supported, lower_of_canonical hg, hlist]
      dsimp only
      rw [hwild, if_pos rfl]
      by_cases htype : rule.qtype = general.qtype
      · rw [if_neg (not_not.2 (String.toList_inj.2 htype))]
        simp [htype]
      · rw [if_pos fun he => htype (String.toList_inj.1 he)]
        simp [htype]
    rw [hmatch]
    -- one way the labels are cut off in front of the dot; the other way a concrete name is no wildcard
    constructor
    · rintro ⟨htype, ⟨labels, hlabels⟩, -⟩
      refine ⟨htype.symm, .inr ⟨parent, String.ofList labels, hparent, String.toList_inj.1 ?_⟩⟩
      rw [← hlabels]
      simp
    · rintro ⟨htype, hname | ⟨parent', labels, hparent', hname⟩⟩
      · rw [← hname, hwild] at hconcrete
        cases hconcrete
      · rw [hparent] at hparent'
        obtain rfl : parent = parent' := by simpa [← String.toList_inj] using hparent'
        have hlist : rule.qname.toList = labels.toList ++ '.' :: parent.toList := by rw [hname]; simp
        refine ⟨htype.symm, ⟨labels.toList, hlist.symm⟩, fun heq => ?_⟩
        rw [hlist] at heq
        have hlength := congrArg List.length heq
        simp only [List.length_append, List.length_cons] at hlength
        omega
  · have hwild : isWildcard general.qname.toList = false := by simpa using hwild
    rw [dnsRuleMatches_concrete hg hwild, decide_eq_true_eq]
    constructor
    · rintro ⟨hname, htype⟩
      exact ⟨htype.symm, .inl hname.symm⟩
    · rintro ⟨htype, hname | ⟨parent, labels, hparent, -⟩⟩
      · exact ⟨hname.symm, htype.symm⟩
      · rw [hparent, String.toList_append, isWildcard, List.isPrefixOf_iff_prefix.2 (List.prefix_append _ _)] at hwild
        cases hwild

end Names

/-! ### Hints -/

theorem mem_allowedDnsHintRules {source qname qtype : String} {rules : Rules} {lib : DnsPython}
    (h : ValidatedDns lib rules) : (qname, qtype) ∈ allowedDnsHintRules source rules ↔
      ∃ rule ∈ (rules.ofSource source).dns, rule.action = .allow ∧ dnsRuleRefreshable rule.qname rule.qtype ∧
        rule.qname = qname ∧ rule.qtype = qtype := by
  rw [allowedDnsHintRules, List.mem_filterMap]
  refine exists_congr fun rule => and_congr_right fun hrule => ?_
  obtain ⟨path, value, hvalue⟩ := h source rule hrule
  have hcanonical := validateDnsEntry_canonical hvalue
  rw [lower_of_canonical hcanonical, upper_of_supported hcanonical.supported, String.ofList_toList, String.ofList_toList]
  dsimp only
  split
  · rename_i hallow
    simp only [Bool.and_eq_true, decide_eq_true_eq] at hallow
    simp [hallow]
  · rename_i hnot
    simp only [Bool.and_eq_true, decide_eq_true_eq] at hnot
    simp only [reduceCtorEq, false_iff]
    exact fun hrule => hnot ⟨hrule.1, hrule.2.1⟩

/-- Policy allows a question of an `allow` rule unless a `reject` rule comes first. -/
theorem firstDnsAction_allow_iff {dns : List DnsRule} {rule : DnsRule}
    (hvalid : ∀ r ∈ dns, CanonicalQuestion r.qname r.qtype) (hrule : rule ∈ dns)
    (hconcrete : isWildcard rule.qname.toList = false) :
    firstDnsAction rule.qname rule.qtype dns = some .allow ↔
      ∀ front reject back, dns = front ++ reject :: back → reject.action = .reject → reject.Covers rule →
        ∃ earlier ∈ front, earlier.action = .allow ∧ earlier.Covers rule := by
  have hmatch : ∀ r ∈ dns, (dnsRuleMatches rule.qname rule.qtype r ↔ r.Covers rule) := fun r hr =>
    dnsRuleMatches_iff_covers (hvalid r hr) hconcrete
  obtain ⟨found, hfound⟩ : ∃ found, dns.find? (dnsRuleMatches rule.qname rule.qtype) = some found := by
    rw [← Option.isSome_iff_exists, List.find?_isSome]
    exact ⟨rule, hrule, (hmatch rule hrule).2 ⟨rfl, .inl rfl⟩⟩
  have hfirst : firstDnsAction rule.qname rule.qtype dns = some .allow ↔
      ∀ x, dns.find? (dnsRuleMatches rule.qname rule.qtype) = some x → x.action = .allow := by
    rw [firstDnsAction, hfound]
    simp
  rw [hfirst, FirstMatch.forall_find?_iff]
  refine forall_congr' fun front => forall_congr' fun reject => forall_congr' fun back => ?_
  constructor
  · rintro h rfl hreject hcovers
    obtain ⟨earlier, hearlier, hmatches, hallow⟩ :=
      h rfl ((hmatch reject (by simp)).2 hcovers) (by rw [hreject]; exact Action.noConfusion)
    exact ⟨earlier, hearlier, hallow, (hmatch earlier (List.mem_append_left _ hearlier)).1 hmatches⟩
  · rintro h rfl hmatches hnot
    have hreject : reject.action = .reject := by
      cases haction : reject.action with
      | allow => exact absurd haction hnot
      | reject => rfl
    obtain ⟨earlier, hearlier, hallow, hcovers⟩ := h rfl hreject ((hmatch reject (by simp)).1 hmatches)
    exact ⟨earlier, hearlier, (hmatch earlier (List.mem_append_left _ hearlier)).2 hcovers, hallow⟩

variable (sv : Services) {lib : DnsPython} {rules : Rules}

/-- Policy allows every name that the CLI looks up for a source exactly when no `allow` rule for a concrete name is in
the shadow of a `reject` rule. -/
theorem allowedDnsHintRules_allowed_iff (h : ValidatedDns lib rules) (request : Request) :
    (∀ qname qtype, (qname, qtype) ∈ allowedDnsHintRules request.source rules →
      matchingAction sv { request with kind := .dns qname qtype } rules = .ok (some .allow)) ↔
    Unshadowed (rules.ofSource request.source).dns := by
  have hvalid : ∀ r ∈ (rules.ofSource request.source).dns, CanonicalQuestion r.qname r.qtype := by
    intro r hr
    obtain ⟨path, value, hvalue⟩ := h request.source r hr
    exact validateDnsEntry_canonical hvalue
  have haction : ∀ qname qtype, matchingAction sv { request with kind := .dns qname qtype } rules =
      .ok (firstDnsAction qname qtype (rules.ofSource request.source).dns) := fun _ _ => matchingAction_ofSource _ _
  have hconcrete : ∀ rule : DnsRule, dnsRuleRefreshable rule.qname rule.qtype → isWildcard rule.qname.toList = false := by
    intro rule hrefresh
    simp only [dnsRuleRefreshable, Bool.and_eq_true, Bool.not_eq_true'] at hrefresh
    exact hrefresh.2
  constructor
  · intro hall rule hrule hallow hrefresh
    have hok := hall _ _ ((mem_allowedDnsHintRules h).2 ⟨rule, hrule, hallow, hrefresh, rfl, rfl⟩)
    rw [haction, Except.ok.injEq] at hok
    exact (firstDnsAction_allow_iff hvalid hrule (hconcrete rule hrefresh)).1 hok
  · intro hunshadowed qname qtype hmem
    obtain ⟨rule, hrule, hallow, hrefresh, rfl, rfl⟩ := (mem_allowedDnsHintRules h).1 hmem
    rw [haction, (firstDnsAction_allow_iff hvalid hrule (hconcrete rule hrefresh)).2
      (hunshadowed rule hrule hallow hrefresh)]

namespace Sample

/-- All names of a domain but one are refused. -/
def exceptOne : List DnsRule := [⟨"www.example.com", "A", .allow⟩, ⟨"*.example.com", "A", .reject⟩]

def hintRules (dns : List DnsRule) : Rules := .ofList [("work", ⟨[], dns⟩)]

theorem validated_hintRules {dns : List DnsRule}
    (h : ∀ rule ∈ dns, validateDnsEntry dnspython "rules.yml" rule.dump = .ok rule) :
    ValidatedDns dnspython (hintRules dns) := by
  intro source rule hrule
  by_cases hs : source = "work"
  · subst hs
    exact ⟨"rules.yml", rule.dump, h rule hrule⟩
  · have hnone : (hintRules dns).get? source = none := (Dict.get?_set_of_ne _ _ hs).trans (Dict.get?_empty _)
    rw [Rules.ofSource, hnone] at hrule
    cases hrule

theorem unshadowed_exceptOne : Unshadowed exceptOne := by
  intro rule hrule hallow _ front reject back hsplit hreject _
  -- the rule that comes first is the one that allows
  cases front with
  | nil =>
    obtain ⟨rfl, -⟩ := List.cons.inj hsplit
    cases hreject
  | cons first front =>
    obtain ⟨rfl, -⟩ := List.cons.inj hsplit
    have hrule : rule = ⟨"www.example.com", "A", .allow⟩ ∨ rule = ⟨"*.example.com", "A", .reject⟩ := by
      simpa [exceptOne] using hrule
    rcases hrule with rfl | rfl
    · exact ⟨_, List.mem_cons_self, rfl, rfl, .inl rfl⟩
    · cases hallow

theorem allowedDnsHintRules_allowed_exceptOne :
    ("www.example.com", "A") ∈ allowedDnsHintRules "work" (hintRules exceptOne) ∧
      matchingAction .empty { request with kind := .dns "www.example.com" "A" } (hintRules exceptOne) =
        .ok (some .allow) := by
  have hlisted : ("www.example.com", "A") ∈ allowedDnsHintRules "work" (hintRules exceptOne) := by decide +kernel
  exact ⟨hlisted, (allowedDnsHintRules_allowed_iff .empty (validated_hintRules (by decide +kernel)) request).2
    unshadowed_exceptOne _ _ hlisted⟩

/-- The same rules in the other order: the name is refused, and looked up. -/
theorem not_allowedDnsHintRules_allowed : ¬ ∀ (sv : Services) (lib : DnsPython) (rules : Rules) (request : Request),
    ValidatedDns lib rules → ∀ qname qtype, (qname, qtype) ∈ allowedDnsHintRules request.source rules →
      matchingAction sv { request with kind := .dns qname qtype } rules = .ok (some .allow) := by
  intro h
  have hallowed := h .empty dnspython (hintRules exceptOne.reverse) request
    (validated_hintRules (by decide +kernel)) "www.example.com" "A" (by decide +kernel)
  have hrefused : matchingAction .empty { request with kind := .dns "www.example.com" "A" }
      (hintRules exceptOne.reverse) = .ok (some .reject) := by decide +kernel
  rw [hrefused] at hallowed
  cases hallowed

end Sample

end QubesSnitch
