import QubesSnitch.RuleFile

/-!
# The names that DNS policy is about

`DocumentedName` describes the accepted names label by label, without the patterns and the order of the checks.  For
names in lower case without a trailing dot that are no wildcards, the check of live queries and the check of written
rules both accept exactly these.
-/

namespace QubesSnitch

/-- Letters, digits and hyphens, with a letter or digit at both ends. -/
structure LabelBody (label : List Char) : Prop where
  chars : ∀ c ∈ label, isAlnum c ∨ c = '-'
  first : ∃ c, label.head? = some c ∧ isAlnum c
  last : ∃ c, label.getLast? = some c ∧ isAlnum c

/-- A label of a host name. -/
structure HostLabel (label : List Char) : Prop extends LabelBody label where
  length_le : label.length ≤ 63
  not_punycode : ¬ "xn--".toList <+: label

/-- A label that names a service or a protocol, such as `_sip`. -/
def ServiceLabel (label : List Char) : Prop := label.length ≤ 63 ∧ ∃ body, label = '_' :: body ∧ LabelBody body

def DocumentedLabels (qtype : String) (labels : List (List Char)) : Prop :=
  if qtype = "SRV" then
    ∃ service proto rest, labels = service :: proto :: rest ∧ ServiceLabel service ∧ ServiceLabel proto ∧
      2 ≤ rest.length ∧ ∀ label ∈ rest, HostLabel label
  else 2 ≤ labels.length ∧ ∀ label ∈ labels, HostLabel label

structure DocumentedName (qname qtype : String) : Prop where
  length_le : qname.toList.length ≤ 253
  not_reverse : qname ≠ "ip6.arpa" ∧ ¬ ".ip6.arpa".toList <:+ qname.toList
  labels : DocumentedLabels qtype (Py.split '.' qname.toList)

/-! ### The patterns -/

private theorem mem_labelRe {w : List Char} : w ∈ labelRe.lang ↔ LabelBody w ∧ w.length ≤ 63 := by
  constructor
  · rintro ⟨u, v, ⟨c, hc, rfl⟩, hv, rfl⟩
    obtain rfl | ⟨u, x, hu, ⟨d, hd, rfl⟩, rfl⟩ := Regex.mem_opt.1 hv
    · refine ⟨⟨?_, ⟨c, rfl, hc⟩, ⟨c, rfl, hc⟩⟩, by simp⟩
      intro x hx
      obtain rfl : x = c := by simpa using hx
      exact Or.inl hc
    · obtain ⟨hlen, hchars⟩ := Regex.mem_upTo_cls.1 hu
      have hlast : ([c] ++ (u ++ [d])).getLast? = some d := by rw [← List.append_assoc, List.getLast?_concat]
      refine ⟨⟨?_, ⟨c, rfl, hc⟩, ⟨d, hlast, hd⟩⟩, ?_⟩
      · intro x hx
        simp only [List.cons_append, List.nil_append, List.mem_cons, List.mem_append, List.not_mem_nil, or_false] at hx
        obtain rfl | hx | rfl := hx
        · exact Or.inl hc
        · simpa using hchars x hx
        · exact Or.inl hd
      · simp only [List.cons_append, List.nil_append, List.length_cons, List.length_append, List.length_nil]
        omega
  · rintro ⟨hbody, hlen⟩
    obtain ⟨c, hhead, hc⟩ := hbody.first
    obtain ⟨d, hlast, hd⟩ := hbody.last
    obtain ⟨t, rfl⟩ : ∃ t, w = c :: t := by
      cases w with
      | nil => cases hhead
      | cons x t => exact ⟨t, by rw [Option.some.inj hhead]⟩
    refine ⟨[c], t, ⟨c, hc, rfl⟩, Regex.mem_opt.2 ?_, rfl⟩
    -- a label of one character, or a first, a middle and a last one
    rcases List.eq_nil_or_concat t with rfl | ⟨u, x, rfl⟩
    · exact Or.inl rfl
    · obtain rfl : x = d := by simpa [List.getLast?_cons, List.getLast?_append] using hlast
      have hu : u.length ≤ 61 := by
        simp only [List.length_cons, List.concat_eq_append, List.length_append, List.length_nil] at hlen
        omega
      refine Or.inr ⟨u, [x], Regex.mem_upTo_cls.2 ⟨hu, fun y hy => ?_⟩, ⟨x, hd, rfl⟩, List.concat_eq_append⟩
      have := hbody.chars y (by simp [hy])
      simpa using this

private theorem labelBody_no_dot {label : List Char} (h : LabelBody label) : '.' ∉ label := by
  intro hdot
  obtain hc | hc := h.chars '.' hdot
  · exact absurd hc (by decide)
  · exact absurd hc (by decide)

private theorem labelRe_within_ne_dot : labelRe.Within (· ≠ '.') := by
  have halnum : ∀ c, isAlnum c → c ≠ '.' := by
    rintro c hc rfl
    exact absurd hc (by decide)
  refine ⟨halnum, fun c hc => ?_, halnum⟩
  rcases Bool.or_eq_true _ _ ▸ hc with hc | hc
  · exact halnum c hc
  · rintro rfl
    exact absurd hc (by decide)

private theorem mem_liveDnsQnameRe {w : List Char} :
    w ∈ liveDnsQnameRe.lang ↔ 2 ≤ (w.splitOn '.').length ∧ ∀ l ∈ w.splitOn '.', LabelBody l ∧ l.length ≤ 63 := by
  have h := Regex.mem_separated_iff (w := w) labelRe_within_ne_dot
  simp only [mem_labelRe] at h
  exact h

/-- A word of the SRV pattern is two service labels in front of a host name. -/
private theorem mem_liveDnsSrvQnameRe {w : List Char} :
    w ∈ liveDnsSrvQnameRe.lang ↔ ∃ service proto rest, (LabelBody service ∧ service.length ≤ 63) ∧
      (LabelBody proto ∧ proto.length ≤ 63) ∧ rest ∈ liveDnsQnameRe.lang ∧
      w = '_' :: service ++ '.' :: ('_' :: proto ++ '.' :: rest) := by
  constructor
  · intro h
    obtain ⟨_, ⟨service, t1, hservice, h1, rfl⟩, rfl⟩ := Regex.mem_seq_char.1 h
    obtain ⟨t2, h2, rfl⟩ := Regex.mem_seq_char.1 h1
    obtain ⟨_, ⟨proto, t3, hproto, h3, rfl⟩, rfl⟩ := Regex.mem_seq_char.1 h2
    obtain ⟨rest, hrest, rfl⟩ := Regex.mem_seq_char.1 h3
    exact ⟨service, proto, rest, mem_labelRe.1 hservice, mem_labelRe.1 hproto, hrest, by simp⟩
  · rintro ⟨service, proto, rest, hservice, hproto, hrest, rfl⟩
    refine Regex.mem_seq_char.2 ⟨service ++ '.' :: ('_' :: proto ++ '.' :: rest), ⟨service, _, mem_labelRe.2 hservice, ?_,
      rfl⟩, by simp⟩
    refine Regex.mem_seq_char.2 ⟨_, Regex.mem_seq_char.2 ⟨proto ++ '.' :: rest, ⟨proto, _, mem_labelRe.2 hproto, ?_, rfl⟩,
      rfl⟩, rfl⟩
    exact Regex.mem_seq_char.2 ⟨rest, hrest, rfl⟩

/-! ### The check of live queries -/

/-- The checks without their order. -/
private theorem live_iff {qname qtype : String} : liveDnsQnameSupported qname qtype ↔
    (qname ≠ "ip6.arpa" ∧ ¬ ".ip6.arpa".toList <:+ qname.toList) ∧ qname.toList.length ≤ 253 ∧
      (∀ l ∈ Py.split '.' qname.toList, l.length ≤ 63 ∧ ¬ "xn--".toList <+: l) ∧
      if qtype = "SRV" then qname.toList ∈ liveDnsSrvQnameRe.lang else qname.toList ∈ liveDnsQnameRe.lang := by
  have hreverse : dnsQnameIsIpv6Reverse qname.toList = false ↔
      qname ≠ "ip6.arpa" ∧ ¬ ".ip6.arpa".toList <:+ qname.toList := by
    rw [dnsQnameIsIpv6Reverse, Bool.or_eq_false_iff, decide_eq_false_iff_not, String.toList_inj,
      ← List.isSuffixOf_iff_suffix, Bool.not_eq_true]
  have hlabels : ((Py.split '.' qname.toList).any fun l => 63 < l.length || "xn--".toList.isPrefixOf l) = false ↔
      ∀ l ∈ Py.split '.' qname.toList, l.length ≤ 63 ∧ ¬ "xn--".toList <+: l := by
    simp only [List.any_eq_false, Bool.or_eq_true, decide_eq_true_eq, not_or, not_lt, List.isPrefixOf_iff_prefix]
  unfold liveDnsQnameSupported
  dsimp only
  split
  · rename_i hrefused
    refine iff_of_false (by simp) fun h => ?_
    rw [Bool.or_eq_true, Bool.or_eq_true, decide_eq_true_eq] at hrefused
    obtain (hrefused | hrefused) | hrefused := hrefused
    · rw [hreverse.2 h.1] at hrefused
      cases hrefused
    · have := h.2.1
      omega
    · rw [hlabels.2 h.2.2.1] at hrefused
      cases hrefused
  · rename_i hallowed
    rw [Bool.not_eq_true, Bool.or_eq_false_iff, Bool.or_eq_false_iff, decide_eq_false_iff_not, not_lt, hreverse,
      hlabels] at hallowed
    obtain ⟨⟨h1, h2⟩, h3⟩ := hallowed
    have hpattern : (if qtype = "SRV" then liveDnsSrvQnameRe.fullmatch qname.toList
        else liveDnsQnameRe.fullmatch qname.toList) = true ↔
        if qtype = "SRV" then qname.toList ∈ liveDnsSrvQnameRe.lang else qname.toList ∈ liveDnsQnameRe.lang := by
      split
      · exact Regex.fullmatch_iff _ _
      · exact Regex.fullmatch_iff _ _
    rw [hpattern]
    exact ⟨fun h => ⟨h1, h2, h3, h⟩, fun h => h.2.2.2⟩

/-- Host labels are labels of the pattern that pass the two checks outside it. -/
private theorem hostLabels_iff {labels : List (List Char)} :
    (∀ l ∈ labels, HostLabel l) ↔ (∀ l ∈ labels, LabelBody l ∧ l.length ≤ 63) ∧
      ∀ l ∈ labels, l.length ≤ 63 ∧ ¬ "xn--".toList <+: l := by
  constructor
  · intro h
    exact ⟨fun l hl => ⟨(h l hl).toLabelBody, (h l hl).length_le⟩, fun l hl => ⟨(h l hl).length_le, (h l hl).not_punycode⟩⟩
  · rintro ⟨hbody, hlabel⟩ l hl
    exact ⟨(hbody l hl).1, (hlabel l hl).1, (hlabel l hl).2⟩

private theorem split_srv {service proto rest : List Char} (hservice : LabelBody service) (hproto : LabelBody proto) :
    Py.split '.' ('_' :: service ++ '.' :: ('_' :: proto ++ '.' :: rest)) =
      ('_' :: service) :: ('_' :: proto) :: Py.split '.' rest := by
  have hfree : ∀ {label : List Char}, LabelBody label → '.' ∉ '_' :: label := by
    intro label h hdot
    rcases List.mem_cons.1 hdot with hdot | hdot
    · exact absurd hdot (by decide)
    · exact labelBody_no_dot h hdot
  unfold Py.split
  rw [List.splitOn_append_cons_self, List.splitOn_append_cons_self, List.splitOn_eq_singleton (hfree hservice),
    List.splitOn_eq_singleton (hfree hproto)]
  rfl

private theorem not_punycode_service (label : List Char) : ¬ "xn--".toList <+: '_' :: label := by
  intro h
  have := List.cons_prefix_cons.1 h
  exact absurd this.1 (by decide)

/-- The SRV pattern, for labels that pass the checks outside it. -/
private theorem srv_iff_documented {q : List Char}
    (hlabels : ∀ l ∈ Py.split '.' q, l.length ≤ 63 ∧ ¬ "xn--".toList <+: l) :
    q ∈ liveDnsSrvQnameRe.lang ↔ DocumentedLabels "SRV" (Py.split '.' q) := by
  rw [mem_liveDnsSrvQnameRe, DocumentedLabels, if_pos rfl]
  constructor
  · rintro ⟨service, proto, rest, ⟨hservice, -⟩, ⟨hproto, -⟩, hrest, rfl⟩
    rw [split_srv hservice hproto] at hlabels ⊢
    obtain ⟨htwo, hbody⟩ := mem_liveDnsQnameRe.1 hrest
    have hhost : ∀ l ∈ Py.split '.' rest, HostLabel l :=
      hostLabels_iff.2 ⟨hbody, fun l hl => hlabels l (by simp [hl])⟩
    exact ⟨_, _, _, rfl, ⟨(hlabels _ (by simp)).1, service, rfl, hservice⟩, ⟨(hlabels _ (by simp)).1, proto, rfl, hproto⟩,
      htwo, hhost⟩
  · rintro ⟨_, _, rest, hsplit, ⟨hs, service, rfl, hservice⟩, ⟨hp, proto, rfl, hproto⟩, htwo, hrest⟩
    have hne : rest ≠ [] := by
      rintro rfl
      simp at htwo
    have hq : q = '_' :: service ++ '.' :: ('_' :: proto ++ '.' :: ['.'].intercalate rest) := by
      have hjoin : ['.'].intercalate (q.splitOn '.') = q := List.intercalate_splitOn '.'
      rw [← hjoin, ← Py.split, hsplit, List.intercalate_cons_of_ne_nil (by simp),
        List.intercalate_cons_of_ne_nil hne]
      simp
    have hfree : ∀ l ∈ rest, '.' ∉ l := fun l hl => labelBody_no_dot (hrest l hl).toLabelBody
    rw [List.length_cons] at hs hp
    refine ⟨service, proto, _, ⟨hservice, by omega⟩, ⟨hproto, by omega⟩, mem_liveDnsQnameRe.2 ?_, hq⟩
    rw [List.splitOn_intercalate '.' hfree hne]
    exact ⟨htwo, (hostLabels_iff.1 hrest).1⟩

/-- A documented name passes the checks that are made of every label. -/
private theorem labels_of_documented {qtype : String} {labels : List (List Char)} (h : DocumentedLabels qtype labels) :
    ∀ l ∈ labels, l.length ≤ 63 ∧ ¬ "xn--".toList <+: l := by
  unfold DocumentedLabels at h
  split at h
  · obtain ⟨service, proto, rest, rfl, ⟨hs, body, rfl, -⟩, ⟨hp, body', rfl, -⟩, -, hrest⟩ := h
    intro l hl
    rcases List.mem_cons.1 hl with rfl | hl
    · exact ⟨hs, not_punycode_service _⟩
    rcases List.mem_cons.1 hl with rfl | hl
    · exact ⟨hp, not_punycode_service _⟩
    · exact (hostLabels_iff.1 hrest).2 l hl
  · exact (hostLabels_iff.1 h.2).2

theorem live_iff_documented {qname qtype : String} : liveDnsQnameSupported qname qtype ↔ DocumentedName qname qtype := by
  have hpattern : (∀ l ∈ Py.split '.' qname.toList, l.length ≤ 63 ∧ ¬ "xn--".toList <+: l) →
      ((if qtype = "SRV" then qname.toList ∈ liveDnsSrvQnameRe.lang else qname.toList ∈ liveDnsQnameRe.lang) ↔
        DocumentedLabels qtype (Py.split '.' qname.toList)) := by
    intro hlabels
    split
    · rename_i hsrv
      rw [hsrv]
      exact srv_iff_documented hlabels
    · rename_i hother
      rw [mem_liveDnsQnameRe, DocumentedLabels, if_neg hother]
      exact ⟨fun h => ⟨h.1, hostLabels_iff.2 ⟨h.2, hlabels⟩⟩, fun h => ⟨h.1, (hostLabels_iff.1 h.2).1⟩⟩
  rw [live_iff]
  constructor
  · rintro ⟨hreverse, hlen, hlabels, h⟩
    exact ⟨hlen, hreverse, (hpattern hlabels).1 h⟩
  · rintro ⟨hlen, hreverse, hdoc⟩
    have hlabels := labels_of_documented hdoc
    exact ⟨hreverse, hlen, hlabels, (hpattern hlabels).2 hdoc⟩

/-! ### The check of written rules -/

/-- An accepted rule is about its name in lower case, without the trailing dots. -/
private theorem validateDnsRule_name {lib : DnsPython} {path text : String} {qtype : Yaml} {r : String × String}
    (h : validateDnsRule lib path (.str text) qtype = .ok r) :
    r.1 = String.ofList (Py.lower (Py.rstrip '.' text.toList)) := by
  simp only [validateDnsRule, Yaml.str] at h
  iterate 2 (split at h; · cases h)
  split at h
  · cases h
  iterate 2 (split at h; · cases h)
  obtain rfl := Except.ok.inj h
  rfl

/-- A question in the form of rules that is no wildcard can also be asked. -/
theorem live_of_canonical {qname qtype : String} (h : CanonicalQuestion qname qtype)
    (hwild : isWildcard qname.toList = false) : liveDnsQnameSupported qname qtype := by
  have hallowed := h.allowed
  have hpattern := h.pattern
  simp only [dnsRuleNameRefused, hwild, Bool.false_eq_true, if_false, Bool.or_eq_false_iff] at hallowed
  simp only [dnsRuleNameMatches, hwild, Bool.false_eq_true, if_false] at hpattern
  unfold liveDnsQnameSupported
  dsimp only
  rw [if_neg]
  · exact hpattern
  · rw [hallowed.1.1.1, hallowed.1.1.2, hallowed.2]
    decide

/-- Live queries and written rules accept the same names, and leave them as they are: the documented ones. -/
theorem live_iff_validateDnsRule (lib : DnsPython) (path : String) {qname qtype : String}
    (hlower : Py.lower qname.toList = qname.toList) (hdot : qname.toList.getLast? ≠ some '.')
    (hwild : isWildcard qname.toList = false) (hqtype : qtype ∈ supportedDnsQtypes) :
    (liveDnsQnameSupported qname qtype ↔ ∃ r, validateDnsRule lib path (.str qname) (.str qtype) = .ok r) ∧
      (∀ r, validateDnsRule lib path (.str qname) (.str qtype) = .ok r → r = (qname, qtype)) ∧
      (liveDnsQnameSupported qname qtype ↔ DocumentedName qname qtype) := by
  have hunchanged : ∀ r, validateDnsRule lib path (.str qname) (.str qtype) = .ok r → r = (qname, qtype) := by
    intro r hr
    have hname := validateDnsRule_name hr
    rw [Py.rstrip_eq_self hdot, hlower, String.ofList_toList] at hname
    obtain ⟨name, type⟩ := r
    obtain rfl : name = qname := hname
    rw [validateDnsRule_qtype hqtype hr]
  refine ⟨⟨fun h => ?_, ?_⟩, hunchanged, live_iff_documented⟩
  · exact ⟨_, validateDnsRule_canonical lib path (canonical_of_live hqtype h).1⟩
  · rintro ⟨r, hr⟩
    rw [hunchanged r hr] at hr
    exact live_of_canonical (validateDnsRule_ok hr) hwild

theorem live_iff_validateDnsRule_sample : DocumentedName "_sip._udp.example.org" "SRV" ∧
    ∃ r, validateDnsRule (.ofParser fun _ => none) "work.yml" (.str "_sip._udp.example.org") (.str "SRV") = .ok r := by
  have h := @live_iff_validateDnsRule (.ofParser fun _ => none) "work.yml" "_sip._udp.example.org" "SRV"
    (by decide +kernel) (by decide +kernel) (by decide +kernel) (by decide)
  have hlive : liveDnsQnameSupported "_sip._udp.example.org" "SRV" := by decide +kernel
  exact ⟨h.2.2.1 hlive, h.1.1 hlive⟩

end QubesSnitch
