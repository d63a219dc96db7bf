import QubesSnitch.Display
import QubesSnitch.Dns

/-!
# Wildcard rules

A rule for `*.` and a suffix is about the names below the suffix.  `dnsRuleMatches` works on the characters of names that
may be any Unicode text, and lower-cases the name of the rule as Python does, where the form of a sigma depends on the
letters around it.  What it decides is a fact about labels (`dnsRuleMatches_labels`): those of the suffix are the last ones
of the name, and not all of them.
-/

namespace QubesSnitch

/-! ### Lower case -/

/-- The case tables of Unicode.  ASCII has its own cases in all versions, every character has a lower-case form, and dots
and stars come from nothing else. -/
structure CaseData where
  lowerFull : CodePoint → Text
  upperFull : CodePoint → Text
  cased : CodePoint → Bool
  caseIgnorable : CodePoint → Bool
  lower_ascii : ∀ c : Char, c.toNat < 128 → lowerFull (codePoint c) = [codePoint c.toLower]
  upper_ascii : ∀ c : Char, c.toNat < 128 → upperFull (codePoint c) = [codePoint c.toUpper]
  lower_ne_nil : ∀ c, lowerFull c ≠ []
  lower_punctuation : ∀ c d, d ∈ lowerFull c → d ∈ text "*." → c = d
  cased_punctuation : ∀ c ∈ text "*.", cased c = false

def dot : CodePoint := codePoint '.'

def capitalSigma : CodePoint := codePoint '\u03a3'

def smallSigma : CodePoint := codePoint '\u03c3'

def smallFinalSigma : CodePoint := codePoint '\u03c2'

namespace CaseData

variable (cd : CaseData)

/-- Whether the first character that counts for the case is a letter with case. -/
def nextCased (s : Text) : Bool := (s.dropWhile cd.caseIgnorable).head?.any cd.cased

/-- `str.lower` of the rest of a text; `before` is what was read, the last character first. -/
def lowerFrom (before : Text) : Text → Text
  | [] => []
  | c :: s =>
    (if c = capitalSigma then [if cd.nextCased before && !cd.nextCased s then smallFinalSigma else smallSigma]
      else cd.lowerFull c) ++ lowerFrom (c :: before) s

/-- `str.lower` -/
def lower (s : Text) : Text := cd.lowerFrom [] s

/-- `str.upper` -/
def upper (s : Text) : Text := s.flatMap cd.upperFull

end CaseData

/-- A DNS rule whose name and type are any texts. -/
structure TextRule where
  qname : Text
  qtype : Text

/-- `dns_rule_matches` -/
def CaseData.dnsRuleMatches (cd : CaseData) (qname qtype : Text) (rule : TextRule) : Bool :=
  if qtype ≠ cd.upper rule.qtype then false
  else
    let ruleName := cd.lower rule.qname
    if (text "*.").isPrefixOf ruleName then
      let suffix := ruleName.drop 2
      (dot :: suffix).isSuffixOf qname && qname ≠ suffix
    else qname = ruleName

/-- `name.split(".")` -/
def labels (name : Text) : List Text := name.splitOn dot

variable {cd : CaseData}

/-- What has no case does not change what a sigma becomes. -/
theorem CaseData.nextCased_append {t : Text} (ht : ∀ c ∈ t, cd.cased c = false) (s : Text) :
    cd.nextCased (s ++ t) = cd.nextCased s := by
  have hnone : ∀ t' : Text, t' ⊆ t → t'.head?.any cd.cased = false := by
    intro t' hsub
    cases t' with
    | nil => rfl
    | cons c t' => exact ht c (hsub List.mem_cons_self)
  unfold CaseData.nextCased
  rw [List.dropWhile_append]
  split
  case isTrue hempty =>
    rw [List.isEmpty_iff.1 hempty, hnone _ (List.dropWhile_sublist _).subset]
    rfl
  case isFalse hne =>
    rw [List.head?_append_of_ne_nil _ (by simpa using hne)]

theorem CaseData.lowerFrom_append {t : Text} (ht : ∀ c ∈ t, cd.cased c = false) (before s : Text) :
    cd.lowerFrom (before ++ t) s = cd.lowerFrom before s := by
  induction s generalizing before with
  | nil => rfl
  | cons c s ih => rw [lowerFrom, lowerFrom, nextCased_append ht, ← List.cons_append, ih]

/-- A wildcard keeps its star, and the rest is lower-cased on its own. -/
theorem CaseData.lower_wildcard (s : Text) : cd.lower (text "*." ++ s) = text "*." ++ cd.lower s := by
  have hstar : cd.lowerFull (codePoint '*') = [codePoint '*'] := cd.lower_ascii '*' (by decide)
  have hdot : cd.lowerFull (codePoint '.') = [codePoint '.'] := cd.lower_ascii '.' (by decide)
  have hcased : ∀ c ∈ [codePoint '.', codePoint '*'], cd.cased c = false :=
    fun c hc => cd.cased_punctuation c (by simpa [text, or_comm] using hc)
  have hrest : cd.lowerFrom [codePoint '.', codePoint '*'] s = cd.lower s := lowerFrom_append hcased [] s
  have hne : codePoint '*' ≠ capitalSigma ∧ codePoint '.' ≠ capitalSigma := by decide
  show cd.lowerFrom [] (codePoint '*' :: codePoint '.' :: s) = _
  rw [lowerFrom, lowerFrom, if_neg hne.1, if_neg hne.2, hstar, hdot, hrest]
  rfl

/-- A star or a dot in front was there before. -/
theorem CaseData.lowerFrom_punctuation {before s t : Text} {d : CodePoint} (hd : d ∈ text "*.")
    (h : cd.lowerFrom before s = d :: t) : ∃ s', s = d :: s' ∧ t = cd.lowerFrom (d :: before) s' := by
  have hsigma : ∀ c ∈ [smallSigma, smallFinalSigma], c ∉ text "*." := by decide
  cases s with
  | nil => cases h
  | cons c s =>
    rw [lowerFrom] at h
    split at h
    case isTrue hc =>
      obtain ⟨rfl, -⟩ := List.cons.inj h
      exact absurd hd (hsigma _ (by split <;> simp))
    case isFalse hc =>
      obtain ⟨e, rest, hfull⟩ := List.exists_cons_of_ne_nil (cd.lower_ne_nil c)
      rw [hfull, List.cons_append] at h
      obtain ⟨rfl, hrest⟩ := List.cons.inj h
      obtain rfl : c = e := cd.lower_punctuation c e (by rw [hfull]; exact List.mem_cons_self) hd
      have hself : cd.lowerFull c = [c] := by
        rcases (by simpa [text] using hd : c = codePoint '*' ∨ c = codePoint '.') with rfl | rfl
        · exact cd.lower_ascii '*' (by decide)
        · exact cd.lower_ascii '.' (by decide)
      obtain rfl : rest = [] := by simpa [hself] using hfull.symm
      exact ⟨s, rfl, hrest.symm⟩

theorem CaseData.wildcard_of_lower {name : Text} (h : text "*." <+: cd.lower name) : text "*." <+: name := by
  obtain ⟨t, ht⟩ := h
  obtain ⟨s, rfl, hs⟩ := lowerFrom_punctuation (d := codePoint '*') (by decide) ht.symm
  obtain ⟨s', rfl, -⟩ := lowerFrom_punctuation (d := codePoint '.') (by decide) hs.symm
  exact ⟨s', rfl⟩

/-! ### Labels -/

/-- The labels around a dot. -/
theorem labels_append_dot (x y : Text) : labels (x ++ dot :: y) = labels x ++ labels y :=
  List.splitOn_append_cons_self x y

theorem labels_ne_nil (name : Text) : labels name ≠ [] := List.splitOn_ne_nil dot name

theorem labels_injective : Function.Injective labels := by
  intro x y h
  have hjoin : ∀ name : Text, [dot].intercalate (labels name) = name := fun name => List.intercalate_splitOn dot
  rw [← hjoin x, ← hjoin y, h]

/-- Where there is more than one label, the first one ends at the first dot. -/
theorem first_label {qname l : Text} {more : List Text} (h : labels qname = l :: more) (hne : more ≠ []) :
    ∃ x y, qname = x ++ dot :: y ∧ labels y = more := by
  by_cases hmem : dot ∈ qname
  · obtain ⟨x, y, rfl, hx⟩ := List.eq_append_cons_of_mem hmem
    refine ⟨x, y, rfl, ?_⟩
    rw [labels, List.splitOn_append_cons_self_of_not_mem hx] at h
    exact (List.cons.inj h).2
  · rw [labels, List.splitOn_eq_singleton hmem] at h
    exact absurd (List.cons.inj h).2.symm hne

/-- A name with a label and the labels of another name ends in a dot and the other name. -/
theorem below_of_labels {l : Text} {more : List Text} {suffix qname : Text}
    (h : labels qname = l :: (more ++ labels suffix)) : (dot :: suffix) <:+ qname := by
  induction more generalizing l qname with
  | nil =>
    obtain ⟨x, y, rfl, hrest⟩ := first_label h (labels_ne_nil suffix)
    rw [List.nil_append] at hrest
    exact ⟨x, by rw [labels_injective hrest]⟩
  | cons l' more ih =>
    obtain ⟨x, y, rfl, hrest⟩ := first_label h (by simp)
    obtain ⟨z, hz⟩ := ih hrest
    exact ⟨x ++ dot :: z, by rw [← hz]; simp⟩

/-- A dot and a name end another name exactly when the labels of the one are the last labels of the other. -/
theorem below_iff_labels {suffix qname : Text} :
    ((dot :: suffix) <:+ qname ∧ qname ≠ suffix) ↔ labels suffix <:+ labels qname ∧ labels suffix ≠ labels qname := by
  constructor
  · rintro ⟨⟨x, rfl⟩, hne⟩
    refine ⟨⟨labels x, (labels_append_dot x suffix).symm⟩, fun heq => ?_⟩
    exact hne (labels_injective heq).symm
  · rintro ⟨⟨more, hmore⟩, hne⟩
    refine ⟨?_, fun heq => hne (congrArg labels heq).symm⟩
    cases more with
    | nil => exact absurd hmore hne
    | cons l more => exact below_of_labels hmore.symm

/-- A wildcard rule matches the names that have the labels of its suffix as their last labels and more in front; another
rule matches its own name.  Names made of labels have those labels. -/
theorem dnsRuleMatches_labels (cd : CaseData) (qname : Text) {qtype : Text} {rule : TextRule}
    (hqtype : qtype = cd.upper rule.qtype) :
    (∀ suffix, rule.qname = text "*." ++ suffix → (cd.dnsRuleMatches qname qtype rule ↔
      labels (cd.lower suffix) <:+ labels qname ∧ labels (cd.lower suffix) ≠ labels qname)) ∧
    (¬ text "*." <+: rule.qname → (cd.dnsRuleMatches qname qtype rule ↔ qname = cd.lower rule.qname)) ∧
    ∀ ls : List Text, ls ≠ [] → (∀ l ∈ ls, dot ∉ l) → labels ([dot].intercalate ls) = ls := by
  refine ⟨fun suffix hwild => ?_, fun hplain => ?_, fun ls hne hdots => List.splitOn_intercalate dot hdots hne⟩
  · have hlower : cd.lower rule.qname = text "*." ++ cd.lower suffix := by rw [hwild, CaseData.lower_wildcard]
    have hdrop : (text "*." ++ cd.lower suffix).drop 2 = cd.lower suffix := rfl
    have hpre : (text "*.").isPrefixOf (text "*." ++ cd.lower suffix) = true :=
      List.isPrefixOf_iff_prefix.2 (List.prefix_append _ _)
    rw [CaseData.dnsRuleMatches, if_neg (not_not.2 hqtype), hlower]
    simp only [hpre, if_true, hdrop, Bool.and_eq_true, List.isSuffixOf_iff_suffix, decide_eq_true_eq]
    exact below_iff_labels
  · have hpre : (text "*.").isPrefixOf (cd.lower rule.qname) = false := by
      rw [Bool.eq_false_iff, Ne, List.isPrefixOf_iff_prefix]
      exact fun h => hplain (CaseData.wildcard_of_lower h)
    rw [CaseData.dnsRuleMatches, if_neg (not_not.2 hqtype)]
    simp [hpre]

namespace Sample

/-- The cases of ASCII letters; other characters have no case here. -/
def asciiCases : CaseData where
  lowerFull c := if c.val < 128 then [codePoint (Char.ofNat c.val).toLower] else [c]
  upperFull c := if c.val < 128 then [codePoint (Char.ofNat c.val).toUpper] else [c]
  cased c := c.val < 128 && (Char.ofNat c.val).isAlpha
  caseIgnorable c := c ∈ text "'.:^`"
  lower_ascii c hc := by simp [codePoint, hc]
  upper_ascii c hc := by simp [codePoint, hc]
  lower_ne_nil c := by split <;> simp
  lower_punctuation c d hd hmem := by
    split at hd
    case isTrue hc =>
      have hascii : ∀ n < 128, codePoint (Char.ofNat n).toLower ∈ text "*." →
          n = (codePoint (Char.ofNat n).toLower).val := by decide +kernel
      have hext : ∀ x y : CodePoint, x.val = y.val → x = y := fun ⟨_, _⟩ ⟨_, _⟩ h => by cases h; rfl
      rw [List.mem_singleton.1 hd] at hmem ⊢
      exact hext _ _ (hascii c.val hc hmem)
    case isFalse hc => exact (List.mem_singleton.1 hd).symm
  cased_punctuation := by decide

theorem dnsRuleMatches_labels_below :
    asciiCases.dnsRuleMatches (text "a.b.example.com") (text "A") ⟨text "*.Example.com", text "a"⟩ := by
  have htype : text "A" = asciiCases.upper (text "a") := by decide
  have hlabels := (@dnsRuleMatches_labels asciiCases (text "a.b.example.com") (text "A")
    ⟨text "*.Example.com", text "a"⟩ htype).1 (text "Example.com") (by decide)
  exact hlabels.2 (by decide)

end Sample

/-! ### Rules in ASCII -/

theorem codePoint_injective : Function.Injective codePoint := fun _ _ h => by
  rw [← Char.toNat_inj]
  exact congrArg CodePoint.val h

theorem text_injective : Function.Injective text := fun _ _ h =>
  String.toList_inj.1 (codePoint_injective.list_map h)

/-- In ASCII no letter depends on its neighbours. -/
theorem CaseData.lowerFrom_ascii (before : Text) {s : List Char} (hs : Py.isascii s) :
    cd.lowerFrom before (s.map codePoint) = (Py.lower s).map codePoint := by
  induction s generalizing before with
  | nil => rfl
  | cons c s ih =>
    simp only [Py.isascii, List.all_cons, Bool.and_eq_true, decide_eq_true_eq] at hs
    have hsigma : codePoint c ≠ capitalSigma := fun h => by
      have := hs.1
      rw [codePoint_injective h] at this
      exact absurd this (by decide)
    have hkelvin : Py.lowerChar c = c.toLower := by
      rw [Py.lowerChar, if_neg]
      rintro rfl
      exact absurd hs.1 (by decide)
    rw [List.map_cons, lowerFrom, if_neg hsigma, cd.lower_ascii c hs.1, ih _ (by simpa [Py.isascii] using hs.2)]
    simp [Py.lower, hkelvin]

theorem CaseData.upper_text {s : List Char} (hs : Py.isascii s) :
    cd.upper (s.map codePoint) = (Py.upper s).map codePoint := by
  induction s with
  | nil => rfl
  | cons c s ih =>
    simp only [Py.isascii, List.all_cons, Bool.and_eq_true, decide_eq_true_eq] at hs
    have hchar : Py.upperChar c = [c.toUpper] := by
      unfold Py.upperChar
      split <;> first | rfl | exact absurd hs.1 (by decide)
    have hrest := ih (by simpa [Py.isascii] using hs.2)
    rw [upper] at hrest ⊢
    rw [List.map_cons, List.flatMap_cons, cd.upper_ascii c hs.1, hrest]
    simp [Py.upper, hchar]

/-- On ASCII rules this is the match that policy decides by. -/
theorem dnsRuleMatches_text (cd : CaseData) (qname qtype : String) {rule : DnsRule}
    (hname : Py.isascii rule.qname.toList) (htype : Py.isascii rule.qtype.toList) :
    cd.dnsRuleMatches (text qname) (text qtype) ⟨text rule.qname, text rule.qtype⟩ =
      QubesSnitch.dnsRuleMatches qname qtype rule := by
  have hmap : Function.Injective (List.map codePoint) := codePoint_injective.list_map
  have hlower : cd.lower (text rule.qname) = (Py.lower rule.qname.toList).map codePoint :=
    CaseData.lowerFrom_ascii [] hname
  have hupper : cd.upper (text rule.qtype) = (Py.upper rule.qtype.toList).map codePoint := CaseData.upper_text htype
  have hpre : ∀ s : List Char, (text "*.").isPrefixOf (s.map codePoint) = "*.".toList.isPrefixOf s := fun s => by
    rw [Bool.eq_iff_iff, List.isPrefixOf_iff_prefix, List.isPrefixOf_iff_prefix, text,
      List.prefix_map_iff_of_injective codePoint_injective]
  have hsuf : ∀ s : List Char, (dot :: s.map codePoint).isSuffixOf (text qname) =
      ('.' :: s).isSuffixOf qname.toList := fun s => by
    rw [Bool.eq_iff_iff, List.isSuffixOf_iff_suffix, List.isSuffixOf_iff_suffix, text, dot, ← List.map_cons,
      List.suffix_map_iff_of_injective codePoint_injective]
  have heq : ∀ s : List Char, (text qname = s.map codePoint) = (qname.toList = s) := fun s =>
    propext hmap.eq_iff
  simp only [CaseData.dnsRuleMatches, QubesSnitch.dnsRuleMatches, hlower, hupper, hpre, ← List.map_drop, hsuf, heq, ne_eq]
  have htypes : (text qtype = (Py.upper rule.qtype.toList).map codePoint) = (qtype.toList = Py.upper rule.qtype.toList) :=
    propext hmap.eq_iff
  simp only [htypes]

end QubesSnitch
