import QubesSnitch.Dns

/-!
# Wire names and policy names

A client asks with a wire name, a list of labels of any bytes; policy sees the text of it in lower case, without the dots
at its end.  Escaping leaves a backslash in the text of every label with a byte that is special or does not print, and
stripping dots takes no backslash away, so a name that is supported is written out plainly (`normalizeDnsName_plain`).
A text without escapes is split at its dots into the labels, so it stands for one wire name up to case
(`normalizeDnsName_injective`).
-/

namespace QubesSnitch

/-- The empty label is the last one, and no other. -/
def DnsName.IsAbsolute (name : DnsName) : Prop := ∃ labels, name.labels = labels ++ [[]] ∧ [] ∉ labels

/-- ASCII lower case. -/
def lowerByte (b : UInt8) : UInt8 := if 0x41 ≤ b.toNat ∧ b.toNat ≤ 0x5a then b + 0x20 else b

/-- The labels up to ASCII case. -/
def DnsName.foldCase (name : DnsName) : List (List UInt8) := name.labels.map fun label => label.map lowerByte

/-- A letter, a digit, a hyphen or an underscore. -/
def IsHostByte (b : UInt8) : Prop := isAlnum (Char.ofNat (lowerByte b).toNat) ∨ b = 0x2d ∨ b = 0x5f

instance (b : UInt8) : Decidable (IsHostByte b) := inferInstanceAs (Decidable (_ ∨ _))

instance (c : Char) : Decidable (IsLiveChar c) := inferInstanceAs (Decidable (_ ∨ _))

/-! ### Bytes -/

def byteChar (b : UInt8) : Char := Char.ofNat b.toNat

theorem forall_byte {P : UInt8 → Prop} (h : ∀ n < 256, P (UInt8.ofNat n)) (b : UInt8) : P b := by
  have := h b.toNat b.toNat_lt
  rwa [UInt8.ofNat_toNat] at this

/-- A byte that is written without a backslash is written as itself, and it is no dot. -/
theorem escapifyByte_plain : ∀ b : UInt8,
    '\\' ∉ escapifyByte b → escapifyByte b = [byteChar b] ∧ byteChar b ≠ '.' := by
  refine forall_byte ?_
  decide +kernel

theorem lowerChar_byteChar : ∀ b : UInt8, Py.lowerChar (byteChar b) = byteChar (lowerByte b) := by
  refine forall_byte ?_
  decide +kernel

theorem ofNat_byteChar : ∀ b : UInt8, UInt8.ofNat (byteChar b).toNat = b := by
  refine forall_byte ?_
  decide +kernel

theorem byteChar_injective : Function.Injective byteChar := by
  intro b c h
  rw [← ofNat_byteChar b, h, ofNat_byteChar c]

theorem isHostByte_of_live : ∀ b : UInt8,
    IsLiveChar (byteChar (lowerByte b)) → byteChar (lowerByte b) ≠ '.' → IsHostByte b := by
  refine forall_byte ?_
  decide +kernel

theorem lowerByte_eq_dot : ∀ b : UInt8, byteChar (lowerByte b) = '.' → byteChar b = '.' := by
  refine forall_byte ?_
  decide +kernel

/-! ### The text of a live name -/

private theorem rstrip_concat (c : Char) (s : List Char) : Py.rstrip c (s ++ [c]) = Py.rstrip c s := by
  simp [Py.rstrip]

/-- Stripping takes away copies of the character only. -/
private theorem mem_rstrip {c x : Char} {s : List Char} (hx : x ∈ s) (hne : x ≠ c) : x ∈ Py.rstrip c s := by
  rw [Py.rstrip, List.mem_reverse]
  have hs : x ∈ s.reverse.takeWhile (· = c) ++ s.reverse.dropWhile (· = c) := by
    rwa [List.takeWhile_append_dropWhile, List.mem_reverse]
  rcases List.mem_append.1 hs with h | h
  · exact absurd (by simpa using List.mem_takeWhile_imp h) hne
  · exact h

private theorem mem_intercalate {x : Char} {l : List Char} {ls : List (List Char)} (hl : l ∈ ls) (hx : x ∈ l) :
    x ∈ ['.'].intercalate ls := by
  induction ls with
  | nil => cases hl
  | cons k ls ih =>
    rcases ls with _ | ⟨m, ls⟩
    · rw [List.mem_singleton.1 hl] at hx
      rwa [List.intercalate_singleton]
    · rw [List.intercalate_cons_cons]
      rcases List.mem_cons.1 hl with rfl | hl
      · simp [hx]
      · simp [ih hl]

private theorem map_intercalate {f : Char → Char} (hf : f '.' = '.') (ls : List (List Char)) :
    (['.'].intercalate ls).map f = ['.'].intercalate (ls.map fun l => l.map f) := by
  induction ls with
  | nil => rfl
  | cons k ls ih =>
    rcases ls with _ | ⟨m, ls⟩
    · simp
    · simp only [List.map_cons, List.intercalate_cons_cons, List.map_append, List.map_nil] at ih ⊢
      rw [ih, hf]

private theorem getLast?_intercalate {ls : List (List Char)} {l : List Char} (hl : ls.getLast? = some l)
    (hne : l ≠ []) : (['.'].intercalate ls).getLast? = l.getLast? := by
  induction ls with
  | nil => cases hl
  | cons k ls ih =>
    rcases ls with _ | ⟨m, ls⟩
    · have hk : k = l := by simpa using hl
      rw [List.intercalate_singleton, hk]
    · rw [List.intercalate_cons_cons, List.getLast?_append, ih hl, List.getLast?_eq_some_getLast hne]
      rfl

private theorem intercalate_concat_nil {ls : List (List Char)} (hne : ls ≠ []) :
    ['.'].intercalate (ls ++ [[]]) = ['.'].intercalate ls ++ ['.'] := by
  induction ls with
  | nil => exact absurd rfl hne
  | cons k ls ih =>
    rcases ls with _ | ⟨m, ls⟩
    · simp
    · rw [List.cons_append, List.intercalate_cons_of_ne_nil (by simp), ih (by simp), List.intercalate_cons_cons]
      simp

/-- The label as policy sees it. -/
def plainLabel (label : List UInt8) : List Char := label.map fun b => byteChar (lowerByte b)

private theorem text_eq {name : DnsName} {labels : List (List UInt8)} (h : name.labels = labels ++ [[]])
    (hne : labels ≠ []) :
    name.text = ['.'].intercalate (labels.map fun label => label.flatMap escapifyByte) ++ ['.'] := by
  rcases labels with _ | ⟨l, ls⟩
  · exact absurd rfl hne
  · have htext : name.text = ['.'].intercalate (name.labels.map fun label => label.flatMap escapifyByte) := by
      unfold DnsName.text
      rw [h]
      rcases l with _ | ⟨b, l⟩ <;> rcases ls with _ | ⟨m, ls⟩ <;> rfl
    rw [htext, h, List.map_append]
    exact intercalate_concat_nil (by simp)

private theorem flatMap_escapifyByte {label : List UInt8} (h : '\\' ∉ label.flatMap escapifyByte) :
    label.flatMap escapifyByte = label.map byteChar ∧ '.' ∉ label.map byteChar := by
  induction label with
  | nil => simp
  | cons b label ih =>
    rw [List.flatMap_cons, List.mem_append, not_or] at h
    obtain ⟨hb, hdot⟩ := escapifyByte_plain b h.1
    obtain ⟨hl, hdots⟩ := ih h.2
    rw [List.flatMap_cons, hb, hl]
    exact ⟨rfl, by simp only [List.map_cons, List.mem_cons, not_or]; exact ⟨Ne.symm hdot, hdots⟩⟩

private theorem dot_of_plainLabel {label : List UInt8} (h : '.' ∈ plainLabel label) : '.' ∈ label.map byteChar := by
  obtain ⟨b, hb, hdot⟩ := List.mem_map.1 h
  exact List.mem_map.2 ⟨b, hb, lowerByte_eq_dot b hdot⟩

/-- The text of a live name is its labels in lower case, and no label has a dot in it. -/
theorem normalizeDnsName_plain {name : DnsName} {labels : List (List UInt8)} (h : name.labels = labels ++ [[]])
    (hnil : [] ∉ labels) (hlive : LiveName (normalizeDnsName name).toList) :
    labels ≠ [] ∧ (∀ label ∈ labels, '.' ∉ plainLabel label) ∧
      (normalizeDnsName name).toList = ['.'].intercalate (labels.map plainLabel) := by
  have hne : labels ≠ [] := by
    rintro rfl
    have htext : (normalizeDnsName name).toList = [] := by
      simp only [normalizeDnsName, DnsName.text, h, String.toList_ofList]
      rfl
    rw [htext] at hlive
    exact absurd hlive.dotted (by simp)
  rw [normalizeDnsName, String.toList_ofList, text_eq h hne, rstrip_concat] at hlive ⊢
  -- a backslash survives stripping and lower-casing, and it is no character of a live name
  have hplain : ∀ label ∈ labels, '\\' ∉ label.flatMap escapifyByte := by
    intro label hlabel hmem
    have hbody := mem_rstrip (mem_intercalate (List.mem_map_of_mem hlabel) hmem) (by decide : '\\' ≠ '.')
    exact absurd (hlive.chars _ (List.mem_map_of_mem hbody)) (by decide)
  have hmap : (labels.map fun label => label.flatMap escapifyByte) = labels.map fun label => label.map byteChar :=
    List.map_congr_left fun label hlabel => (flatMap_escapifyByte (hplain label hlabel)).1
  have hdots : ∀ label ∈ labels, '.' ∉ label.map byteChar :=
    fun label hlabel => (flatMap_escapifyByte (hplain label hlabel)).2
  refine ⟨hne, fun label hlabel hdot => hdots label hlabel (dot_of_plainLabel hdot), ?_⟩
  -- the last label is not empty, so that there is no other dot to strip
  have hlast : (['.'].intercalate (labels.map fun label => label.map byteChar)).getLast? ≠ some '.' := by
    have hl := List.getLast_mem hne
    have hempty : (labels.getLast hne).map byteChar ≠ [] := by
      intro he
      rw [List.map_eq_nil_iff] at he
      exact hnil (he ▸ hl)
    rw [getLast?_intercalate (by rw [List.getLast?_map, List.getLast?_eq_some_getLast hne]; rfl) hempty]
    exact fun hdot => hdots _ hl (List.mem_of_getLast? hdot)
  rw [hmap, Py.rstrip_eq_self hlast, Py.lower, map_intercalate (by decide), List.map_map]
  congr 1
  apply List.map_congr_left
  intro label _
  simp [plainLabel, lowerChar_byteChar]

private theorem map_plainLabel (labels : List (List UInt8)) :
    labels.map plainLabel = (labels.map fun label => label.map lowerByte).map fun label => label.map byteChar := by
  simp [plainLabel]

private theorem foldCase_eq {name : DnsName} {labels : List (List UInt8)} (h : name.labels = labels ++ [[]]) :
    name.foldCase = (labels.map fun label => label.map lowerByte) ++ [[]] := by
  rw [DnsName.foldCase, h, List.map_append]
  rfl

theorem isHostByte_of_supported {name : DnsName} {labels : List (List UInt8)} (h : name.labels = labels ++ [[]])
    (hnil : [] ∉ labels) (hlive : LiveName (normalizeDnsName name).toList) {label : List UInt8}
    (hlabel : label ∈ name.labels) {b : UInt8} (hb : b ∈ label) : IsHostByte b := by
  obtain ⟨-, hdots, htext⟩ := normalizeDnsName_plain h hnil hlive
  rw [h] at hlabel
  rcases List.mem_append.1 hlabel with hlabel | hlabel
  · have hmem : byteChar (lowerByte b) ∈ plainLabel label := List.mem_map_of_mem hb
    apply isHostByte_of_live b
    · apply hlive.chars
      rw [htext]
      exact mem_intercalate (List.mem_map_of_mem hlabel) hmem
    · exact fun hdot => hdots label hlabel (hdot ▸ hmem)
  · rw [List.mem_singleton.1 hlabel] at hb
    cases hb

/-- Of two names that policy supports, the texts are the same exactly when the labels are the same up to case, and
their labels have no bytes but those of host names. -/
theorem normalizeDnsName_injective {name name' : DnsName} {qtype qtype' : String} (h : name.IsAbsolute)
    (h' : name'.IsAbsolute) (hlive : liveDnsQnameSupported (normalizeDnsName name) qtype)
    (hlive' : liveDnsQnameSupported (normalizeDnsName name') qtype') :
    (normalizeDnsName name = normalizeDnsName name' ↔ name.foldCase = name'.foldCase) ∧
      ∀ label ∈ name.labels, ∀ b ∈ label, IsHostByte b := by
  obtain ⟨labels, h, hnil⟩ := h
  obtain ⟨labels', h', hnil'⟩ := h'
  have hlive := liveName_of_supported hlive
  obtain ⟨hne, hdots, htext⟩ := normalizeDnsName_plain h hnil hlive
  obtain ⟨hne', hdots', htext'⟩ := normalizeDnsName_plain h' hnil' (liveName_of_supported hlive')
  refine ⟨⟨fun heq => ?_, fun heq => ?_⟩, fun label hlabel b hb => isHostByte_of_supported h hnil hlive hlabel hb⟩
  · have hplain : labels.map plainLabel = labels'.map plainLabel := by
      rw [← List.splitOn_intercalate '.' (List.forall_mem_map.2 hdots) (by simpa using hne), ← htext, heq, htext',
        List.splitOn_intercalate '.' (List.forall_mem_map.2 hdots') (by simpa using hne')]
    rw [map_plainLabel, map_plainLabel] at hplain
    rw [foldCase_eq h, foldCase_eq h', (byteChar_injective.list_map.list_map) hplain]
  · rw [foldCase_eq h, foldCase_eq h', List.append_left_inj] at heq
    apply String.toList_inj.1
    rw [htext, htext', map_plainLabel, map_plainLabel, heq]

/-- `Ns.a` and `nS.A`. -/
theorem normalizeDnsName_injective_sample : ∃ name name' : DnsName, name ≠ name' ∧
    name.foldCase = name'.foldCase ∧ normalizeDnsName name = normalizeDnsName name' ∧
    ∀ label ∈ name.labels, ∀ b ∈ label, IsHostByte b := by
  let name : DnsName := ⟨[[0x4e, 0x73], [0x61], []]⟩
  let name' : DnsName := ⟨[[0x6e, 0x53], [0x41], []]⟩
  have h : name.IsAbsolute := ⟨[[0x4e, 0x73], [0x61]], rfl, by decide⟩
  have h' : name'.IsAbsolute := ⟨[[0x6e, 0x53], [0x41]], rfl, by decide⟩
  have hlive : liveDnsQnameSupported (normalizeDnsName name) "A" := by decide +kernel
  have hlive' : liveDnsQnameSupported (normalizeDnsName name') "MX" := by decide +kernel
  have hfold : name.foldCase = name'.foldCase := by decide
  obtain ⟨hiff, hbytes⟩ := normalizeDnsName_injective h h' hlive hlive'
  exact ⟨name, name', by decide, hfold, hiff.2 hfold, hbytes⟩

end QubesSnitch
