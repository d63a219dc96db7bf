import QubesSnitch.Ui

/-!
# What a prompt line shows

Remote texts reach the prompt in seven fields.  Each of them goes through `safeText` before it is written, so that the
only terminal codes in a line are those of the module itself, and that what is left without them is one row of visible
characters and blanks (`packetLine_row`).
-/

namespace QubesSnitch

variable {ucd : UnicodeData} {getservbyport : GetServByPort} {config : PromptConfig} {request : PromptRequest}

/-! ### Terminal codes -/

/-- The terminal codes that the module writes. -/
def ansiCodes : List Text :=
  [reset, bold, defaultForeground, unknownSourceColor, darkNetKindColor, lightNetKindColor, encryptedProtocolColor,
    unencryptedProtocolColor, unlistedProtocolColor] ++ (darkLabelColors ++ lightLabelColors).map Prod.snd

def ansi : Marks CodePoint where
  escape := escape
  marks := ansiCodes
  escaped := by decide +kernel
  prefixFree := by decide +kernel

theorem mem_ansi {m : Text} : m ∈ ansi.marks ↔ m ∈ ansiCodes := Iff.rfl

theorem mem_ansi_of_getElem? {m : Text} (i : Nat) (h : ansiCodes[i]? = some m) : m ∈ ansi.marks :=
  List.mem_of_getElem? h

theorem reset_mem_ansi : reset ∈ ansi.marks := mem_ansi_of_getElem? 0 rfl

theorem defaultForeground_mem_ansi : defaultForeground ∈ ansi.marks := mem_ansi_of_getElem? 2 rfl

theorem unlistedProtocolColor_mem_ansi : unlistedProtocolColor ∈ ansi.marks := mem_ansi_of_getElem? 8 rfl

theorem dnsKindColor_mem_ansi (theme : Theme) : dnsKindColor theme ∈ ansi.marks := by
  cases theme with
  | dark => exact mem_ansi_of_getElem? 4 rfl
  | light => exact mem_ansi_of_getElem? 5 rfl

theorem dnsTrafficColor_mem_ansi (config : PromptConfig) (request : PromptRequest) :
    dnsTrafficColor config request ∈ ansi.marks := by
  unfold dnsTrafficColor
  split
  · exact dnsKindColor_mem_ansi _
  · exact unlistedProtocolColor_mem_ansi

theorem dnsColor_mem_ansi (config : PromptConfig) (request : PromptRequest) :
    dnsColor config request ∈ ansi.marks := by
  unfold dnsColor
  split
  · exact dnsKindColor_mem_ansi _
  · split
    · exact unlistedProtocolColor_mem_ansi
    · split_ifs
      · exact mem_ansi_of_getElem? 6 rfl
      · exact mem_ansi_of_getElem? 7 rfl
      · exact defaultForeground_mem_ansi

theorem protocolColor_mem_ansi (config : PromptConfig) (proto : Text) (port : Option Int) :
    protocolColor config proto port ∈ ansi.marks := by
  unfold protocolColor
  split_ifs
  · exact unlistedProtocolColor_mem_ansi
  · exact defaultForeground_mem_ansi
  · exact mem_ansi_of_getElem? 6 rfl
  · exact mem_ansi_of_getElem? 7 rfl
  · exact unlistedProtocolColor_mem_ansi

/-- The label of the source, if it has to be known, is one of Qubes. -/
def KnownLabel (request : PromptRequest) : Prop :=
  request.sourceUnknown ∨ sourceLabel request = text "unknown" ∨ sourceLabel request ∈ darkLabelColors.map Prod.fst

/-- Both palettes know the same labels. -/
theorem labelColors_keys (theme : Theme) : theme.labelColors.map Prod.fst = darkLabelColors.map Prod.fst := by
  cases theme with
  | dark => rfl
  | light => simp only [Theme.labelColors, lightLabelColors, darkLabelColors, List.map_cons, List.map_nil]

theorem labelColors_mem_ansi {theme : Theme} {color : Text} (h : color ∈ theme.labelColors.map Prod.snd) :
    color ∈ ansi.marks := by
  rw [mem_ansi, ansiCodes, List.map_append, List.mem_append, List.mem_append]
  cases theme with
  | dark => exact .inr (.inl h)
  | light => exact .inr (.inr h)

theorem labelColor_mem_ansi {theme : Theme} {label color : Text} (h : labelColor theme label = .ok color) :
    color ∈ ansi.marks := by
  unfold labelColor at h
  split at h
  · cases h
    exact defaultForeground_mem_ansi
  · split at h
    · rename_i found hfound
      cases h
      obtain ⟨before, after, htable, -⟩ := List.lookup_eq_some_iff.1 hfound
      have hmem : color ∈ theme.labelColors.map Prod.snd := by simp [htable]
      exact labelColors_mem_ansi hmem
    · cases h

theorem labelColor_known (theme : Theme) {label : Text}
    (h : label = text "unknown" ∨ label ∈ darkLabelColors.map Prod.fst) :
    ∃ color ∈ ansi.marks, labelColor theme label = .ok color := by
  by_cases hunknown : label = text "unknown"
  · exact ⟨defaultForeground, defaultForeground_mem_ansi, if_pos hunknown⟩
  · have hkeys := h.resolve_left hunknown
    rw [← labelColors_keys theme] at hkeys
    obtain ⟨entry, hentry, hkey⟩ := List.mem_map.1 hkeys
    have hsome : (theme.labelColors.lookup label).isSome :=
      List.lookup_isSome_iff.2 ⟨entry, hentry, beq_iff_eq.2 hkey.symm⟩
    obtain ⟨color, hlookup⟩ := Option.isSome_iff_exists.1 hsome
    have hcolor : labelColor theme label = .ok color := by rw [labelColor, if_neg hunknown, hlookup]
    exact ⟨color, labelColor_mem_ansi hcolor, hcolor⟩

/-! ### Rows of visible characters -/

/-- The line ends of `str.splitlines`. -/
def isLineEnd (c : CodePoint) : Bool :=
  (10 ≤ c.val ∧ c.val ≤ 13) || (28 ≤ c.val ∧ c.val ≤ 30) || c.val ∈ [0x85, 0x2028, 0x2029]

/-- One line without characters of category C, whose only whitespace is the space character. -/
structure IsPromptRow (ucd : UnicodeData) (s : Text) : Prop where
  oneLine : ∀ c ∈ s, isLineEnd c = false
  plain : ∀ c ∈ s, (ucd.category c).isOther = false
  blanks : ∀ c ∈ s, isspace c → c = blank

theorem isspace_of_isLineEnd {c : CodePoint} (h : isLineEnd c) : isspace c := by
  simp only [isLineEnd, isspace, Bool.or_eq_true, decide_eq_true_eq, List.mem_cons, List.not_mem_nil, or_false] at h ⊢
  omega

theorem IsPromptRow.intro {s : Text} (hplain : ∀ c ∈ s, (ucd.category c).isOther = false)
    (hblanks : ∀ c ∈ s, isspace c → c = blank) : IsPromptRow ucd s where
  oneLine c hc := by
    have hblank : isLineEnd blank = false := by decide
    refine Bool.eq_false_iff.2 fun hend => ?_
    rw [hblanks c hc (isspace_of_isLineEnd hend), hblank] at hend
    cases hend
  plain := hplain
  blanks := hblanks

theorem IsPromptRow.append {s t : Text} (hs : IsPromptRow ucd s) (ht : IsPromptRow ucd t) :
    IsPromptRow ucd (s ++ t) :=
  .intro (List.forall_mem_append.2 ⟨hs.plain, ht.plain⟩) (List.forall_mem_append.2 ⟨hs.blanks, ht.blanks⟩)

theorem IsPromptRow.escape_notMem {s : Text} (h : IsPromptRow ucd s) : escape ∉ s := by
  intro hmem
  have := h.plain escape hmem
  rw [escape_not_plain] at this
  cases this

theorem IsSafeText.isPromptRow {limit : Int} {s : Text} (h : IsSafeText ucd limit s) : IsPromptRow ucd s :=
  .intro h.plain h.spaced.blanks

theorem isPromptRow_blanks (n : Nat) : IsPromptRow ucd (blanks n) := by
  refine .intro (fun c hc => ?_) (fun c hc _ => List.eq_of_mem_replicate hc)
  rw [List.eq_of_mem_replicate hc]
  exact blank_plain

theorem isPromptRow_padded {s : Text} (h : IsPromptRow ucd s) (width : Nat) : IsPromptRow ucd (padded s width) :=
  h.append (isPromptRow_blanks _)

/-- Printable ASCII is visible. -/
theorem isPromptRow_of_printable {s : Text} (h : ∀ c ∈ s, 0x20 ≤ c.val ∧ c.val < 0x7f) : IsPromptRow ucd s := by
  refine .intro (fun c hc => ucd.printable c (h c hc).1 (h c hc).2) fun c hc hspace => ?_
  have hrange := h c hc
  simp only [isspace, Bool.or_eq_true, decide_eq_true_eq, List.mem_cons, List.not_mem_nil, or_false] at hspace
  have hval : c.val = blank.val := by
    change c.val = 32
    omega
  cases c
  cases hval
  rfl

theorem isPromptRow_text {s : String} (h : s.toList.all fun c => 0x20 ≤ c.toNat && c.toNat < 0x7f) :
    IsPromptRow ucd (text s) := by
  refine isPromptRow_of_printable fun c hc => ?_
  obtain ⟨a, ha, rfl⟩ := List.mem_map.1 hc
  have hrange := List.all_eq_true.1 h a ha
  simp only [Bool.and_eq_true, decide_eq_true_eq] at hrange
  exact hrange

theorem isPromptRow_decimal (n : Nat) : IsPromptRow ucd ((Py.decimal n).map codePoint) := by
  refine isPromptRow_of_printable fun c hc => ?_
  obtain ⟨a, ha, rfl⟩ := List.mem_map.1 hc
  have h := Py.isDigit_of_mem_decimal ha
  simp only [Char.isDigit, Bool.and_eq_true, decide_eq_true_eq] at h
  have hlow : 48 ≤ (codePoint a).val := h.1
  have hhigh : (codePoint a).val ≤ 57 := h.2
  omega

/-- The text of a number is digits, after a sign at most. -/
theorem isPromptRow_intText (n : Int) : IsPromptRow ucd (intText n) := by
  unfold intText
  split
  · exact (isPromptRow_text (s := "-") (by decide)).append (isPromptRow_decimal n.natAbs)
  · exact isPromptRow_decimal n.natAbs

/-! ### Cells -/

/-- The text shows as one row. -/
def ShowsRow (ucd : UnicodeData) (s : Text) : Prop := ∃ v, ansi.Shows s v ∧ IsPromptRow ucd v

theorem ShowsRow.append {s t : Text} (hs : ShowsRow ucd s) (ht : ShowsRow ucd t) : ShowsRow ucd (s ++ t) := by
  obtain ⟨v, hv, hrow⟩ := hs
  obtain ⟨w, hw, hrow'⟩ := ht
  exact ⟨v ++ w, hv.append hw, hrow.append hrow'⟩

theorem ShowsRow.mark {m : Text} (hm : m ∈ ansi.marks) : ShowsRow ucd m := ⟨[], .mark hm, .intro (by simp) (by simp)⟩

theorem IsPromptRow.showsRow {s : Text} (h : IsPromptRow ucd s) : ShowsRow ucd s := ⟨s, .plain h.escape_notMem, h⟩

theorem showsRow_safeText (value : Text) : ShowsRow ucd (safeText ucd maxDisplayText value) :=
  (safeText_isSafe (by decide) value).isPromptRow.showsRow

theorem showsRow_columnGap : ShowsRow ucd columnGap :=
  (isPromptRow_text (s := " ") (by decide)).showsRow

theorem showsRow_colorCell (value : Text) (width : Nat) {color : Text} (hcolor : color ∈ ansi.marks) :
    ShowsRow ucd (colorCell ucd value width color) :=
  (((ShowsRow.mark hcolor).append (showsRow_safeText value)).append (.mark reset_mem_ansi)).append
    (isPromptRow_blanks _).showsRow

theorem showsRow_coloredSource (ucd : UnicodeData) (hlabel : KnownLabel request) (theme : Theme)
    (widths : PromptWidths) :
    ∃ source, coloredSource ucd request theme widths = .ok source ∧ ShowsRow ucd source := by
  have hcell : ShowsRow ucd
      (padded (safeText ucd maxDisplayText (request.displaySource.getD request.source)) widths.source) :=
    (isPromptRow_padded (safeText_isSafe (by decide) _).isPromptRow _).showsRow
  unfold coloredSource
  by_cases hunknown : request.sourceUnknown
  · simp only [hunknown, if_true]
    exact ⟨_, rfl, ((ShowsRow.mark (mem_ansi_of_getElem? 3 rfl)).append hcell).append (.mark reset_mem_ansi)⟩
  · obtain ⟨color, hcolor, heq⟩ := labelColor_known theme (hlabel.resolve_left hunknown)
    simp only [hunknown, heq]
    exact ⟨_, rfl, ((ShowsRow.mark hcolor).append hcell).append (.mark reset_mem_ansi)⟩

/-- The colours of the cells are terminal codes of the module. -/
structure PromptFields.Coloured (fields : PromptFields) : Prop where
  target : fields.targetColor ∈ ansi.marks
  dns : fields.dnsColor ∈ ansi.marks
  service : fields.serviceColor ∈ ansi.marks

theorem showsRow_firstLine {fields : PromptFields} {source : Text} (hfields : fields.Coloured)
    (hsource : ShowsRow ucd source) : ShowsRow ucd (firstLine ucd config request fields source) := by
  have hgap : ShowsRow ucd columnGap := showsRow_columnGap
  have hremaining : ShowsRow ucd (padded (intText (request.remaining.getD 0 + 1)) config.promptColumnWidths.queue) :=
    (isPromptRow_padded (isPromptRow_intText _) _).showsRow
  have hcell : ∀ value width color, color ∈ ansi.marks → ShowsRow ucd (colorCell ucd value width color) :=
    fun value width _ hcolor => showsRow_colorCell value width hcolor
  unfold firstLine
  exact ((((((((hremaining.append hgap).append hsource).append hgap).append (hcell _ _ _ hfields.target)).append
    hgap).append (hcell _ _ _ hfields.dns)).append hgap).append (hcell _ _ _ hfields.service)).append hgap

theorem serviceLabel_cases (getservbyport : GetServByPort) (proto : Text) (port : Option Int) :
    (∃ label, serviceLabel getservbyport proto port = .ok label) ∨
      ∃ error, proto ≠ text "icmp" ∧ serviceName getservbyport proto port = .error error ∧
        serviceLabel getservbyport proto port = .error error := by
  unfold serviceLabel
  split
  · exact .inl ⟨_, rfl⟩
  case isFalse hproto =>
    cases hname : serviceName getservbyport proto port with
    | error error => exact .inr ⟨error, hproto, rfl, rfl⟩
    | ok name =>
      refine .inl ?_
      simp only [bind, Except.bind]
      split <;> exact ⟨_, rfl⟩

/-- The fields of a question; what may raise is the lookup of its service. -/
theorem promptFields_cases (ucd : UnicodeData) (getservbyport : GetServByPort) (config : PromptConfig)
    (request : PromptRequest) :
    (∃ fields, promptFields ucd getservbyport config request = .ok fields ∧ fields.Coloured) ∨
      ∃ proto dport error, request.question = .flow proto dport ∧ proto ≠ text "icmp" ∧
        serviceName getservbyport proto (requestPortText dport) = .error error ∧
        promptFields ucd getservbyport config request = .error error := by
  unfold promptFields
  split
  · have hcolor := dnsTrafficColor_mem_ansi config request
    exact .inl ⟨_, rfl, hcolor, hcolor, hcolor⟩
  case h_2 proto dport hquestion =>
    split
    case isTrue htransport =>
      have hport : requestPortText dport = dport := by
        simp only [isDnsTransport, Bool.and_eq_true, decide_eq_true_eq] at htransport
        rw [htransport.2]
        rfl
      have hcolor := dnsTrafficColor_mem_ansi config request
      rcases serviceLabel_cases getservbyport proto dport with ⟨label, heq⟩ | ⟨error, hproto, hname, heq⟩
      · rw [heq]
        exact .inl ⟨_, rfl, hcolor, hcolor, hcolor⟩
      · rw [heq]
        exact .inr ⟨proto, dport, error, hquestion, hproto, hport.symm ▸ hname, rfl⟩
    case isFalse =>
      dsimp only
      rcases serviceLabel_cases getservbyport proto (requestPortText dport) with
        ⟨label, heq⟩ | ⟨error, hproto, hname, heq⟩
      · rw [heq]
        exact .inl ⟨_, rfl, defaultForeground_mem_ansi, dnsColor_mem_ansi _ _, protocolColor_mem_ansi _ _ _⟩
      · rw [heq]
        exact .inr ⟨proto, dport, error, hquestion, hproto, hname, rfl⟩

/-- A prompt without resolved addresses shows as one row, whatever the remote texts are, and so does every cleaned text.
What may raise is the lookup of a service. -/
theorem packetLine_row (ucd : UnicodeData) (getservbyport : GetServByPort) (config : PromptConfig)
    (request : PromptRequest) (hlabel : KnownLabel request) (hsent : request.resolvedDests = none) :
    ((∃ line, packetLine ucd getservbyport request config = .ok line ∧ IsPromptRow ucd (ansi.remove line)) ∨
      ∃ proto dport error, request.question = .flow proto dport ∧ proto ≠ text "icmp" ∧
        serviceName getservbyport proto (requestPortText dport) = .error error ∧
        packetLine ucd getservbyport request config = .error error) ∧
    ∀ limit value, 3 ≤ limit → IsSafeText ucd limit (safeText ucd limit value) ∧
      safeText ucd limit (safeText ucd limit value) = safeText ucd limit value := by
  refine ⟨?_, fun limit value hlimit => ?_⟩
  case refine_2 =>
    have hsafe : IsSafeText ucd limit (safeText ucd limit value) := safeText_isSafe hlimit value
    exact ⟨hsafe, safeText_of_isSafe hsafe⟩
  unfold packetLine
  rcases promptFields_cases ucd getservbyport config request with
    ⟨fields, hfields, hcoloured⟩ | ⟨proto, dport, error, hquestion, hproto, hname, hfields⟩
  · obtain ⟨source, hsource, hshows⟩ :=
      showsRow_coloredSource ucd hlabel config.theme config.promptColumnWidths
    have haction : actionPrompt request = text "[a/r] " := by simp [actionPrompt, hsent]
    have hkeys : ShowsRow ucd (text "[a/r] ") := (isPromptRow_text (by decide)).showsRow
    obtain ⟨v, hv, hrow⟩ := (showsRow_firstLine hcoloured hshows).append hkeys
    refine .inl ⟨_, ?_, hv.remove.symm ▸ hrow⟩
    rw [hfields, hsource]
    simp only [bind, Except.bind, hsent, haction]
    rfl
  · rw [hfields]
    exact .inr ⟨proto, dport, error, hquestion, hproto, hname, rfl⟩

namespace Sample

/-- The printable ASCII characters that are no other punctuation. -/
def asciiRanges : List (Nat × Nat × Category) :=
  [(0x20, 0x20, .zs), (0x24, 0x24, .sc), (0x28, 0x28, .ps), (0x29, 0x29, .pe), (0x2b, 0x2b, .sm), (0x2d, 0x2d, .pd),
    (0x30, 0x39, .nd), (0x3c, 0x3e, .sm), (0x41, 0x5a, .lu), (0x5b, 0x5b, .ps), (0x5d, 0x5d, .pe), (0x5e, 0x5e, .sk),
    (0x5f, 0x5f, .pc), (0x60, 0x60, .sk), (0x61, 0x7a, .ll), (0x7b, 0x7b, .ps), (0x7c, 0x7c, .sm), (0x7d, 0x7d, .pe),
    (0x7e, 0x7e, .sm)]

def asciiCategory (n : Nat) : Category :=
  match asciiRanges.find? fun r => r.1 ≤ n && n ≤ r.2.1 with
  | some r => r.2.2
  | none => .po

/-- The categories of ASCII and of the direction marks; the other characters count as letters here. -/
def category (c : CodePoint) : Category :=
  if c.val < 0x20 ∨ 0x7f ≤ c.val ∧ c.val < 0xa0 then .cc
  else if c.val < 0x7f then asciiCategory c.val
  else if 0x202a ≤ c.val ∧ c.val ≤ 0x202e then .cf
  else .lo

theorem asciiCategory_isOther (n : Nat) : (asciiCategory n).isOther = false := by
  have htable : ∀ r ∈ asciiRanges, r.2.2.isOther = false := by decide
  unfold asciiCategory
  split
  case h_1 r hr => exact htable r (List.mem_of_find?_eq_some hr)
  case h_2 => rfl

def unicodeData : UnicodeData where
  category := category
  controls c := by
    have hascii : ∀ n, asciiCategory n ≠ .cc := fun n h => by simpa [h, Category.isOther] using asciiCategory_isOther n
    unfold category
    split_ifs with hcontrol hascii' hmark <;> simp [hcontrol, hascii]
  printable c hlow hhigh := by
    rw [category, if_neg (by omega), if_pos hhigh]
    exact asciiCategory_isOther _

def services : GetServByPort := fun port proto =>
  if port = 443 ∧ proto = text "tcp" then .ok (text "https") else .error (.osError (text "port/proto not found"))

def promptConfig : PromptConfig where
  theme := .dark
  promptColumnWidths := ⟨10, 18, 25, 42, 22, by decide, by decide, by decide, by decide, by decide⟩
  encrypted := [(text "tcp", text "443")]
  unencrypted := [(text "tcp", text "80")]

/-- A name that would clear the screen, turn the direction of the text and start a row of its own. -/
def hostileRequest : PromptRequest where
  source := text "browser"
  displaySource := none
  sourceUnknown := false
  sourceLabel := some (text "blue")
  dst := text "1.2.3.4"
  host := some (text "PTR a\x1b[2J\u202e\n1          browser")
  question := .flow (text "tcp") (some 443)
  remaining := some 0
  resolvedDests := none

theorem packetLine_row_hostile :
    ∃ line, packetLine unicodeData services hostileRequest promptConfig = .ok line ∧
      IsPromptRow unicodeData (ansi.remove line) := by
  rcases (packetLine_row unicodeData services promptConfig hostileRequest
    (.inr (.inr (by decide +kernel))) rfl).1 with h | ⟨proto, dport, error, hquestion, -, hname, -⟩
  · exact h
  · cases hquestion
    cases hname

end Sample

end QubesSnitch
