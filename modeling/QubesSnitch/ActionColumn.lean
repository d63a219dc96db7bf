import QubesSnitch.PromptLine

/-!
# The column of the keys

The keys of an answer stand at the end of a prompt, on its only row or on that of the last further address.  Cells that
are longer than their columns take room from the service cell, so that the keys stay in their column.  Where they really
start is a sum of lengths (`firstLine_cells`, `extraLine_cells`), and the sum is the expected one exactly when what the
service cell gives away is what the other cells of the row are shown to take (`packetLine_aligned_iff`).  On the row of a
further address the DNS cell is empty, but the service cell still gives room for its overflow.
-/

namespace QubesSnitch

variable {ucd : UnicodeData} {getservbyport : GetServByPort} {config : PromptConfig} {request : PromptRequest}

/-! ### Rows -/

/-- What stands after the last line end. -/
def lastRow (s : Text) : Text := (s.reverse.takeWhile fun c => !isLineEnd c).reverse

/-- In the visible text, the last row has the keys, after `column` characters. -/
def ActionAt (line action : Text) (column : Nat) : Prop :=
  ∃ cells, lastRow (ansi.remove line) = cells ++ action ∧ cells.length = column

theorem lastRow_of_row {s : Text} (h : IsPromptRow ucd s) : lastRow s = s := by
  have hall : ∀ c ∈ s.reverse, (!isLineEnd c) = true := fun c hc => by rw [h.oneLine c (List.mem_reverse.1 hc)]; rfl
  rw [lastRow, List.takeWhile_eq_self_iff.2 hall, List.reverse_reverse]

/-- A row after a line end is the last one. -/
theorem lastRow_append_row {s t : Text} {c : CodePoint} (hc : isLineEnd c) (ht : IsPromptRow ucd t) :
    lastRow (s ++ c :: t) = t := by
  have hall : ∀ d ∈ t.reverse, (!isLineEnd d) = true := fun d hd => by rw [ht.oneLine d (List.mem_reverse.1 hd)]; rfl
  have hreverse : (s ++ c :: t).reverse = t.reverse ++ c :: s.reverse := by simp
  rw [lastRow, hreverse, List.takeWhile_append_of_pos hall, List.takeWhile_cons_of_neg (by simp [hc]), List.append_nil,
    List.reverse_reverse]

/-- The keys are in one place only. -/
theorem actionAt_iff {line action cells : Text} (h : lastRow (ansi.remove line) = cells ++ action) (column : Nat) :
    ActionAt line action column ↔ cells.length = column := by
  constructor
  · rintro ⟨cells', hcells, hlength⟩
    rw [h] at hcells
    rw [List.append_cancel_right hcells, hlength]
  · exact fun hlength => ⟨cells, h, hlength⟩

/-! ### Cells -/

@[simp] theorem length_blanks (n : Nat) : (blanks n).length = n := List.length_replicate

@[simp] theorem length_padded (value : Text) (width : Nat) : (padded value width).length = max value.length width := by
  rw [padded, List.length_append, length_blanks]
  omega

@[simp] theorem length_columnGap : columnGap.length = 1 := rfl

theorem shows_colorCell (ucd : UnicodeData) (value : Text) (width : Nat) {color : Text} (hcolor : color ∈ ansi.marks) :
    ansi.Shows (colorCell ucd value width color) (padded (safeText ucd maxDisplayText value) width) := by
  have hvalue : IsPromptRow ucd (safeText ucd maxDisplayText value) := (safeText_isSafe (by decide) value).isPromptRow
  have hblanks : ∀ n, IsPromptRow ucd (blanks n) := isPromptRow_blanks
  have h := (((Marks.Shows.mark hcolor).append (.plain hvalue.escape_notMem)).append (.mark reset_mem_ansi)).append
    (.plain (hblanks (width - (safeText ucd maxDisplayText value).length)).escape_notMem)
  simpa [colorCell, padded] using h

theorem shows_coloredSource {source : Text} {theme : Theme} {widths : PromptWidths}
    (h : coloredSource ucd request theme widths = .ok source) :
    ansi.Shows source (padded (safeText ucd maxDisplayText (request.displaySource.getD request.source)) widths.source) := by
  have hcell : IsPromptRow ucd
      (padded (safeText ucd maxDisplayText (request.displaySource.getD request.source)) widths.source) :=
    isPromptRow_padded (safeText_isSafe (by decide) _).isPromptRow _
  have hcolored : ∀ color ∈ ansi.marks, ansi.Shows
      (color ++ padded (safeText ucd maxDisplayText (request.displaySource.getD request.source)) widths.source ++ reset)
      (padded (safeText ucd maxDisplayText (request.displaySource.getD request.source)) widths.source) := by
    intro color hcolor
    simpa using ((Marks.Shows.mark hcolor).append (.plain hcell.escape_notMem)).append (.mark reset_mem_ansi)
  unfold coloredSource at h
  dsimp only at h
  split at h
  · cases h
    exact hcolored _ (mem_ansi_of_getElem? 3 rfl)
  · obtain ⟨color, hcolor, h⟩ := Except.exists_of_bind_eq_ok h
    cases h
    exact hcolored color (labelColor_mem_ansi hcolor)

/-! ### Lines -/

/-- The first row before its service cell. -/
def leadingCells (ucd : UnicodeData) (config : PromptConfig) (request : PromptRequest) (fields : PromptFields)
    (source : Text) : Text :=
  padded (intText (request.remaining.getD 0 + 1)) config.promptColumnWidths.queue ++ columnGap ++
    source ++ columnGap ++
    colorCell ucd fields.target config.promptColumnWidths.target fields.targetColor ++ columnGap ++
    colorCell ucd fields.dns config.promptColumnWidths.dns fields.dnsColor ++ columnGap

/-- The visible text of the first row before its service cell. -/
def shownLeading (ucd : UnicodeData) (widths : PromptWidths) (request : PromptRequest) (fields : PromptFields) : Text :=
  padded (intText (request.remaining.getD 0 + 1)) widths.queue ++ columnGap ++
    padded (safeText ucd maxDisplayText (request.displaySource.getD request.source)) widths.source ++ columnGap ++
    padded (safeText ucd maxDisplayText fields.target) widths.target ++ columnGap ++
    padded (safeText ucd maxDisplayText fields.dns) widths.dns ++ columnGap

/-- The visible text of the first row, without the keys. -/
def shownLine (ucd : UnicodeData) (widths : PromptWidths) (request : PromptRequest) (fields : PromptFields) : Text :=
  shownLeading ucd widths request fields ++ padded (safeText ucd maxDisplayText fields.service)
    (serviceWidth widths fields.target fields.dns fields.service) ++ columnGap

theorem firstLine_eq (config : PromptConfig) (request : PromptRequest) (fields : PromptFields) (source : Text) :
    firstLine ucd config request fields source = leadingCells ucd config request fields source ++
      colorCell ucd fields.service (serviceWidth config.promptColumnWidths fields.target fields.dns fields.service)
        fields.serviceColor ++ columnGap := rfl

theorem isPromptRow_columnGap : IsPromptRow ucd columnGap := isPromptRow_text (s := " ") (by decide)

theorem shows_leadingCells {fields : PromptFields} {source : Text} (hfields : fields.Coloured)
    (hsource : coloredSource ucd request config.theme config.promptColumnWidths = .ok source) :
    ansi.Shows (leadingCells ucd config request fields source)
      (shownLeading ucd config.promptColumnWidths request fields) := by
  have hgap : ansi.Shows columnGap columnGap := .plain (@isPromptRow_columnGap ucd).escape_notMem
  have hqueue : ansi.Shows (padded (intText (request.remaining.getD 0 + 1)) config.promptColumnWidths.queue)
      (padded (intText (request.remaining.getD 0 + 1)) config.promptColumnWidths.queue) :=
    .plain (isPromptRow_padded (@isPromptRow_intText ucd _) _).escape_notMem
  unfold leadingCells shownLeading
  exact ((((((hqueue.append hgap).append (shows_coloredSource hsource)).append hgap).append
    (shows_colorCell ucd _ _ hfields.target)).append hgap).append (shows_colorCell ucd _ _ hfields.dns)).append hgap

theorem shows_firstLine {fields : PromptFields} {source : Text} (hfields : fields.Coloured)
    (hsource : coloredSource ucd request config.theme config.promptColumnWidths = .ok source) :
    ansi.Shows (firstLine ucd config request fields source)
      (shownLine ucd config.promptColumnWidths request fields) := by
  have hgap : ansi.Shows columnGap columnGap := .plain (@isPromptRow_columnGap ucd).escape_notMem
  rw [firstLine_eq]
  exact ((shows_leadingCells hfields hsource).append (shows_colorCell ucd _ _ hfields.service)).append hgap

theorem isPromptRow_shownLine (widths : PromptWidths) (request : PromptRequest) (fields : PromptFields) :
    IsPromptRow ucd (shownLine ucd widths request fields) := by
  have hgap : IsPromptRow ucd columnGap := isPromptRow_columnGap
  have hqueue : IsPromptRow ucd (padded (intText (request.remaining.getD 0 + 1)) widths.queue) :=
    isPromptRow_padded (isPromptRow_intText _) _
  have hcell : ∀ value width, IsPromptRow ucd (padded (safeText ucd maxDisplayText value) width) :=
    fun value width => isPromptRow_padded (safeText_isSafe (by decide) value).isPromptRow width
  unfold shownLine shownLeading
  exact ((((((((hqueue.append hgap).append (hcell _ _)).append hgap).append (hcell _ _)).append hgap).append
    (hcell _ _)).append hgap).append (hcell _ _)).append hgap

/-- Blanks at the end are stripped up to a character that is none. -/
theorem rstrip_append {s t : Text} {c : CodePoint} (hc : isspace c = false) (ht : ∀ d ∈ t, isspace d) :
    rstrip (s ++ [c] ++ t) = s ++ [c] := by
  have hreverse : (s ++ [c] ++ t).reverse = t.reverse ++ c :: s.reverse := by simp
  rw [rstrip, hreverse, List.dropWhile_append_of_pos fun d hd => ht d (List.mem_reverse.1 hd),
    List.dropWhile_cons_of_neg (by simp [hc])]
  simp

/-- The first row loses the blanks after the colour of its service cell. -/
theorem shows_rstrip_firstLine {fields : PromptFields} {source : Text} (hfields : fields.Coloured)
    (hsource : coloredSource ucd request config.theme config.promptColumnWidths = .ok source) :
    ∃ v, ansi.Shows (rstrip (firstLine ucd config request fields source)) v := by
  have hservice : IsPromptRow ucd (safeText ucd maxDisplayText fields.service) :=
    (safeText_isSafe (by decide) fields.service).isPromptRow
  -- What `rstrip` meets first is the last character of the code that ends the colour.
  have hreset : reset = text "\x1b[0" ++ [codePoint 'm'] := by decide
  have hblank : isspace blank = true := by decide
  have hblanks : ∀ n, ∀ d ∈ blanks n ++ columnGap, isspace d := by
    intro n d hd
    rcases List.mem_append.1 hd with hd | hd
    · rw [List.eq_of_mem_replicate hd, hblank]
    · rw [List.mem_singleton.1 hd]
      exact hblank
  have hstrip : rstrip (firstLine ucd config request fields source) =
      leadingCells ucd config request fields source ++ fields.serviceColor ++
        safeText ucd maxDisplayText fields.service ++ reset := by
    have h := rstrip_append (s := leadingCells ucd config request fields source ++ fields.serviceColor ++
      safeText ucd maxDisplayText fields.service ++ text "\x1b[0") (c := codePoint 'm') (by decide)
      (hblanks (serviceWidth config.promptColumnWidths fields.target fields.dns fields.service -
        (safeText ucd maxDisplayText fields.service).length))
    rw [firstLine_eq, colorCell, hreset]
    simpa [List.append_assoc] using h
  rw [hstrip]
  exact ⟨_, (((shows_leadingCells hfields hsource).append (.mark hfields.service)).append
    (.plain hservice.escape_notMem)).append (.mark reset_mem_ansi)⟩

theorem isPromptRow_actionPrompt (request : PromptRequest) : IsPromptRow ucd (actionPrompt request) := by
  unfold actionPrompt
  split
  · exact isPromptRow_text (by decide)
  · exact isPromptRow_text (by decide)

/-- The row of a further address, without the keys. -/
def extraCells (widths : PromptWidths) (fields : PromptFields) (ip : Text) : Text :=
  continuationPrefix widths ++ ip ++ blanks (actionPadding widths ip fields.dns fields.service)

theorem isPromptRow_extraCells (widths : PromptWidths) (fields : PromptFields) {ip : Text} (hip : IsPromptRow ucd ip) :
    IsPromptRow ucd (extraCells widths fields ip) := by
  have hgap : IsPromptRow ucd columnGap := isPromptRow_columnGap
  have hempty : ∀ width, IsPromptRow ucd (padded [] width) :=
    fun width => isPromptRow_padded (.intro (by simp) (by simp)) width
  exact (((((hempty _).append hgap).append (hempty _)).append hgap).append hip).append (isPromptRow_blanks _)

/-- The further rows end in the row of the last address, with the keys. -/
theorem extraLines_append (widths : PromptWidths) (request : PromptRequest) (fields : PromptFields) (before : List Text)
    (ip : Text) : ∃ rows, extraLines widths request fields (before ++ [ip]) =
      rows ++ [extraCells widths fields ip ++ actionPrompt request] ∧
      ∀ row ∈ rows, ∃ ip' ∈ before, row = extraCells widths fields ip' := by
  have hlast : (before ++ [ip]).length - 1 = before.length := by simp
  refine ⟨before.zipIdx.map fun e => extraCells widths fields e.1, ?_, fun row hrow => ?_⟩
  · unfold extraLines
    rw [hlast, List.zipIdx_append, List.map_append]
    congr 1
    · refine List.map_congr_left fun e he => ?_
      have hindex := List.snd_lt_of_mem_zipIdx he
      have hne : e.2 ≠ before.length := by omega
      simp [extraCells, hne]
    · simp [extraCells]
  · obtain ⟨e, he, rfl⟩ := List.mem_map.1 hrow
    exact ⟨e.1, List.fst_mem_of_mem_zipIdx he, rfl⟩

/-! ### Where the keys start -/

/-- The addresses that get rows of their own. -/
def furtherAddresses (request : PromptRequest) (target : Text) : List Text :=
  (request.resolvedDests.getD []).filter (· ≠ target)

section Line

variable {fields : PromptFields} {line : Text}

theorem coloured_of_promptFields (hfields : promptFields ucd getservbyport config request = .ok fields) :
    fields.Coloured := by
  rcases promptFields_cases ucd getservbyport config request with
    ⟨found, hfound, hcoloured⟩ | ⟨_, _, _, _, _, _, herror⟩
  · rw [hfound] at hfields
    cases hfields
    exact hcoloured
  · rw [herror] at hfields
    cases hfields

/-- The text of a prompt: the first row and the keys, or the stripped first row and the further rows. -/
theorem packetLine_ok (hfields : promptFields ucd getservbyport config request = .ok fields)
    (hline : packetLine ucd getservbyport request config = .ok line) :
    ∃ source, coloredSource ucd request config.theme config.promptColumnWidths = .ok source ∧
      line = if furtherAddresses request fields.target = [] then
          firstLine ucd config request fields source ++ actionPrompt request
        else rstrip (firstLine ucd config request fields source) ++ text "\n" ++ (text "\n").intercalate
          (extraLines config.promptColumnWidths request fields (furtherAddresses request fields.target)) := by
  unfold packetLine at hline
  obtain ⟨found, hfound, hline⟩ := Except.exists_of_bind_eq_ok hline
  obtain rfl : found = fields := Except.ok.inj (hfound.symm.trans hfields)
  obtain ⟨source, hsource, hline⟩ := Except.exists_of_bind_eq_ok hline
  refine ⟨source, hsource, ?_⟩
  dsimp only at hline
  split at hline
  case isTrue hnone =>
    have hnone : furtherAddresses request found.target = [] := List.isEmpty_iff.1 hnone
    rw [if_pos hnone]
    exact (Except.ok.inj hline).symm
  case isFalse hsome =>
    have hsome : furtherAddresses request found.target ≠ [] := fun h => hsome (List.isEmpty_iff.2 h)
    rw [if_neg hsome]
    exact (Except.ok.inj hline).symm

/-- Without further addresses the keys follow the cells of the first row. -/
theorem lastRow_firstLine (hfields : promptFields ucd getservbyport config request = .ok fields)
    (hline : packetLine ucd getservbyport request config = .ok line) (hnone : furtherAddresses request fields.target = []) :
    lastRow (ansi.remove line) = shownLine ucd config.promptColumnWidths request fields ++ actionPrompt request := by
  obtain ⟨source, hsource, rfl⟩ := packetLine_ok hfields hline
  have haction : IsPromptRow ucd (actionPrompt request) := isPromptRow_actionPrompt request
  have hshows := (shows_firstLine (coloured_of_promptFields hfields) hsource).append (.plain haction.escape_notMem)
  rw [if_pos hnone, hshows.remove]
  exact lastRow_of_row ((isPromptRow_shownLine _ request fields).append haction)

/-- Rows below another row end in the last one, behind a line end. -/
theorem newline_intercalate (rows : List Text) (last : Text) (hrows : ∀ row ∈ rows, escape ∉ row) :
    ∃ front, text "\n" ++ (text "\n").intercalate (rows ++ [last]) = front ++ codePoint '\n' :: last ∧
      escape ∉ front := by
  induction rows with
  | nil => exact ⟨[], by simp [text], by simp⟩
  | cons row rows ih =>
    obtain ⟨front, hfront, hescape⟩ := ih fun r hr => hrows r (List.mem_cons_of_mem _ hr)
    refine ⟨text "\n" ++ row ++ front, ?_, ?_⟩
    · rw [List.cons_append, List.intercalate_cons_of_ne_nil (by simp), List.append_assoc, hfront]
      simp
    · have hnewline : escape ∉ text "\n" := by decide
      simp only [List.mem_append, not_or]
      exact ⟨⟨hnewline, hrows row List.mem_cons_self⟩, hescape⟩

/-- The row of the last further address has the keys. -/
theorem lastRow_extraLine (hfields : promptFields ucd getservbyport config request = .ok fields)
    (hline : packetLine ucd getservbyport request config = .ok line) {before : List Text} {ip : Text}
    (hfurther : furtherAddresses request fields.target = before ++ [ip])
    (hrows : ∀ x ∈ before ++ [ip], IsPromptRow ucd x) :
    lastRow (ansi.remove line) = extraCells config.promptColumnWidths fields ip ++ actionPrompt request := by
  obtain ⟨source, hsource, rfl⟩ := packetLine_ok hfields hline
  obtain ⟨v, hv⟩ := shows_rstrip_firstLine (coloured_of_promptFields hfields) hsource
  obtain ⟨rows, hextra, hbefore⟩ :=
    extraLines_append config.promptColumnWidths request fields before ip
  have hlast : IsPromptRow ucd (extraCells config.promptColumnWidths fields ip ++ actionPrompt request) :=
    (isPromptRow_extraCells _ fields (hrows ip (by simp))).append (isPromptRow_actionPrompt request)
  have hescape : ∀ row ∈ rows, escape ∉ row := by
    intro row hrow
    obtain ⟨x, hx, rfl⟩ := hbefore row hrow
    exact (@isPromptRow_extraCells ucd _ fields _ (hrows x (List.mem_append_left _ hx))).escape_notMem
  obtain ⟨front, hfront, hplain⟩ := newline_intercalate rows
    (extraCells config.promptColumnWidths fields ip ++ actionPrompt request) hescape
  have hbelow : escape ∉ codePoint '\n' :: (extraCells config.promptColumnWidths fields ip ++ actionPrompt request) := by
    have hnewline : escape ≠ codePoint '\n' := by decide
    rw [List.mem_cons, not_or]
    exact ⟨hnewline, hlast.escape_notMem⟩
  have hshows := (hv.append (.plain hplain)).append (.plain hbelow)
  rw [hfurther, if_neg (by simp), hextra, List.append_assoc, hfront, ← List.append_assoc, hshows.remove]
  exact lastRow_append_row (by decide) hlast

end Line

/-- How far target and DNS name are longer than their columns. -/
def overflow (widths : PromptWidths) (target dns : Text) : Nat :=
  (target.length - widths.target) + (dns.length - widths.dns)

theorem length_shownLine {widths : PromptWidths} {fields : PromptFields}
    (hqueue : (intText (request.remaining.getD 0 + 1)).length ≤ widths.queue)
    (hsource : (safeText ucd maxDisplayText (request.displaySource.getD request.source)).length ≤ widths.source) :
    (shownLine ucd widths request fields).length = widths.queue + widths.source + widths.target + widths.dns +
      overflow widths (safeText ucd maxDisplayText fields.target) (safeText ucd maxDisplayText fields.dns) +
      max (safeText ucd maxDisplayText fields.service).length
        (serviceWidth widths fields.target fields.dns fields.service) + 5 := by
  simp only [shownLine, shownLeading, List.length_append, length_padded, length_columnGap, overflow]
  omega

theorem length_extraCells {widths : PromptWidths} {fields : PromptFields} {ip : Text} (hip : ip.length ≤ widths.target) :
    (extraCells widths fields ip).length = widths.queue + widths.source + widths.target + widths.dns +
      serviceWidth widths ip fields.dns fields.service + 5 := by
  simp only [extraCells, continuationPrefix, actionPadding, List.length_append, length_padded, length_columnGap,
    length_blanks, List.length_nil]
  omega

/-! ### Aligned keys -/

/-- The queue count and the source fit their columns, the service cell has room for the overflow of target and DNS name
as they are shown, and the further addresses fit the target column. -/
structure CellsFit (ucd : UnicodeData) (widths : PromptWidths) (request : PromptRequest) (fields : PromptFields) :
    Prop where
  queue : (intText (request.remaining.getD 0 + 1)).length ≤ widths.queue
  source : (safeText ucd maxDisplayText (request.displaySource.getD request.source)).length ≤ widths.source
  service : overflow widths (safeText ucd maxDisplayText fields.target) (safeText ucd maxDisplayText fields.dns) +
    (safeText ucd maxDisplayText fields.service).length ≤ widths.service
  further : ∀ ip ∈ furtherAddresses request fields.target, IsPromptRow ucd ip ∧ ip.length ≤ widths.target

/-- The service text leaves room for the overflow that is shown, and either that overflow is the one that is counted, or
the service text takes all the room by itself. -/
def ServiceFills (widths : PromptWidths) (service : Text) (shown counted : Nat) : Prop :=
  service.length + shown ≤ widths.service ∧ (counted = shown ∨ service.length + shown = widths.service)

/-- Of the texts as they were received: on a single row, cleaning changes neither how far target and DNS name overflow
nor the room for the service; with further addresses, the DNS name fits its column. -/
def CountsRight (ucd : UnicodeData) (widths : PromptWidths) (request : PromptRequest) (fields : PromptFields) : Prop :=
  if furtherAddresses request fields.target = [] then
    ServiceFills widths fields.service
      (overflow widths (safeText ucd maxDisplayText fields.target) (safeText ucd maxDisplayText fields.dns))
      (overflow widths fields.target fields.dns)
  else ServiceFills widths fields.service 0 (fields.dns.length - widths.dns)

theorem overflow_safeText_le (ucd : UnicodeData) (widths : PromptWidths) (target dns : Text) :
    overflow widths (safeText ucd maxDisplayText target) (safeText ucd maxDisplayText dns) ≤
      overflow widths target dns := by
  have htarget := @length_safeText_le ucd maxDisplayText (by decide) target
  have hdns := @length_safeText_le ucd maxDisplayText (by decide) dns
  unfold overflow
  omega

/-- Where the cells fit, the keys start in their column exactly when the room of the service cell is counted right. -/
theorem packetLine_aligned_iff {fields : PromptFields} {line : Text}
    (hfields : promptFields ucd getservbyport config request = .ok fields)
    (hline : packetLine ucd getservbyport request config = .ok line)
    (hfit : CellsFit ucd config.promptColumnWidths request fields) :
    ActionAt line (actionPrompt request) (config.promptColumnWidths.queue + config.promptColumnWidths.source +
      config.promptColumnWidths.target + config.promptColumnWidths.dns + config.promptColumnWidths.service + 5) ↔
      CountsRight ucd config.promptColumnWidths request fields := by
  unfold CountsRight
  by_cases hnone : furtherAddresses request fields.target = []
  · have hcounted := overflow_safeText_le ucd config.promptColumnWidths fields.target fields.dns
    have hservice := @length_safeText_le ucd maxDisplayText (by decide) fields.service
    have hroom := hfit.service
    have hwidth : serviceWidth config.promptColumnWidths fields.target fields.dns fields.service =
        max (config.promptColumnWidths.service - overflow config.promptColumnWidths fields.target fields.dns)
          fields.service.length := by
      rw [serviceWidth, overflow, Nat.sub_sub]
    rw [if_pos hnone, actionAt_iff (lastRow_firstLine hfields hline hnone),
      length_shownLine hfit.queue hfit.source, hwidth, ServiceFills]
    omega
  · obtain ⟨before, ip, hfurther⟩ : ∃ before ip, furtherAddresses request fields.target = before ++ [ip] :=
      ⟨_, _, (List.dropLast_concat_getLast hnone).symm⟩
    have hrows : ∀ x ∈ before ++ [ip], IsPromptRow ucd x := fun x hx => (hfit.further x (hfurther ▸ hx)).1
    have hip : ip.length ≤ config.promptColumnWidths.target := (hfit.further ip (by rw [hfurther]; simp)).2
    have hrange := config.promptColumnWidths.serviceRange
    rw [if_neg hnone, actionAt_iff (lastRow_extraLine hfields hline hfurther hrows), length_extraCells hip,
      serviceWidth, ServiceFills]
    omega

/-- The text of an address is a row. -/
theorem isPromptRow_address (x : IPv4) : IsPromptRow ucd (text x.text) := by
  have hdot : IsPromptRow ucd (text ".") := isPromptRow_text (by decide)
  have h := (isPromptRow_decimal x.a.toNat).append (hdot.append ((isPromptRow_decimal x.b.toNat).append
    (hdot.append ((isPromptRow_decimal x.c.toNat).append (hdot.append (isPromptRow_decimal x.d.toNat))))))
  simpa [text, IPv4.text, IPv4.chars] using h

/-- A line is written for a source with a known label. -/
theorem exists_packetLine {fields : PromptFields} (hlabel : KnownLabel request)
    (hfields : promptFields ucd getservbyport config request = .ok fields) :
    ∃ line, packetLine ucd getservbyport request config = .ok line := by
  obtain ⟨source, hsource, -⟩ := showsRow_coloredSource ucd hlabel config.theme config.promptColumnWidths
  unfold packetLine
  rw [hfields, hsource]
  simp only [bind, Except.bind]
  split <;> exact ⟨_, rfl⟩

namespace Sample

/-- A question about a web server that has another address. -/
def sharedRequest (host : String) : PromptRequest where
  source := text "browser"
  displaySource := none
  sourceUnknown := false
  sourceLabel := some (text "blue")
  dst := text "1.2.3.4"
  host := some (text host)
  question := .flow (text "tcp") (some 443)
  remaining := some 0
  resolvedDests := some [text "1.2.3.4", text "1.2.3.5"]

def sharedFields (host : String) : PromptFields where
  target := text "1.2.3.4"
  dns := safeText unicodeData maxDisplayText (text host)
  service := text "https 443/tcp"
  targetColor := defaultForeground
  dnsColor := dnsColor promptConfig (sharedRequest host)
  serviceColor := encryptedProtocolColor

theorem furtherAddresses_shared (host : String) :
    furtherAddresses (sharedRequest host) (sharedFields host).target = [text "1.2.3.5"] := by
  show [text "1.2.3.4", text "1.2.3.5"].filter (· ≠ text "1.2.3.4") = _
  decide +kernel

theorem promptFields_shared {host : String} (h : text host ≠ []) :
    promptFields unicodeData services promptConfig (sharedRequest host) = .ok (sharedFields host) := by
  have hlookup : qubesInternalDns.lookup (text "1.2.3.4") = none := by decide +kernel
  have hfilter : Option.filter (fun t : Text => decide (t ≠ [])) (some (text host)) = some (text host) := by
    rw [Option.filter_some, if_pos (by simpa using h)]
  have hdns : dnsText unicodeData (sharedRequest host) = safeText unicodeData maxDisplayText (text host) := by
    show (qubesInternalDns.lookup (text "1.2.3.4")).getD (hostText unicodeData (sharedRequest host)) = _
    rw [hlookup, hostText]
    show safeText unicodeData maxDisplayText ((Option.filter (fun t => decide (t ≠ [])) (some (text host))).getD _) = _
    rw [hfilter]
    rfl
  have hlabel : serviceLabel services (text "tcp") (some 443) = .ok (text "https 443/tcp") := rfl
  have hcolor : protocolColor promptConfig (text "tcp") (some 443) = encryptedProtocolColor := by decide +kernel
  show (serviceLabel services (text "tcp") (some 443) >>= fun label => pure (PromptFields.mk (text "1.2.3.4")
    (dnsText unicodeData (sharedRequest host)) label defaultForeground (dnsColor promptConfig (sharedRequest host))
    (protocolColor promptConfig (text "tcp") (some 443)))) = _
  rw [hdns, hlabel, hcolor]
  rfl

theorem cellsFit_shared {host : String}
    (hhost : (safeText unicodeData maxDisplayText (safeText unicodeData maxDisplayText (text host))).length ≤ 51) :
    CellsFit unicodeData promptConfig.promptColumnWidths (sharedRequest host) (sharedFields host) := by
  have hservice : (safeText unicodeData maxDisplayText (text "https 443/tcp")).length = 13 := by decide +kernel
  have htarget : (safeText unicodeData maxDisplayText (text "1.2.3.4")).length = 7 := by decide +kernel
  refine ⟨?_, ?_, ?_, ?_⟩
  · show (intText 1).length ≤ 10
    decide +kernel
  · show (safeText unicodeData maxDisplayText (text "browser")).length ≤ 18
    decide +kernel
  · simp only [sharedFields, overflow, promptConfig, hservice, htarget]
    omega
  · rw [furtherAddresses_shared]
    intro ip hip
    rw [List.mem_singleton.1 hip]
    exact ⟨isPromptRow_text (by decide), by decide⟩

theorem knownLabel_shared (host : String) : KnownLabel (sharedRequest host) := by
  refine .inr (.inr ?_)
  show text "blue" ∈ darkLabelColors.map Prod.fst
  decide +kernel

/-- The keys stay in their column below a name that fits its own. -/
theorem packetLine_aligned_short : ∃ line,
    packetLine unicodeData services (sharedRequest "A www.example.com") promptConfig = .ok line ∧
      ActionAt line (actionPrompt (sharedRequest "A www.example.com")) 122 := by
  have hfields : promptFields unicodeData services promptConfig (sharedRequest "A www.example.com") =
      .ok (sharedFields "A www.example.com") := promptFields_shared (by decide)
  obtain ⟨line, hline⟩ := exists_packetLine (knownLabel_shared _) hfields
  refine ⟨line, hline, (packetLine_aligned_iff hfields hline (cellsFit_shared (by decide +kernel))).2 ?_⟩
  rw [CountsRight, furtherAddresses_shared, if_neg (by simp), ServiceFills]
  decide +kernel

/-- Below a name of 48 characters they are 6 columns too far left, although the service leaves room for its overflow. -/
theorem not_packetLine_aligned : ∃ fields line,
    promptFields unicodeData services promptConfig (sharedRequest "A very-long-updates-subdomain.images.example.org") =
      .ok fields ∧
    packetLine unicodeData services (sharedRequest "A very-long-updates-subdomain.images.example.org") promptConfig =
      .ok line ∧
    CellsFit unicodeData promptConfig.promptColumnWidths
      (sharedRequest "A very-long-updates-subdomain.images.example.org") fields ∧
    ¬ ActionAt line (actionPrompt (sharedRequest "A very-long-updates-subdomain.images.example.org")) 122 := by
  have hfields := @promptFields_shared "A very-long-updates-subdomain.images.example.org" (by decide)
  obtain ⟨line, hline⟩ := exists_packetLine (knownLabel_shared _) hfields
  have hfit := @cellsFit_shared "A very-long-updates-subdomain.images.example.org" (by decide +kernel)
  have hfurther : furtherAddresses (sharedRequest "A very-long-updates-subdomain.images.example.org")
      (sharedFields "A very-long-updates-subdomain.images.example.org").target = [] ++ [text "1.2.3.5"] :=
    furtherAddresses_shared _
  have hrow := lastRow_extraLine hfields hline hfurther fun x hx => (hfit.further x (by rw [hfurther]; exact hx)).1
  refine ⟨_, line, hfields, hline, hfit, ?_⟩
  rw [actionAt_iff hrow, length_extraCells (by decide)]
  decide +kernel

end Sample

end QubesSnitch
