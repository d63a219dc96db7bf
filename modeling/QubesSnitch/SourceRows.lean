import QubesSnitch.RulesDir

/-!
# The rows of the source table

What `parseSourcesOutput` does with a line is checking the line by itself (`sourceRow`) and entering the row it
stands for (`addSourceLine_eq`).  So a text is accepted exactly when every line passes its own checks and the rows do
not clash (`exists_parseSourcesOutput`): no two have one address, and two with one policy source have one label.
Neither depends on the order, and the four dictionaries are lists of what the rows say (`SourceMap.Lists`).

Two rows of different VMs share a policy source exactly when they are disposables of one named base
(`SourceRow.policySource_eq_iff`).
-/

namespace QubesSnitch

/-- A row that is entered, with the sources that stand for it. -/
structure SourceRow where
  source : String
  label : String
  vmClass : String
  template : String
  address : IPv4
  policySource : String
  deriving DecidableEq, Repr

def SourceRow.displaySource (row : SourceRow) : String := dispvmDisplaySource row.source row.vmClass row.template

/-- The checks of a line that do not look at other lines; `none` for a line that is ignored. -/
def sourceRow (sourceName dflt : String) (line : List Char) : Except PyError (Option SourceRow) := do
  if (Py.strip line).isEmpty then return none
  match (Py.split '|' line).map String.ofList with
  | [source, ip, label, vmClass, template] =>
    if ip = "" || ip = "-" then return none
    validateSourceName source sourceName
    validateQubesVmName source vmClass sourceName
    validateVmClass source vmClass template sourceName
    match ← dispvmPolicySource source vmClass template dflt with
    | none => return none
    | some policySource =>
      match ipAddress ip.toList with
      | none => .error (notAnAddress ip)
      | some .v6 => .error (.systemExit (sourceName ++ ": non-IPv4 source address is unsupported: " ++ ip))
      | some (.v4 address) => return some ⟨source, label, vmClass, template, address, policySource⟩
  | _ => .error (.systemExit (sourceName ++ ": expected name|ip|label|class|template line: " ++ String.ofList line))

def enterRow (sourceName : String) (m : SourceMap) (row : SourceRow) : Except PyError SourceMap :=
  enterSource m sourceName row.policySource row.displaySource row.label row.address

theorem addSourceLine_eq (sourceName dflt : String) (m : SourceMap) (line : List Char) :
    addSourceLine sourceName dflt m line = (do
      match ← sourceRow sourceName dflt line with
      | none => return m
      | some row => enterRow sourceName m row) := by
  unfold addSourceLine sourceRow
  split
  · rfl
  generalize (Py.split '|' line).map String.ofList = parts
  -- Only a line of five parts is read; the others are refused on both sides.
  rcases parts with _ | ⟨source, _ | ⟨ip, _ | ⟨label, _ | ⟨vmClass, _ | ⟨template, _ | ⟨extra, rest⟩⟩⟩⟩⟩⟩
  case cons.cons.cons.cons.cons.nil =>
    dsimp only
    split
    · rfl
    simp only [bind_assoc]
    refine bind_congr fun _ => bind_congr fun _ => bind_congr fun _ => bind_congr fun policySource => ?_
    cases policySource with
    | none => rfl
    | some policySource =>
      rcases ipAddress ip.toList with _ | _ | _ <;> rfl
  all_goals rfl

/-! ### Policy sources -/

/-- A template whose disposables have a policy of their own each. -/
def IsDefaultDvm (dflt template : String) : Prop := template = dflt ∨ template = defaultDvmTemplate

/-- What the checks of a line say of its row. -/
structure SourceRow.Checked (dflt : String) (row : SourceRow) : Prop where
  name : ∃ sourceName, validateSourceName row.source sourceName = .ok ()
  policy : dispvmPolicySource row.source row.vmClass row.template dflt = .ok (some row.policySource)

theorem sourceRow_checked {sourceName dflt : String} {line : List Char} {row : SourceRow}
    (h : sourceRow sourceName dflt line = .ok (some row)) : row.Checked dflt := by
  unfold sourceRow at h
  split at h
  · cases h
  split at h
  · split at h
    · cases h
    obtain ⟨_, hname, h⟩ := Except.exists_of_bind_eq_ok h
    obtain ⟨_, -, h⟩ := Except.exists_of_bind_eq_ok h
    obtain ⟨_, -, h⟩ := Except.exists_of_bind_eq_ok h
    obtain ⟨policySource, hpolicy, h⟩ := Except.exists_of_bind_eq_ok h
    cases policySource with
    | none => cases h
    | some policySource =>
      dsimp only at h
      split at h
      · cases h
      · cases h
      · cases h
        exact ⟨⟨sourceName, hname⟩, hpolicy⟩
  · cases h

namespace SourceRow

variable {dflt : String} {row row' : SourceRow}

theorem Checked.legal (h : row.Checked dflt) : LegalStem dflt row.policySource := by
  obtain ⟨_, hname⟩ := h.name
  exact dispvmPolicySource_legal hname h.policy

/-- The policy source is the VM itself, and then its name does not begin as those of the bases do, or it is the base. -/
theorem Checked.policySource_cases (h : row.Checked dflt) :
    (¬ (row.vmClass = "DispVM" ∧ ¬ IsDefaultDvm dflt row.template) ∧ row.policySource = row.source ∧
      ¬ dispvmPolicyPrefix.toList <+: row.policySource.toList) ∨
    (row.vmClass = "DispVM" ∧ ¬ IsDefaultDvm dflt row.template) ∧
      row.policySource = dispvmPolicyPrefix ++ row.template := by
  obtain ⟨_, hname⟩ := h.name
  have hdispvm : ¬ dispvmPolicyPrefix.toList <+: row.source.toList := by
    rw [← List.isPrefixOf_iff_prefix]
    exact (validateSourceName_ok hname).2.2
  have hpolicy := h.policy
  unfold dispvmPolicySource at hpolicy
  split at hpolicy
  · rename_i hclass
    have heq : row.source = row.policySource := Option.some.inj (Except.ok.inj hpolicy)
    exact Or.inl ⟨fun hd => hclass hd.1, heq.symm, heq ▸ hdispvm⟩
  · rename_i hclass
    obtain ⟨_, -, hpolicy⟩ := Except.exists_of_bind_eq_ok hpolicy
    obtain ⟨_, -, hpolicy⟩ := Except.exists_of_bind_eq_ok hpolicy
    split at hpolicy
    · rename_i hdefault
      split at hpolicy
      · cases hpolicy
      · have heq : row.source = row.policySource := Option.some.inj (Except.ok.inj hpolicy)
        exact Or.inl ⟨fun hd => hd.2 (by simpa [IsDefaultDvm] using hdefault), heq.symm, heq ▸ hdispvm⟩
    · rename_i hdefault
      have heq : dispvmPolicyPrefix ++ row.template = row.policySource := Option.some.inj (Except.ok.inj hpolicy)
      exact Or.inr ⟨⟨not_not.1 hclass, fun hd => hdefault (by simpa [IsDefaultDvm] using hd)⟩, heq.symm⟩

/-- Different VMs share a policy source exactly when they are disposables of one named base. -/
theorem Checked.policySource_eq_iff (h : row.Checked dflt) (h' : row'.Checked dflt) (hne : row.source ≠ row'.source) :
    row.policySource = row'.policySource ↔ row.vmClass = "DispVM" ∧ row'.vmClass = "DispVM" ∧
      row.template = row'.template ∧ ¬ IsDefaultDvm dflt row.template := by
  have hbase : ∀ {r r' : SourceRow}, ¬ dispvmPolicyPrefix.toList <+: r.policySource.toList →
      r'.policySource = dispvmPolicyPrefix ++ r'.template → r.policySource ≠ r'.policySource := by
    intro r r' hr hr' heq
    rw [heq, hr', String.toList_append] at hr
    exact hr (List.prefix_append _ _)
  rcases h.policySource_cases with ⟨hnot, hs, hp⟩ | ⟨hdisp, hs⟩ <;>
    rcases h'.policySource_cases with ⟨hnot', hs', hp'⟩ | ⟨hdisp', hs'⟩
  · refine iff_of_false (fun heq => hne (by rw [← hs, heq, hs'])) fun hd => hnot ⟨hd.1, hd.2.2.2⟩
  · exact iff_of_false (hbase hp hs') fun hd => hnot ⟨hd.1, hd.2.2.2⟩
  · exact iff_of_false (Ne.symm (hbase hp' hs)) fun hd => hnot' ⟨hd.2.1, hd.2.2.1 ▸ hd.2.2.2⟩
  · rw [hs, hs', String.append_right_inj]
    exact ⟨fun heq => ⟨hdisp.1, hdisp'.1, heq, hdisp.2⟩, fun hd => hd.2.2.1⟩

end SourceRow

/-! ### The rows of an accepted text -/

/-- Two rows that can stand in one table. -/
def SourceRow.Apart (row row' : SourceRow) : Prop :=
  row.address ≠ row'.address ∧ (row.policySource = row'.policySource → row.label = row'.label)

instance (row row' : SourceRow) : Decidable (row.Apart row') := inferInstanceAs (Decidable (_ ∧ _))

theorem SourceRow.Apart.symm {row row' : SourceRow} (h : row.Apart row') : row'.Apart row :=
  ⟨h.1.symm, fun heq => (h.2 heq.symm).symm⟩

/-- The addresses of the rows of a policy source, where there are any. -/
def addressesOfSource (rows : List SourceRow) (s : String) : Option (List IPv4) :=
  if rows.any (·.policySource = s) then some ((rows.filter (·.policySource = s)).map SourceRow.address) else none

/-- The dictionaries list the rows. -/
structure SourceMap.Lists (m : SourceMap) (rows : List SourceRow) : Prop where
  byName : ∀ s, m.byName.get? s = addressesOfSource rows s
  byIp : ∀ ip s, m.byIp.get? ip = some s ↔ ∃ row ∈ rows, row.address = ip ∧ row.policySource = s
  labels : ∀ s label, m.labels.get? s = some label ↔ ∃ row ∈ rows, row.policySource = s ∧ row.label = label
  displayByIp : ∀ ip s, m.displayByIp.get? ip = some s ↔ ∃ row ∈ rows, row.address = ip ∧ row.displaySource = s

namespace SourceMap.Lists

variable {m m' : SourceMap} {rows : List SourceRow} {row : SourceRow} {sourceName : String}

theorem empty : SourceMap.empty.Lists [] := by
  constructor <;> simp [SourceMap.empty, addressesOfSource]

theorem mem_byIp (h : m.Lists rows) {ip : IPv4} : ip ∈ m.byIp.keys ↔ ∃ row ∈ rows, row.address = ip := by
  rw [Dict.mem_keys_iff]
  constructor
  · rintro ⟨s, hs⟩
    obtain ⟨row, hrow, hip, -⟩ := (h.byIp ip s).1 hs
    exact ⟨row, hrow, hip⟩
  · rintro ⟨row, hrow, hip⟩
    exact ⟨row.policySource, (h.byIp _ _).2 ⟨row, hrow, hip, rfl⟩⟩

theorem labels_any (h : m.Lists rows) {s label : String} :
    (m.labels.get? s).any (· ≠ label) ↔ ∃ row ∈ rows, row.policySource = s ∧ row.label ≠ label := by
  simp only [Option.any_eq_true, decide_eq_true_eq]
  constructor
  · rintro ⟨l, hl, hne⟩
    obtain ⟨row, hrow, hs, rfl⟩ := (h.labels s l).1 hl
    exact ⟨row, hrow, hs, hne⟩
  · rintro ⟨row, hrow, hs, hne⟩
    exact ⟨row.label, (h.labels _ _).2 ⟨row, hrow, hs, rfl⟩, hne⟩

theorem apart_iff (h : m.Lists rows) (row : SourceRow) : (∀ other ∈ rows, other.Apart row) ↔
    row.address ∉ m.byIp.keys ∧ ¬ (m.labels.get? row.policySource).any (· ≠ row.label) := by
  rw [h.mem_byIp, h.labels_any]
  constructor
  · exact fun hall => ⟨fun ⟨other, hmem, ha⟩ => (hall other hmem).1 ha,
      fun ⟨other, hmem, hs, hne⟩ => hne ((hall other hmem).2 hs)⟩
  · exact fun ⟨ha, hl⟩ other hmem => ⟨fun he => ha ⟨other, hmem, he⟩,
      fun hs => by_contra fun hne => hl ⟨other, hmem, hs, hne⟩⟩

/-- The dictionaries after a row that fits the others. -/
def add (m : SourceMap) (row : SourceRow) : SourceMap where
  byName := m.byName.set row.policySource ((m.byName.get? row.policySource).getD [] ++ [row.address])
  byIp := m.byIp.set row.address row.policySource
  labels := m.labels.set row.policySource row.label
  displayByIp := m.displayByIp.set row.address row.displaySource

theorem addressesOfSource_concat (rows : List SourceRow) (row : SourceRow) (s : String) :
    addressesOfSource (rows ++ [row]) s =
      if s = row.policySource then some ((addressesOfSource rows s).getD [] ++ [row.address])
      else addressesOfSource rows s := by
  unfold addressesOfSource
  by_cases hs : row.policySource = s
  · by_cases hany : rows.any (·.policySource = s)
    · simp [hs, hany]
    · have hnil : rows.filter (·.policySource = s) = [] := by simpa using hany
      simp [hs, hany, hnil]
  · simp [hs, Ne.symm hs]

/-- Writing under the key of a row that fits the others. -/
private theorem set_iff {κ : Type} [DecidableEq κ] {d : Dict κ String} {key : SourceRow → κ} {val : SourceRow → String}
    (h : ∀ k v, d.get? k = some v ↔ ∃ row ∈ rows, key row = k ∧ val row = v)
    (hrow : ∀ other ∈ rows, key other = key row → val other = val row) (k : κ) (v : String) :
    (d.set (key row) (val row)).get? k = some v ↔ ∃ other ∈ rows ++ [row], key other = k ∧ val other = v := by
  rw [Dict.get?_set]
  simp only [List.mem_append, List.mem_singleton, or_and_right, exists_or, exists_eq_left]
  rw [← h k v]
  by_cases hk : k = key row
  · subst hk
    simp only [if_true, Option.some.injEq, true_and]
    refine ⟨Or.inr, ?_⟩
    rintro (hget | hv)
    · obtain ⟨other, hmem, hkey, rfl⟩ := (h _ _).1 hget
      exact (hrow other hmem hkey).symm
    · exact hv
  · simp [hk, Ne.symm hk]

theorem add_lists (h : m.Lists rows) (hapart : ∀ other ∈ rows, other.Apart row) :
    (add m row).Lists (rows ++ [row]) where
  byName s := by
    rw [addressesOfSource_concat, ← h.byName]
    by_cases hs : s = row.policySource
    · subst hs
      simp [add]
    · simp [add, Dict.get?_set, hs]
  byIp := set_iff h.byIp fun other hmem ha => absurd ha (hapart other hmem).1
  labels := set_iff h.labels fun other hmem => (hapart other hmem).2
  displayByIp := set_iff h.displayByIp fun other hmem ha => absurd ha (hapart other hmem).1

/-- A row that fits the others is added, and any other is an error for the operator. -/
theorem enterRow_of_apart (h : m.Lists rows) (hapart : ∀ other ∈ rows, other.Apart row) :
    enterRow sourceName m row = .ok (add m row) := by
  obtain ⟨ha, hl⟩ := (h.apart_iff row).1 hapart
  rw [enterRow, enterSource, if_neg ha, if_neg hl]
  rfl

theorem enterRow_of_not_apart (h : m.Lists rows) (hapart : ¬ ∀ other ∈ rows, other.Apart row) :
    ∃ e, enterRow sourceName m row = .error (.systemExit e) := by
  rw [enterRow, enterSource]
  split
  · exact ⟨_, rfl⟩
  · rename_i ha
    split
    · exact ⟨_, rfl⟩
    · rename_i hl
      exact absurd ((h.apart_iff row).2 ⟨ha, hl⟩) hapart

end SourceMap.Lists

section Lines

variable (sourceName dflt : String)

/-- The row of a line, where it has one. -/
def acceptedRow (line : List Char) : Option SourceRow := (sourceRow sourceName dflt line).toOption.join

def acceptedRows (lines : List (List Char)) : List SourceRow := lines.filterMap (acceptedRow sourceName dflt)

/-- The line passes its own checks. -/
def LineChecked (line : List Char) : Prop := ∃ row, sourceRow sourceName dflt line = .ok row

/-- Lines that pass their own checks, with rows that do not clash. -/
structure GoodLines (lines : List (List Char)) : Prop where
  checked : ∀ line ∈ lines, LineChecked sourceName dflt line
  apart : (acceptedRows sourceName dflt lines).Pairwise SourceRow.Apart

variable {sourceName dflt}

theorem acceptedRow_checked {line : List Char} {row : SourceRow} (h : acceptedRow sourceName dflt line = some row) :
    row.Checked dflt := by
  unfold acceptedRow at h
  cases hrow : sourceRow sourceName dflt line with
  | error e => simp [hrow, Except.toOption] at h
  | ok o =>
    obtain rfl : o = some row := by simpa [hrow, Except.toOption] using h
    exact sourceRow_checked hrow

theorem checked_of_mem_acceptedRows {lines : List (List Char)} {row : SourceRow}
    (h : row ∈ acceptedRows sourceName dflt lines) : row.Checked dflt := by
  obtain ⟨line, -, hrow⟩ := List.mem_filterMap.1 h
  exact acceptedRow_checked hrow

/-- Neither the checks nor the clashes depend on the order. -/
theorem GoodLines.perm {lines lines' : List (List Char)} (hp : lines.Perm lines')
    (h : GoodLines sourceName dflt lines) : GoodLines sourceName dflt lines' where
  checked line hline := h.checked line (hp.mem_iff.2 hline)
  apart := (hp.filterMap _).pairwise h.apart SourceRow.Apart.symm

theorem acceptedRows_concat (lines : List (List Char)) (line : List Char) :
    acceptedRows sourceName dflt (lines ++ [line]) =
      acceptedRows sourceName dflt lines ++ (acceptedRow sourceName dflt line).toList := by
  rw [acceptedRows, List.filterMap_append, ← acceptedRows]
  cases h : acceptedRow sourceName dflt line <;> simp [h]

/-- One line more. -/
theorem goodLines_concat {lines : List (List Char)} {line : List Char} :
    GoodLines sourceName dflt (lines ++ [line]) ↔ GoodLines sourceName dflt lines ∧
      LineChecked sourceName dflt line ∧ ∀ row, acceptedRow sourceName dflt line = some row →
        ∀ other ∈ acceptedRows sourceName dflt lines, other.Apart row := by
  constructor
  · rintro ⟨hchecked, hapart⟩
    rw [acceptedRows_concat, List.pairwise_append] at hapart
    obtain ⟨hlines, -, hcross⟩ := hapart
    exact ⟨⟨fun l hl => hchecked l (by simp [hl]), hlines⟩, hchecked line (by simp),
      fun row hrow other hmem => hcross other hmem row (by simp [hrow])⟩
  · rintro ⟨⟨hchecked, hlines⟩, hline, hcross⟩
    refine ⟨fun l hl => ?_, ?_⟩
    · rcases List.mem_append.1 hl with hl | hl
      · exact hchecked l hl
      · exact List.mem_singleton.1 hl ▸ hline
    · rw [acceptedRows_concat, List.pairwise_append]
      exact ⟨hlines, by cases acceptedRow sourceName dflt line <;> simp,
        fun other hmem row hrow => hcross row (by simpa using hrow) other hmem⟩

variable {m m' : SourceMap} {lines : List (List Char)} {line : List Char}

/-- A line after good ones: its row is added where it fits. -/
theorem addSourceLine_of_good (h : m.Lists (acceptedRows sourceName dflt lines))
    (hgood : GoodLines sourceName dflt (lines ++ [line])) :
    ∃ m', addSourceLine sourceName dflt m line = .ok m' ∧ m'.Lists (acceptedRows sourceName dflt (lines ++ [line])) := by
  obtain ⟨-, ⟨row, hrow⟩, hapart⟩ := goodLines_concat.1 hgood
  rw [addSourceLine_eq, hrow, acceptedRows_concat]
  cases row with
  | none => exact ⟨m, rfl, by simpa [acceptedRow, hrow, Except.toOption] using h⟩
  | some row =>
    have haccepted : acceptedRow sourceName dflt line = some row := by simp [acceptedRow, hrow, Except.toOption]
    rw [haccepted]
    exact ⟨_, h.enterRow_of_apart (hapart row haccepted), h.add_lists (hapart row haccepted)⟩

/-- An error is one of the line by itself, or one of those for the operator. -/
theorem addSourceLine_error {e : PyError} (h : m.Lists (acceptedRows sourceName dflt lines))
    (herror : addSourceLine sourceName dflt m line = .error e) :
    (∃ text, e = .systemExit text) ∨ sourceRow sourceName dflt line = .error e := by
  rw [addSourceLine_eq] at herror
  cases hrow : sourceRow sourceName dflt line with
  | error e' =>
    rw [hrow] at herror
    cases herror
    exact Or.inr rfl
  | ok row =>
    rw [hrow] at herror
    cases row with
    | none => cases herror
    | some row =>
      change enterRow sourceName m row = .error e at herror
      by_cases hapart : ∀ other ∈ acceptedRows sourceName dflt lines, other.Apart row
      · rw [h.enterRow_of_apart hapart] at herror
        cases herror
      · obtain ⟨text, htext⟩ : ∃ e, enterRow sourceName m _ = .error (.systemExit e) := h.enterRow_of_not_apart hapart
        rw [htext] at herror
        cases herror
        exact Or.inl ⟨text, rfl⟩

theorem good_of_addSourceLine (h : m.Lists (acceptedRows sourceName dflt lines))
    (hgood : GoodLines sourceName dflt lines) (hok : addSourceLine sourceName dflt m line = .ok m') :
    GoodLines sourceName dflt (lines ++ [line]) := by
  rw [addSourceLine_eq] at hok
  obtain ⟨row, hrow, hok⟩ := Except.exists_of_bind_eq_ok hok
  refine goodLines_concat.2 ⟨hgood, ⟨row, hrow⟩, fun row' hrow' => ?_⟩
  obtain rfl : row = some row' := by simpa [acceptedRow, hrow, Except.toOption] using hrow'
  by_contra hapart
  obtain ⟨text, htext⟩ : ∃ e, enterRow sourceName m _ = .error (.systemExit e) := h.enterRow_of_not_apart hapart
  change enterRow sourceName m row' = .ok m' at hok
  rw [htext] at hok
  cases hok

private theorem foldlM_concat (m : SourceMap) (lines : List (List Char)) (line : List Char) :
    (lines ++ [line]).foldlM (addSourceLine sourceName dflt) m =
      lines.foldlM (addSourceLine sourceName dflt) m >>= fun m => addSourceLine sourceName dflt m line := by
  rw [List.foldlM_append]
  simp

/-- Good lines are read, and the dictionaries list their rows. -/
theorem lists_of_good (lines : List (List Char)) (hgood : GoodLines sourceName dflt lines) :
    ∃ m, lines.foldlM (addSourceLine sourceName dflt) SourceMap.empty = .ok m ∧
      m.Lists (acceptedRows sourceName dflt lines) := by
  induction lines using List.reverseRecOn with
  | nil => exact ⟨_, rfl, .empty⟩
  | append_singleton lines line ih =>
    obtain ⟨m, hm, hlists⟩ := ih (goodLines_concat.1 hgood).1
    rw [foldlM_concat, hm]
    exact addSourceLine_of_good hlists hgood

/-- Only good lines are read. -/
theorem good_of_foldlM (lines : List (List Char)) {m : SourceMap}
    (hok : lines.foldlM (addSourceLine sourceName dflt) SourceMap.empty = .ok m) : GoodLines sourceName dflt lines := by
  induction lines using List.reverseRecOn generalizing m with
  | nil => exact ⟨by simp, by simp [acceptedRows]⟩
  | append_singleton lines line ih =>
    rw [foldlM_concat] at hok
    obtain ⟨m₀, hm₀, hok⟩ := Except.exists_of_bind_eq_ok hok
    obtain ⟨m₁, hm₁, hlists⟩ := lists_of_good lines (ih hm₀)
    obtain rfl : m₀ = m₁ := Except.ok.inj (hm₀.symm.trans hm₁)
    exact good_of_addSourceLine hlists (ih hm₀) hok

/-- An error is that of the first line that is not good by itself, or one of those for the operator. -/
theorem error_of_foldlM (lines : List (List Char)) {e : PyError}
    (herror : lines.foldlM (addSourceLine sourceName dflt) SourceMap.empty = .error e) :
    (∃ text, e = .systemExit text) ∨ ∃ pre line post, lines = pre ++ line :: post ∧
      GoodLines sourceName dflt pre ∧ sourceRow sourceName dflt line = .error e := by
  induction lines using List.reverseRecOn with
  | nil => cases herror
  | append_singleton lines line ih =>
    rw [foldlM_concat] at herror
    cases hlines : lines.foldlM (addSourceLine sourceName dflt) SourceMap.empty with
    | error e' =>
      rw [hlines] at herror
      cases herror
      refine (ih hlines).imp_right ?_
      rintro ⟨pre, first, post, rfl, hgood, hrow⟩
      exact ⟨pre, first, post ++ [line], by simp, hgood, hrow⟩
    | ok m =>
      have hgood := good_of_foldlM lines hlines
      obtain ⟨m', hm', hlists⟩ := lists_of_good lines hgood
      obtain rfl : m = m' := Except.ok.inj (hlines.symm.trans hm')
      rw [hlines] at herror
      exact (addSourceLine_error hlists herror).imp_right fun hrow => ⟨lines, line, [], by simp, hgood, hrow⟩

end Lines

/-! ### The source map -/

section Text

variable {text text' sourceName dflt : String} {m m' : SourceMap}

/-- The lines of a text, as `parse_sources_output` reads them. -/
def sourceLines (text : String) : List (List Char) := Py.splitlines text.toList

theorem lists_of_parse (h : parseSourcesOutput text sourceName dflt = .ok m) :
    Py.isascii text.toList ∧ GoodLines sourceName dflt (sourceLines text) ∧
      m.Lists (acceptedRows sourceName dflt (sourceLines text)) := by
  unfold parseSourcesOutput at h
  split at h
  · cases h
  · rename_i hascii
    have hgood := good_of_foldlM _ h
    obtain ⟨m', hm', hlists⟩ := lists_of_good _ hgood
    obtain rfl : m = m' := Except.ok.inj (h.symm.trans hm')
    exact ⟨by simpa using hascii, hgood, hlists⟩

/-- A text is accepted exactly when it is ASCII and its lines are good. -/
theorem exists_parseSourcesOutput : (∃ m, parseSourcesOutput text sourceName dflt = .ok m) ↔
    Py.isascii text.toList ∧ GoodLines sourceName dflt (sourceLines text) := by
  constructor
  · rintro ⟨m, hm⟩
    obtain ⟨hascii, hgood, -⟩ := lists_of_parse hm
    exact ⟨hascii, hgood⟩
  · rintro ⟨hascii, hgood⟩
    obtain ⟨m, hm, -⟩ := lists_of_good _ hgood
    exact ⟨m, by simpa [parseSourcesOutput, hascii, sourceLines] using hm⟩

/-- Names and addresses belong together, and every name is one that the rules directory can have a file for. -/
structure SourceMap.Table (dflt : String) (m : SourceMap) : Prop where
  nodup : ∀ s ips, m.byName.get? s = some ips → ips.Nodup
  disjoint : ∀ s s' ips ips', m.byName.get? s = some ips → m.byName.get? s' = some ips' → s ≠ s' → ips.Disjoint ips'
  byIp_keys : ∀ ip, ip ∈ m.byIp.keys ↔ ∃ s ips, m.byName.get? s = some ips ∧ ip ∈ ips
  displayByIp_keys : ∀ ip, ip ∈ m.displayByIp.keys ↔ ∃ s ips, m.byName.get? s = some ips ∧ ip ∈ ips
  byIp_iff : ∀ ip s, m.byIp.get? ip = some s ↔ ∃ ips, m.byName.get? s = some ips ∧ ip ∈ ips
  labels_keys : ∀ s, s ∈ m.labels.keys ↔ s ∈ m.byName.keys
  stem : ∀ s ∈ m.byName.keys, checkStem dflt s = .ok ()

/-- The four dictionaries agree, but for the order in the lists of addresses. -/
structure SourceMap.SameTable (m m' : SourceMap) : Prop where
  byIp : m.byIp.same m'.byIp
  labels : m.labels.same m'.labels
  displayByIp : m.displayByIp.same m'.displayByIp
  byName : ∀ s, Option.Rel List.Perm (m.byName.get? s) (m'.byName.get? s)

theorem addressesOfSource_eq_some {rows : List SourceRow} {s : String} {ips : List IPv4} :
    addressesOfSource rows s = some ips ↔
      (∃ row ∈ rows, row.policySource = s) ∧ ips = (rows.filter (·.policySource = s)).map SourceRow.address := by
  unfold addressesOfSource
  split
  · rename_i hany
    simp only [List.any_eq_true, decide_eq_true_eq] at hany
    simp only [Option.some.injEq, hany, true_and]
    exact eq_comm
  · rename_i hany
    simp only [List.any_eq_true, decide_eq_true_eq] at hany
    simp [hany]

theorem mem_addressesOfSource {rows : List SourceRow} {s : String} {ip : IPv4} :
    (∃ ips, addressesOfSource rows s = some ips ∧ ip ∈ ips) ↔ ∃ row ∈ rows, row.address = ip ∧ row.policySource = s := by
  simp only [addressesOfSource_eq_some]
  constructor
  · rintro ⟨_, ⟨-, rfl⟩, hip⟩
    obtain ⟨row, hrow, rfl⟩ := List.mem_map.1 hip
    obtain ⟨hmem, hs⟩ := List.mem_filter.1 hrow
    exact ⟨row, hmem, rfl, by simpa using hs⟩
  · rintro ⟨row, hmem, rfl, rfl⟩
    exact ⟨_, ⟨⟨row, hmem, rfl⟩, rfl⟩, List.mem_map_of_mem (List.mem_filter.2 ⟨hmem, by simp⟩)⟩

theorem addressesOfSource_perm {rows rows' : List SourceRow} (h : rows.Perm rows') (s : String) :
    Option.Rel List.Perm (addressesOfSource rows s) (addressesOfSource rows' s) := by
  unfold addressesOfSource
  have hany : rows.any (·.policySource = s) = rows'.any (·.policySource = s) := h.any_eq
  rw [hany]
  split
  · exact .some ((h.filter _).map _)
  · exact .none

theorem SourceMap.Lists.table {rows : List SourceRow} (h : m.Lists rows) (hapart : rows.Pairwise SourceRow.Apart)
    (hchecked : ∀ row ∈ rows, row.Checked dflt) : m.Table dflt := by
  have hbyIp : ∀ ip s, m.byIp.get? ip = some s ↔ ∃ ips, m.byName.get? s = some ips ∧ ip ∈ ips := by
    intro ip s
    simp only [h.byName, mem_addressesOfSource, h.byIp]
  have hkey : ∀ ip, (∃ row ∈ rows, row.address = ip) ↔ ∃ s ips, m.byName.get? s = some ips ∧ ip ∈ ips := by
    intro ip
    simp only [h.byName, mem_addressesOfSource]
    constructor
    · rintro ⟨row, hmem, ha⟩
      exact ⟨_, row, hmem, ha, rfl⟩
    · rintro ⟨-, row, hmem, ha, -⟩
      exact ⟨row, hmem, ha⟩
  have hname : ∀ s, s ∈ m.byName.keys ↔ ∃ row ∈ rows, row.policySource = s := by
    intro s
    simp only [Dict.mem_keys_iff, h.byName, addressesOfSource_eq_some]
    simp
  refine ⟨?_, ?_, ?_, ?_, hbyIp, ?_, ?_⟩
  · intro s ips hs
    rw [h.byName, addressesOfSource_eq_some] at hs
    rw [hs.2]
    exact List.pairwise_map.2 ((hapart.imp And.left).filter _)
  -- an address is that of one row
  · intro s s' ips ips' hs hs' hne ip hip hip'
    have hget := (hbyIp ip s).2 ⟨ips, hs, hip⟩
    rw [(hbyIp ip s').2 ⟨ips', hs', hip'⟩] at hget
    exact hne (Option.some.inj hget).symm
  · intro ip
    rw [h.mem_byIp, hkey]
  · intro ip
    rw [← hkey, Dict.mem_keys_iff]
    simp only [h.displayByIp]
    constructor
    · rintro ⟨-, row, hmem, ha, -⟩
      exact ⟨row, hmem, ha⟩
    · rintro ⟨row, hmem, ha⟩
      exact ⟨_, row, hmem, ha, rfl⟩
  · intro s
    rw [hname, Dict.mem_keys_iff]
    simp only [h.labels]
    constructor
    · rintro ⟨-, row, hmem, hs, -⟩
      exact ⟨row, hmem, hs⟩
    · rintro ⟨row, hmem, hs⟩
      exact ⟨_, row, hmem, hs, rfl⟩
  · intro s hs
    obtain ⟨row, hmem, rfl⟩ := (hname s).1 hs
    exact checkStem_eq_ok.2 (hchecked row hmem).legal

theorem SourceMap.Lists.sameTable {rows rows' : List SourceRow} (h : m.Lists rows) (h' : m'.Lists rows')
    (hp : rows.Perm rows') : m.SameTable m' where
  byIp := Dict.same_of_get? fun ip s => by rw [h.byIp, h'.byIp]; simp only [hp.mem_iff]
  labels := Dict.same_of_get? fun s label => by rw [h.labels, h'.labels]; simp only [hp.mem_iff]
  displayByIp := Dict.same_of_get? fun ip s => by rw [h.displayByIp, h'.displayByIp]; simp only [hp.mem_iff]
  byName s := by
    rw [h.byName, h'.byName]
    exact addressesOfSource_perm hp s

/-- An accepted text gives a table that lists its rows and is consistent, rows of different VMs share a policy source
only as disposables of one named base, and the order of the lines counts for nothing but the order of addresses. -/
theorem parseSourcesOutput_table (text sourceName dflt : String) :
    (∀ m, parseSourcesOutput text sourceName dflt = .ok m →
      m.Table dflt ∧ m.Lists (acceptedRows sourceName dflt (sourceLines text)) ∧
      (((acceptedRows sourceName dflt (sourceLines text)).map SourceRow.source).Nodup →
        (acceptedRows sourceName dflt (sourceLines text)).Pairwise fun row row' =>
          (row.policySource = row'.policySource ↔ row.vmClass = "DispVM" ∧ row'.vmClass = "DispVM" ∧
            row.template = row'.template ∧ ¬ IsDefaultDvm dflt row.template))) ∧
    ∀ text', (sourceLines text).Perm (sourceLines text') →
      ((∃ m, parseSourcesOutput text sourceName dflt = .ok m) ↔
        ∃ m, parseSourcesOutput text' sourceName dflt = .ok m) ∧
      ∀ m m', parseSourcesOutput text sourceName dflt = .ok m → parseSourcesOutput text' sourceName dflt = .ok m' →
        m.SameTable m' := by
  refine ⟨fun m hm => ?_, fun text' hp => ⟨?_, fun m m' hm hm' => ?_⟩⟩
  · obtain ⟨-, hgood, hlists⟩ := lists_of_parse hm
    have hchecked : ∀ row ∈ acceptedRows sourceName dflt (sourceLines text), row.Checked dflt :=
      fun row hrow => checked_of_mem_acceptedRows hrow
    refine ⟨hlists.table hgood.apart hchecked, hlists, fun hnodup => ?_⟩
    refine (List.pairwise_map.1 hnodup).imp_of_mem fun hrow hrow' hne => ?_
    exact (hchecked _ hrow).policySource_eq_iff (hchecked _ hrow') hne
  · rw [exists_parseSourcesOutput, exists_parseSourcesOutput, ← Py.isascii_splitlines, ← Py.isascii_splitlines]
    exact and_congr (forall_congr' fun line => by rw [← sourceLines, ← sourceLines, hp.mem_iff])
      ⟨fun h => h.perm hp, fun h => h.perm hp.symm⟩
  · exact (lists_of_parse hm).2.2.sameTable (lists_of_parse hm').2.2 (hp.filterMap _)

/-- Two VMs, two disposables of a named base and one of the default base, each in a line. -/
def Sample.vmLines : List String :=
  ["work|10.137.0.5|green|AppVM|-", "web-a|10.138.0.7|red|DispVM|web-dvm", "mail|10.137.0.6|yellow|AppVM|-",
   "web-b|10.138.0.8|red|DispVM|web-dvm", "disp1234|10.138.0.9|red|DispVM|default-dvm"]

def Sample.vmText (lines : List String) : String := "\n".intercalate lines

def Sample.severalVms : SourceMap where
  byName := .ofList [("work", [work]), ("dispvm-web-dvm", [⟨10, 138, 0, 7⟩, ⟨10, 138, 0, 8⟩]), ("mail", [⟨10, 137, 0, 6⟩]),
    ("disp1234", [⟨10, 138, 0, 9⟩])]
  byIp := .ofList [(work, "work"), (⟨10, 138, 0, 7⟩, "dispvm-web-dvm"), (⟨10, 137, 0, 6⟩, "mail"),
    (⟨10, 138, 0, 8⟩, "dispvm-web-dvm"), (⟨10, 138, 0, 9⟩, "disp1234")]
  labels := .ofList [("work", "green"), ("dispvm-web-dvm", "red"), ("mail", "yellow"), ("disp1234", "red")]
  displayByIp := .ofList [(work, "work"), (⟨10, 138, 0, 7⟩, "web-a(web-dvm)"), (⟨10, 137, 0, 6⟩, "mail"),
    (⟨10, 138, 0, 8⟩, "web-b(web-dvm)"), (⟨10, 138, 0, 9⟩, "disp1234(default-dvm)")]

theorem Sample.parse_severalVms : parseSourcesOutput (vmText vmLines) "qubes.SnitchSources" "default-dvm" =
    .ok severalVms := by decide +kernel

/-- The table of the five lines, and that of the lines in another order. -/
theorem Sample.parseSourcesOutput_table_severalVms : severalVms.Table "default-dvm" ∧
    ((acceptedRows "qubes.SnitchSources" "default-dvm" (sourceLines (vmText vmLines))).Pairwise fun row row' =>
      (row.policySource = row'.policySource ↔ row.vmClass = "DispVM" ∧ row'.vmClass = "DispVM" ∧
        row.template = row'.template ∧ ¬ IsDefaultDvm "default-dvm" row.template)) ∧
    ∃ m, parseSourcesOutput (vmText vmLines.reverse) "qubes.SnitchSources" "default-dvm" = .ok m ∧
      severalVms.SameTable m := by
  obtain ⟨htable, horder⟩ := parseSourcesOutput_table (vmText vmLines) "qubes.SnitchSources" "default-dvm"
  obtain ⟨htable, -, hapart⟩ := htable _ parse_severalVms
  obtain ⟨hparses, hsame⟩ := horder (vmText vmLines.reverse) (by decide +kernel)
  obtain ⟨m, hm⟩ := hparses.1 ⟨_, parse_severalVms⟩
  exact ⟨htable, hapart (by decide +kernel), m, hm, hsame _ _ parse_severalVms hm⟩

end Text

end QubesSnitch
