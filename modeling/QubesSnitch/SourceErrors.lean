import QubesSnitch.SourceRows
import QubesSnitch.SourcesRuntime

/-!
# Source tables that are refused

Every check of a source table raises `SystemExit`, with one exception: an address that `ipaddress` cannot read.  Its
`ValueError` is none of the exceptions that a refresh turns into an alert, so the alert is missed exactly for the
tables whose first refused line is such a line (`refused_table_alerts_iff`); in every other case nothing but the alert
happens, and the state is what the other threads make of it.
-/

namespace QubesSnitch

/-! ### What a line can raise -/

/-- Raises nothing but `SystemExit`. -/
def OnlySystemExit {α : Type} (x : Except PyError α) : Prop := ∀ e, x = .error e → ∃ text, e = .systemExit text

theorem OnlySystemExit.ok {α : Type} (a : α) : OnlySystemExit (.ok a) := fun _ h => nomatch h

theorem OnlySystemExit.bind {α β : Type} {x : Except PyError α} {f : α → Except PyError β} (hx : OnlySystemExit x)
    (hf : ∀ a, OnlySystemExit (f a)) : OnlySystemExit (x >>= f) := by
  intro e h
  rcases Except.of_bind_eq_error h with h | ⟨a, -, h⟩
  · exact hx e h
  · exact hf a e h

/-- Two checks in a row. -/
theorem OnlySystemExit.checks (p q : Prop) [Decidable p] [Decidable q] (first second : String) :
    OnlySystemExit (if p then .error (.systemExit first) else if q then .error (.systemExit second) else .ok ()) := by
  intro e h
  split at h
  · exact ⟨first, (Except.error.inj h).symm⟩
  · split at h
    · exact ⟨second, (Except.error.inj h).symm⟩
    · cases h

theorem validateSourceName_raises (source sourceName : String) : OnlySystemExit (validateSourceName source sourceName) :=
  .checks _ _ _ _

theorem validateQubesVmName_raises (source vmClass sourceName : String) :
    OnlySystemExit (validateQubesVmName source vmClass sourceName) :=
  .checks _ _ _ _

theorem validateVmClass_raises (source vmClass template sourceName : String) :
    OnlySystemExit (validateVmClass source vmClass template sourceName) :=
  .checks _ _ _ _

theorem dispvmPolicySource_raises (source vmClass template dflt : String) :
    OnlySystemExit (dispvmPolicySource source vmClass template dflt) := by
  unfold dispvmPolicySource
  split
  · exact .ok _
  · refine (validateSourceName_raises _ _).bind fun _ => (validateQubesVmName_raises _ _ _).bind fun _ => ?_
    split
    · split <;> exact .ok _
    · exact .ok _

/-- A line that passes every check of its name, class and template, and whose address cannot be read. -/
def UnreadableAddress (sourceName dflt : String) (line : List Char) : Prop :=
  ∃ source ip label vmClass template policySource,
    (Py.split '|' line).map String.ofList = [source, ip, label, vmClass, template] ∧ ip ≠ "" ∧ ip ≠ "-" ∧
    validateSourceName source sourceName = .ok () ∧ validateQubesVmName source vmClass sourceName = .ok () ∧
    validateVmClass source vmClass template sourceName = .ok () ∧
    dispvmPolicySource source vmClass template dflt = .ok (some policySource) ∧ ipAddress ip.toList = none

/-- A line by itself raises `SystemExit`, but for an unreadable address. -/
theorem sourceRow_raises {sourceName dflt : String} {line : List Char} {e : PyError}
    (h : sourceRow sourceName dflt line = .error e) :
    (∃ text, e = .systemExit text) ∨ (∃ text, e = .valueError text) ∧ UnreadableAddress sourceName dflt line := by
  unfold sourceRow at h
  split at h
  · cases h
  split at h
  · rename_i source ip label vmClass template hsplit
    split at h
    · cases h
    rename_i hip
    simp only [Bool.or_eq_true, decide_eq_true_eq, not_or] at hip
    rcases Except.of_bind_eq_error h with h | ⟨_, hname, h⟩
    · exact .inl (validateSourceName_raises _ _ e h)
    rcases Except.of_bind_eq_error h with h | ⟨_, hvm, h⟩
    · exact .inl (validateQubesVmName_raises _ _ _ e h)
    rcases Except.of_bind_eq_error h with h | ⟨_, hclass, h⟩
    · exact .inl (validateVmClass_raises _ _ _ _ e h)
    rcases Except.of_bind_eq_error h with h | ⟨policySource, hpolicy, h⟩
    · exact .inl (dispvmPolicySource_raises _ _ _ _ e h)
    cases policySource with
    | none => cases h
    | some policySource =>
      dsimp only at h
      split at h
      · rename_i haddress
        exact .inr ⟨⟨_, (Except.error.inj h).symm⟩, source, ip, label, vmClass, template, policySource, hsplit, hip.1,
          hip.2, hname, hvm, hclass, hpolicy, haddress⟩
      · exact .inl ⟨_, (Except.error.inj h).symm⟩
      · cases h
  · exact .inl ⟨_, (Except.error.inj h).symm⟩

private theorem strip_ne_nil {line : List Char} {a b : String} {fields : List String}
    (h : (Py.split '|' line).map String.ofList = a :: b :: fields) : (Py.strip line).isEmpty = false := by
  by_contra hempty
  have hnil : Py.strip line = [] := by simpa using hempty
  have hbar : ∀ c ∈ line, (c == '|') = false := by
    intro c hc
    rw [beq_eq_false_iff_ne]
    rintro rfl
    exact absurd (Py.isSpace_of_strip_eq_nil hnil hc) (by decide)
  have hsingle : Py.split '|' line = [line] := List.splitOnP_eq_singleton hbar
  rw [hsingle] at h
  cases h

theorem sourceRow_of_unreadableAddress {sourceName dflt : String} {line : List Char}
    (h : UnreadableAddress sourceName dflt line) : ∃ text, sourceRow sourceName dflt line = .error (.valueError text) := by
  obtain ⟨source, ip, label, vmClass, template, policySource, hsplit, hempty, hdash, hname, hvm, hclass, hpolicy,
    haddress⟩ := h
  refine ⟨String.ofList (Py.repr ip.toList) ++ " does not appear to be an IPv4 or IPv6 address", ?_⟩
  unfold sourceRow
  simp [notAnAddress, strip_ne_nil hsplit, hsplit, hempty, hdash, hname, hvm, hclass, hpolicy, haddress, bind,
    Except.bind]

/-! ### What a table can raise -/

/-- The first line that is refused is one whose address cannot be read. -/
def FirstUnreadable (sourceName dflt : String) (text : String) : Prop :=
  Py.isascii text.toList ∧ ∃ pre line post, sourceLines text = pre ++ line :: post ∧
    GoodLines sourceName dflt pre ∧ UnreadableAddress sourceName dflt line

theorem parseSourcesOutput_raises {text sourceName dflt : String} {e : PyError}
    (h : parseSourcesOutput text sourceName dflt = .error e) :
    (∃ message, e = .systemExit message) ∨ FirstUnreadable sourceName dflt text := by
  unfold parseSourcesOutput at h
  split at h
  · exact .inl ⟨_, (Except.error.inj h).symm⟩
  · rename_i hascii
    rcases error_of_foldlM _ h with hexit | ⟨pre, line, post, hlines, hgood, hrow⟩
    · exact .inl hexit
    · rcases sourceRow_raises hrow with hexit | ⟨-, hline⟩
      · exact .inl hexit
      · exact .inr ⟨by simpa using hascii, pre, line, post, hlines, hgood, hline⟩

theorem parseSourcesOutput_of_firstUnreadable {text sourceName dflt : String}
    (h : FirstUnreadable sourceName dflt text) :
    ∃ message, parseSourcesOutput text sourceName dflt = .error (.valueError message) := by
  obtain ⟨hascii, pre, line, post, hlines, hgood, hline⟩ := h
  obtain ⟨message, hrow⟩ := sourceRow_of_unreadableAddress hline
  obtain ⟨m, hm, -⟩ := lists_of_good pre hgood
  refine ⟨message, ?_⟩
  have hfold : (sourceLines text).foldlM (addSourceLine sourceName dflt) SourceMap.empty =
      .error (.valueError message) := by
    rw [hlines, List.foldlM_append, hm]
    change (addSourceLine sourceName dflt m line >>= fun m => post.foldlM (addSourceLine sourceName dflt) m) = _
    rw [addSourceLine_eq, hrow]
    rfl
  simpa [parseSourcesOutput, hascii, sourceLines] using hfold

/-! ### The alert -/

section Alert

variable {ω : Type} (sv : Services) (lib : DnsPython) (io : Io)

/-- The call stops in the alert about its sources, which gives `cause` as the reason, or in what raises while the alert
is shown.  It takes no critical section and sends nothing, and the state is `seen`. -/
def SourcesAlert {α : Type} (w : World Daemon PyError ω) (seen : Daemon) (cause : PyError)
    (result : EStateM.Result PyError (World Daemon PyError ω) α) : Prop :=
  ∃ e w', result = .error e w' ∧ w'.calls = w.calls + 1 ∧
    e = (w.faults w.calls).getD
      (.systemExit ("source identity refresh failed" ++ sourceRefreshErrorReason cause)) ∧
    w'.sections = w.sections ∧ w'.output = w.output ∧ w'.shared = seen

theorem isQueryFailure_of_alert {α : Type} {e cause : PyError} {w : World Daemon PyError ω} {seen : Daemon}
    (h : SourcesAlert w seen cause ((sourceRefreshFailed e : Thread Daemon PyError ω α).run w)) : e.isQueryFailure := by
  by_contra hfailure
  obtain ⟨e', w', hrun, hcalls, -⟩ := h
  rw [sourceRefreshFailed, if_neg hfailure] at hrun
  cases hrun
  exact absurd hcalls (Nat.ne_of_lt (Nat.lt_succ_self _))

theorem sourceRefreshFailed_alert {α : Type} (e : PyError) (w : World Daemon PyError ω) :
    SourcesAlert w w.shared e ((sourceRefreshFailed e : Thread Daemon PyError ω α).run w) ↔ e.isQueryFailure := by
  refine ⟨isQueryFailure_of_alert, fun hfailure => ?_⟩
  rw [sourceRefreshFailed, if_pos hfailure, EStateM.run_bind, Thread.run_external]
  cases hfault : w.faults w.calls with
  | none => exact ⟨_, _, rfl, rfl, by rw [hfault]; rfl, rfl, rfl, rfl⟩
  | some e' => exact ⟨_, _, rfl, rfl, by rw [hfault]; rfl, rfl, rfl, rfl⟩

variable {now : Rat} {text : String} {w : World Daemon PyError ω}

/-- A query raises what a refresh turns into an alert, unless an address is the first thing that cannot be read. -/
theorem queryDom0Sources_failure_iff {config : Config} :
    ((∃ m, queryDom0Sources (.ok text) config = .ok m) ∨
      ∃ e, queryDom0Sources (.ok text) config = .error e ∧ e.isQueryFailure) ↔
      ¬ FirstUnreadable sourceService config.defaultDisposableVmName text := by
  have hquery : queryDom0Sources (.ok text) config =
      parseSourcesOutput text sourceService config.defaultDisposableVmName := rfl
  rw [hquery]
  constructor
  · intro h hfirst
    obtain ⟨message, hvalue⟩ := parseSourcesOutput_of_firstUnreadable hfirst
    rcases h with ⟨m, hm⟩ | ⟨e, he, hfailure⟩
    · rw [hvalue] at hm
      cases hm
    · rw [hvalue] at he
      cases he
      cases hfailure
  · intro hfirst
    cases hparse : parseSourcesOutput text sourceService config.defaultDisposableVmName with
    | ok m => exact .inl ⟨m, rfl⟩
    | error e =>
      rcases parseSourcesOutput_raises hparse with ⟨message, rfl⟩ | h
      · exact .inr ⟨_, rfl, rfl⟩
      · exact absurd h hfirst

theorem isQueryFailure_of_not_firstUnreadable {config : Config} {e : PyError}
    (h : ¬ FirstUnreadable sourceService config.defaultDisposableVmName text)
    (he : queryDom0Sources (.ok text) config = .error e) : e.isQueryFailure := by
  rcases queryDom0Sources_failure_iff.2 h with ⟨m, hm⟩ | ⟨e', he', hfailure⟩
  · rw [he] at hm
    cases hm
  · rw [he] at he'
    cases he'
    exact hfailure

/-- The state in which a refresh reads its configuration. -/
def refreshSeen (w : World Daemon PyError ω) : Daemon :=
  w.others (w.accesses + 1) (w.others w.accesses w.shared)

/-- The refresh is not one of those that are held back because another was just made. -/
def RefreshDue (w : World Daemon PyError ω) (now : Rat) (force : Bool) : Prop :=
  force ∨ ¬ now - (w.others w.accesses w.shared).ctx.lastSourceRefresh < sourceRefreshInterval

/-- A refresh that is due and whose query raises does what `sourceRefreshFailed` does, two readings of the state later. -/
theorem refreshSourcesAndNft_run_failed {force : Bool} {answer : Except PyError String} {e : PyError}
    (hdue : RefreshDue w now force) (he : queryDom0Sources answer (refreshSeen w).ctx.config = .error e) :
    (refreshSourcesAndNft sv lib io now answer force).run w =
      (sourceRefreshFailed e).run { w with shared := refreshSeen w, accesses := w.accesses + 1 + 1 } := by
  have hheld : (!force && decide (now - (w.others w.accesses w.shared).ctx.lastSourceRefresh < sourceRefreshInterval)) =
      false := by
    rcases hdue with hforce | hlate
    · simp [hforce]
    · simp [hlate]
  rw [refreshSourcesAndNft, EStateM.run_bind, Thread.run_peek]
  dsimp only
  rw [if_neg (by simpa using hheld), forceSourceRefresh, EStateM.run_bind, Thread.run_peek]
  dsimp only
  rw [refreshSeen] at he
  rw [he]
  rfl

theorem refreshSourcesAndNft_failed {force : Bool} {answer : Except PyError String} {e : PyError}
    (hdue : RefreshDue w now force) (he : queryDom0Sources answer (refreshSeen w).ctx.config = .error e) :
    SourcesAlert w (refreshSeen w) e ((refreshSourcesAndNft sv lib io now answer force).run w) ↔ e.isQueryFailure := by
  rw [refreshSourcesAndNft_run_failed sv lib io hdue he]
  exact sourceRefreshFailed_alert e { w with shared := refreshSeen w, accesses := w.accesses + 1 + 1 }

theorem refreshSourcesRequired_failed {answer : Except PyError String} {e : PyError}
    (he : queryDom0Sources answer (w.others w.accesses w.shared).ctx.config = .error e) :
    SourcesAlert w (w.others w.accesses w.shared) e ((refreshSourcesRequired sv lib io now answer).run w) ↔
      e.isQueryFailure := by
  rw [refreshSourcesRequired, EStateM.run_bind, Thread.run_peek]
  dsimp only
  rw [he]
  exact sourceRefreshFailed_alert e
    { w with shared := w.others w.accesses w.shared, accesses := w.accesses + 1 }

/-- A table that is refused ends in the alert and leaves the state as it is, exactly when the first thing that cannot be
read is no address.  The refresh at the start differs in what state it reads its configuration from. -/
theorem refused_table_alerts_iff {force : Bool} (hdue : RefreshDue w now force) :
    ((((∃ m, queryDom0Sources (.ok text) (refreshSeen w).ctx.config = .ok m) ∨
          ∃ e, queryDom0Sources (.ok text) (refreshSeen w).ctx.config = .error e ∧ e.isQueryFailure) ∧
        ∀ e, queryDom0Sources (.ok text) (refreshSeen w).ctx.config = .error e →
          SourcesAlert w (refreshSeen w) e ((refreshSourcesAndNft sv lib io now (.ok text) force).run w)) ↔
      ¬ FirstUnreadable sourceService (refreshSeen w).ctx.config.defaultDisposableVmName text) ∧
    ((∀ e, queryDom0Sources (.ok text) (w.others w.accesses w.shared).ctx.config = .error e →
        SourcesAlert w (w.others w.accesses w.shared) e ((refreshSourcesRequired sv lib io now (.ok text)).run w)) ↔
      ¬ FirstUnreadable sourceService (w.others w.accesses w.shared).ctx.config.defaultDisposableVmName text) := by
  refine ⟨⟨fun h => queryDom0Sources_failure_iff.1 h.1, fun h => ⟨queryDom0Sources_failure_iff.2 h, fun e he => ?_⟩⟩,
    fun h hfirst => ?_, fun h e he => ?_⟩
  · exact (refreshSourcesAndNft_failed sv lib io hdue he).2 (isQueryFailure_of_not_firstUnreadable h he)
  · obtain ⟨message, hvalue⟩ := parseSourcesOutput_of_firstUnreadable hfirst
    have hquery : queryDom0Sources (.ok text) (w.others w.accesses w.shared).ctx.config =
        .error (.valueError message) := hvalue
    cases (refreshSourcesRequired_failed sv lib io hquery).1 (h _ hquery)
  · exact (refreshSourcesRequired_failed sv lib io he).2 (isQueryFailure_of_not_firstUnreadable h he)

end Alert

namespace Sample

/-- The map of a daemon that has just started. -/
def starting : Daemon := ⟨Queue.initial, ⟨config, .empty, .empty, .empty, none, .empty, .empty, 0⟩⟩

def io : Io := ⟨fun _ => .error "", fun _ => true, fun _ => true, fun _ => none⟩

def startingWorld : World Daemon PyError Empty := { shared := starting, others := fun _ d => d, faults := fun _ => none }

/-- The last number of the address is too large. -/
def badAddress : String := "work|10.137.0.256|green|AppVM|-"

theorem query_badAddress : queryDom0Sources (.ok badAddress) config =
    .error (.valueError "'10.137.0.256' does not appear to be an IPv4 or IPv6 address") := by decide +kernel

theorem refused_badAddress_no_alert :
    ¬ ((∃ m, queryDom0Sources (.ok badAddress) config = .ok m) ∨
      ∃ e, queryDom0Sources (.ok badAddress) config = .error e ∧ e.isQueryFailure) ∧
    ∀ e, ¬ SourcesAlert startingWorld starting e
      ((refreshSourcesAndNft .empty dnspython io 0 (.ok badAddress) true).run startingWorld) := by
  refine ⟨?_, fun e h => ?_⟩
  · rw [query_badAddress]
    rintro (⟨m, hm⟩ | ⟨e, he, hfailure⟩)
    · cases hm
    · cases he
      cases hfailure
  · have hdue : RefreshDue startingWorld 0 true := .inl rfl
    rw [refreshSourcesAndNft_run_failed _ _ _ hdue query_badAddress] at h
    cases isQueryFailure_of_alert (w := { startingWorld with shared := starting, accesses := 2 }) h
/-- A line without a template. -/
theorem refused_table_alerts_fourFields : SourcesAlert startingWorld starting (.systemExit
      "qubes.SnitchSources: expected name|ip|label|class|template line: work|10.137.0.5|green|AppVM")
    ((refreshSourcesAndNft .empty dnspython io 0 (.ok "work|10.137.0.5|green|AppVM") true).run startingWorld) := by
  have hquery : queryDom0Sources (.ok "work|10.137.0.5|green|AppVM") config = .error (.systemExit
      "qubes.SnitchSources: expected name|ip|label|class|template line: work|10.137.0.5|green|AppVM") := by
    decide +kernel
  have hfirst : ¬ FirstUnreadable sourceService config.defaultDisposableVmName "work|10.137.0.5|green|AppVM" :=
    queryDom0Sources_failure_iff.1 (.inr ⟨_, hquery, rfl⟩)
  have hdue : RefreshDue startingWorld 0 true := .inl rfl
  exact ((refused_table_alerts_iff .empty dnspython io hdue).1.2 hfirst).2 _ hquery

end Sample

end QubesSnitch
