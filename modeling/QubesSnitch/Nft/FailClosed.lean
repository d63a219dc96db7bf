import QubesSnitch.Nft.Guarantees

/-!
# Loading a table

`loadNft` puts a rendered table into the kernel: it writes the file, has nft check it and has nft load it.  A load may
fail and leave any table, or none, since the batch begins by destroying the old one; then the table that lets nothing
pass is loaded before the error is passed on.  Which runs of nft fail is up to the environment.

The tables that let nothing pass are the one of the file that systemd loads (`staticFailClosed`) and the one that the
daemon renders (`renderFailClosedNft`).  Neither of them accepts a forwarded packet, whatever the limiters do.
-/

namespace QubesSnitch.Nft

/-! ### Tables in the kernel -/

/-- `fail-closed.nft`.  The rejects of this file have no limit: `Loaded.eval` does not ask a limiter for them. -/
def staticFailClosed : Table where
  name := "qubes_snitch"
  chains := [
    { name := "input"
      base := some (.input, .accept)
      rules := [⟨[.iifname "vif", .fibDaddrLocal], .reject "" 0 "QUBES-SNITCH local reject "⟩] },
    { name := "forward"
      base := some (.forward, .drop)
      rules := [⟨[.metaNfprotoIpv4], .reject "" 0 "QUBES-SNITCH fail-closed reject "⟩] }]

/-- What the kernel has got: the file of the unit, or a batch that the daemon rendered. -/
inductive Loaded where
  | unitFile
  | batch (table : Table)

def Loaded.eval (lim : Table.Limiter → Bool) (hook : Hook) (packet : Packet) : Loaded → Option Verdict
  | unitFile => staticFailClosed.eval (fun _ => true) hook packet
  | batch table => table.eval lim hook packet

/-- How a run of `nft -f` ends: the kernel has the file, or some table or none. -/
inductive NftRun where
  | loads
  | fails (left : Option Loaded)

/-- The table in the kernel, and whether the last run of `nft -f` succeeded. -/
structure Firewall where
  table : Option Loaded
  settled : Bool

def Firewall.run (new : Loaded) : NftRun → Firewall
  | .loads => ⟨some new, true⟩
  | .fails left => ⟨left, false⟩

/-- What happens to the steps of one load: writing the file, `nft -c -f` and `nft -f`. -/
structure Attempt where
  write : Option PyError
  check : Bool
  load : NftRun

/-- The file is written and checked. -/
def Attempt.prepare (run : Attempt) : EStateM PyError Firewall Unit :=
  match run.write, run.check with
  | some e, _ => throw e
  | none, false => throw nftCheckFailed
  | none, true => return

/-- `nft -f` of the file. -/
def Attempt.install (run : Attempt) (new : Table) : EStateM PyError Firewall Unit := do
  set (Firewall.run (.batch new) run.load)
  match run.load with
  | .loads => return
  | .fails _ => throw nftLoadFailed

variable (sv : Services) (sources : SourcesByName) (rules : Rules) (config : Config) (nftTable : String) (queueNum : Nat)

def loadFailClosedNft (run : Attempt) : EStateM PyError Firewall Unit := do
  run.prepare
  run.install (renderFailClosedNft config nftTable queueNum)

def rendered : EStateM PyError Firewall Table := fun fw =>
  match renderNft sv sources rules config nftTable queueNum with
  | .ok table => .ok table fw
  | .error e => .error e fw

/-- `load_nft`, with the attempt to restore a table where the load fails. -/
def loadNft (run restore : Attempt) : EStateM PyError Firewall Unit := do
  let table ← rendered sv sources rules config nftTable queueNum
  run.prepare
  match ← attempt (run.install table) with
  | .ok _ => return
  | .error e => do
    loadFailClosedNft config nftTable queueNum restore
    throw e

/-! ### What a load leaves -/

variable {sv sources rules config nftTable queueNum}

theorem Attempt.prepare_spec (run : Attempt) (fw : Firewall) :
    Triple (fun now => now = fw) run.prepare (fun _ now => now = fw) fun _ now => now = fw := by
  rintro _ rfl
  rcases run with ⟨_ | e, _ | _, load⟩ <;> rfl

theorem Attempt.install_spec (run : Attempt) (new : Table) (fw : Firewall) :
    Triple (fun now => now = fw) (run.install new) (fun _ now => now = ⟨some (.batch new), true⟩)
      fun _ now => ∃ left, run.load = .fails left ∧ now = ⟨left, false⟩ := by
  rintro _ rfl
  rcases run with ⟨write, check, _ | left⟩
  · rfl
  · exact ⟨left, rfl, rfl⟩

/-- A failed load of the fail-closed table leaves what there was, or what its `nft -f` leaves. -/
theorem loadFailClosedNft_spec (run : Attempt) (fw : Firewall) :
    Triple (fun now => now = fw) (loadFailClosedNft config nftTable queueNum run)
      (fun _ now => now = ⟨some (.batch (renderFailClosedNft config nftTable queueNum)), true⟩)
      fun _ now => now = fw ∨ now.settled = false :=
  .bind (.conseq (run.prepare_spec fw) (fun _ h => h) (fun _ _ h => h) fun _ _ h => .inl h) fun _ =>
    .conseq (run.install_spec _ fw) (fun _ h => h) (fun _ _ h => h) fun _ _ h => by
      obtain ⟨left, -, rfl⟩ := h
      exact .inr rfl

theorem rendered_spec (fw : Firewall) :
    Triple (fun now => now = fw) (rendered sv sources rules config nftTable queueNum)
      (fun table now => renderNft sv sources rules config nftTable queueNum = .ok table ∧ now = fw)
      fun _ now => now = fw := by
  rintro _ rfl
  unfold rendered EStateM.run
  cases renderNft sv sources rules config nftTable queueNum with
  | ok table => exact ⟨rfl, rfl⟩
  | error e => rfl

/-- A load that returns has put the rendered table into the kernel.  One that raises leaves the table that was there,
the fail-closed one, or what a failed `nft -f` leaves. -/
theorem loadNft_spec (run restore : Attempt) (fw : Firewall) :
    Triple (fun now => now = fw) (loadNft sv sources rules config nftTable queueNum run restore)
      (fun _ now => ∃ table, renderNft sv sources rules config nftTable queueNum = .ok table ∧
        now = ⟨some (.batch table), true⟩)
      fun _ now => now = fw ∨ now = ⟨some (.batch (renderFailClosedNft config nftTable queueNum)), true⟩ ∨
        now.settled = false := by
  refine .bind (.conseq (rendered_spec fw) (fun _ h => h) (fun _ _ h => h) fun _ _ h => .inl h) fun table => ?_
  refine .assume fun htable => .bind (.conseq (run.prepare_spec fw) (fun _ h => h) (fun _ _ h => h) fun _ _ h => .inl h)
    fun _ => .bind (Triple.conseq (Triple.attempted (run.install_spec table fw)) (fun _ h => h) (fun _ _ h => h)
      fun _ _ h => h.elim) fun installed => ?_
  cases installed with
  | ok _ => exact .pure fun now h => ⟨table, htable, h⟩
  | error e =>
    -- the table is restored before the error is passed on
    intro now h
    obtain ⟨left, -, hnow⟩ := h
    have hrestore := @loadFailClosedNft_spec config nftTable queueNum restore now
    refine Triple.bind (.conseq hrestore (fun _ h => h) (fun _ _ h => h) fun _ fw' h => ?_) (fun _ => ?_) now rfl
    · rcases h with rfl | h
      · exact .inr (.inr (by rw [hnow]))
      · exact .inr (.inr h)
    · exact .throw fun fw' h => .inr (.inl h)

/-! ### What the tables let pass -/

/-- A packet from a client VM to an address of the firewall VM itself. -/
def FromVif (packet : Packet) : Prop := packet.daddrIsLocal ∧ "vif".toList.isPrefixOf packet.iifname.toList

instance (packet : Packet) : Decidable (FromVif packet) := inferInstanceAs (Decidable (_ ∧ _))

theorem staticFailClosed_forward (lim : Table.Limiter → Bool) (packet : Packet) :
    Loaded.unitFile.eval lim .forward packet = some (if packet.addrs.isSome then .reject else .drop) := by
  have hchain : staticFailClosed.chainRules "forward" =
      [⟨[.metaNfprotoIpv4], .reject "" 0 "QUBES-SNITCH fail-closed reject "⟩] := by decide
  rw [Loaded.eval, Table.eval, show staticFailClosed.loads from by decide,
    show staticFailClosed.baseChain .forward = some ("forward", .drop) by decide]
  simp only [Table.maxJumpDepth, Table.evalChain_uniform, hchain, List.findSome?_singleton]
  cases h : packet.addrs <;> simp [Table.step, Rule.applies, Match.holds, h, limited]

theorem staticFailClosed_input (lim : Table.Limiter → Bool) (packet : Packet) :
    Loaded.unitFile.eval lim .input packet = some (if FromVif packet then .reject else .accept) := by
  have hchain : staticFailClosed.chainRules "input" =
      [⟨[.iifname "vif", .fibDaddrLocal], .reject "" 0 "QUBES-SNITCH local reject "⟩] := by decide
  rw [Loaded.eval, Table.eval, show staticFailClosed.loads from by decide,
    show staticFailClosed.baseChain .input = some ("input", .accept) by decide]
  simp only [Table.maxJumpDepth, Table.evalChain_uniform, hchain, List.findSome?_singleton]
  have happlies : ("vif".toList.isPrefixOf packet.iifname.toList && packet.daddrIsLocal) = decide (FromVif packet) := by
    rw [Bool.eq_iff_iff, decide_eq_true_iff, Bool.and_eq_true, and_comm]
    rfl
  simp only [Table.step, Rule.applies, List.all_cons, List.all_nil, Match.holds, Bool.and_true, happlies]
  by_cases h : FromVif packet <;> simp [h, limited]

/-- The rendered table queues IPv4 and lets nothing pass. -/
theorem renderFailClosedNft_forward (lim : Table.Limiter → Bool) (packet : Packet) :
    (renderFailClosedNft config nftTable queueNum).eval lim .forward packet =
      some (if packet.ctState = .invalid ∧ lim ("forward", 0) then .reject
        else if packet.addrs.isSome then .queue
        else if lim ("forward", 2) then .reject else .drop) := by
  have hchain : (renderFailClosedNft config nftTable queueNum).chainRules "forward" =
      [invalidReject config "QUBES-SNITCH invalid ", ⟨[.metaNfprotoIpv4], .queue queueNum⟩,
        ⟨[], rejectLog config "QUBES-SNITCH fail-closed reject "⟩] := by rfl
  rw [Table.eval, show (renderFailClosedNft config nftTable queueNum).loads from by rfl,
    show (renderFailClosedNft config nftTable queueNum).baseChain .forward = some ("forward", .drop) by rfl]
  simp only [Table.maxJumpDepth, Table.evalChain, hchain, invalidReject, rejectLog, List.zipIdx_cons, List.zipIdx_nil,
    List.findSome?_cons, List.findSome?_nil, Rule.applies, List.all_cons, List.all_nil, Match.holds, List.mem_singleton]
  by_cases hinvalid : packet.ctState = .invalid <;> by_cases hfirst : lim ("forward", 0) <;>
    by_cases haddrs : packet.addrs.isSome <;> by_cases hlast : lim ("forward", 2) <;>
    simp [hinvalid, hfirst, haddrs, hlast]

end QubesSnitch.Nft
