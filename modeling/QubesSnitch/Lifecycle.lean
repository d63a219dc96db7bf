import QubesSnitch.Enforcement

/-!
# The life of the firewall

The units of systemd load `fail-closed.nft` early, before the daemon starts, and after it has ended; in between the
daemon runs and loads the tables of its policy.  Every run of `nft -f` may fail and leave any table or none, and the
daemon may end at any time.

A running daemon has the static file or the table of a policy that it has had itself in the kernel: a load that fails ends
it.  Where the last run of `nft -f` has succeeded, whatever the earlier ones have left, the kernel accepts a forwarded
packet only by the table of a policy that the daemon started last has had in memory, and with the service stopped it
accepts and queues none (`host_guarded`).
-/

namespace QubesSnitch

open Nft

variable (sv : Services) (lib : DnsPython) (config : Config)

/-- The service: stopped, running, or ended with `stop-post.sh` still to come. -/
inductive Phase where
  | stopped
  | running
  | ended
  deriving DecidableEq

/-- The kernel, the service, and the states that the daemon started last has come to, the present one first. -/
structure Host where
  firewall : Firewall
  phase : Phase
  systems : List System

/-- What a load in the running daemon leaves; one that raises ends the daemon. -/
def Host.afterLoad (host : Host) (load : EStateM PyError Firewall Unit) : Host :=
  match load.run host.firewall with
  | .ok _ firewall => { host with firewall, phase := .running }
  | .error _ firewall => { host with firewall, phase := .ended }

/-- A step of the service, or of the daemon in it. -/
inductive HostStep (host : Host) : Host → Prop
  /-- The early unit. -/
  | early (run : NftRun) (h : host.phase = .stopped) :
      HostStep host { host with firewall := .run .unitFile run, phase := .stopped }
  /-- The commands before the start succeed, and the daemon reads the policy of whatever directory there is. -/
  | start {io : Io} {dir : RulesDir} {ctx : Runtime}
      (hload : (loadPolicyWithoutSources sv lib io config).run (Runtime.initial dir) = .ok () ctx)
      (h : host.phase = .stopped) : HostStep host ⟨.run .unitFile .loads, .running, [System.start ctx]⟩
  /-- One of the commands before the start fails, or the daemon does not get that far. -/
  | startFails (run : NftRun) (h : host.phase = .stopped) :
      HostStep host { host with firewall := .run .unitFile run, phase := .ended }
  | act {s s' : System} (hs : host.systems.head? = some s) (hstep : Step sv lib (fun _ => True) s s')
      (h : host.phase = .running) : HostStep host { host with systems := s' :: host.systems }
  /-- The daemon loads the table of its present policy. -/
  | load {s : System} (hs : host.systems.head? = some s) (run restore : Attempt) (h : host.phase = .running) :
      HostStep host (host.afterLoad (Nft.loadNft sv s.daemon.ctx.sources.byName s.daemon.ctx.rules s.daemon.ctx.config
        nftTable queueNum run restore))
  | ends (h : host.phase = .running) : HostStep host { host with phase := .ended }
  | stopPost (run : NftRun) (h : host.phase = .ended) :
      HostStep host { host with firewall := .run .unitFile run, phase := .stopped }

/-- The kernel without a table of Snitch, before any daemon. -/
def Host.boot : Host := ⟨⟨none, false⟩, .stopped, []⟩

abbrev HostReaches : Host → Host → Prop := Relation.ReflTransGen (HostStep sv lib config)

/-- The table of a policy that the daemon of the host has had. -/
def PolicyTable (sv : Services) (systems : List System) (s : System) (table : Loaded) : Prop :=
  s ∈ systems ∧ ∃ t, renderNft sv s.daemon.ctx.sources.byName s.daemon.ctx.rules s.daemon.ctx.config nftTable queueNum =
    .ok t ∧ table = .batch t

/-- The tables of a running daemon: that of the unit, and that of a policy it has had. -/
inductive Serves (sv : Services) (systems : List System) : Loaded → Prop
  | unitFile : Serves sv systems .unitFile
  | policy {s : System} {table : Loaded} (h : PolicyTable sv systems s table) : Serves sv systems table

/-- The tables that the kernel may have after a successful `nft -f`. -/
inductive Trusted (sv : Services) (config : Config) (systems : List System) : Loaded → Prop
  | serves {table : Loaded} (h : Serves sv systems table) : Trusted sv config systems table
  | failClosed : Trusted sv config systems (.batch (renderFailClosedNft config nftTable queueNum))

/-- What holds of the daemon, and of the table in the kernel in each phase. -/
structure HostInvariant (host : Host) : Prop where
  daemon : ∀ s ∈ host.systems, SystemInvariant sv lib config s
  settled : host.firewall.settled → ∃ table, host.firewall.table = some table ∧ Trusted sv config host.systems table
  running : host.phase = .running → host.firewall.settled ∧
    ∃ table, host.firewall.table = some table ∧ Serves sv host.systems table
  stopped : host.phase = .stopped → host.firewall.settled → host.firewall.table = some .unitFile

variable {sv lib config}

/-! ### The load of the daemon -/

/-- The attempt that an environment of the daemon stands for, where a failed load leaves `left`. -/
def Io.attempt (io : Io) (table : Table) (left : Option Loaded) : Attempt where
  write := none
  check := io.nftCheck table.text
  load := if io.nftLoad table.text then .loads else .fails left

/-- `policy_runtime.load_nft` and `nft.load_nft` return together, the one with the text of the table that the other has
put into the kernel, and raise together. -/
theorem loadNft_agrees (io : Io) (ctx : Runtime) {table : Table}
    (htable : renderNft sv ctx.sources.byName ctx.rules ctx.config nftTable queueNum = .ok table)
    (left left' : Option Loaded) (fw : Firewall) :
    let load := Nft.loadNft sv ctx.sources.byName ctx.rules ctx.config nftTable queueNum (io.attempt table left)
      (io.attempt (renderFailClosedNft ctx.config nftTable queueNum) left')
    ((loadNft sv io).run ctx = .ok () { ctx with nftText := table.text } ∧
      load.run fw = .ok () ⟨some (.batch table), true⟩) ∨
    (∃ e ctx' fw', (loadNft sv io).run ctx = .error e ctx' ∧ load.run fw = .error e fw') := by
  simp only [EStateM.run, loadNft, Nft.loadNft, htable, bind, EStateM.bind, rendered, Attempt.prepare, Io.attempt,
    loadFailClosedNft, Attempt.install]
  cases hcheck : io.nftCheck table.text with
  | false => exact .inr ⟨_, _, _, rfl, rfl⟩
  | true =>
    cases hload : io.nftLoad table.text with
    | true => exact .inl ⟨rfl, rfl⟩
    | false =>
      cases io.nftCheck (renderFailClosedNft ctx.config nftTable queueNum).text <;>
        cases io.nftLoad (renderFailClosedNft ctx.config nftTable queueNum).text <;> exact .inr ⟨_, _, _, rfl, rfl⟩

/-! ### Steps -/

theorem Serves.mono {systems systems' : List System} (h : systems ⊆ systems') {table : Loaded}
    (ht : Serves sv systems table) : Serves sv systems' table := by
  cases ht with
  | unitFile => exact .unitFile
  | policy hpolicy => exact .policy ⟨h hpolicy.1, hpolicy.2⟩

theorem Trusted.mono {systems systems' : List System} (h : systems ⊆ systems') {table : Loaded}
    (ht : Trusted sv config systems table) : Trusted sv config systems' table := by
  cases ht with
  | serves hserves => exact .serves (hserves.mono h)
  | failClosed => exact .failClosed

theorem hostInvariant_boot : HostInvariant sv lib config Host.boot where
  daemon := List.forall_mem_nil _
  settled h := by cases h
  running h := by cases h
  stopped _ h := by cases h

/-- After a run of `nft -f` with the file of the unit. -/
theorem hostInvariant_unitFile {systems : List System} (hdaemon : ∀ s ∈ systems, SystemInvariant sv lib config s)
    (run : NftRun) {phase : Phase} (h : phase = .running → run = .loads) :
    HostInvariant sv lib config ⟨.run .unitFile run, phase, systems⟩ := by
  cases run with
  | loads => exact ⟨hdaemon, fun _ => ⟨_, rfl, .serves .unitFile⟩, fun _ => ⟨rfl, _, rfl, .unitFile⟩, fun _ _ => rfl⟩
  | fails left => exact ⟨hdaemon, fun h => (by cases h), fun hrunning => (by cases h hrunning), fun _ h => (by cases h)⟩

namespace HostInvariant

variable {host host' : Host}

/-- A load leaves the table of the policy in a running daemon, or ends it. -/
theorem afterLoad (h : HostInvariant sv lib config host) (hrunning : host.phase = .running) {s : System}
    (hs : s ∈ host.systems) (run restore : Attempt) :
    HostInvariant sv lib config (host.afterLoad (Nft.loadNft sv s.daemon.ctx.sources.byName s.daemon.ctx.rules
      s.daemon.ctx.config nftTable queueNum run restore)) := by
  have hspec := @loadNft_spec sv s.daemon.ctx.sources.byName s.daemon.ctx.rules s.daemon.ctx.config nftTable queueNum run
    restore host.firewall host.firewall rfl
  unfold Host.afterLoad
  split at hspec
  · rename_i hload
    rw [hload]
    obtain ⟨table, htable, rfl⟩ := hspec
    have hserves : Serves sv host.systems (.batch table) := .policy ⟨hs, table, htable, rfl⟩
    exact ⟨h.daemon, fun _ => ⟨_, rfl, .serves hserves⟩, fun _ => ⟨rfl, _, rfl, hserves⟩,
      fun hstopped => (by cases hstopped)⟩
  · rename_i hload
    rw [hload]
    refine ⟨h.daemon, fun hsettled => ?_, fun hphase => (by cases hphase), fun hstopped => (by cases hstopped)⟩
    rcases hspec with hsame | hclosed | hfailed
    · obtain ⟨-, table, htable, hserves⟩ := h.running hrunning
      exact ⟨table, hsame ▸ htable, .serves hserves⟩
    · refine ⟨_, by rw [hclosed], ?_⟩
      rw [(h.daemon s hs).configured]
      exact .failClosed
    · have hsettled : Firewall.settled _ = true := hsettled
      rw [hfailed] at hsettled
      cases hsettled

/-- A section of the daemon leaves the kernel alone. -/
theorem act (h : HostInvariant sv lib config host) {s s' : System} (hs : s ∈ host.systems)
    (hstep : Step sv lib (fun _ => True) s s') : HostInvariant sv lib config { host with systems := s' :: host.systems } := by
  have hmono : host.systems ⊆ s' :: host.systems := List.subset_cons_self s' host.systems
  refine ⟨List.forall_mem_cons.2 ⟨(h.daemon s hs).step hstep, h.daemon⟩, fun hsettled => ?_, fun hrunning => ?_, h.stopped⟩
  · obtain ⟨table, htable, htrusted⟩ := h.settled hsettled
    exact ⟨table, htable, htrusted.mono hmono⟩
  · obtain ⟨hsettled, table, htable, hserves⟩ := h.running hrunning
    exact ⟨hsettled, table, htable, hserves.mono hmono⟩

theorem step (h : HostInvariant sv lib config host) (hstep : HostStep sv lib config host host') :
    HostInvariant sv lib config host' := by
  cases hstep with
  | early run hphase => exact hostInvariant_unitFile h.daemon run fun hrunning => by cases hrunning
  | start hload hphase =>
    exact hostInvariant_unitFile (List.forall_mem_singleton.2 (invariant_start hload)) .loads fun _ => rfl
  | startFails run hphase => exact hostInvariant_unitFile h.daemon run fun hrunning => by cases hrunning
  | act hs hsection hphase => exact h.act (List.mem_of_head? hs) hsection
  | load hs run restore hphase => exact h.afterLoad hphase (List.mem_of_head? hs) run restore
  | ends hphase =>
    exact ⟨h.daemon, h.settled, fun hrunning => (by cases hrunning), fun hstopped => (by cases hstopped)⟩
  | stopPost run hphase => exact hostInvariant_unitFile h.daemon run fun hrunning => by cases hrunning

theorem run (hrun : HostReaches sv lib config Host.boot host) : HostInvariant sv lib config host := by
  induction hrun with
  | refl => exact hostInvariant_boot
  | tail _ hstep ih => exact ih.step hstep

end HostInvariant

/-! ### Packets -/

/-- A table in the kernel that accepts a packet is that of a policy the daemon has had, and where the kernel has that
policy as it is meant, the policy allows the packet. -/
theorem Trusted.accept_allowed {systems : List System} (hsystems : ∀ s ∈ systems, SystemInvariant sv lib config s)
    {table : Loaded} (h : Trusted sv config systems table) {lim : Table.Limiter → Bool} {packet : Packet}
    (haccept : table.eval lim .forward packet = some .accept) : ∃ s, PolicyTable sv systems s table ∧
      (PolicyKept sv s.daemon.ctx.sources s.daemon.ctx.rules lim packet →
        KernelAllowed sv s.daemon.ctx.sources s.daemon.ctx.rules packet) := by
  cases h with
  | serves hserves =>
    cases hserves with
    | unitFile =>
      rw [staticFailClosed_forward] at haccept
      split at haccept <;> cases haccept
    | @policy s _ hpolicy =>
      refine ⟨s, hpolicy, fun hkept => ?_⟩
      obtain ⟨hs, t, htable, rfl⟩ := hpolicy
      have hinv := hsystems s hs
      obtain ⟨t', htable', hspec⟩ := renderNft_spec hinv.sources hinv.known_sound s.daemon.ctx.config nftTable queueNum
      obtain rfl : t' = t := Except.ok.inj (htable'.symm.trans htable)
      exact hspec.accept_allowed hinv.sources hinv.known_sound hkept haccept
  | failClosed =>
    rw [Loaded.eval, renderFailClosedNft_forward] at haccept
    split at haccept
    · cases haccept
    · split at haccept
      · cases haccept
      · split at haccept <;> cases haccept

/-- The kernel of a stopped service lets nothing pass and queues nothing, and keeps client VMs from local addresses. -/
structure Shut (table : Loaded) (packet : Packet) : Prop where
  forward : ∀ lim, table.eval lim .forward packet = some .reject ∨ table.eval lim .forward packet = some .drop
  input : FromVif packet → ∀ lim, table.eval lim .input packet = some .reject

theorem shut_unitFile (packet : Packet) : Shut .unitFile packet where
  forward lim := by
    rw [staticFailClosed_forward]
    cases packet.addrs.isSome
    · exact .inr rfl
    · exact .inl rfl
  input hvif lim := by rw [staticFailClosed_input, if_pos hvif]

/-- The firewall fails closed.  Whatever fails and whenever the daemon ends: a running daemon has the table of the unit
or of a policy that it has had in the kernel; where the last `nft -f` has succeeded, a table that accepts a forwarded
packet is that of a policy which the daemon started last has had, and that policy allows the packet where the kernel has
it as it is meant; and where it has succeeded and the service is stopped, nothing passes. -/
theorem host_guarded {host : Host} (hrun : HostReaches sv lib config Host.boot host) :
    (host.phase = .running → host.firewall.settled ∧
      ∃ table, host.firewall.table = some table ∧ Serves sv host.systems table) ∧
    (host.firewall.settled → ∃ table, host.firewall.table = some table ∧
      (∀ lim packet, table.eval lim .forward packet = some .accept → ∃ s, PolicyTable sv host.systems s table ∧
        (PolicyKept sv s.daemon.ctx.sources s.daemon.ctx.rules lim packet →
          KernelAllowed sv s.daemon.ctx.sources s.daemon.ctx.rules packet)) ∧
      (host.phase = .stopped → ∀ packet, Shut table packet)) := by
  have h := HostInvariant.run hrun
  refine ⟨h.running, fun hsettled => ?_⟩
  obtain ⟨table, htable, htrusted⟩ := h.settled hsettled
  refine ⟨table, htable, fun lim packet haccept => htrusted.accept_allowed h.daemon haccept, fun hstopped packet => ?_⟩
  obtain rfl : table = .unitFile := Option.some.inj (htable.symm.trans (h.stopped hstopped hsettled))
  exact shut_unitFile packet

namespace Sample

/-- The daemon has its sources, and the table of the unit is still in the kernel. -/
def serving : Host := ⟨.run .unitFile .loads, .running, [mapped, System.start loaded]⟩

/-- The first load destroys the table and fails, and so does the one that is to restore it. -/
def failing : Attempt := ⟨none, true, .fails none⟩

def broken : Host := serving.afterLoad (Nft.loadNft .empty mapped.daemon.ctx.sources.byName mapped.daemon.ctx.rules
  mapped.daemon.ctx.config nftTable queueNum failing failing)

theorem reaches_serving : HostReaches .empty dnspython Sample.config Host.boot serving := by
  have hstart : HostStep .empty dnspython Sample.config Host.boot ⟨.run .unitFile .loads, .running, [System.start loaded]⟩ :=
    .start load_empty rfl
  exact (Relation.ReflTransGen.single hstart).tail (.act rfl (mapped_step trivial) rfl)

theorem broken_eq : broken = ⟨⟨none, false⟩, .ended, serving.systems⟩ := by
  have h := (HostInvariant.run reaches_serving).daemon mapped (by simp [serving])
  obtain ⟨table, htable, -⟩ := renderNft_spec h.sources h.known_sound mapped.daemon.ctx.config nftTable queueNum
  have hload : (Nft.loadNft .empty mapped.daemon.ctx.sources.byName mapped.daemon.ctx.rules mapped.daemon.ctx.config
      nftTable queueNum failing failing).run serving.firewall = .error nftLoadFailed ⟨none, false⟩ := by
    simp only [EStateM.run, Nft.loadNft, bind, EStateM.bind, rendered, htable]
    rfl
  rw [broken, Host.afterLoad, hload]

theorem reaches_stopped : HostReaches .empty dnspython Sample.config Host.boot
    ⟨.run .unitFile .loads, .stopped, serving.systems⟩ := by
  have hbroken : HostStep .empty dnspython Sample.config serving broken := .load rfl failing failing rfl
  have hstop : HostStep .empty dnspython Sample.config broken ⟨.run .unitFile .loads, .stopped, serving.systems⟩ := by
    rw [broken_eq]
    exact .stopPost .loads rfl
  exact (reaches_serving.tail hbroken).tail hstop

end Sample

/-- The kernel had lost its table, and the daemon is gone: nothing passes. -/
theorem host_guarded_stopped : Shut .unitFile Sample.kernelPacket := by
  obtain ⟨table, htable, -, hshut⟩ := (host_guarded Sample.reaches_stopped).2 rfl
  obtain rfl : table = .unitFile := (Option.some.inj htable).symm
  exact hshut rfl Sample.kernelPacket

end QubesSnitch
