import QubesSnitch.Lib.ChainWalk
import QubesSnitch.Lib.Dict

/-!
# Which qubes are behind Snitch

dom0 lists the qubes whose traffic passes the Snitch VM.  `vmUsesSnitch` follows the NetVMs of a qube in the map that
dom0 read from `qubes.xml`, where a chain may end, name a VM that is not there, or run in a circle.
-/

namespace QubesSnitch

/-- `vm and vm != "-"` -/
def isVmName (vm : String) : Bool := vm ≠ "" && vm ≠ "-"

/-- `vm_uses_snitch`, for a number of tests of its loop; `none` means that the loop has not ended by then. -/
def vmUsesSnitch (snitchVm : String) (netvms : Dict String String) (rounds : Nat) (name : String) : Option Bool :=
  ChainWalk.run netvms.get? isVmName snitchVm rounds [] (some name)

/-- The target is the VM itself or is reached by following NetVMs, through VM names only; the target is one of them. -/
inductive UsesNetvm (netvms : Dict String String) (target : String) : String → Prop
  | self (h : isVmName target) : UsesNetvm netvms target target
  | netvm {vm next : String} (h : isVmName vm) (hnext : netvms.get? vm = some next)
      (hrest : UsesNetvm netvms target next) : UsesNetvm netvms target vm

theorem usesNetvm_iff_reaches {netvms : Dict String String} {target vm : String} :
    UsesNetvm netvms target vm ↔ ChainWalk.Reaches netvms.get? isVmName target vm := by
  constructor
  · intro h
    induction h with
    | self h => exact ⟨.refl, h⟩
    | netvm h hnext _ ih => exact ⟨.head ⟨h, hnext⟩ ih.1, ih.2⟩
  · rintro ⟨hreach, htarget⟩
    induction hreach using Relation.ReflTransGen.head_induction_on with
    | refl => exact .self htarget
    | head hstep _ ih => exact .netvm hstep.1 hstep.2 ih

/-- On every map the loop ends, after at most two rounds more than there are entries, and tells whether the Snitch VM
is reached. -/
theorem vmUsesSnitch_decides (snitchVm : String) (netvms : Dict String String) (name : String) :
    ∃ uses, (∀ rounds, netvms.size + 2 ≤ rounds → vmUsesSnitch snitchVm netvms rounds name = some uses) ∧
      (uses ↔ UsesNetvm netvms snitchVm name) := by
  have hkeys : ∀ vm next, netvms.get? vm = some next → vm ∈ netvms.keys := fun _ _ => Dict.mem_keys_of_get?
  have hsize : netvms.keys.length = netvms.size := by rw [Dict.keys, Dict.size, List.length_map]
  have hrun : ∀ rounds, netvms.size + 2 ≤ rounds → ∃ uses, vmUsesSnitch snitchVm netvms rounds name = some uses ∧
      (uses ↔ UsesNetvm netvms snitchVm name) := by
    intro rounds hrounds
    rw [← hsize] at hrounds
    obtain ⟨uses, hsome, huses⟩ := ChainWalk.run_decides isVmName snitchVm hkeys name hrounds
    exact ⟨uses, hsome, huses.trans usesNetvm_iff_reaches.symm⟩
  obtain ⟨uses, -, huses⟩ := hrun _ le_rfl
  refine ⟨uses, fun rounds hrounds => ?_, huses⟩
  obtain ⟨uses', hsome, huses'⟩ := hrun rounds hrounds
  have hsame : uses' = uses := Bool.eq_iff_iff.2 (huses'.trans huses.symm)
  rw [hsome, hsame]

-- The circle of `a` and `b` does not lead to Snitch.
example : vmUsesSnitch "sys-snitch" (.ofList [("a", "b"), ("b", "a"), ("c", "sys-snitch")]) 5 "a" = some false := by
  decide

end QubesSnitch
