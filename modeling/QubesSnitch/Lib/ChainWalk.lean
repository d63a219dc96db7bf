import Mathlib.Logic.Relation
import Mathlib.Data.List.Perm.Subperm

/-!
# Walking along a chain

Every node has at most one next node, and a walk follows the next nodes until it finds a target, leaves the nodes that
it may pass, comes to an end, or sees a node again.  On a graph with finitely many edges the walk ends
(`run_isSome`), and it finds the target exactly when the target can be reached through nodes that may be passed
(`run_decides`): from a node that was seen before, only seen nodes can be reached.
-/

namespace ChainWalk

variable {α : Type*} (next : α → Option α) (pass : α → Bool) (target : α)

/-- The walk with the nodes seen so far: `while node and pass(node) and node not in seen`, for at most `rounds` tests of
the loop; `none` means that it has not ended by then. -/
def run [DecidableEq α] : Nat → List α → Option α → Option Bool
  | 0, _, _ => none
  | _ + 1, _, none => some false
  | rounds + 1, seen, some node =>
    if pass node = false ∨ node ∈ seen then some false
    else if node = target then some true
    else run rounds (node :: seen) (next node)

/-- A step from a node that may be passed. -/
def Step (a b : α) : Prop := pass a ∧ next a = some b

/-- The target may be passed and is reached in finitely many steps. -/
def Reaches (a : α) : Prop := Relation.ReflTransGen (Step next pass) a target ∧ pass target

variable {next pass target}

theorem Reaches.pass_start {a : α} (h : Reaches next pass target a) : pass a := by
  rcases h.1.cases_head with rfl | ⟨b, hstep, -⟩
  · exact h.2
  · exact hstep.1

theorem reaches_iff_next {a : α} (hpass : pass a) (hne : a ≠ target) :
    Reaches next pass target a ↔ ∃ b, next a = some b ∧ Reaches next pass target b := by
  constructor
  · rintro ⟨hreach, htarget⟩
    rcases hreach.cases_head with rfl | ⟨b, hstep, hrest⟩
    · exact absurd rfl hne
    · exact ⟨b, hstep.2, hrest, htarget⟩
  · rintro ⟨b, hnext, hreach, htarget⟩
    exact ⟨.head ⟨hpass, hnext⟩ hreach, htarget⟩

/-- The seen nodes are not the target, and only the current node is next to them. -/
structure Seen (next : α → Option α) (target : α) (seen : List α) (node : Option α) : Prop where
  missed : target ∉ seen
  closed : ∀ a ∈ seen, ∀ b, next a = some b → b ∈ seen ∨ node = some b

theorem Seen.cons {seen : List α} {node : α} (h : Seen next target seen (some node)) (hne : node ≠ target) :
    Seen next target (node :: seen) (next node) where
  missed := by
    simp only [List.mem_cons, not_or]
    exact ⟨hne.symm, h.missed⟩
  closed a ha b hb := by
    rcases List.mem_cons.1 ha with rfl | ha
    · exact .inr hb
    · rcases h.closed a ha b hb with hseen | hnode
      · exact .inl (List.mem_cons_of_mem _ hseen)
      · cases hnode
        exact .inl List.mem_cons_self

/-- From a node that was seen before only seen nodes are reached, so stopping there misses nothing. -/
theorem Seen.not_reaches {seen : List α} {node : α} (h : Seen next target seen (some node)) (hmem : node ∈ seen) :
    ¬ Reaches next pass target node := by
  rintro ⟨hreach, -⟩
  have hinside : ∀ b, Relation.ReflTransGen (Step next pass) node b → b ∈ seen := by
    intro b hb
    induction hb with
    | refl => exact hmem
    | tail _ hstep ih =>
      rcases h.closed _ ih _ hstep.2 with hseen | hnode
      · exact hseen
      · cases hnode
        exact hmem
  exact h.missed (hinside target hreach)

variable [DecidableEq α]

/-- What a walk that has ended says. -/
theorem run_eq_some {rounds : Nat} {seen : List α} {node : Option α} {found : Bool} (h : Seen next target seen node)
    (hrun : run next pass target rounds seen node = some found) :
    found ↔ ∃ a, node = some a ∧ Reaches next pass target a := by
  induction rounds generalizing seen node with
  | zero => cases hrun
  | succ rounds ih =>
    cases node with
    | none =>
      cases hrun
      simp
    | some a =>
      simp only [Option.some.injEq, exists_eq_left']
      rw [run] at hrun
      split_ifs at hrun with hstop htarget
      · cases hrun
        simp only [Bool.false_eq_true, false_iff]
        rcases hstop with hpass | hmem
        · intro hreach
          rw [hreach.pass_start] at hpass
          cases hpass
        · exact h.not_reaches hmem
      · cases hrun
        subst htarget
        simp only [not_or, Bool.not_eq_false] at hstop
        exact ⟨fun _ => ⟨.refl, hstop.1⟩, fun _ => rfl⟩
      · simp only [not_or, Bool.not_eq_false] at hstop
        rw [ih (h.cons htarget) hrun, reaches_iff_next hstop.1 htarget]

/-- The seen nodes have next nodes, as long as the walk goes on, so there are not more of them than edges. -/
theorem run_isSome (pass : α → Bool) (target : α) {keys seen : List α} {node : Option α} {rounds : Nat}
    (hkeys : ∀ a b, next a = some b → a ∈ keys) (hnodup : seen.Nodup) (hseen : ∀ a ∈ seen.tail, a ∈ keys)
    (hlast : ∀ a, seen.head? = some a → node ≠ none → a ∈ keys) (hrounds : keys.length + 2 ≤ rounds + seen.length) :
    (run next pass target rounds seen node).isSome := by
  induction rounds generalizing seen node with
  | zero =>
    -- One more seen node than there are keys is impossible.
    exfalso
    have htail : seen.tail.length ≤ keys.length :=
      (List.subperm_of_subset hnodup.tail hseen).length_le
    simp only [List.length_tail] at htail
    omega
  | succ rounds ih =>
    cases node with
    | none => rfl
    | some a =>
      rw [run]
      split_ifs with hstop htarget
      · rfl
      · rfl
      · simp only [not_or] at hstop
        refine ih (List.nodup_cons.2 ⟨hstop.2, hnodup⟩) ?_ ?_ (by simp only [List.length_cons]; omega)
        · intro b hb
          cases seen with
          | nil => cases hb
          | cons c seen =>
            rcases List.mem_cons.1 hb with rfl | hb
            · exact hlast b rfl (by simp)
            · exact hseen b hb
        · intro b hb hnext
          obtain rfl : a = b := by simpa using hb
          obtain ⟨c, hc⟩ := Option.ne_none_iff_exists'.1 hnext
          exact hkeys a c hc

/-- With one round for each edge and two more, the walk from a node has ended and is right. -/
theorem run_decides (pass : α → Bool) (target : α) {keys : List α} (hkeys : ∀ a b, next a = some b → a ∈ keys)
    (a : α) {rounds : Nat} (hrounds : keys.length + 2 ≤ rounds) :
    ∃ found, run next pass target rounds [] (some a) = some found ∧ (found ↔ Reaches next pass target a) := by
  obtain ⟨found, hfound⟩ : ∃ found, run next pass target rounds [] (some a) = some found := Option.isSome_iff_exists.1
    (run_isSome pass target hkeys List.nodup_nil (by simp) (by simp) hrounds)
  have hstart : Seen next target [] (some a) := ⟨by simp, by simp⟩
  exact ⟨found, hfound, by simpa using run_eq_some hstart hfound⟩

end ChainWalk
