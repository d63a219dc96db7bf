import Mathlib.Data.List.Infix

/-!
# Removing marks from a text

A text in which some fixed words are marks, such as the colour codes of a terminal, and what is left of it when they are
taken out.  Every mark starts with an escape symbol and none is the beginning of another.  Then `remove` takes out a
mark in front (`remove_mark_append`) and keeps a text that has no escape symbol (`remove_plain_append`), so that a
concatenation of marks and plain pieces shows as the concatenation of what its pieces show (`Shows.append`).
-/

/-- The marks and the symbol they all start with. -/
structure Marks (α : Type*) where
  escape : α
  marks : List (List α)
  escaped : ∀ m ∈ marks, m.head? = some escape
  prefixFree : ∀ m ∈ marks, ∀ m' ∈ marks, m <+: m' → m = m'

namespace Marks

variable {α : Type*} [DecidableEq α] (M : Marks α)

/-- The text without its marks, after `skip` symbols that belong to a mark. -/
def removeFrom : Nat → List α → List α
  | _, [] => []
  | skip + 1, _ :: s => removeFrom skip s
  | 0, c :: s =>
    match M.marks.find? fun m => m.isPrefixOf (c :: s) with
    | some m => removeFrom (m.length - 1) s
    | none => c :: removeFrom 0 s

/-- The text without its marks, read from the left. -/
def remove (s : List α) : List α := M.removeFrom 0 s

@[simp] theorem remove_nil : M.remove [] = [] := rfl

theorem removeFrom_append (t s : List α) : M.removeFrom t.length (t ++ s) = M.remove s := by
  induction t with
  | nil => rfl
  | cons c t ih => simpa [removeFrom] using ih

variable {M}

-- Two marks in front of one text are one the prefix of the other.
private theorem find?_mark {m : List α} (hm : m ∈ M.marks) (s : List α) :
    (M.marks.find? fun m' => m'.isPrefixOf (m ++ s)) = some m := by
  have hsome : (M.marks.find? fun m' => m'.isPrefixOf (m ++ s)).isSome := by
    rw [List.find?_isSome]
    exact ⟨m, hm, List.isPrefixOf_iff_prefix.2 (List.prefix_append m s)⟩
  obtain ⟨m', hfind⟩ := Option.isSome_iff_exists.1 hsome
  have hm' := List.mem_of_find?_eq_some hfind
  have hpre : m' <+: m ++ s := by simpa using List.find?_some hfind
  rw [hfind]
  rcases List.prefix_or_prefix_of_prefix hpre (List.prefix_append m s) with h | h
  · rw [M.prefixFree m' hm' m hm h]
  · rw [M.prefixFree m hm m' hm' h]

/-- A mark in front is taken out. -/
theorem remove_mark_append {m : List α} (hm : m ∈ M.marks) (s : List α) : M.remove (m ++ s) = M.remove s := by
  have hfind := find?_mark hm s
  cases m with
  | nil => rfl
  | cons c m =>
    rw [List.cons_append] at hfind ⊢
    rw [remove, removeFrom, hfind]
    exact M.removeFrom_append m s

/-- A text without the escape symbol is kept. -/
theorem remove_plain_append {t : List α} (ht : M.escape ∉ t) (s : List α) : M.remove (t ++ s) = t ++ M.remove s := by
  induction t with
  | nil => rfl
  | cons c t ih =>
    simp only [List.mem_cons, not_or] at ht
    have hnone : (M.marks.find? fun m => m.isPrefixOf (c :: (t ++ s))) = none := by
      refine List.find?_eq_none.2 fun m hm hpre => ht.1 ?_
      obtain ⟨r, hr⟩ := List.isPrefixOf_iff_prefix.1 hpre
      have hhead := M.escaped m hm
      cases m with
      | nil => cases hhead
      | cons d m =>
        simp only [List.cons_append, List.cons.injEq] at hr
        simpa [hr.1] using hhead.symm
    rw [List.cons_append, remove, removeFrom, hnone]
    exact congrArg (c :: ·) (ih ht.2)

/-! ### What a piece shows as -/

/-- In front of any text, the piece `s` leaves `v`. -/
def Shows (M : Marks α) (s v : List α) : Prop := ∀ rest, M.remove (s ++ rest) = v ++ M.remove rest

theorem Shows.mark {m : List α} (hm : m ∈ M.marks) : M.Shows m [] := remove_mark_append hm

theorem Shows.plain {t : List α} (ht : M.escape ∉ t) : M.Shows t t := remove_plain_append ht

theorem Shows.append {s s' v v' : List α} (h : M.Shows s v) (h' : M.Shows s' v') : M.Shows (s ++ s') (v ++ v') := by
  intro rest
  rw [List.append_assoc, h, h', List.append_assoc]

theorem Shows.remove {s v : List α} (h : M.Shows s v) : M.remove s = v := by simpa using h []

end Marks
