import Mathlib.Data.Nat.ModEq
import Mathlib.Logic.Function.Iterate
import Mathlib.Tactic

/-!
# One's-complement sums

`add w` is the addition of `w`-bit numbers in one's complement: what runs over the top comes in again at the bottom
(`carry`).  It is addition modulo `2 ^ w - 1` with two zeros, so a sum is known by its residue and by whether it is 0
(`eq_of_modEq`).  Summing first and carrying afterwards, until nothing runs over, therefore gives the same number
(`iterate_carry_eq_sum`), and a word that complements it makes the sum all ones
(`sum_complement`).
-/

namespace OnesComplement

/-- Bring what is above the low `w` bits in at the bottom. -/
def carry (w n : Nat) : Nat := n % 2 ^ w + n / 2 ^ w

def add (w a b : Nat) : Nat := carry w (a + b)

/-- The sum of a list of words. -/
def sum (w : Nat) (l : List Nat) : Nat := l.foldr (add w) 0

/-- All ones. -/
def ones (w : Nat) : Nat := 2 ^ w - 1

section Carry

variable {w n : Nat}

private theorem two_pow_pos' (w : Nat) : 0 < 2 ^ w := Nat.two_pow_pos w

theorem carry_modEq (w n : Nat) : carry w n ≡ n [MOD ones w] := by
  have hbase : 2 ^ w ≡ 1 [MOD ones w] := by
    have hpos := two_pow_pos' w
    have h : 2 ^ w = ones w + 1 := by
      unfold ones
      omega
    rw [h]
    exact Nat.add_modEq_left
  calc carry w n = 1 * (n / 2 ^ w) + n % 2 ^ w := by rw [carry, Nat.one_mul, Nat.add_comm]
    _ ≡ 2 ^ w * (n / 2 ^ w) + n % 2 ^ w [MOD ones w] := (hbase.symm.mul_right _).add_right _
    _ = n := Nat.div_add_mod n (2 ^ w)

theorem carry_eq_zero_iff : carry w n = 0 ↔ n = 0 := by
  constructor
  · intro h
    have hdiv := Nat.div_add_mod n (2 ^ w)
    obtain ⟨hmod, hquot⟩ : n % 2 ^ w = 0 ∧ n / 2 ^ w = 0 := Nat.add_eq_zero_iff.1 h
    rw [← hdiv, hmod, hquot, Nat.mul_zero]
  · rintro rfl
    simp [carry]

theorem carry_of_lt (h : n < 2 ^ w) : carry w n = n := by
  rw [carry, Nat.mod_eq_of_lt h, Nat.div_eq_of_lt h, Nat.add_zero]

/-- Carrying makes a number that runs over smaller. -/
theorem carry_lt_self (hw : 0 < w) (h : 2 ^ w ≤ n) : carry w n < n := by
  have hdiv := Nat.div_add_mod n (2 ^ w)
  have hquot : 0 < n / 2 ^ w := Nat.div_pos h (two_pow_pos' w)
  have hbase : 2 ≤ 2 ^ w := Nat.le_self_pow hw.ne' 2
  have hmul : 2 * (n / 2 ^ w) ≤ 2 ^ w * (n / 2 ^ w) := Nat.mul_le_mul_right _ hbase
  unfold carry
  omega

theorem add_lt {a b : Nat} (ha : a < 2 ^ w) (hb : b < 2 ^ w) : add w a b < 2 ^ w := by
  unfold add
  by_cases h : a + b < 2 ^ w
  · rw [carry_of_lt h]
    exact h
  · have hquot : (a + b) / 2 ^ w = 1 := Nat.div_eq_of_lt_le (by omega) (by omega)
    have hmod : (a + b) % 2 ^ w = a + b - 2 ^ w := by
      have := Nat.div_add_mod (a + b) (2 ^ w)
      rw [hquot] at this
      omega
    rw [carry, hquot, hmod]
    omega

end Carry

section Residues

variable {w : Nat}

/-- A number of `w` bits is known by its residue modulo all ones, once it is known whether it is 0. -/
theorem eq_of_modEq {a b : Nat} (ha : a < 2 ^ w) (hb : b < 2 ^ w) (h : a ≡ b [MOD ones w]) (h0 : a = 0 ↔ b = 0) :
    a = b := by
  by_cases hzero : a = 0
  · rw [hzero, h0.1 hzero]
  · have hb0 : b ≠ 0 := fun hb' => hzero (h0.2 hb')
    have ha' : a - 1 < ones w := by
      unfold ones
      omega
    have hb' : b - 1 < ones w := by
      unfold ones
      omega
    have hpred : a - 1 ≡ b - 1 [MOD ones w] := by
      refine Nat.ModEq.add_right_cancel' 1 ?_
      rw [Nat.sub_add_cancel (by omega), Nat.sub_add_cancel (by omega)]
      exact h
    have := hpred.eq_of_lt_of_lt ha' hb'
    omega

theorem sum_lt (l : List Nat) (hl : ∀ x ∈ l, x < 2 ^ w) : sum w l < 2 ^ w := by
  induction l with
  | nil => exact two_pow_pos' w
  | cons a l ih =>
    have ha := hl a (by simp)
    have htail := ih fun x hx => hl x (List.mem_cons_of_mem _ hx)
    exact add_lt ha htail

theorem sum_modEq (w : Nat) (l : List Nat) : sum w l ≡ l.sum [MOD ones w] := by
  induction l with
  | nil => rfl
  | cons a l ih =>
    calc sum w (a :: l) = carry w (a + sum w l) := rfl
      _ ≡ a + sum w l [MOD ones w] := carry_modEq w _
      _ ≡ a + l.sum [MOD ones w] := ih.add_left a
      _ = (a :: l).sum := List.sum_cons.symm

theorem sum_eq_zero_iff (l : List Nat) : sum w l = 0 ↔ l.sum = 0 := by
  induction l with
  | nil => simp [sum]
  | cons a l ih =>
    show carry w (a + sum w l) = 0 ↔ (a :: l).sum = 0
    rw [carry_eq_zero_iff, List.sum_cons, Nat.add_eq_zero_iff, Nat.add_eq_zero_iff, ih]

/-- Words sum to all ones when their plain sum is a multiple of it other than 0. -/
theorem sum_eq_ones_iff (hw : 0 < w) {l : List Nat} (hl : ∀ x ∈ l, x < 2 ^ w) :
    sum w l = ones w ↔ l.sum ≠ 0 ∧ ones w ∣ l.sum := by
  have hbase : 2 ≤ 2 ^ w := Nat.le_self_pow hw.ne' 2
  constructor
  · intro h
    refine ⟨fun h0 => ?_, ?_⟩
    · rw [(sum_eq_zero_iff l).2 h0] at h
      unfold ones at h
      omega
    · have := (sum_modEq w l).symm
      rw [h] at this
      exact (Nat.modEq_zero_iff_dvd.1 (this.trans (Nat.modEq_zero_iff_dvd.2 dvd_rfl)))
  · rintro ⟨hne, hdvd⟩
    have hlt : ones w < 2 ^ w := by
      unfold ones
      omega
    refine eq_of_modEq (sum_lt l hl) hlt ?_ (iff_of_false (fun h => hne ((sum_eq_zero_iff l).1 h)) ?_)
    · exact (sum_modEq w l).trans ((Nat.modEq_zero_iff_dvd.2 hdvd).trans (Nat.modEq_zero_iff_dvd.2 dvd_rfl).symm)
    · unfold ones
      omega

/-- A list in which a word is replaced by the complement of the sum, up to the two zeros, sums to all ones. -/
theorem sum_complement (hw : 0 < w) {l l' : List Nat} {c : Nat} (hl : ∀ x ∈ l, x < 2 ^ w) (hl' : ∀ x ∈ l', x < 2 ^ w)
    (hc : c ≡ ones w - sum w l [MOD ones w]) (hsum : l'.sum = l.sum + c) (hne : l'.sum ≠ 0) :
    sum w l' = ones w := by
  refine (sum_eq_ones_iff hw hl').2 ⟨hne, ?_⟩
  have hle : sum w l ≤ ones w := by
    have := sum_lt l hl
    unfold ones
    omega
  rw [← Nat.modEq_zero_iff_dvd, hsum]
  calc l.sum + c ≡ sum w l + (ones w - sum w l) [MOD ones w] := (sum_modEq w l).symm.add hc
    _ = ones w := Nat.add_sub_cancel' hle
    _ ≡ 0 [MOD ones w] := Nat.modEq_zero_iff_dvd.2 dvd_rfl

end Residues

section Iterate

variable {w : Nat}

theorem iterate_carry_modEq (w k n : Nat) : (carry w)^[k] n ≡ n [MOD ones w] := by
  induction k generalizing n with
  | zero => rfl
  | succ k ih => exact (ih (carry w n)).trans (carry_modEq w n)

theorem iterate_carry_eq_zero_iff (k n : Nat) : (carry w)^[k] n = 0 ↔ n = 0 := by
  induction k generalizing n with
  | zero => rfl
  | succ k ih => exact (ih (carry w n)).trans carry_eq_zero_iff

/-- Summing first and carrying afterwards gives the one's-complement sum. -/
theorem iterate_carry_eq_sum {l : List Nat} (hl : ∀ x ∈ l, x < 2 ^ w) {k : Nat} (hk : (carry w)^[k] l.sum < 2 ^ w) :
    (carry w)^[k] l.sum = sum w l :=
  eq_of_modEq hk (sum_lt l hl) ((iterate_carry_modEq w k _).trans (sum_modEq w l).symm)
    ((iterate_carry_eq_zero_iff k _).trans (sum_eq_zero_iff l).symm)

end Iterate

end OnesComplement
