import Mathlib

/-!
# Python text

The operations of Python's `str` used on names, ports and addresses, on the list of characters of a string.
`isdigit` and `int` follow Unicode as Python does: `str.isdigit` accepts every decimal digit of any script and
also the superscript and circled digits, while `int` reads the decimal digits only.  Lower- and upper-casing are
exact for ASCII and for the characters whose other case is ASCII; other characters keep a non-ASCII form in
Python too, and are left alone here.

The laws say that the decimal text of a number is read back as that number (`int_decimal`), and that a text
without capital letters and without the stripped character is unchanged by `lower` and `rstrip`.
-/

namespace Py

/-! ### Digits -/

/-- The zeros of the Unicode decimal digit blocks; each block is ten consecutive characters. -/
def decimalZeros : List Nat :=
  [0x30, 0x660, 0x6f0, 0x7c0, 0x966, 0x9e6, 0xa66, 0xae6, 0xb66, 0xbe6, 0xc66, 0xce6, 0xd66, 0xde6, 0xe50, 0xed0,
   0xf20, 0x1040, 0x1090, 0x17e0, 0x1810, 0x1946, 0x19d0, 0x1a80, 0x1a90, 0x1b50, 0x1bb0, 0x1c40, 0x1c50, 0xa620,
   0xa8d0, 0xa900, 0xa9d0, 0xa9f0, 0xaa50, 0xabf0, 0xff10, 0x104a0, 0x10d30, 0x11066, 0x110f0, 0x11136, 0x111d0,
   0x112f0, 0x11450, 0x114d0, 0x11650, 0x116c0, 0x11730, 0x118e0, 0x11950, 0x11c50, 0x11d50, 0x11da0, 0x16a60,
   0x16ac0, 0x16b50, 0x1d7ce, 0x1d7d8, 0x1d7e2, 0x1d7ec, 0x1d7f6, 0x1e140, 0x1e2f0, 0x1e950, 0x1fbf0]

/-- The characters that `str.isdigit` accepts and `int` does not read. -/
def otherDigits : List (Nat × Nat) :=
  [(0xb2, 0xb3), (0xb9, 0xb9), (0x1369, 0x1371), (0x19da, 0x19da), (0x2070, 0x2070), (0x2074, 0x2079),
   (0x2080, 0x2089), (0x2460, 0x2468), (0x2474, 0x247c), (0x2488, 0x2490), (0x24ea, 0x24ea), (0x24f5, 0x24fd),
   (0x24ff, 0x24ff), (0x2776, 0x277e), (0x2780, 0x2788), (0x278a, 0x2792), (0x10a40, 0x10a43), (0x10e60, 0x10e68),
   (0x11052, 0x1105a), (0x1f100, 0x1f10a)]

/-- The value of a decimal digit of any script. -/
def decimalValue (c : Char) : Option Nat :=
  (decimalZeros.find? fun z => z ≤ c.toNat ∧ c.toNat < z + 10).map fun z => c.toNat - z

def isDigitChar (c : Char) : Bool :=
  (decimalValue c).isSome || otherDigits.any fun r => r.1 ≤ c.toNat ∧ c.toNat ≤ r.2

/-- `str.isdigit`. -/
def isdigit (s : List Char) : Bool := !s.isEmpty && s.all isDigitChar

/-- `int(text)` for a text of digits; `none` is the `ValueError` of a digit that is not decimal. -/
def int (s : List Char) : Option Nat :=
  s.foldlM (fun n c => (decimalValue c).map fun d => 10 * n + d) 0

/-- `str(n)` of a natural number. -/
def decimal (n : Nat) : List Char := Nat.toDigits 10 n

private theorem decimalValue_digitChar {d : Nat} (h : d < 10) : decimalValue d.digitChar = some d := by
  have : ∀ d < 10, decimalValue (Nat.digitChar d) = some d := by decide
  exact this d h

private theorem int_append_digit {s : List Char} {n d : Nat} (hs : int s = some n) (hd : d < 10) :
    int (s ++ [d.digitChar]) = some (10 * n + d) := by
  unfold int at hs ⊢
  rw [List.foldlM_append, hs]
  simp [decimalValue_digitChar hd]

/-- The decimal text of a number is read back as the number. -/
theorem int_decimal (n : Nat) : int (decimal n) = some n := by
  induction n using Nat.strong_induction_on with
  | _ n ih =>
    unfold decimal
    by_cases h : n < 10
    · rw [Nat.toDigits_of_lt_base h]
      simp [int, decimalValue_digitChar h]
    · rw [Nat.toDigits_of_base_le (by omega) (by omega)]
      have hq := int_append_digit (ih (n / 10) (by omega)) (Nat.mod_lt n (by omega : 10 > 0))
      rw [Nat.div_add_mod n 10] at hq
      exact hq

private theorem isDigitChar_of_isDigit {c : Char} (h : c.isDigit) : isDigitChar c := by
  have hc : 48 ≤ c.toNat ∧ c.toNat ≤ 57 := by
    simp only [Char.isDigit, Bool.and_eq_true, decide_eq_true_eq] at h
    exact ⟨h.1, h.2⟩
  have hz : decimalValue c = some (c.toNat - 0x30) := by
    have : (0x30 ≤ c.toNat ∧ c.toNat < 0x30 + 10) := by omega
    simp [decimalValue, decimalZeros, this]
  simp [isDigitChar, hz]

theorem isDigit_of_mem_decimal {n : Nat} {c : Char} (h : c ∈ decimal n) : c.isDigit :=
  Nat.isDigit_of_mem_toDigits (by omega) (by omega) h

theorem isdigit_decimal (n : Nat) : isdigit (decimal n) := by
  simp only [isdigit, Bool.and_eq_true, Bool.not_eq_true', List.isEmpty_eq_false_iff, List.all_eq_true]
  exact ⟨Nat.toDigits_ne_nil, fun c hc => isDigitChar_of_isDigit (isDigit_of_mem_decimal hc)⟩

private theorem digitChar_of_isDigit {c : Char} (h : c.isDigit) : ∃ d < 10, c = Nat.digitChar d := by
  simp only [Char.isDigit, Bool.and_eq_true, decide_eq_true_eq] at h
  have h1 : 48 ≤ c.toNat := h.1
  have h2 : c.toNat ≤ 57 := h.2
  refine ⟨c.toNat - 48, by omega, Char.toNat_inj.1 ?_⟩
  rw [Nat.toNat_digitChar_of_lt_ten (by omega)]
  omega

/-- A text of ASCII digits without a leading zero is the decimal text of its positive value. -/
theorem exists_decimal {s : List Char} (hne : s ≠ []) (hd : ∀ c ∈ s, c.isDigit) (hz : s.head? ≠ some '0') :
    ∃ n, 0 < n ∧ int s = some n ∧ decimal n = s := by
  induction s using List.reverseRecOn with
  | nil => exact absurd rfl hne
  | append_singleton t c ih =>
    obtain ⟨d, hd10, rfl⟩ := digitChar_of_isDigit (hd c (by simp))
    rcases t.eq_nil_or_concat with rfl | ⟨t', x, rfl⟩
    · have h0 : d ≠ 0 := by rintro rfl; exact hz rfl
      refine ⟨d, by omega, by simp [int, decimalValue_digitChar hd10], ?_⟩
      exact Nat.toDigits_of_lt_base hd10
    · obtain ⟨m, hm, him, hdm⟩ := ih (by simp) (fun c hc => hd c (List.mem_append_left _ hc)) (by
        rw [List.head?_append_of_ne_nil _ (by simp)] at hz; exact hz)
      refine ⟨10 * m + d, by omega, int_append_digit him hd10, ?_⟩
      rw [← hdm]
      exact (Nat.toDigits_append_toDigits (by omega) hm hd10).symm.trans (by
        rw [Nat.toDigits_of_lt_base hd10]; rfl)

/-- A text of ASCII digits that is `0` or has no leading zero is the decimal text of its value. -/
theorem decimal_of_int {s : List Char} (hne : s ≠ []) (hd : ∀ c ∈ s, c.isDigit)
    (hz : s = ['0'] ∨ s.head? ≠ some '0') {n : Nat} (hn : int s = some n) : s = decimal n := by
  rcases hz with rfl | hz
  · obtain rfl := Option.some.inj (hn.symm.trans (int_decimal 0))
    rfl
  · obtain ⟨m, -, him, hdm⟩ := exists_decimal hne hd hz
    obtain rfl := Option.some.inj (hn.symm.trans him)
    exact hdm.symm

/-! ### Case -/

def lowerChar (c : Char) : Char := if c = '\u212a' then 'k' else c.toLower

/-- `str.lower`. -/
def lower (s : List Char) : List Char := s.map lowerChar

def upperChar (c : Char) : List Char :=
  match c with
  | '\u00df' => ['S', 'S']
  | '\u0131' => ['I']
  | '\u017f' => ['S']
  | '\ufb00' => ['F', 'F']
  | '\ufb01' => ['F', 'I']
  | '\ufb02' => ['F', 'L']
  | '\ufb03' => ['F', 'F', 'I']
  | '\ufb04' => ['F', 'F', 'L']
  | '\ufb05' => ['S', 'T']
  | '\ufb06' => ['S', 'T']
  | c => [c.toUpper]

/-- `str.upper`. -/
def upper (s : List Char) : List Char := s.flatMap upperChar

/-- `str.isascii`. -/
def isascii (s : List Char) : Bool := s.all fun c => c.toNat < 128

/-- A text without the Kelvin sign and without ASCII capitals is its own lower-case form. -/
theorem lower_eq_self {s : List Char} (h : ∀ c ∈ s, c ≠ '\u212a' ∧ ¬ c.isUpper) : lower s = s := by
  have hmap : s.map lowerChar = s.map id := by
    apply List.map_congr_left
    intro c hc
    obtain ⟨hk, hu⟩ := h c hc
    have : c.toLower = c := by
      simp only [Char.toLower, Char.isUpper] at hu ⊢
      simp_all
    simp [lowerChar, hk, this]
  simpa [lower] using hmap

theorem lower_lower (s : List Char) : lower (lower s) = lower s := by
  apply lower_eq_self
  intro c hc
  obtain ⟨d, -, rfl⟩ := List.mem_map.1 hc
  unfold lowerChar
  split
  · exact ⟨by decide, by decide⟩
  · rename_i hd
    refine ⟨fun hk => ?_, by simp⟩
    have halpha : d.isAlpha = false := by
      rw [← Char.isLower_toLower_eq_isAlpha, hk]
      decide
    have hupper : ¬ d.isUpper := fun hu => by simp [Char.isAlpha, hu] at halpha
    rw [Char.toLower_eq_of_not_isUpper hupper] at hk
    exact hd hk

/-! ### Stripping, splitting and searching -/

/-- `str.rstrip(c)` for one character. -/
def rstrip (c : Char) (s : List Char) : List Char := (s.reverse.dropWhile (· = c)).reverse

theorem rstrip_eq_self {c : Char} {s : List Char} (h : s.getLast? ≠ some c) : rstrip c s = s := by
  unfold rstrip
  rcases hr : s.reverse with _ | ⟨a, l⟩
  · simpa using hr
  · have ha : a ≠ c := by
      rintro rfl
      exact h (by rw [← List.head?_reverse, hr]; rfl)
    rw [List.dropWhile_cons_of_neg (by simpa using ha), ← hr, List.reverse_reverse]

/-- The ASCII whitespace of `str.strip`. -/
def isSpace (c : Char) : Bool := (9 ≤ c.toNat ∧ c.toNat ≤ 13) || (28 ≤ c.toNat ∧ c.toNat ≤ 32)

/-- `str.strip`. -/
def strip (s : List Char) : List Char := ((s.dropWhile isSpace).reverse.dropWhile isSpace).reverse

/-- What strips to nothing is whitespace. -/
theorem isSpace_of_strip_eq_nil {s : List Char} (h : strip s = []) {c : Char} (hc : c ∈ s) : isSpace c := by
  rw [strip, List.reverse_eq_nil_iff, List.dropWhile_eq_nil_iff] at h
  rw [← List.takeWhile_append_dropWhile (p := isSpace) (l := s), List.mem_append] at hc
  rcases hc with hc | hc
  · exact List.mem_takeWhile_imp hc
  · exact h c (List.mem_reverse.2 hc)

/-- `str.split(c)`. -/
def split (c : Char) (s : List Char) : List (List Char) := s.splitOn c

/-- `str.split(c, 1)` when `c` occurs. -/
def splitFirst (c : Char) (s : List Char) : Option (List Char × List Char) :=
  if c ∈ s then some (s.takeWhile (· ≠ c), (s.dropWhile (· ≠ c)).drop 1) else none

/-- The line ends of `str.splitlines` that are ASCII; `\r\n` is one of them. -/
def isLineEnd (c : Char) : Bool := (10 ≤ c.toNat ∧ c.toNat ≤ 13) || (28 ≤ c.toNat ∧ c.toNat ≤ 30)

/-- `str.splitlines` of an ASCII text, `line` being the characters of the current line so far. -/
def splitlinesFrom (line : List Char) : List Char → List (List Char)
  | [] => if line.isEmpty then [] else [line]
  | '\r' :: '\n' :: s => line :: splitlinesFrom [] s
  | c :: s => if isLineEnd c then line :: splitlinesFrom [] s else splitlinesFrom (line ++ [c]) s

def splitlines (s : List Char) : List (List Char) := splitlinesFrom [] s

private theorem isascii_splitlinesFrom (line s : List Char) :
    (∀ l ∈ splitlinesFrom line s, isascii l) ↔ isascii line ∧ isascii s := by
  fun_induction splitlinesFrom line s with
  | case1 line h => simp_all [isascii]
  | case2 line h => simp [isascii]
  | case3 line s ih =>
    simp only [List.forall_mem_cons, ih]
    simp [isascii]
  | case4 line c s hcr h ih =>
    have hc : c.toNat < 128 := by
      simp only [isLineEnd, Bool.or_eq_true, decide_eq_true_eq] at h
      omega
    simp only [List.forall_mem_cons, ih]
    simp [isascii, hc]
  | case5 line c s hcr h ih =>
    rw [ih]
    simp [isascii, and_assoc]

/-- The line ends are ASCII, so a text is when its lines are. -/
theorem isascii_splitlines (s : List Char) : (∀ l ∈ splitlines s, isascii l) ↔ isascii s := by
  rw [splitlines, isascii_splitlinesFrom]
  simp [isascii]

/-- `needle in s`. -/
def isIn (needle s : List Char) : Bool := s.tails.any fun t => needle.isPrefixOf t

/-- A character of a text as `repr` shows it between two `quote`s. -/
def reprChar (quote c : Char) : List Char :=
  if c = quote || c = '\x5c' then ['\x5c', c]
  else if c = '\t' then ['\x5c', 't']
  else if c = '\n' then ['\x5c', 'n']
  else if c = '\r' then ['\x5c', 'r']
  else if c.toNat < 32 || c.toNat = 127 then
    ['\x5c', 'x', Nat.digitChar (c.toNat / 16), Nat.digitChar (c.toNat % 16)]
  else [c]

/-- `repr` of an ASCII text; double quotes are for a text with single ones only. -/
def repr (s : List Char) : List Char :=
  let quote := if s.contains '\x27' && !s.contains '\x22' then '\x22' else '\x27'
  quote :: s.flatMap (reprChar quote) ++ [quote]

example : repr "10.0.0.256\t".toList = "'10.0.0.256\x5ct'".toList := by decide

example : splitlines "a\nb\r\nc".toList = [['a'], ['b'], ['c']] := by decide

example : split '.' "10.0..7".toList = ["10".toList, "0".toList, [], "7".toList] := by decide

end Py
