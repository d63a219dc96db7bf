import QubesSnitch.Lib.Words
import Mathlib.Tactic

/-!
# Display text

`safeText` is what terminal prompts, notifications and log lines show of a remote text: control characters become
spaces, runs of spaces become one, and a long text is cut.  Its values are `SafeText`s (`safeText_isSafe`), and it keeps
those (`safeText_of_isSafe`), so that cleaning a text again changes nothing.
-/

namespace QubesSnitch

/-! ### Unicode text -/

/-- A code point of a Python string; surrogates are code points too. -/
structure CodePoint where
  val : Nat
  valid : val < 0x110000
  deriving DecidableEq

abbrev Text := List CodePoint

private theorem toNat_lt_codePoints (c : Char) : c.toNat < 0x110000 := by
  have h := c.valid
  unfold UInt32.isValidChar Nat.isValidChar at h
  unfold Char.toNat
  omega

def codePoint (c : Char) : CodePoint := ⟨c.toNat, toNat_lt_codePoints c⟩

def text (s : String) : Text := s.toList.map codePoint

inductive Category where
  | lu | ll | lt | lm | lo
  | mn | mc | me
  | nd | nl | no
  | pc | pd | ps | pe | pi | pf | po
  | sm | sc | sk | so
  | zs | zl | zp
  | cc | cf | cs | co | cn
  deriving DecidableEq, Repr

/-- `category.startswith("C")` -/
def Category.isOther : Category → Bool
  | cc | cf | cs | co | cn => true
  | _ => false

/-- The module `unicodedata`.  Unicode fixes the control characters and the printable ASCII characters for good; the
category of another character depends on the version. -/
structure UnicodeData where
  category : CodePoint → Category
  controls : ∀ c, category c = .cc ↔ c.val < 0x20 ∨ 0x7f ≤ c.val ∧ c.val < 0xa0
  printable : ∀ c, 0x20 ≤ c.val → c.val < 0x7f → (category c).isOther = false

/-- The whitespace of `str.split` and `str.isspace`. -/
def isspace (c : CodePoint) : Bool :=
  (9 ≤ c.val ∧ c.val ≤ 13) || (28 ≤ c.val ∧ c.val ≤ 32) || (0x2000 ≤ c.val ∧ c.val ≤ 0x200a) ||
    c.val ∈ [0x85, 0xa0, 0x1680, 0x2028, 0x2029, 0x202f, 0x205f, 0x3000]

def blank : CodePoint := codePoint ' '

def escape : CodePoint := codePoint '\x1b'

/-- `value[:n]` -/
def sliceTo (n : Int) (value : Text) : Text := value.take (if n < 0 then value.length + n else n).toNat

theorem sliceTo_isPrefix (n : Int) (value : Text) : sliceTo n value <+: value := List.take_prefix _ _

/-! ### `safe_text` -/

def maxDisplayText : Int := 160

variable (ucd : UnicodeData)

/-- The character that the text is shown with. -/
def cleaned (char : CodePoint) : CodePoint :=
  if char ∈ text "\r\n\t" || char = escape || (ucd.category char).isOther then blank else char

def safeText (limit : Int) (value : Text) : Text :=
  let compact := Words.unwords blank (Words.words isspace (value.map (cleaned ucd)))
  if limit < compact.length then sliceTo (limit - 3) compact ++ text "..." else compact

/-- No character of category C, single spaces inside as the only whitespace, and at most `limit` characters. -/
structure IsSafeText (limit : Int) (s : Text) : Prop where
  plain : ∀ c ∈ s, (ucd.category c).isOther = false
  spaced : Words.SingleSpaced isspace blank s
  short : s.length ≤ limit

variable {ucd}

theorem UnicodeData.printable_text {s : String} (hs : s.toList.all fun c => 0x20 ≤ c.toNat && c.toNat < 0x7f) :
    ∀ c ∈ text s, (ucd.category c).isOther = false := by
  intro c hc
  obtain ⟨a, ha, rfl⟩ := List.mem_map.1 hc
  have hrange := List.all_eq_true.1 hs a ha
  simp only [Bool.and_eq_true, decide_eq_true_eq] at hrange
  exact ucd.printable _ hrange.1 hrange.2

theorem blank_plain : (ucd.category blank).isOther = false := ucd.printable _ (by decide) (by decide)

theorem escape_not_plain : (ucd.category escape).isOther = true := by
  rw [(ucd.controls escape).2 (by decide)]
  rfl

theorem cleaned_plain (c : CodePoint) : (ucd.category (cleaned ucd c)).isOther = false := by
  unfold cleaned
  split
  · exact blank_plain
  case isFalse h =>
    simp only [Bool.or_eq_true, not_or] at h
    exact Bool.eq_false_iff.2 h.2

theorem cleaned_of_plain {c : CodePoint} (hc : (ucd.category c).isOther = false) : cleaned ucd c = c := by
  have hcontrol : ucd.category c ≠ .cc := by
    intro h
    rw [h] at hc
    cases hc
  have hval : ¬ (c.val < 0x20 ∨ 0x7f ≤ c.val ∧ c.val < 0xa0) := fun h => hcontrol ((ucd.controls c).2 h)
  have hlow : ∀ d ∈ text "\r\n\t" ++ [escape], d.val < 0x20 := by decide
  have hne : c ∉ text "\r\n\t" ∧ c ≠ escape := by
    constructor
    · exact fun hmem => hval (.inl (hlow c (List.mem_append_left _ hmem)))
    · rintro rfl
      exact hval (.inl (by decide))
  simp [cleaned, hne, hc]

private theorem dots_isWord : Words.IsWord isspace (text "...") := ⟨by decide, by decide⟩

private theorem dots_plain : ∀ c ∈ text "...", (ucd.category c).isOther = false :=
  UnicodeData.printable_text (by decide)

private theorem compact_plain (value : Text) :
    ∀ c ∈ Words.unwords blank (Words.words isspace (value.map (cleaned ucd))), (ucd.category c).isOther = false := by
  intro c hc
  rcases Words.mem_unwords hc with rfl | ⟨w, hw, hcw⟩
  · exact blank_plain
  · obtain ⟨a, -, rfl⟩ := List.mem_map.1 (Words.mem_of_mem_words hw hcw)
    exact cleaned_plain a

private theorem compact_spaced (value : Text) :
    Words.SingleSpaced isspace blank (Words.unwords blank (Words.words isspace (value.map (cleaned ucd)))) :=
  Words.singleSpaced_unwords fun _ hw => Words.isWord_of_mem_words hw

/-- What `safe_text` returns, for a limit that leaves room for the dots. -/
theorem safeText_isSafe {limit : Int} (hlimit : 3 ≤ limit) (value : Text) :
    IsSafeText ucd limit (safeText ucd limit value) := by
  simp only [safeText]
  split
  case isTrue hlong =>
    refine ⟨fun c hc => ?_, (compact_spaced value).prefix_append (sliceTo_isPrefix _ _) dots_isWord, ?_⟩
    · rcases List.mem_append.1 hc with hc | hc
      · exact compact_plain value c ((sliceTo_isPrefix _ _).subset hc)
      · exact dots_plain c hc
    · have hdots : (text "...").length = 3 := by decide
      have hneg : ¬ limit - 3 < 0 := by omega
      simp only [sliceTo, if_neg hneg, List.length_append, List.length_take, hdots]
      omega
  case isFalse hshort =>
    exact ⟨compact_plain value, compact_spaced value, by omega⟩

/-- Cleaning makes no text longer. -/
theorem length_safeText_le {limit : Int} (hlimit : 3 ≤ limit) (value : Text) :
    (safeText ucd limit value).length ≤ value.length := by
  have hwords := Words.length_unwords_words_le isspace blank (value.map (cleaned ucd))
  have hsafe := (@safeText_isSafe ucd _ hlimit value).short
  simp only [List.length_map] at hwords
  simp only [safeText] at hsafe ⊢
  split
  case isTrue hlong =>
    rw [if_pos hlong] at hsafe
    omega
  case isFalse => exact hwords

/-- A safe text is shown as it is. -/
theorem safeText_of_isSafe {limit : Int} {s : Text} (h : IsSafeText ucd limit s) : safeText ucd limit s = s := by
  have hmap : s.map (cleaned ucd) = s := by
    conv_rhs => rw [← List.map_id s]
    exact List.map_congr_left fun c hc => cleaned_of_plain (h.plain c hc)
  have hshort : ¬ limit < s.length := by
    have := h.short
    omega
  simp only [safeText, hmap, Words.unwords_words h.spaced, if_neg hshort]

example : (text "a\tb\nc  d").map (fun c => if isspace c then blank else c) = text "a b c  d" := by decide

end QubesSnitch
