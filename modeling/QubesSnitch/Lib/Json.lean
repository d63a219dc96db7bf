import QubesSnitch.Lib.PyText
import QubesSnitch.Lib.Dict

/-!
# JSON texts

`render` writes a value as `json.dumps` does, in printable ASCII characters, and `loads` reads a text as `json.loads`
does.  A text that is written is read back as the same value (`loads_render`), and it is one line (`printable_render`).
-/

namespace Json

/-! ### Values -/

/-- A JSON value.  Strings are lists of code points, since escapes can name surrogates; floats, `NaN` and the infinities are
kept as they are written. -/
inductive Value where
  | null
  | bool (b : Bool)
  | int (n : Int)
  | float (literal : List Char)
  | str (s : List Nat)
  | arr (items : List Value)
  | obj (entries : List (List Nat × Value))

def isHigh (u : Nat) : Bool := 0xd800 ≤ u && u < 0xdc00

def isLow (u : Nat) : Bool := 0xdc00 ≤ u && u < 0xe000

/-- A string of code points where no two surrogates make up a pair. -/
structure IsText (s : List Nat) : Prop where
  code : ∀ c ∈ s, c < 0x110000
  unpaired : s.IsChain fun a b => ¬ (isHigh a ∧ isLow b)

/-- The values that `render` writes so that they can be read back: no floats, and objects with one entry for a key. -/
inductive Clean : Value → Prop
  | null : Clean .null
  | bool (b : Bool) : Clean (.bool b)
  | int (n : Int) : Clean (.int n)
  | str {s : List Nat} (h : IsText s) : Clean (.str s)
  | arr {items : List Value} (h : ∀ v ∈ items, Clean v) : Clean (.arr items)
  | obj {entries : List (List Nat × Value)} (hkeys : (entries.map Prod.fst).Nodup) (htext : ∀ e ∈ entries, IsText e.1)
      (h : ∀ e ∈ entries, Clean e.2) : Clean (.obj entries)

/-! ### Writing -/

/-- The UTF-16 units of a code point. -/
def unitsOf (c : Nat) : List Nat :=
  if c < 0x10000 then [c] else [0xd800 + (c - 0x10000) / 0x400, 0xdc00 + (c - 0x10000) % 0x400]

/-- The characters with an escape of their own. -/
def escapes : List (Nat × Char) := [(0x22, '"'), (0x5c, '\\'), (8, 'b'), (9, 't'), (10, 'n'), (12, 'f'), (13, 'r')]

def hex (u : Nat) : List Char :=
  [Nat.digitChar (u / 0x1000 % 16), Nat.digitChar (u / 0x100 % 16), Nat.digitChar (u / 0x10 % 16), Nat.digitChar (u % 16)]

def escapeUnit (u : Nat) : List Char :=
  match escapes.lookup u with
  | some c => ['\\', c]
  | none => if 0x20 ≤ u ∧ u ≤ 0x7e then [Char.ofNat u] else '\\' :: 'u' :: hex u

def quoted (s : List Nat) : List Char := '"' :: ((s.flatMap unitsOf).flatMap escapeUnit ++ ['"'])

def intText (n : Int) : List Char := if n < 0 then '-' :: Py.decimal n.natAbs else Py.decimal n.natAbs

/-- With `", "` between the texts. -/
def separated (texts : List (List Char)) : List Char := [',', ' '].intercalate texts

mutual

def render : Value → List Char
  | .null => "null".toList
  | .bool b => if b then "true".toList else "false".toList
  | .int n => intText n
  | .float literal => literal
  | .str s => quoted s
  | .arr items => '[' :: (separated (renderItems items) ++ [']'])
  | .obj entries => '\x7b' :: (separated (renderEntries entries) ++ ['\x7d'])

def renderItems : List Value → List (List Char)
  | [] => []
  | v :: items => render v :: renderItems items

def renderEntries : List (List Nat × Value) → List (List Char)
  | [] => []
  | (key, v) :: entries => (quoted key ++ ':' :: ' ' :: render v) :: renderEntries entries

end

theorem renderItems_eq (items : List Value) : renderItems items = items.map render := by
  induction items with
  | nil => rfl
  | cons v items ih => rw [renderItems, ih, List.map_cons]

theorem renderEntries_eq (entries : List (List Nat × Value)) :
    renderEntries entries = entries.map fun e => quoted e.1 ++ ':' :: ' ' :: render e.2 := by
  induction entries with
  | nil => rfl
  | cons e entries ih => rw [renderEntries, ih, List.map_cons]

/-! ### Reading -/

def isBlank (c : Char) : Bool := c = ' ' || c = '\t' || c = '\n' || c = '\r'

def skip (t : List Char) : List Char := t.dropWhile isBlank

def hexValue (c : Char) : Option Nat :=
  if '0' ≤ c ∧ c ≤ '9' then some (c.toNat - '0'.toNat)
  else if 'a' ≤ c ∧ c ≤ 'f' then some (c.toNat - 'a'.toNat + 10)
  else if 'A' ≤ c ∧ c ≤ 'F' then some (c.toNat - 'A'.toNat + 10)
  else none

def escaped (c : Char) : Option Nat :=
  if c = '/' then some 0x2f else (escapes.map Prod.swap).lookup c

/-- The rest of a string, after its opening quote, as units with escapes resolved. -/
def units : List Char → Option (List Nat × List Char)
  | [] => none
  | '"' :: rest => some ([], rest)
  | '\\' :: 'u' :: a :: b :: c :: d :: rest => do
    let a ← hexValue a
    let b ← hexValue b
    let c ← hexValue c
    let d ← hexValue d
    let (s, rest) ← units rest
    return ((((a * 16 + b) * 16 + c) * 16 + d) :: s, rest)
  | '\\' :: c :: rest => do
    let u ← escaped c
    let (s, rest) ← units rest
    return (u :: s, rest)
  | c :: rest => do
    if c = '\\' || c.toNat < 0x20 then none
    else
      let (s, rest) ← units rest
      return (c.toNat :: s, rest)

/-- Two surrogates that make up a pair are one code point. -/
def combine : List Nat → List Nat
  | high :: low :: rest =>
    if isHigh high && isLow low then (0x10000 + (high - 0xd800) * 0x400 + (low - 0xdc00)) :: combine rest
    else high :: combine (low :: rest)
  | s => s

/-- One of the characters, if the text begins with one. -/
def optional (cs : List Char) (t : List Char) : List Char × List Char :=
  match t with
  | [] => ([], [])
  | c :: rest => if c ∈ cs then ([c], rest) else ([], t)

/-- Digits without a leading zero. -/
def wholePart (t : List Char) : Option (List Char × List Char) :=
  if t.head? = some '0' then some (['0'], t.tail)
  else if t.takeWhile Char.isDigit = [] then none
  else some (t.takeWhile Char.isDigit, t.dropWhile Char.isDigit)

/-- `lead` and digits, if there are digits after it. -/
def digitsAfter (lead t rest : List Char) : List Char × List Char :=
  if rest.takeWhile Char.isDigit = [] then ([], t)
  else (lead ++ rest.takeWhile Char.isDigit, rest.dropWhile Char.isDigit)

def fraction (t : List Char) : List Char × List Char :=
  match optional ['.'] t with
  | ([], _) => ([], t)
  | (mark, rest) => digitsAfter mark t rest

def exponent (t : List Char) : List Char × List Char :=
  match optional ['e', 'E'] t with
  | ([], _) => ([], t)
  | (mark, rest) => digitsAfter (mark ++ (optional ['+', '-'] rest).1) t (optional ['+', '-'] rest).2

def number (t : List Char) : Option (Value × List Char) := do
  let sign := optional ['-'] t
  let (whole, rest) ← wholePart sign.2
  let decimals := fraction rest
  let power := exponent decimals.2
  if decimals.1 = [] ∧ power.1 = [] then
    let n ← Py.int whole
    return (.int (if sign.1 = [] then n else -n), power.2)
  else return (.float (sign.1 ++ whole ++ decimals.1 ++ power.1), power.2)

/-- Elements with commas between them, up to the closing bracket. -/
def sequence {α : Type} (element : List Char → Option (α × List Char)) (close : Char) :
    Nat → List Char → Option (List α × List Char)
  | 0, _ => none
  | fuel + 1, t => do
    let (a, rest) ← element t
    match skip rest with
    | [] => none
    | c :: rest =>
      if c = ',' then
        let (more, rest) ← sequence element close fuel (skip rest)
        return (a :: more, rest)
      else if c = close then some ([a], rest) else none

def member (element : List Char → Option (Value × List Char)) (t : List Char) :
    Option ((List Nat × Value) × List Char) :=
  match t with
  | '"' :: rest => do
    let (key, rest) ← units rest
    match skip rest with
    | ':' :: rest => do
      let (v, rest) ← element (skip rest)
      return ((combine key, v), rest)
    | _ => none
  | _ => none

/-- One entry for a key, the last one that there is. -/
def dict (entries : List (List Nat × Value)) : List (List Nat × Value) := (Dict.ofList entries).entries

/-- The value that a text begins with, and the rest. -/
def value : Nat → List Char → Option (Value × List Char)
  | 0, _ => none
  | fuel + 1, t =>
    match t with
    | '"' :: rest => do
      let (s, rest) ← units rest
      return (.str (combine s), rest)
    | '\x7b' :: rest =>
      match skip rest with
      | '\x7d' :: rest => some (.obj [], rest)
      | rest => do
        let (entries, rest) ← sequence (member (value fuel)) '\x7d' (rest.length + 1) rest
        return (.obj (dict entries), rest)
    | '[' :: rest =>
      match skip rest with
      | ']' :: rest => some (.arr [], rest)
      | rest => do
        let (items, rest) ← sequence (value fuel) ']' (rest.length + 1) rest
        return (.arr items, rest)
    | 'n' :: 'u' :: 'l' :: 'l' :: rest => some (.null, rest)
    | 't' :: 'r' :: 'u' :: 'e' :: rest => some (.bool true, rest)
    | 'f' :: 'a' :: 'l' :: 's' :: 'e' :: rest => some (.bool false, rest)
    | 'N' :: 'a' :: 'N' :: rest => some (.float "NaN".toList, rest)
    | 'I' :: 'n' :: 'f' :: 'i' :: 'n' :: 'i' :: 't' :: 'y' :: rest => some (.float "Infinity".toList, rest)
    | '-' :: 'I' :: 'n' :: 'f' :: 'i' :: 'n' :: 'i' :: 't' :: 'y' :: rest => some (.float "-Infinity".toList, rest)
    | t => number t

def loads (t : List Char) : Option Value := do
  let (v, rest) ← value (t.length + 1) (skip t)
  if skip rest = [] then some v else none

/-! ### Strings -/

private theorem hexValue_digitChar {d : Nat} (h : d < 16) : hexValue (Nat.digitChar d) = some d := by
  interval_cases d <;> rfl

/-- The value of `hex u` is `u`. -/
private theorem hex_value {u : Nat} (h : u < 0x10000) :
    ((u / 0x1000 % 16 * 16 + u / 0x100 % 16) * 16 + u / 0x10 % 16) * 16 + u % 16 = u := by omega

theorem units_hex {u : Nat} (h : u < 0x10000) (t : List Char) :
    units ('\\' :: 'u' :: (hex u ++ t)) = (units t).map fun p => (u :: p.1, p.2) := by
  have hd : ∀ n, hexValue (Nat.digitChar (n % 16)) = some (n % 16) := fun n => hexValue_digitChar (Nat.mod_lt _ (by decide))
  simp only [hex, List.cons_append, List.nil_append, units, hd, Option.bind_eq_bind, Option.bind_some, hex_value h]
  cases units t <;> rfl

theorem units_escape {c : Char} (hc : c ≠ 'u') (t : List Char) :
    units ('\\' :: c :: t) = (escaped c).bind fun u => (units t).map fun p => (u :: p.1, p.2) := by
  rw [units]
  · cases escaped c <;> cases units t <;> rfl
  · intro _ _ _ _ _ he
    exact absurd he hc

theorem units_char {c : Char} (hquote : c ≠ '"') (hslash : c ≠ '\\') (hlow : 0x20 ≤ c.toNat) (t : List Char) :
    units (c :: t) = (units t).map fun p => (c.toNat :: p.1, p.2) := by
  rw [units]
  · rw [if_neg (by simp [hslash, hlow])]
    cases units t <;> rfl
  · exact hquote
  · intro _ _ _ _ _ he
    exact absurd he hslash
  · intro _ _ he
    exact absurd he hslash

theorem units_escapeUnit {u : Nat} (h : u < 0x10000) (t : List Char) :
    units (escapeUnit u ++ t) = (units t).map fun p => (u :: p.1, p.2) := by
  unfold escapeUnit
  split
  · rename_i c hc
    obtain ⟨l, l', hescapes, -⟩ := List.lookup_eq_some_iff.1 hc
    have hmem : (u, c) ∈ escapes := by simp [hescapes]
    simp only [escapes, List.mem_cons, List.not_mem_nil, or_false, Prod.mk.injEq] at hmem
    rcases hmem with ⟨rfl, rfl⟩ | ⟨rfl, rfl⟩ | ⟨rfl, rfl⟩ | ⟨rfl, rfl⟩ | ⟨rfl, rfl⟩ | ⟨rfl, rfl⟩ | ⟨rfl, rfl⟩ <;>
      (cases ht : units t <;> simp [units, ht, escaped, escapes, List.lookup])
  · rename_i hnone
    split
    · rename_i hplain
      have hc : (Char.ofNat u).toNat = u := by
        rw [Char.ofNat, dif_pos (.inl (by omega))]
        rfl
      have hquote : Char.ofNat u ≠ '"' := by
        rintro he
        rw [he] at hc
        subst hc
        cases hnone
      have hslash : Char.ofNat u ≠ '\\' := by
        rintro he
        rw [he] at hc
        subst hc
        cases hnone
      rw [List.cons_append, List.nil_append, units_char hquote hslash (by omega), hc]
    · exact units_hex h t

/-- The units of a string are read up to its closing quote. -/
theorem units_escaped {s : List Nat} (h : ∀ u ∈ s, u < 0x10000) (t : List Char) :
    units (s.flatMap escapeUnit ++ '"' :: t) = some (s, t) := by
  induction s with
  | nil => rfl
  | cons u s ih =>
    rw [List.flatMap_cons, List.append_assoc, units_escapeUnit (h u (List.mem_cons_self ..)),
      ih fun v hv => h v (List.mem_cons_of_mem _ hv)]
    rfl

theorem lt_of_mem_unitsOf {c u : Nat} (hc : c < 0x110000) (h : u ∈ unitsOf c) : u < 0x10000 := by
  unfold unitsOf at h
  split at h
  · rw [List.mem_singleton] at h
    omega
  · simp only [List.mem_cons, List.not_mem_nil, or_false] at h
    omega

theorem combine_cons {u : Nat} {s : List Nat} (h : ∀ v ∈ s.head?, ¬ (isHigh u ∧ isLow v)) :
    combine (u :: s) = u :: combine s := by
  cases s with
  | nil => rfl
  | cons v s =>
    have hv := h v rfl
    rw [combine, if_neg (by simpa using hv)]

theorem combine_pair {c : Nat} (hlow : 0x10000 ≤ c) (hhigh : c < 0x110000) (s : List Nat) :
    combine (unitsOf c ++ s) = c :: combine s := by
  have hh : isHigh (0xd800 + (c - 0x10000) / 0x400) := by
    simp only [isHigh, Bool.and_eq_true, decide_eq_true_eq]
    omega
  have hl : isLow (0xdc00 + (c - 0x10000) % 0x400) := by
    simp only [isLow, Bool.and_eq_true, decide_eq_true_eq]
    omega
  have hcode : 0x10000 + (0xd800 + (c - 0x10000) / 0x400 - 0xd800) * 0x400 +
      (0xdc00 + (c - 0x10000) % 0x400 - 0xdc00) = c := by omega
  rw [unitsOf, if_neg (by omega), List.cons_append, List.cons_append, List.nil_append, combine, if_pos (by simp [hh, hl]),
    hcode]

/-- The first unit of a code point is the second of no pair, unless the code point is. -/
private theorem isLow_head_unitsOf {c u : Nat} {s : List Nat} (hc : c < 0x110000) (h : (unitsOf c ++ s).head? = some u) (hu : isLow u) :
    u = c := by
  unfold unitsOf at h
  split at h
  · exact (Option.some.inj h).symm
  · obtain rfl := Option.some.inj h
    simp only [isLow, Bool.and_eq_true, decide_eq_true_eq] at hu
    exfalso
    omega

theorem combine_flatMap_unitsOf {s : List Nat} (h : IsText s) : combine (s.flatMap unitsOf) = s := by
  obtain ⟨hcode, hpairs⟩ := h
  induction s with
  | nil => rfl
  | cons c s ih =>
    have hc := hcode c (List.mem_cons_self ..)
    have hs := ih (fun d hd => hcode d (List.mem_cons_of_mem _ hd)) (List.IsChain.tail hpairs)
    rw [List.flatMap_cons]
    by_cases hbmp : c < 0x10000
    · rw [unitsOf, if_pos hbmp, List.cons_append, List.nil_append, combine_cons, hs]
      rintro u hu ⟨hhigh, hlow⟩
      cases s with
      | nil => cases hu
      | cons d s =>
        rw [List.flatMap_cons] at hu
        obtain rfl := isLow_head_unitsOf (hcode d (by simp)) hu hlow
        exact (List.isChain_cons_cons.1 hpairs).1 ⟨hhigh, hlow⟩
    · rw [combine_pair (by omega) hc, hs]

theorem units_quoted {s : List Nat} (h : IsText s) (t : List Char) :
    units ((s.flatMap unitsOf).flatMap escapeUnit ++ '"' :: t) = some (s.flatMap unitsOf, t) := by
  refine units_escaped (fun u hu => ?_) t
  obtain ⟨c, hc, hu⟩ := List.mem_flatMap.1 hu
  exact lt_of_mem_unitsOf (h.code c hc) hu

/-! ### Numbers -/

def isNumeric (c : Char) : Bool := c.isDigit || c = '.' || c = 'e' || c = 'E'

/-- A text that cannot go on with a number before it. -/
def Delimited (t : List Char) : Prop := ∀ c ∈ t.head?, isNumeric c = false

theorem delimited_cons {c : Char} (h : isNumeric c = false) (t : List Char) : Delimited (c :: t) := by
  rintro _ ⟨⟩
  exact h

theorem Delimited.isDigit {t : List Char} (h : Delimited t) {c : Char} (hc : c ∈ t.head?) : c.isDigit = false := by
  have hn := h c hc
  simp only [isNumeric, Bool.or_eq_false_iff] at hn
  exact hn.1.1.1

theorem takeWhile_isDigit_append {ds t : List Char} (hds : ∀ c ∈ ds, c.isDigit) (ht : Delimited t) :
    (ds ++ t).takeWhile Char.isDigit = ds ∧ (ds ++ t).dropWhile Char.isDigit = t := by
  have hstop : t.takeWhile Char.isDigit = [] ∧ t.dropWhile Char.isDigit = t := by
    cases t with
    | nil => exact ⟨rfl, rfl⟩
    | cons c t => simp [ht.isDigit rfl]
  rw [List.takeWhile_append_of_pos hds, List.dropWhile_append_of_pos hds, hstop.1, hstop.2, List.append_nil]
  exact ⟨rfl, rfl⟩

theorem decimal_ne_nil (n : Nat) : Py.decimal n ≠ [] := Nat.toDigits_ne_nil

/-- A decimal text has a leading zero only if it is zero. -/
theorem head?_decimal {n : Nat} (h : 0 < n) : (Py.decimal n).head? ≠ some '0' := by
  induction n using Nat.strong_induction_on with
  | _ n ih =>
    unfold Py.decimal at ih ⊢
    by_cases hn : n < 10
    · rw [Nat.toDigits_of_lt_base hn]
      interval_cases n <;> decide
    · rw [Nat.toDigits_of_base_le (by decide) (by omega), List.head?_append_of_ne_nil _ Nat.toDigits_ne_nil]
      exact ih (n / 10) (by omega) (by omega)

theorem wholePart_decimal (n : Nat) {t : List Char} (ht : Delimited t) :
    wholePart (Py.decimal n ++ t) = some (Py.decimal n, t) := by
  rcases Nat.eq_zero_or_pos n with rfl | hn
  · rfl
  · obtain ⟨htake, hdrop⟩ := takeWhile_isDigit_append (fun c hc => Py.isDigit_of_mem_decimal (hc : c ∈ Py.decimal n)) ht
    rw [wholePart, List.head?_append_of_ne_nil _ (decimal_ne_nil n), if_neg (head?_decimal hn), htake, hdrop,
      if_neg (decimal_ne_nil n)]

theorem optional_cons (cs : List Char) (c : Char) (t : List Char) :
    optional cs (c :: t) = if c ∈ cs then ([c], t) else ([], c :: t) := rfl

theorem optional_of_head? {cs t : List Char} (h : ∀ c ∈ t.head?, c ∉ cs) : optional cs t = ([], t) := by
  cases t with
  | nil => rfl
  | cons c t => rw [optional_cons, if_neg (h c rfl)]

theorem Delimited.optional {t : List Char} (h : Delimited t) {cs : List Char} (hcs : ∀ c ∈ cs, isNumeric c) :
    optional cs t = ([], t) := by
  refine optional_of_head? fun c hc hmem => ?_
  have hn := h c hc
  rw [hcs c hmem] at hn
  cases hn

theorem fraction_delimited {t : List Char} (h : Delimited t) : fraction t = ([], t) := by
  rw [fraction, h.optional (by simp [isNumeric])]

theorem exponent_delimited {t : List Char} (h : Delimited t) : exponent t = ([], t) := by
  rw [exponent, h.optional (by simp [isNumeric])]

theorem number_intText (n : Int) {t : List Char} (ht : Delimited t) : number (intText n ++ t) = some (.int n, t) := by
  have hplain : ∀ c ∈ (Py.decimal n.natAbs ++ t).head?, c ∉ ['-'] := by
    intro c hc
    rw [List.head?_append_of_ne_nil _ (decimal_ne_nil _)] at hc
    rw [List.mem_singleton]
    rintro rfl
    exact absurd (Py.isDigit_of_mem_decimal (List.mem_of_mem_head? hc)) (by decide)
  unfold number intText
  split
  · rename_i hneg
    simp [optional, wholePart_decimal _ ht, fraction_delimited ht, exponent_delimited ht, Py.int_decimal, abs_of_neg hneg]
  · rename_i hpos
    simp [optional_of_head? hplain, wholePart_decimal _ ht, fraction_delimited ht, exponent_delimited ht, Py.int_decimal,
      abs_of_nonneg (not_lt.1 hpos)]

/-! ### What is written is read back -/

theorem skip_cons {c : Char} (h : isBlank c = false) (t : List Char) : skip (c :: t) = c :: t := by
  simp [skip, h]

/-- No blank at the beginning of what is written for a value, and no closing bracket. -/
theorem render_head {v : Value} (h : Clean v) : ∃ c t, render v = c :: t ∧ isBlank c = false ∧ c ≠ ']' := by
  cases h with
  | null => exact ⟨'n', _, rfl, rfl, by decide⟩
  | bool b => cases b <;> exact ⟨_, _, rfl, rfl, by decide⟩
  | int n =>
    rw [render, intText]
    split
    · exact ⟨'-', _, rfl, rfl, by decide⟩
    · obtain ⟨c, t, hc⟩ := List.exists_cons_of_ne_nil (decimal_ne_nil n.natAbs)
      have hd : c.isDigit := Py.isDigit_of_mem_decimal (hc ▸ List.mem_cons_self ..)
      refine ⟨c, t, hc, ?_, ?_⟩
      · simp only [Char.isDigit, Bool.and_eq_true, decide_eq_true_eq] at hd
        simp only [isBlank, Bool.or_eq_false_iff, decide_eq_false_iff_not]
        refine ⟨⟨⟨?_, ?_⟩, ?_⟩, ?_⟩ <;> rintro rfl <;> exact absurd hd.1 (by decide)
      · rintro rfl
        exact absurd hd (by decide)
  | str hs => exact ⟨'"', _, rfl, rfl, by decide⟩
  | arr hitems => exact ⟨'[', _, rfl, rfl, by decide⟩
  | obj hkeys htext hentries => exact ⟨'\x7b', _, rfl, rfl, by decide⟩

/-- A text that begins with no blank and is no closing bracket. -/
def Begins (close : Char) (t : List Char) : Prop := ∃ c t', t = c :: t' ∧ isBlank c = false ∧ c ≠ close

theorem Begins.append {close : Char} {t : List Char} (h : Begins close t) (rest : List Char) : Begins close (t ++ rest) := by
  obtain ⟨c, t', rfl, hc⟩ := h
  exact ⟨c, t' ++ rest, rfl, hc⟩

theorem Begins.skip {close : Char} {t : List Char} (h : Begins close t) : skip t = t := by
  obtain ⟨c, t', rfl, hblank, -⟩ := h
  exact skip_cons hblank t'

theorem skip_blank (t : List Char) : skip (' ' :: t) = skip t := rfl

/-- The text is read as the value, before anything that cannot go on with it. -/
def Reads {α : Type} (element : List Char → Option (α × List Char)) (t : List Char) (a : α) : Prop :=
  ∀ rest, Delimited rest → element (t ++ rest) = some (a, rest)

theorem separated_cons (t : List Char) {texts : List (List Char)} (h : texts ≠ []) :
    separated (t :: texts) = t ++ ',' :: ' ' :: separated texts := by
  cases texts with
  | nil => exact absurd rfl h
  | cons t' texts => rfl

theorem separated_singleton (t : List Char) : separated [t] = t := List.append_nil t

theorem begins_separated {close : Char} {texts : List (List Char)} (hne : texts ≠ []) (h : ∀ t ∈ texts, Begins close t) :
    Begins close (separated texts) := by
  cases texts with
  | nil => exact absurd rfl hne
  | cons t texts =>
    by_cases hnil : texts = []
    · rw [hnil, separated_singleton]
      exact h t (List.mem_cons_self ..)
    · rw [separated_cons t hnil]
      exact (h t (List.mem_cons_self ..)).append _

theorem length_le_separated {close : Char} {texts : List (List Char)} (h : ∀ t ∈ texts, Begins close t) :
    texts.length ≤ (separated texts).length := by
  induction texts with
  | nil => exact Nat.zero_le _
  | cons t texts ih =>
    obtain ⟨c, t', rfl, -⟩ := h t (List.mem_cons_self ..)
    by_cases hnil : texts = []
    · rw [hnil, separated_singleton]
      exact Nat.succ_le_succ (Nat.zero_le _)
    · have hrest := ih fun s hs => h s (List.mem_cons_of_mem _ hs)
      rw [separated_cons _ hnil]
      simp only [List.length_cons, List.length_append]
      omega

theorem length_le_of_mem_separated {t : List Char} {texts : List (List Char)} (h : t ∈ texts) :
    t.length ≤ (separated texts).length := by
  induction texts with
  | nil => cases h
  | cons s texts ih =>
    by_cases hnil : texts = []
    · obtain rfl : t = s := by simpa [hnil] using h
      rw [hnil, separated_singleton]
    · rw [separated_cons s hnil]
      simp only [List.length_append, List.length_cons]
      rcases List.mem_cons.1 h with rfl | h
      · omega
      · have := ih h
        omega

/-- What closes a sequence is no part of an element. -/
structure Closes (close : Char) : Prop where
  numeric : isNumeric close = false
  blank : isBlank close = false
  comma : close ≠ ','

section Sequences

variable {α : Type} {element : List Char → Option (α × List Char)} {close : Char}

theorem sequence_separated (hclose : Closes close) {texts : List (List Char)} {values : List α}
    (h : List.Forall₂ (Reads element) texts values) (hne : texts ≠ []) (hbegins : ∀ t ∈ texts, Begins close t) {fuel : Nat}
    (hfuel : texts.length ≤ fuel) (rest : List Char) :
    sequence element close fuel (separated texts ++ close :: rest) = some (values, rest) := by
  induction h generalizing fuel with
  | nil => exact absurd rfl hne
  | @cons t a texts values ht htexts ih =>
    obtain ⟨fuel, rfl⟩ : ∃ n, fuel = n + 1 := ⟨fuel - 1, by rw [List.length_cons] at hfuel; omega⟩
    by_cases hnil : texts = []
    · subst hnil
      cases htexts
      have hread := ht (close :: rest) (delimited_cons hclose.numeric _)
      simp [sequence, separated_singleton, hread, skip_cons hclose.blank, hclose.comma]
    · have hbegins' := fun s hs => hbegins s (List.mem_cons_of_mem _ hs)
      have hread := ht (',' :: ' ' :: (separated texts ++ close :: rest)) (delimited_cons rfl _)
      have hmore : sequence element close fuel (separated texts ++ close :: rest) = some (values, rest) :=
        ih hnil hbegins' (by rw [List.length_cons] at hfuel; omega)
      have hskip := ((begins_separated hnil hbegins').append (close :: rest)).skip
      rw [separated_cons t hnil, List.append_assoc, List.cons_append, List.cons_append, sequence, hread]
      simp only [Option.bind_eq_bind, Option.bind_some, skip_cons (show isBlank ',' = false from rfl), if_true, skip_blank,
        hskip, hmore]
      rfl

end Sequences

theorem member_entry {element : List Char → Option (Value × List Char)} {key : List Nat} {v : Value} (hkey : IsText key)
    (h : Reads element (render v) v) (hv : Clean v) :
    Reads (member element) (quoted key ++ ':' :: ' ' :: render v) (key, v) := by
  intro rest hrest
  obtain ⟨c, t, hc, hblank, -⟩ := render_head hv
  have hskip : skip (render v ++ rest) = render v ++ rest := by rw [hc, List.cons_append, skip_cons hblank]
  simp only [quoted, List.cons_append, List.append_assoc, List.nil_append, member, units_quoted hkey, Option.bind_eq_bind,
    Option.bind_some, skip_cons (show isBlank ':' = false from rfl), skip_blank, hskip, h rest hrest,
    combine_flatMap_unitsOf hkey]
  rfl

theorem dict_eq_self {entries : List (List Nat × Value)} (h : (entries.map Prod.fst).Nodup) : dict entries = entries := by
  have hfold : ∀ (l : List (List Nat × Value)) (d : Dict (List Nat) Value), ((d.entries ++ l).map Prod.fst).Nodup →
      (l.foldl (fun d e => d.set e.1 e.2) d).entries = d.entries ++ l := by
    intro l
    induction l with
    | nil => simp
    | cons e l ih =>
      intro d hd
      have hkey : e.1 ∉ d.keys := by
        intro hmem
        rw [List.map_append, List.map_cons, List.nodup_append] at hd
        exact hd.2.2 e.1 hmem e.1 (List.mem_cons_self ..) rfl
      have hset := Dict.entries_set_of_not_mem e.2 hkey
      rw [List.foldl_cons, ih _ (by rw [hset, List.append_assoc]; exact hd), hset, List.append_assoc]
      rfl
  exact hfold entries .empty h

section Steps

variable {fuel : Nat} {c : Char} {t : List Char}

theorem value_digit (hc : c.isDigit) : value (fuel + 1) (c :: t) = number (c :: t) := by
  rw [value] <;> rintro _ ⟨⟩ <;> exact absurd hc (by decide)

theorem value_minus (hc : c.isDigit) : value (fuel + 1) ('-' :: c :: t) = number ('-' :: c :: t) := by
  rw [value]
  all_goals rintro _ ⟨⟩
  exact absurd hc (by decide)

theorem value_arr (h : Begins ']' (skip t)) : value (fuel + 1) ('[' :: t) =
    (sequence (value fuel) ']' ((skip t).length + 1) (skip t)).map fun p => (.arr p.1, p.2) := by
  obtain ⟨c, s, hs, -, hc⟩ := h
  rw [value, hs]
  split
  · rename_i heq
    exact absurd (List.cons.inj heq).1 hc
  · cases sequence (value fuel) ']' ((c :: s).length + 1) (c :: s) <;> rfl

theorem value_obj (h : Begins '\x7d' (skip t)) : value (fuel + 1) ('\x7b' :: t) =
    (sequence (member (value fuel)) '\x7d' ((skip t).length + 1) (skip t)).map fun p => (.obj (dict p.1), p.2) := by
  obtain ⟨c, s, hs, -, hc⟩ := h
  rw [value, hs]
  split
  · rename_i heq
    exact absurd (List.cons.inj heq).1 hc
  · cases sequence (member (value fuel)) '\x7d' ((c :: s).length + 1) (c :: s) <;> rfl

end Steps

theorem value_intText (fuel : Nat) (n : Int) (t : List Char) : value (fuel + 1) (intText n ++ t) = number (intText n ++ t) := by
  obtain ⟨c, s, hc⟩ := List.exists_cons_of_ne_nil (decimal_ne_nil n.natAbs)
  have hd : c.isDigit := Py.isDigit_of_mem_decimal (hc ▸ List.mem_cons_self ..)
  unfold intText
  rw [hc]
  split
  · exact value_minus hd
  · exact value_digit hd

theorem exists_fuel {v : Value} (h : Clean v) {fuel : Nat} (hfuel : (render v).length ≤ fuel) : ∃ n, fuel = n + 1 := by
  obtain ⟨c, t, hc, -⟩ := render_head h
  exact ⟨fuel - 1, by rw [hc, List.length_cons] at hfuel; omega⟩

/-- With fuel for its length, what is written for a value is read as the value, and nothing more. -/
theorem value_render {v : Value} (h : Clean v) :
    ∀ {fuel : Nat}, (render v).length ≤ fuel → Reads (value fuel) (render v) v := by
  induction h with
  | null =>
    intro fuel hfuel rest _
    obtain ⟨fuel, rfl⟩ := exists_fuel .null hfuel
    rfl
  | bool b =>
    intro fuel hfuel rest _
    obtain ⟨fuel, rfl⟩ := exists_fuel (.bool b) hfuel
    cases b <;> rfl
  | int n =>
    intro fuel hfuel rest hrest
    obtain ⟨fuel, rfl⟩ := exists_fuel (.int n) hfuel
    rw [render, value_intText, number_intText n hrest]
  | str hs =>
    intro fuel hfuel rest _
    obtain ⟨fuel, rfl⟩ := exists_fuel (.str hs) hfuel
    simp only [render, quoted, List.cons_append, List.append_assoc, List.nil_append, value, units_quoted hs,
      Option.bind_eq_bind, Option.bind_some, combine_flatMap_unitsOf hs]
    rfl
  | @arr items hitems ih =>
    intro fuel hfuel rest _
    obtain ⟨fuel, rfl⟩ := exists_fuel (.arr hitems) hfuel
    rw [render, List.length_cons, List.length_append] at hfuel
    rw [render, List.cons_append, List.append_assoc, List.cons_append, List.nil_append]
    by_cases hnil : items = []
    · rw [hnil]
      rfl
    have hne : renderItems items ≠ [] := by simpa [renderItems_eq] using hnil
    have hbegins : ∀ t ∈ renderItems items, Begins ']' t := by
      rw [renderItems_eq]
      rintro _ hmem
      obtain ⟨v, hv, rfl⟩ := List.mem_map.1 hmem
      exact render_head (hitems v hv)
    have hreads : List.Forall₂ (Reads (value fuel)) (renderItems items) items := by
      rw [renderItems_eq, List.forall₂_map_left_iff, List.forall₂_same]
      intro v hv
      have hlength := length_le_of_mem_separated (List.mem_map_of_mem (f := render) hv)
      rw [← renderItems_eq] at hlength
      exact ih v hv (by omega)
    have hbegin := (begins_separated hne hbegins).append (']' :: rest)
    rw [value_arr (hbegin.skip.symm ▸ hbegin), hbegin.skip, sequence_separated ⟨rfl, rfl, by decide⟩ hreads hne hbegins]
    · rfl
    · have hlength := length_le_separated hbegins
      rw [List.length_append]
      omega
  | @obj entries hkeys htext hentries ih =>
    intro fuel hfuel rest _
    obtain ⟨fuel, rfl⟩ := exists_fuel (.obj hkeys htext hentries) hfuel
    rw [render, List.length_cons, List.length_append] at hfuel
    rw [render, List.cons_append, List.append_assoc, List.cons_append, List.nil_append]
    by_cases hnil : entries = []
    · rw [hnil]
      rfl
    have hne : renderEntries entries ≠ [] := by simpa [renderEntries_eq] using hnil
    have hbegins : ∀ t ∈ renderEntries entries, Begins '\x7d' t := by
      rw [renderEntries_eq]
      rintro _ hmem
      obtain ⟨e, he, rfl⟩ := List.mem_map.1 hmem
      exact ⟨'"', _, rfl, rfl, by decide⟩
    have hreads : List.Forall₂ (Reads (member (value fuel))) (renderEntries entries) entries := by
      rw [renderEntries_eq, List.forall₂_map_left_iff, List.forall₂_same]
      intro e he
      have hlength := length_le_of_mem_separated (List.mem_map_of_mem (f := fun e => quoted e.1 ++ ':' :: ' ' :: render e.2) he)
      rw [← renderEntries_eq] at hlength
      simp only [List.length_append, List.length_cons] at hlength
      exact member_entry (htext e he) (ih e he (by omega)) (hentries e he)
    have hbegin := (begins_separated hne hbegins).append ('\x7d' :: rest)
    rw [value_obj (hbegin.skip.symm ▸ hbegin), hbegin.skip, sequence_separated ⟨rfl, rfl, by decide⟩ hreads hne hbegins]
    · rw [Option.map_some, dict_eq_self hkeys]
    · have hlength := length_le_separated hbegins
      rw [List.length_append]
      omega

/-- Blanks after a value are no part of it. -/
theorem loads_render_append {v : Value} (h : Clean v) {t : List Char} (ht : ∀ c ∈ t, isBlank c) :
    loads (render v ++ t) = some v := by
  obtain ⟨c, s, hc, hblank, -⟩ := render_head h
  have hskip : skip (render v ++ t) = render v ++ t := by rw [hc, List.cons_append, skip_cons hblank]
  have hend : skip t = [] := List.dropWhile_eq_nil_iff.2 ht
  have hdelimited : Delimited t := by
    intro c hc
    have hblank := ht c (List.mem_of_mem_head? hc)
    simp only [isBlank, Bool.or_eq_true, decide_eq_true_eq] at hblank
    rcases hblank with ((rfl | rfl) | rfl) | rfl <;> rfl
  have hread := value_render h (by rw [List.length_append]; omega : (render v).length ≤ (render v ++ t).length + 1) t hdelimited
  simp only [loads, hskip, hread, Option.bind_eq_bind, Option.bind_some, hend, if_true]

/-- What is written is read back. -/
theorem loads_render {v : Value} (h : Clean v) : loads (render v) = some v := by
  have hread := loads_render_append h (t := []) (by rintro _ ⟨⟩)
  rwa [List.append_nil] at hread

/-! ### What is written is one printable line -/

def isPrintable (c : Char) : Bool := ' ' ≤ c && c ≤ '~'

theorem printable_digitChar {d : Nat} (h : d < 16) : isPrintable (Nat.digitChar d) := by
  interval_cases d <;> rfl

theorem printable_escapeUnit {u : Nat} {c : Char} (h : c ∈ escapeUnit u) : isPrintable c := by
  unfold escapeUnit at h
  split at h
  · rename_i d hd
    obtain ⟨l, l', hescapes, -⟩ := List.lookup_eq_some_iff.1 hd
    have hmem : (u, d) ∈ escapes := by simp [hescapes]
    have hall : ∀ e ∈ escapes, isPrintable e.2 := by decide
    rcases List.mem_cons.1 h with rfl | h
    · rfl
    · rw [List.mem_singleton.1 h]
      exact hall _ hmem
  · split at h
    · rename_i hrange
      rw [List.mem_singleton.1 h]
      obtain ⟨hlow, hhigh⟩ := hrange
      interval_cases u <;> rfl
    · simp only [hex, List.mem_cons, List.not_mem_nil, or_false] at h
      rcases h with rfl | rfl | rfl | rfl | rfl | rfl
      any_goals rfl
      all_goals exact printable_digitChar (Nat.mod_lt _ (by decide))

theorem printable_quoted {s : List Nat} {c : Char} (h : c ∈ quoted s) : isPrintable c := by
  simp only [quoted, List.mem_cons, List.mem_append, List.mem_flatMap, List.not_mem_nil, or_false] at h
  rcases h with rfl | ⟨u, -, hu⟩ | rfl
  · rfl
  · exact printable_escapeUnit hu
  · rfl

theorem printable_separated {texts : List (List Char)} (h : ∀ t ∈ texts, ∀ c ∈ t, isPrintable c) :
    ∀ c ∈ separated texts, isPrintable c := by
  induction texts with
  | nil =>
    rintro c ⟨⟩
  | cons t texts ih =>
    have ht := h t (List.mem_cons_self ..)
    by_cases hnil : texts = []
    · rw [hnil, separated_singleton]
      exact ht
    · rw [separated_cons t hnil]
      intro c hc
      simp only [List.mem_append, List.mem_cons] at hc
      rcases hc with hc | rfl | rfl | hc
      · exact ht c hc
      · rfl
      · rfl
      · exact ih (fun s hs => h s (List.mem_cons_of_mem _ hs)) c hc

theorem printable_decimal {n : Nat} {c : Char} (h : c ∈ Py.decimal n) : isPrintable c := by
  have hd := Py.isDigit_of_mem_decimal h
  simp only [Char.isDigit, Bool.and_eq_true, decide_eq_true_eq] at hd
  simp only [isPrintable, Bool.and_eq_true, decide_eq_true_eq]
  exact ⟨le_trans (by decide) hd.1, le_trans hd.2 (by decide)⟩

/-- No line break and no other control character. -/
theorem printable_render {v : Value} (h : Clean v) : ∀ c ∈ render v, isPrintable c := by
  induction h with
  | null =>
    rw [show render .null = ['n', 'u', 'l', 'l'] from rfl]
    simp [isPrintable]
  | bool b =>
    cases b
    · rw [show render (.bool false) = ['f', 'a', 'l', 's', 'e'] from rfl]
      simp [isPrintable]
    · rw [show render (.bool true) = ['t', 'r', 'u', 'e'] from rfl]
      simp [isPrintable]
  | int n =>
    intro c hc
    rw [render, intText] at hc
    split at hc
    · rcases List.mem_cons.1 hc with rfl | hc
      · rfl
      · exact printable_decimal hc
    · exact printable_decimal hc
  | str hs =>
    intro c hc
    exact printable_quoted hc
  | @arr items hitems ih =>
    intro c hc
    simp only [render, List.mem_cons, List.mem_append, List.not_mem_nil, or_false, renderItems_eq] at hc
    rcases hc with rfl | hc | rfl
    · rfl
    · refine printable_separated (fun t ht => ?_) c hc
      obtain ⟨v, hv, rfl⟩ := List.mem_map.1 ht
      exact ih v hv
    · rfl
  | @obj entries hkeys htext hentries ih =>
    intro c hc
    simp only [render, List.mem_cons, List.mem_append, List.not_mem_nil, or_false, renderEntries_eq] at hc
    rcases hc with rfl | hc | rfl
    · rfl
    · refine printable_separated (fun t ht d hd => ?_) c hc
      obtain ⟨e, he, rfl⟩ := List.mem_map.1 ht
      simp only [List.mem_append, List.mem_cons] at hd
      rcases hd with hd | rfl | rfl | hd
      · exact printable_quoted hd
      · rfl
      · rfl
      · exact ih e he d hd
    · rfl

/-! ### Sorted keys -/

mutual

/-- The value with the entries of its objects in the order of their keys. -/
def sortKeys : Value → Value
  | .arr items => .arr (sortItems items)
  | .obj entries => .obj ((sortEntries entries).mergeSort fun a b => decide (a.1 ≤ b.1))
  | v => v

def sortItems : List Value → List Value
  | [] => []
  | v :: items => sortKeys v :: sortItems items

def sortEntries : List (List Nat × Value) → List (List Nat × Value)
  | [] => []
  | (key, v) :: entries => (key, sortKeys v) :: sortEntries entries

end

/-- `json.dumps(v, sort_keys=True)` -/
def dumps (v : Value) : List Char := render (sortKeys v)

theorem sortItems_eq (items : List Value) : sortItems items = items.map sortKeys := by
  induction items with
  | nil => rfl
  | cons v items ih => rw [sortItems, ih, List.map_cons]

theorem sortEntries_eq (entries : List (List Nat × Value)) :
    sortEntries entries = entries.map fun e => (e.1, sortKeys e.2) := by
  induction entries with
  | nil => rfl
  | cons e entries ih => rw [sortEntries, ih, List.map_cons]

theorem keys_sortEntries (entries : List (List Nat × Value)) :
    (sortEntries entries).map Prod.fst = entries.map Prod.fst := by
  rw [sortEntries_eq, List.map_map]
  rfl

theorem Clean.sortKeys {v : Value} (h : Clean v) : Clean (sortKeys v) := by
  induction h with
  | null => exact .null
  | bool b => exact .bool b
  | int n => exact .int n
  | str hs => exact .str hs
  | arr hitems ih =>
    refine .arr fun v hv => ?_
    rw [sortItems_eq] at hv
    obtain ⟨w, hw, rfl⟩ := List.mem_map.1 hv
    exact ih w hw
  | @obj entries hkeys htext hentries ih =>
    have hmem : ∀ e ∈ (sortEntries entries).mergeSort fun a b => decide (a.1 ≤ b.1),
        ∃ e' ∈ entries, e = (e'.1, Json.sortKeys e'.2) := by
      intro e he
      rw [List.mem_mergeSort, sortEntries_eq] at he
      obtain ⟨e', he', rfl⟩ := List.mem_map.1 he
      exact ⟨e', he', rfl⟩
    refine .obj ?_ ?_ ?_
    · rw [((List.mergeSort_perm _ _).map Prod.fst).nodup_iff, keys_sortEntries]
      exact hkeys
    · intro e he
      obtain ⟨e', he', rfl⟩ := hmem e he
      exact htext e' he'
    · intro e he
      obtain ⟨e', he', rfl⟩ := hmem e he
      exact ih e' he'

/-- `v[key]` -/
def Value.get? (key : List Nat) : Value → Option Value
  | .obj entries => (entries.find? fun e => e.1 = key).map Prod.snd
  | _ => none

/-- The order of the entries is no part of an object. -/
theorem get?_sortKeys {entries : List (List Nat × Value)} (h : (entries.map Prod.fst).Nodup) (key : List Nat) :
    (sortKeys (.obj entries)).get? key = ((Value.obj entries).get? key).map sortKeys := by
  let d : Dict (List Nat) Value := ⟨entries, h⟩
  have hsorted : (((sortEntries entries).mergeSort fun a b => decide (a.1 ≤ b.1)).map Prod.fst).Nodup := by
    rw [((List.mergeSort_perm _ _).map Prod.fst).nodup_iff, keys_sortEntries]
    exact h
  let d' : Dict (List Nat) Value := ⟨_, hsorted⟩
  have hget : ∀ v, d'.get? key = some v ↔ (d.get? key).map sortKeys = some v := by
    intro v
    rw [Dict.get?_eq_some_iff, List.mem_mergeSort, sortEntries_eq, Option.map_eq_some_iff]
    simp only [List.mem_map, Prod.mk.injEq, Dict.get?_eq_some_iff, Prod.exists]
    constructor
    · rintro ⟨k, w, hmem, rfl, rfl⟩
      exact ⟨w, hmem, rfl⟩
    · rintro ⟨w, hmem, rfl⟩
      exact ⟨key, w, hmem, rfl, rfl⟩
  exact Option.ext fun v => hget v

end Json
