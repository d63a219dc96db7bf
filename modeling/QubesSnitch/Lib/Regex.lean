import Mathlib

/-!
# Regular expressions with bounded repetition

A pattern is matched by listing every suffix that can be left over after one of its words (`rests`); a full match
leaves the empty suffix.  The words of a pattern are described independently (`lang`), and `mem_rests_iff` says
that the two agree, so that a property of all accepted texts is proved on words and a text is tested by running
the matcher.
-/

inductive Regex where
  | cls (p : Char → Bool)
  | seq (r t : Regex)
  | upTo (r : Regex) (n : Nat)
  | star (r : Regex)

namespace Regex

def char (c : Char) : Regex := cls fun d => d = c

/-- `r?` -/
def opt (r : Regex) : Regex := upTo r 1

/-- `r+` -/
def plus (r : Regex) : Regex := seq r (star r)

/-- The suffixes left after at most `n` rounds of `f`. -/
def iterate (f : List Char → List (List Char)) : Nat → List Char → List (List Char)
  | 0, s => [s]
  | n + 1, s => s :: (f s).flatMap (iterate f n)

/-- The suffixes of a text that remain after a word of the pattern. -/
def rests : Regex → List Char → List (List Char)
  | cls _, [] => []
  | cls p, c :: s => if p c then [s] else []
  | seq r t, s => (r.rests s).flatMap t.rests
  | upTo r n, s => iterate r.rests n s
  | star r, s => iterate r.rests s.length s

/-- `re.fullmatch`. -/
def fullmatch (r : Regex) (s : List Char) : Bool := (r.rests s).contains []

/-- The words of a pattern. -/
def lang : Regex → Set (List Char)
  | cls p => {w | ∃ c, p c ∧ w = [c]}
  | seq r t => {w | ∃ u v, u ∈ r.lang ∧ v ∈ t.lang ∧ w = u ++ v}
  | upTo r n => {w | ∃ ws : List (List Char), ws.length ≤ n ∧ (∀ u ∈ ws, u ∈ r.lang) ∧ w = ws.flatten}
  | star r => {w | ∃ ws : List (List Char), (∀ u ∈ ws, u ∈ r.lang) ∧ w = ws.flatten}

/-- What `iterate` leaves, for a function that leaves the suffixes after the words of `L`. -/
private theorem mem_iterate_iff {f : List Char → List (List Char)} {L : Set (List Char)}
    (hf : ∀ s t, t ∈ f s ↔ ∃ w ∈ L, s = w ++ t) (n : Nat) (s t : List Char) :
    t ∈ iterate f n s ↔ ∃ ws : List (List Char), ws.length ≤ n ∧ (∀ u ∈ ws, u ∈ L) ∧ s = ws.flatten ++ t := by
  induction n generalizing s with
  | zero =>
    simp only [iterate, List.mem_singleton]
    constructor
    · rintro rfl
      exact ⟨[], by simp, by simp, by simp⟩
    · rintro ⟨ws, hlen, -, rfl⟩
      obtain rfl := List.length_eq_zero_iff.1 (Nat.le_zero.1 hlen)
      simp
  | succ n ih =>
    simp only [iterate, List.mem_cons, List.mem_flatMap]
    constructor
    · rintro (rfl | ⟨s', hs', ht⟩)
      · exact ⟨[], by simp, by simp, by simp⟩
      · obtain ⟨w, hw, rfl⟩ := (hf s s').1 hs'
        obtain ⟨ws, hlen, hws, rfl⟩ := (ih s').1 ht
        refine ⟨w :: ws, by simpa using hlen, ?_, by simp⟩
        intro u hu
        rcases List.mem_cons.1 hu with rfl | hu
        · exact hw
        · exact hws u hu
    · rintro ⟨ws, hlen, hws, rfl⟩
      cases ws with
      | nil => exact Or.inl (by simp)
      | cons w ws =>
        refine Or.inr ⟨ws.flatten ++ t, (hf _ _).2 ⟨w, hws w (by simp), by simp⟩, ?_⟩
        exact (ih _).2 ⟨ws, by simpa using hlen, fun u hu => hws u (by simp [hu]), rfl⟩

/-- Leaving out the empty words changes nothing, and what remains is no longer than the text. -/
private theorem exists_short_words {L : Set (List Char)} (ws : List (List Char)) (h : ∀ u ∈ ws, u ∈ L) :
    ∃ ws' : List (List Char), ws'.length ≤ ws.flatten.length ∧ (∀ u ∈ ws', u ∈ L) ∧ ws'.flatten = ws.flatten := by
  induction ws with
  | nil => exact ⟨[], by simp, by simp, rfl⟩
  | cons w ws ih =>
    obtain ⟨ws', hlen, hws, hfl⟩ := ih (fun u hu => h u (by simp [hu]))
    cases w with
    | nil => exact ⟨ws', by simpa using hlen, hws, by simpa using hfl⟩
    | cons c w =>
      have hle : ((c :: w) :: ws').length ≤ ((c :: w) :: ws).flatten.length := by
        rw [List.flatten_cons, List.length_append, List.length_cons, List.length_cons]
        omega
      refine ⟨(c :: w) :: ws', hle, ?_, by simp [hfl]⟩
      intro u hu
      rcases List.mem_cons.1 hu with rfl | hu
      · exact h _ (by simp)
      · exact hws u hu

theorem mem_rests_iff (r : Regex) (s t : List Char) : t ∈ r.rests s ↔ ∃ w ∈ r.lang, s = w ++ t := by
  induction r generalizing s t with
  | cls p =>
    cases s with
    | nil => simp [rests, lang]
    | cons c s =>
      simp only [rests, lang]
      constructor
      · intro h
        by_cases hp : p c
        · rw [if_pos hp, List.mem_singleton] at h
          exact ⟨[c], ⟨c, hp, rfl⟩, by rw [h]; rfl⟩
        · simp [hp] at h
      · rintro ⟨w, ⟨d, hd, rfl⟩, hs⟩
        obtain ⟨rfl, rfl⟩ : c = d ∧ s = t := by simpa using hs
        simp [hd]
  | seq r q ihr ihq =>
    simp only [rests, lang, List.mem_flatMap]
    constructor
    · rintro ⟨s', hs', ht⟩
      obtain ⟨u, hu, rfl⟩ := (ihr _ _).1 hs'
      obtain ⟨v, hv, rfl⟩ := (ihq _ _).1 ht
      exact ⟨u ++ v, ⟨u, v, hu, hv, rfl⟩, by simp⟩
    · rintro ⟨w, ⟨u, v, hu, hv, rfl⟩, rfl⟩
      exact ⟨v ++ t, (ihr _ _).2 ⟨u, hu, by simp⟩, (ihq _ _).2 ⟨v, hv, rfl⟩⟩
  | upTo r n ih =>
    simp only [rests, lang, mem_iterate_iff ih]
    constructor
    · rintro ⟨ws, hlen, hws, hs⟩
      exact ⟨_, ⟨ws, hlen, hws, rfl⟩, hs⟩
    · rintro ⟨w, ⟨ws, hlen, hws, rfl⟩, hs⟩
      exact ⟨ws, hlen, hws, hs⟩
  | star r ih =>
    simp only [rests, lang, mem_iterate_iff ih]
    constructor
    · rintro ⟨ws, -, hws, hs⟩
      exact ⟨_, ⟨ws, hws, rfl⟩, hs⟩
    · rintro ⟨w, ⟨ws, hws, rfl⟩, hs⟩
      -- empty words may be left out, so that the length of the text is rounds enough
      obtain ⟨ws', hlen, hws', hfl⟩ := exists_short_words ws hws
      refine ⟨ws', ?_, hws', by rw [hfl, hs]⟩
      rw [hs, List.length_append]
      omega

theorem fullmatch_iff (r : Regex) (s : List Char) : r.fullmatch s ↔ s ∈ r.lang := by
  simp [fullmatch, mem_rests_iff]

/-! ### The characters of a word -/

/-- Every character class of the pattern lies inside `q`. -/
def Within (q : Char → Prop) : Regex → Prop
  | cls p => ∀ c, p c → q c
  | seq r t => r.Within q ∧ t.Within q
  | upTo r _ => r.Within q
  | star r => r.Within q

theorem Within.mem {q : Char → Prop} {r : Regex} (h : r.Within q) {w : List Char} (hw : w ∈ r.lang) :
    ∀ c ∈ w, q c := by
  induction r generalizing w with
  | cls p =>
    obtain ⟨d, hd, rfl⟩ := hw
    intro c hc
    obtain rfl := List.mem_singleton.1 hc
    exact h c hd
  | seq r t ihr iht =>
    obtain ⟨u, v, hu, hv, rfl⟩ := hw
    intro c hc
    rcases List.mem_append.1 hc with hc | hc
    · exact ihr h.1 hu c hc
    · exact iht h.2 hv c hc
  | upTo r n ih =>
    obtain ⟨ws, -, hws, rfl⟩ := hw
    intro c hc
    obtain ⟨u, hu, hcu⟩ := List.mem_flatten.1 hc
    exact ih h (hws u hu) c hcu
  | star r ih =>
    obtain ⟨ws, hws, rfl⟩ := hw
    intro c hc
    obtain ⟨u, hu, hcu⟩ := List.mem_flatten.1 hc
    exact ih h (hws u hu) c hcu

/-- The last character of a word of `r t` is the last character of a word of `t`, if those are not empty. -/
theorem getLast?_mem_seq {q : Char → Prop} {r t : Regex}
    (ht : ∀ v ∈ t.lang, ∃ c, v.getLast? = some c ∧ q c) {w : List Char} (hw : w ∈ (seq r t).lang) :
    ∃ c, w.getLast? = some c ∧ q c := by
  obtain ⟨u, v, -, hv, rfl⟩ := hw
  obtain ⟨c, hc, hq⟩ := ht v hv
  exact ⟨c, by simp [List.getLast?_append, hc], hq⟩

/-- Repeating a pattern whose words end in `q` gives words that end in `q`. -/
theorem getLast?_mem_plus {q : Char → Prop} {r : Regex}
    (hr : ∀ v ∈ r.lang, ∃ c, v.getLast? = some c ∧ q c) {w : List Char} (hw : w ∈ (plus r).lang) :
    ∃ c, w.getLast? = some c ∧ q c := by
  obtain ⟨u, v, hu, ⟨ws, hws, rfl⟩, rfl⟩ := hw
  rcases List.eq_nil_or_concat ws with rfl | ⟨ws', x, rfl⟩
  · simpa using hr u hu
  · obtain ⟨c, hc, hq⟩ := hr x (hws x (by simp))
    exact ⟨c, by simp [List.getLast?_append, hc], hq⟩

/-! ### The words of common patterns -/

@[simp] theorem mem_char {c : Char} {w : List Char} : w ∈ (char c).lang ↔ w = [c] := by
  constructor
  · rintro ⟨d, hd, rfl⟩
    rw [of_decide_eq_true hd]
  · rintro rfl
    exact ⟨c, decide_eq_true rfl, rfl⟩

theorem mem_opt {r : Regex} {w : List Char} : w ∈ (opt r).lang ↔ w = [] ∨ w ∈ r.lang := by
  constructor
  · rintro ⟨ws, hlen, hws, rfl⟩
    match ws with
    | [] => exact Or.inl rfl
    | [x] =>
      rw [List.flatten_singleton]
      exact Or.inr (hws x (by simp))
    | _ :: _ :: _ =>
      rw [List.length_cons, List.length_cons] at hlen
      omega
  · rintro (rfl | hw)
    · exact ⟨[], by simp, by simp, rfl⟩
    · exact ⟨[w], by simp, by simpa using hw, by simp⟩

theorem mem_upTo_cls {p : Char → Bool} {n : Nat} {w : List Char} :
    w ∈ (upTo (cls p) n).lang ↔ w.length ≤ n ∧ ∀ c ∈ w, p c := by
  constructor
  · rintro ⟨ws, hlen, hws, rfl⟩
    have hsingle : ∀ u ∈ ws, u.length = 1 := by
      intro u hu
      obtain ⟨c, -, rfl⟩ := hws u hu
      rfl
    refine ⟨?_, fun c hc => ?_⟩
    · have hsum : ws.flatten.length = ws.length := by
        rw [List.length_flatten, List.map_congr_left hsingle]
        simp
      omega
    · obtain ⟨u, hu, hcu⟩ := List.mem_flatten.1 hc
      obtain ⟨d, hd, rfl⟩ := hws u hu
      rwa [List.mem_singleton.1 hcu]
  · rintro ⟨hlen, hw⟩
    have hflat : (w.map fun c => [c]).flatten = w := List.flatMap_singleton' w
    refine ⟨w.map fun c => [c], by simpa using hlen, fun u hu => ?_, hflat.symm⟩
    obtain ⟨c, hc, rfl⟩ := List.mem_map.1 hu
    exact ⟨c, hw c hc, rfl⟩

theorem mem_seq_char {c : Char} {r : Regex} {w : List Char} :
    w ∈ (seq (char c) r).lang ↔ ∃ v ∈ r.lang, w = c :: v := by
  constructor
  · rintro ⟨u, v, hu, hv, rfl⟩
    rw [mem_char.1 hu]
    exact ⟨v, hv, rfl⟩
  · rintro ⟨v, hv, rfl⟩
    exact ⟨[c], v, mem_char.2 rfl, hv, rfl⟩

private theorem intercalate_cons (c : Char) (l : List Char) (ls : List (List Char)) :
    [c].intercalate (l :: ls) = l ++ (ls.map (c :: ·)).flatten := by
  induction ls generalizing l with
  | nil => simp
  | cons x ls ih =>
    rw [List.intercalate_cons_cons, ih]
    simp

/-- Two or more words of `r` with `c` between them. -/
def separated (c : Char) (r : Regex) : Regex := seq r (plus (seq (char c) r))

private theorem mem_separated {c : Char} {r : Regex} {w : List Char} :
    w ∈ (separated c r).lang ↔ ∃ ls : List (List Char), 2 ≤ ls.length ∧ (∀ l ∈ ls, l ∈ r.lang) ∧ w = [c].intercalate ls := by
  constructor
  · rintro ⟨l, t, hl, ⟨x, y, hx, ⟨ws, hws, rfl⟩, rfl⟩, rfl⟩
    have htails : ∃ ls : List (List Char), (∀ v ∈ ls, v ∈ r.lang) ∧ ws = ls.map (c :: ·) := by
      induction ws with
      | nil => exact ⟨[], by simp, rfl⟩
      | cons u ws ih =>
        obtain ⟨v, hv, rfl⟩ := mem_seq_char.1 (hws u (by simp))
        obtain ⟨ls, hls, rfl⟩ := ih fun u hu => hws u (List.mem_cons_of_mem _ hu)
        refine ⟨v :: ls, fun z hz => ?_, rfl⟩
        rcases List.mem_cons.1 hz with rfl | hz
        · exact hv
        · exact hls z hz
    obtain ⟨v, hv, rfl⟩ := mem_seq_char.1 hx
    obtain ⟨ls, hls, rfl⟩ := htails
    refine ⟨l :: v :: ls, by simp, fun z hz => ?_, ?_⟩
    · rcases List.mem_cons.1 hz with rfl | hz
      · exact hl
      rcases List.mem_cons.1 hz with rfl | hz
      · exact hv
      · exact hls z hz
    · rw [intercalate_cons]
      rfl
  · rintro ⟨ls, hlen, hls, rfl⟩
    match ls with
    | [] => simp at hlen
    | [_] => simp at hlen
    | l :: v :: ls =>
      have htails : (ls.map (c :: ·)).flatten ∈ (star (seq (char c) r)).lang := by
        refine ⟨ls.map (c :: ·), fun u hu => ?_, rfl⟩
        obtain ⟨z, hz, rfl⟩ := List.mem_map.1 hu
        exact mem_seq_char.2 ⟨z, hls z (by simp [hz]), rfl⟩
      have hfirst : c :: v ∈ (seq (char c) r).lang := mem_seq_char.2 ⟨v, hls v (by simp), rfl⟩
      rw [intercalate_cons]
      exact ⟨l, _, hls l (by simp), ⟨c :: v, _, hfirst, htails, rfl⟩, rfl⟩

/-- When `c` is not in the words of `r`, the words between the separators are what splitting gives. -/
theorem mem_separated_iff {c : Char} {r : Regex} (hr : r.Within (· ≠ c)) {w : List Char} :
    w ∈ (separated c r).lang ↔ 2 ≤ (w.splitOn c).length ∧ ∀ l ∈ w.splitOn c, l ∈ r.lang := by
  rw [mem_separated]
  constructor
  · rintro ⟨ls, hlen, hls, rfl⟩
    have hfree : ∀ l ∈ ls, c ∉ l := fun l hl hc => hr.mem (hls l hl) c hc rfl
    have hne : ls ≠ [] := by
      rintro rfl
      simp at hlen
    rw [List.splitOn_intercalate c hfree hne]
    exact ⟨hlen, hls⟩
  · rintro ⟨hlen, hls⟩
    exact ⟨w.splitOn c, hlen, hls, (List.intercalate_splitOn c).symm⟩

end Regex
