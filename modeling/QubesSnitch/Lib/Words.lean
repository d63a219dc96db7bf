import Mathlib.Data.List.Chain
import Mathlib.Data.List.Infix

/-!
# Words

Splitting a text at its spaces and joining the words again with single blanks, over any alphabet with a predicate
`space` and a symbol `blank`.  `words` drops leading, trailing and repeated spaces, as `str.split()` does, and
`unwords` is `" ".join`.

A text is `SingleSpaced` when its spaces are blanks that stand alone and inside.  The key facts: joining words gives a
single-spaced text (`singleSpaced_unwords`), a single-spaced text is the join of its words (`unwords_words`), and a
piece of it followed by a word is single-spaced (`SingleSpaced.prefix_append`).
-/

namespace Words

variable {α : Type*} (space : α → Bool) (blank : α)

/-! ### Splitting and joining -/

/-- The open word as a word, unless it is empty. -/
def closed : List α → List (List α)
  | [] => []
  | word => [word]

/-- The words of a text whose first characters `word` were read already. -/
def wordsFrom (word : List α) : List α → List (List α)
  | [] => closed word
  | c :: s => if space c then closed word ++ wordsFrom [] s else wordsFrom (word ++ [c]) s

def words (s : List α) : List (List α) := wordsFrom space [] s

def unwords (ws : List (List α)) : List α := [blank].intercalate ws

variable {space blank}

theorem mem_closed {w word : List α} : w ∈ closed word ↔ w = word ∧ word ≠ [] := by
  cases word <;> simp [closed]

@[simp] theorem closed_cons (c : α) (w : List α) : closed (c :: w) = [c :: w] := rfl

theorem closed_of_ne_nil {w : List α} (h : w ≠ []) : closed w = [w] := by
  cases w with
  | nil => exact absurd rfl h
  | cons c w => rfl

/-- A word is not empty and has no space. -/
def IsWord (space : α → Bool) (w : List α) : Prop := w ≠ [] ∧ ∀ c ∈ w, space c = false

private theorem spaceless_snoc {w : List α} {a : α} (hw : ∀ c ∈ w, space c = false) (ha : ¬ space a) :
    ∀ c ∈ w ++ [a], space c = false := by
  intro c hc
  rcases List.mem_append.1 hc with hc | hc
  · exact hw c hc
  · rw [List.mem_singleton.1 hc]
    exact Bool.eq_false_iff.2 ha

private theorem mem_wordsFrom {w word s : List α} (hword : ∀ c ∈ word, space c = false)
    (h : w ∈ wordsFrom space word s) : IsWord space w ∧ ∀ c ∈ w, c ∈ word ++ s := by
  induction s generalizing word with
  | nil =>
    obtain ⟨rfl, hne⟩ := mem_closed.1 h
    exact ⟨⟨hne, hword⟩, by simp⟩
  | cons a s ih =>
    unfold wordsFrom at h
    split at h
    case isTrue ha =>
      rcases List.mem_append.1 h with h | h
      · obtain ⟨rfl, hne⟩ := mem_closed.1 h
        exact ⟨⟨hne, hword⟩, fun c hc => List.mem_append_left _ hc⟩
      · obtain ⟨hw, hmem⟩ := @ih [] (by simp) h
        refine ⟨hw, fun c hc => ?_⟩
        have := hmem c hc
        simp only [List.nil_append] at this
        simp [this]
    case isFalse ha =>
      obtain ⟨hw, hmem⟩ := ih (spaceless_snoc hword ha) h
      exact ⟨hw, fun c hc => by simpa using hmem c hc⟩

theorem isWord_of_mem_words {w s : List α} (h : w ∈ words space s) : IsWord space w :=
  (mem_wordsFrom (by simp) h).1

theorem mem_of_mem_words {w s : List α} {c : α} (h : w ∈ words space s) (hc : c ∈ w) : c ∈ s := by
  simpa using (mem_wordsFrom (by simp) h).2 c hc

theorem unwords_cons {w : List α} {ws : List (List α)} (h : ws ≠ []) :
    unwords blank (w :: ws) = w ++ blank :: unwords blank ws := by
  simp [unwords, List.intercalate_cons_of_ne_nil h]

theorem mem_unwords {ws : List (List α)} {c : α} (h : c ∈ unwords blank ws) : c = blank ∨ ∃ w ∈ ws, c ∈ w := by
  induction ws with
  | nil => simp [unwords] at h
  | cons w ws ih =>
    by_cases hws : ws = []
    · subst hws
      exact .inr ⟨w, by simp, by simpa [unwords] using h⟩
    · rw [unwords_cons hws, List.mem_append, List.mem_cons] at h
      rcases h with h | h | h
      · exact .inr ⟨w, by simp, h⟩
      · exact .inl h
      · rcases ih h with h | ⟨v, hv, h⟩
        · exact .inl h
        · exact .inr ⟨v, List.mem_cons_of_mem _ hv, h⟩

theorem length_unwords_closed_append (word : List α) (ws : List (List α)) :
    (unwords blank (closed word ++ ws)).length ≤ word.length + 1 + (unwords blank ws).length := by
  cases word with
  | nil => simp [closed]
  | cons c word =>
    by_cases hws : ws = []
    · subst hws
      simp [closed, unwords]
    · rw [closed_cons, List.singleton_append, unwords_cons hws, List.length_append, List.length_cons,
        List.length_cons]
      omega

-- The blank behind a closed word stands for the space that closed it.
private theorem length_unwords_wordsFrom_le (word s : List α) :
    (unwords blank (wordsFrom space word s)).length ≤ word.length + s.length := by
  induction s generalizing word with
  | nil => cases word <;> simp [wordsFrom, closed, unwords]
  | cons c s ih =>
    unfold wordsFrom
    split
    · have hclosed := @length_unwords_closed_append _ blank word (wordsFrom space [] s)
      have hrest := ih []
      simp only [List.length_nil, List.length_cons] at hrest ⊢
      omega
    · have hopen := ih (word ++ [c])
      simp only [List.length_append, List.length_cons, List.length_nil] at hopen ⊢
      omega

/-- Joining the words of a text again makes it no longer. -/
theorem length_unwords_words_le (space : α → Bool) (blank : α) (s : List α) :
    (unwords blank (words space s)).length ≤ s.length := by
  simpa [words] using @length_unwords_wordsFrom_le _ space blank [] s

/-! ### Single-spaced texts -/

/-- The spaces of the text are blanks, none is first or last, and no two are neighbours. -/
structure SingleSpaced (space : α → Bool) (blank : α) (s : List α) : Prop where
  blanks : ∀ c ∈ s, space c → c = blank
  first : ∀ c ∈ s.head?, space c = false
  last : ∀ c ∈ s.getLast?, space c = false
  apart : s.IsChain fun a b => ¬ (space a ∧ space b)

theorem SingleSpaced.nil : SingleSpaced space blank [] := ⟨by simp, by simp, by simp, by simp⟩

theorem isChain_of_spaceless {w : List α} (h : ∀ c ∈ w, space c = false) :
    w.IsChain fun a b => ¬ (space a ∧ space b) := by
  induction w with
  | nil => simp
  | cons a w ih =>
    refine List.isChain_cons.2 ⟨fun b _ => ?_, ih fun c hc => h c (List.mem_cons_of_mem _ hc)⟩
    simp [h a (by simp)]

theorem IsWord.singleSpaced {w : List α} (h : IsWord space w) : SingleSpaced space blank w where
  blanks c hc hs := by simp [h.2 c hc] at hs
  first c hc := h.2 c (List.mem_of_head? hc)
  last c hc := h.2 c (List.mem_of_getLast? hc)
  apart := isChain_of_spaceless h.2

theorem SingleSpaced.join {w s : List α} (hw : IsWord space w) (hs : SingleSpaced space blank s) (hne : s ≠ []) :
    SingleSpaced space blank (w ++ blank :: s) where
  blanks c hc hsp := by
    rcases List.mem_append.1 hc with hc | hc
    · simp [hw.2 c hc] at hsp
    · rcases List.mem_cons.1 hc with hc | hc
      · exact hc
      · exact hs.blanks c hc hsp
  first c hc := by
    rw [List.head?_append_of_ne_nil _ hw.1] at hc
    exact hw.2 c (List.mem_of_head? hc)
  last c hc := by
    rw [List.getLast?_append_of_ne_nil _ (by simp), List.getLast?_cons_of_ne_nil hne] at hc
    exact hs.last c hc
  apart := by
    have hrest : (blank :: s).IsChain fun a b => ¬ (space a ∧ space b) :=
      List.isChain_cons.2 ⟨fun b hb => by simp [hs.first b hb], hs.apart⟩
    refine List.isChain_append.2 ⟨isChain_of_spaceless hw.2, hrest, fun a ha b _ => ?_⟩
    simp [hw.2 a (List.mem_of_getLast? ha)]

/-- Joining words gives a single-spaced text. -/
theorem singleSpaced_unwords {ws : List (List α)} (h : ∀ w ∈ ws, IsWord space w) :
    SingleSpaced space blank (unwords blank ws) := by
  induction ws with
  | nil => simpa [unwords] using SingleSpaced.nil
  | cons w ws ih =>
    have hws := ih fun v hv => h v (List.mem_cons_of_mem _ hv)
    cases ws with
    | nil => simpa [unwords] using IsWord.singleSpaced (h w (by simp))
    | cons v ws =>
      rw [unwords_cons (by simp)]
      refine .join (h w (by simp)) hws ?_
      intro hnil
      have hv := (h v (by simp)).1
      cases ws <;> simp_all [unwords]

/-- After a space of a single-spaced text, a single-spaced text follows, and it is not empty. -/
theorem SingleSpaced.after_space {w s : List α} {c : α} (h : SingleSpaced space blank (w ++ c :: s)) (hc : space c) :
    SingleSpaced space blank s ∧ s ≠ [] := by
  have hne : s ≠ [] := by
    rintro rfl
    have := h.last c (by simp)
    rw [hc] at this
    cases this
  have hchain := (List.isChain_append.1 h.apart).2.1
  refine ⟨⟨fun d hd => h.blanks d (by simp [hd]), fun d hd => ?_, fun d hd => h.last d ?_, hchain.of_cons⟩, hne⟩
  · have := (List.isChain_cons.1 hchain).1 d hd
    simpa [hc] using this
  · rw [List.getLast?_append_of_ne_nil _ (by simp), List.getLast?_cons_of_ne_nil hne]
    exact hd

-- The induction is on the unread text; the open word has no space, so that a space always closes one.
private theorem unwords_wordsFrom {word s : List α} (hword : ∀ c ∈ word, space c = false)
    (h : SingleSpaced space blank (word ++ s)) : unwords blank (wordsFrom space word s) = word ++ s := by
  induction s generalizing word with
  | nil => cases word <;> simp [wordsFrom, closed, unwords]
  | cons a s ih =>
    unfold wordsFrom
    split
    case isTrue ha =>
      obtain ⟨hs, hne⟩ := h.after_space ha
      have hopen : word ≠ [] := by
        rintro rfl
        have := h.first a (by simp)
        rw [ha] at this
        cases this
      have hrest : unwords blank (wordsFrom space [] s) = s := ih (by simp) hs
      have hsome : wordsFrom space [] s ≠ [] := by
        intro hnil
        rw [hnil] at hrest
        exact hne (by simpa [unwords] using hrest.symm)
      rw [closed_of_ne_nil hopen, List.singleton_append, unwords_cons hsome, hrest, h.blanks a (by simp) ha]
    case isFalse ha =>
      rw [ih (spaceless_snoc hword ha) (by simpa using h)]
      simp

/-- A single-spaced text is the join of its words. -/
theorem unwords_words {s : List α} (h : SingleSpaced space blank s) : unwords blank (words space s) = s :=
  unwords_wordsFrom (by simp) h

/-- A piece of a single-spaced text, cut anywhere and closed by a word, is single-spaced. -/
theorem SingleSpaced.prefix_append {p s t : List α} (h : SingleSpaced space blank s) (hp : p <+: s)
    (ht : IsWord space t) : SingleSpaced space blank (p ++ t) where
  blanks c hc hsp := by
    rcases List.mem_append.1 hc with hc | hc
    · exact h.blanks c (hp.subset hc) hsp
    · simp [ht.2 c hc] at hsp
  first c hc := by
    cases p with
    | nil => exact ht.2 c (List.mem_of_head? hc)
    | cons a p =>
      obtain ⟨r, rfl⟩ := hp
      exact h.first c (by simpa using hc)
  last c hc := by
    rw [List.getLast?_append_of_ne_nil _ ht.1] at hc
    exact ht.2 c (List.mem_of_getLast? hc)
  apart := by
    obtain ⟨r, rfl⟩ := hp
    refine List.isChain_append.2 ⟨(List.isChain_append.1 h.apart).1, isChain_of_spaceless ht.2, fun a _ b hb => ?_⟩
    simp [ht.2 b (List.mem_of_head? hb)]

end Words
