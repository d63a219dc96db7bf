import QubesSnitch.Lib.Json

/-!
# Parts of JSON texts

What is read of a text does not change when there is more text after it, unless a number at its end goes on
(`value_append`).  So a text that breaks off inside of an object is never read as anything (`loads_of_prefix`).  And the
fuel of `value` does not matter if there is more of it than characters (`value_of_fuel`).
-/

namespace Json

/-! ### More text after what was read -/

/-- A text that begins with something that cannot go on with a number. -/
def Stops (t : List Char) : Prop := ∃ c ∈ t.head?, isNumeric c = false

theorem Stops.ne_nil {t : List Char} (h : Stops t) : t ≠ [] := by
  rintro rfl
  obtain ⟨c, ⟨⟩, -⟩ := h

theorem Stops.delimited {t : List Char} (h : Stops t) : Delimited t := by
  obtain ⟨c, hc, hn⟩ := h
  intro d hd
  rwa [Option.mem_unique hd hc]

theorem skip_append {t r : List Char} {c : Char} (h : skip t = c :: r) (q : List Char) : skip (t ++ q) = c :: (r ++ q) := by
  have hne : t.dropWhile isBlank ≠ [] := by
    rw [show t.dropWhile isBlank = c :: r from h]
    exact List.cons_ne_nil c r
  unfold skip
  rw [List.dropWhile_append, if_neg (by simpa using hne), show t.dropWhile isBlank = c :: r from h]
  rfl

theorem skip_append_of_ne_nil {t q : List Char} (h : skip t ≠ []) : skip (t ++ q) = skip t ++ q := by
  obtain ⟨c, r, hr⟩ := List.exists_cons_of_ne_nil h
  rw [hr, skip_append hr q]
  rfl

/-- What is read of a string has nothing to do with what follows it. -/
theorem units_local {t : List Char} {s : List Nat} {r : List Char} (h : units t = some (s, r)) :
    ∃ w, w ≠ [] ∧ t = w ++ r ∧ ∀ q, units (w ++ q) = some (s, q) := by
  induction t using units.induct generalizing s with
  | case1 => cases h
  | case2 rest =>
    cases h
    exact ⟨['"'], List.cons_ne_nil _ _, rfl, fun q => rfl⟩
  | case3 a b c d rest ih =>
    simp only [units, Option.bind_eq_bind, Option.bind_eq_some_iff, Option.pure_def, Option.some.injEq, Prod.mk.injEq] at h
    obtain ⟨x, hx, y, hy, z, hz, u, hu, ⟨s', r'⟩, hrest, rfl, rfl⟩ := h
    obtain ⟨w, -, rfl, hw⟩ := ih hrest
    refine ⟨'\\' :: 'u' :: a :: b :: c :: d :: w, List.cons_ne_nil _ _, rfl, fun q => ?_⟩
    simp only [List.cons_append, units, hx, hy, hz, hu, hw, Option.bind_eq_bind, Option.bind_some]
    rfl
  | case4 c rest hshort ih =>
    rw [units] at h
    · simp only [Option.bind_eq_bind, Option.bind_eq_some_iff, Option.pure_def, Option.some.injEq, Prod.mk.injEq] at h
      obtain ⟨x, hx, ⟨s', r'⟩, hrest, rfl, rfl⟩ := h
      obtain ⟨w, -, rfl, hw⟩ := ih hrest
      have hu : c ≠ 'u' := by
        rintro rfl
        cases hx
      refine ⟨'\\' :: c :: w, List.cons_ne_nil _ _, rfl, fun q => ?_⟩
      rw [List.cons_append, List.cons_append, units_escape hu, hx, hw]
      rfl
    · exact hshort
  | case5 c rest hquote hescape hslash hlow =>
    rw [units] at h
    · rw [if_pos hlow] at h
      cases h
    all_goals assumption
  | case6 c rest hquote hescape hslash hlow ih =>
    rw [units] at h
    · rw [if_neg hlow] at h
      simp only [Option.bind_eq_bind, Option.bind_eq_some_iff, Option.pure_def, Option.some.injEq, Prod.mk.injEq] at h
      obtain ⟨⟨s', r'⟩, hrest, rfl, rfl⟩ := h
      obtain ⟨w, -, rfl, hw⟩ := ih hrest
      simp only [Bool.or_eq_true, decide_eq_true_eq, not_or, not_lt] at hlow
      refine ⟨c :: w, List.cons_ne_nil _ _, rfl, fun q => ?_⟩
      rw [List.cons_append, units_char hquote hlow.1 hlow.2, hw]
      rfl
    all_goals assumption

theorem units_append {t : List Char} {s : List Nat} {r : List Char} (h : units t = some (s, r)) (q : List Char) :
    units (t ++ q) = some (s, r ++ q) := by
  obtain ⟨w, -, rfl, hw⟩ := units_local h
  rw [List.append_assoc, hw]

theorem takeWhile_isDigit_stop {t : List Char} (h : t.dropWhile Char.isDigit ≠ []) (q : List Char) :
    (t ++ q).takeWhile Char.isDigit = t.takeWhile Char.isDigit ∧
      (t ++ q).dropWhile Char.isDigit = t.dropWhile Char.isDigit ++ q := by
  rw [List.dropWhile_append, if_neg (by simpa using h), List.takeWhile_append, if_neg]
  · exact ⟨rfl, rfl⟩
  · intro hlength
    have hsplit := congrArg List.length (List.takeWhile_append_dropWhile (p := Char.isDigit) (l := t))
    rw [List.length_append, hlength] at hsplit
    exact h (List.length_eq_zero_iff.1 (by omega))

theorem optional_append {cs t : List Char} (ht : t ≠ []) (q : List Char) :
    optional cs (t ++ q) = ((optional cs t).1, (optional cs t).2 ++ q) := by
  cases t with
  | nil => exact absurd rfl ht
  | cons c t =>
    rw [List.cons_append, optional_cons, optional_cons]
    split <;> rfl

theorem wholePart_append {t ds r : List Char} (h : wholePart t = some (ds, r)) (hr : r ≠ []) (q : List Char) :
    wholePart (t ++ q) = some (ds, r ++ q) := by
  have ht : t ≠ [] := by
    rintro rfl
    cases h
  unfold wholePart at h ⊢
  rw [List.head?_append_of_ne_nil _ ht]
  split at h
  · rename_i hzero
    obtain ⟨rfl, rfl⟩ := Prod.mk.inj (Option.some.inj h)
    rw [if_pos hzero, List.tail_append_of_ne_nil ht]
  · rename_i hzero
    split at h
    · cases h
    · rename_i hdigits
      obtain ⟨rfl, rfl⟩ := Prod.mk.inj (Option.some.inj h)
      obtain ⟨htake, hdrop⟩ := takeWhile_isDigit_stop hr q
      rw [if_neg hzero, htake, hdrop, if_neg hdigits]

theorem digitsAfter_append {lead t rest : List Char} (hrest : (digitsAfter lead t rest).2 ≠ t)
    (hr : (digitsAfter lead t rest).2 ≠ []) (q : List Char) :
    digitsAfter lead (t ++ q) (rest ++ q) = ((digitsAfter lead t rest).1, (digitsAfter lead t rest).2 ++ q) := by
  unfold digitsAfter at hrest hr ⊢
  split at hrest
  · exact absurd rfl hrest
  · rename_i hdigits
    rw [if_neg hdigits] at hr
    obtain ⟨htake, hdrop⟩ := takeWhile_isDigit_stop hr q
    rw [htake, hdrop, if_neg hdigits, if_neg hdigits]

theorem fraction_append {t : List Char} (hr : (fraction t).2 ≠ []) (hdot : (fraction t).2.head? ≠ some '.') (q : List Char) :
    fraction (t ++ q) = ((fraction t).1, (fraction t).2 ++ q) := by
  cases t with
  | nil => exact absurd rfl hr
  | cons c t =>
    rw [List.cons_append]
    by_cases hc : c = '.'
    · subst hc
      exact digitsAfter_append (fun h => hdot (congrArg List.head? h)) hr q
    · have hplain : ∀ t, fraction (c :: t) = ([], c :: t) := fun t => by
        rw [fraction, optional_cons, if_neg (by simpa using hc)]
      rw [hplain, hplain]
      rfl

theorem exponent_append {t : List Char} (hr : Stops (exponent t).2) (q : List Char) :
    exponent (t ++ q) = ((exponent t).1, (exponent t).2 ++ q) := by
  cases t with
  | nil => exact absurd rfl hr.ne_nil
  | cons c t =>
    rw [List.cons_append]
    by_cases hc : c ∈ ['e', 'E']
    · have hmark : ∀ t, exponent (c :: t) =
          digitsAfter (c :: (optional ['+', '-'] t).1) (c :: t) (optional ['+', '-'] t).2 := fun t => by
        rw [exponent, optional_cons, if_pos hc]
        rfl
      rw [hmark] at hr
      have hrest : (digitsAfter (c :: (optional ['+', '-'] t).1) (c :: t) (optional ['+', '-'] t).2).2 ≠ c :: t := by
        intro h
        rw [h] at hr
        have hn := hr.delimited c rfl
        simp only [List.mem_cons, List.not_mem_nil, or_false] at hc
        rcases hc with rfl | rfl <;> cases hn
      have ht : t ≠ [] := by
        rintro rfl
        exact hrest rfl
      rw [hmark, hmark, optional_append ht q]
      exact digitsAfter_append hrest hr.ne_nil q
    · have hplain : ∀ t, exponent (c :: t) = ([], c :: t) := fun t => by rw [exponent, optional_cons, if_neg hc]
      rw [hplain, hplain]
      rfl

theorem number_append {t : List Char} {v : Value} {r : List Char} (h : number t = some (v, r)) (hr : Stops r) (q : List Char) :
    number (t ++ q) = some (v, r ++ q) := by
  have ht : t ≠ [] := by
    rintro rfl
    simp [number, optional, wholePart] at h
  unfold number at h ⊢
  simp only [Option.bind_eq_bind, Option.bind_eq_some_iff] at h
  obtain ⟨⟨whole, rest⟩, hwhole, h⟩ := h
  dsimp only at h
  have hpower : (exponent (fraction rest).2).2 = r := by
    generalize exponent (fraction rest).2 = power at h ⊢
    split at h
    · simp only [Option.bind_eq_some_iff, Option.pure_def, Option.some.injEq, Prod.mk.injEq] at h
      exact h.choose_spec.2.2
    · exact (Prod.mk.inj (Option.some.inj h)).2
  have hrest : (fraction rest).2 ≠ [] := by
    intro hnil
    rw [hnil] at hpower
    exact hr.ne_nil hpower.symm
  have hdot : (fraction rest).2.head? ≠ some '.' := by
    intro hhead
    have hplain : exponent (fraction rest).2 = ([], (fraction rest).2) := by
      rw [exponent, optional_of_head? (by simp [hhead])]
    rw [hplain] at hpower
    exact absurd (hr.delimited '.' (hpower ▸ hhead)) (by decide)
  have hwhole' : rest ≠ [] := by
    rintro rfl
    exact hrest rfl
  simp only [optional_append ht q, wholePart_append hwhole hwhole' q, fraction_append hrest hdot q,
    exponent_append (hpower.symm ▸ hr) q, Option.bind_eq_bind, Option.bind_some]
  rw [hpower] at h ⊢
  split at h
  · rename_i hint
    simp only [Option.bind_eq_some_iff, Option.pure_def, Option.some.injEq, Prod.mk.injEq] at h
    obtain ⟨n, hn, rfl, -⟩ := h
    rw [if_pos hint, hn]
    rfl
  · rename_i hfloat
    rw [if_neg hfloat, ← (Prod.mk.inj (Option.some.inj h)).1]
    rfl

/-- What an element reads before a stop, another one reads there too, also with more text. -/
structure Extends {α : Type} (element element' : List Char → Option (α × List Char)) : Prop where
  nil : element [] = none
  append : ∀ {t a r}, element t = some (a, r) → Stops r → ∀ q, element' (t ++ q) = some (a, r ++ q)

/-- A text stops where a separator comes, if need be after blanks. -/
theorem stops_of_skip {t r : List Char} {c : Char} (h : skip t = c :: r) (hc : isNumeric c = false) : Stops t := by
  cases t with
  | nil => cases h
  | cons d t =>
    refine ⟨d, rfl, ?_⟩
    by_cases hd : isBlank d
    · simp only [isBlank, Bool.or_eq_true, decide_eq_true_eq] at hd
      rcases hd with ((rfl | rfl) | rfl) | rfl <;> rfl
    · rw [skip_cons (by simpa using hd)] at h
      rwa [(List.cons.inj h).1]

theorem sequence_nil {α : Type} {element : List Char → Option (α × List Char)} (h : element [] = none) (close : Char)
    (fuel : Nat) : sequence element close fuel [] = none := by
  cases fuel with
  | zero => rfl
  | succ fuel => rw [sequence, h]; rfl

theorem begins_skip {close : Char} {t : List Char} (hne : skip t ≠ []) (hclose : ∀ r, skip t ≠ close :: r) :
    Begins close (skip t) := by
  obtain ⟨c, r, hr⟩ := List.exists_cons_of_ne_nil hne
  refine ⟨c, r, hr, ?_, ?_⟩
  · have hblank := List.head?_dropWhile_not isBlank t
    rw [show t.dropWhile isBlank = c :: r from hr] at hblank
    simpa using hblank
  · rintro rfl
    exact hclose r hr

theorem sequence_append {α : Type} {element element' : List Char → Option (α × List Char)} {close : Char}
    (hclose : isNumeric close = false) (helement : Extends element element') {fuel fuel' : Nat} (hfuel : fuel ≤ fuel')
    {t : List Char} {l : List α} {r : List Char} (h : sequence element close fuel t = some (l, r)) (q : List Char) :
    sequence element' close fuel' (t ++ q) = some (l, r ++ q) := by
  induction fuel generalizing fuel' t l with
  | zero => cases h
  | succ fuel ih =>
    obtain ⟨fuel', rfl⟩ : ∃ n, fuel' = n + 1 := ⟨fuel' - 1, by omega⟩
    simp only [sequence, Option.bind_eq_bind, Option.bind_eq_some_iff] at h
    obtain ⟨⟨a, s⟩, ha, h⟩ := h
    cases hs : skip s with
    | nil =>
      rw [hs] at h
      cases h
    | cons c s' =>
      rw [hs] at h
      dsimp only at h
      have hnumeric : isNumeric c = false := by
        split at h
        · rename_i hc
          rw [hc]
          rfl
        · split at h
          · rename_i hc
            rw [hc]
            exact hclose
          · cases h
      simp only [sequence, Option.bind_eq_bind, helement.append ha (stops_of_skip hs hnumeric) q, Option.bind_some,
        skip_append hs q]
      split at h
      · rename_i hc
        simp only [Option.bind_eq_some_iff, Option.pure_def, Option.some.injEq, Prod.mk.injEq] at h
        obtain ⟨⟨more, rest⟩, hmore, rfl, rfl⟩ := h
        have hskip : skip s' ≠ [] := by
          intro hnil
          rw [hnil, sequence_nil helement.nil] at hmore
          cases hmore
        rw [if_pos hc, skip_append_of_ne_nil hskip, ih (by omega) hmore]
        rfl
      · rename_i hc
        rw [if_neg hc]
        split at h
        · rename_i hend
          obtain ⟨rfl, rfl⟩ := Prod.mk.inj (Option.some.inj h)
          rw [if_pos hend]
        · cases h

theorem member_append {element element' : List Char → Option (Value × List Char)} (helement : Extends element element') :
    Extends (member element) (member element') where
  nil := rfl
  append := by
    intro t a r h hr q
    unfold member at h ⊢
    split at h
    · rename_i rest
      simp only [Option.bind_eq_bind, Option.bind_eq_some_iff] at h
      obtain ⟨⟨key, rest'⟩, hkey, h⟩ := h
      dsimp only at h
      split at h
      · rename_i rest'' hcolon
        simp only [Option.bind_eq_some_iff, Option.pure_def, Option.some.injEq, Prod.mk.injEq] at h
        obtain ⟨⟨v, s⟩, hv, rfl, rfl⟩ := h
        have hskip : skip rest'' ≠ [] := by
          intro hnil
          rw [hnil, helement.nil] at hv
          cases hv
        simp only [List.cons_append, units_append hkey q, Option.bind_eq_bind, Option.bind_some, skip_append hcolon q,
          skip_append_of_ne_nil hskip, helement.append hv hr q]
        rfl
      · cases h
    · cases h

/-- What a number begins with. -/
theorem number_head {t : List Char} {p : Value × List Char} (h : number t = some p) :
    ∃ c s, c.isDigit ∧ (t = c :: s ∨ t = '-' :: c :: s) := by
  unfold number at h
  simp only [Option.bind_eq_bind, Option.bind_eq_some_iff] at h
  obtain ⟨⟨whole, rest⟩, hwhole, -⟩ := h
  have hdigit : ∃ c s, c.isDigit ∧ (optional ['-'] t).2 = c :: s := by
    unfold wholePart at hwhole
    split at hwhole
    · rename_i hzero
      exact ⟨'0', _, rfl, List.eq_cons_of_mem_head? hzero⟩
    · split at hwhole
      · cases hwhole
      · rename_i hdigits
        cases hsign : (optional ['-'] t).2 with
        | nil => simp [hsign] at hdigits
        | cons c s =>
          refine ⟨c, s, ?_, rfl⟩
          by_contra hc
          simp [hsign, hc] at hdigits
  obtain ⟨c, s, hc, hs⟩ := hdigit
  refine ⟨c, s, hc, ?_⟩
  cases t with
  | nil => cases hs
  | cons d t =>
    rw [optional_cons] at hs
    split at hs
    · rename_i hminus
      rw [List.mem_singleton.1 hminus]
      exact .inr (congrArg _ hs)
    · exact .inl hs

theorem number_ne_obj {t : List Char} {entries : List (List Nat × Value)} {r : List Char} :
    number t ≠ some (.obj entries, r) := by
  intro h
  simp only [number, Option.bind_eq_bind, Option.bind_eq_some_iff] at h
  obtain ⟨⟨whole, rest⟩, -, h⟩ := h
  split at h
  · obtain ⟨n, -, h⟩ := Option.bind_eq_some_iff.1 h
    cases h
  · cases h

/-- An object, and a value before a stop, is read with more text and more fuel too. -/
theorem value_append {fuel fuel' : Nat} (hfuel : fuel ≤ fuel') {t : List Char} {v : Value} {r : List Char}
    (h : value fuel t = some (v, r)) (hr : Stops r ∨ ∃ entries, v = .obj entries) (q : List Char) :
    value fuel' (t ++ q) = some (v, r ++ q) := by
  induction fuel generalizing fuel' t v r q with
  | zero => cases h
  | succ fuel ih =>
    obtain ⟨fuel', rfl⟩ : ∃ n, fuel' = n + 1 := ⟨fuel' - 1, by omega⟩
    have hvalue : Extends (value fuel) (value fuel') :=
      ⟨by cases fuel <;> rfl, fun h hr q => ih (Nat.le_of_succ_le_succ hfuel) h (.inl hr) q⟩
    unfold value at h
    split at h
    · rename_i rest
      simp only [Option.bind_eq_bind, Option.bind_eq_some_iff, Option.pure_def, Option.some.injEq, Prod.mk.injEq] at h
      obtain ⟨⟨s, rest'⟩, hs, rfl, rfl⟩ := h
      simp only [List.cons_append, value, units_append hs q, Option.bind_eq_bind, Option.bind_some]
      rfl
    · rename_i rest
      split at h
      · rename_i rest' hskip
        obtain ⟨rfl, rfl⟩ := Prod.mk.inj (Option.some.inj h)
        simp only [List.cons_append, value, skip_append hskip q]
      · rename_i hbrace
        simp only [Option.bind_eq_bind, Option.bind_eq_some_iff, Option.pure_def, Option.some.injEq, Prod.mk.injEq] at h
        obtain ⟨⟨entries, rest'⟩, hentries, rfl, rfl⟩ := h
        have hne : skip rest ≠ [] := by
          intro hnil
          rw [hnil, sequence_nil (member_append hvalue).nil] at hentries
          cases hentries
        have hbegins := begins_skip hne hbrace
        have hskip := skip_append_of_ne_nil (q := q) hne
        rw [List.cons_append, value_obj (hskip ▸ hbegins.append q), hskip,
          sequence_append rfl (member_append hvalue) (by simp) hentries q]
        rfl
    · rename_i rest
      split at h
      · rename_i rest' hskip
        obtain ⟨rfl, rfl⟩ := Prod.mk.inj (Option.some.inj h)
        simp only [List.cons_append, value, skip_append hskip q]
      · rename_i hbracket
        simp only [Option.bind_eq_bind, Option.bind_eq_some_iff, Option.pure_def, Option.some.injEq, Prod.mk.injEq] at h
        obtain ⟨⟨items, rest'⟩, hitems, rfl, rfl⟩ := h
        have hne : skip rest ≠ [] := by
          intro hnil
          rw [hnil, sequence_nil hvalue.nil] at hitems
          cases hitems
        have hbegins := begins_skip hne hbracket
        have hskip := skip_append_of_ne_nil (q := q) hne
        rw [List.cons_append, value_arr (hskip ▸ hbegins.append q), hskip, sequence_append rfl hvalue (by simp) hitems q]
        rfl
    · obtain ⟨rfl, rfl⟩ := Prod.mk.inj (Option.some.inj h)
      rfl
    · obtain ⟨rfl, rfl⟩ := Prod.mk.inj (Option.some.inj h)
      rfl
    · obtain ⟨rfl, rfl⟩ := Prod.mk.inj (Option.some.inj h)
      rfl
    · obtain ⟨rfl, rfl⟩ := Prod.mk.inj (Option.some.inj h)
      rfl
    · obtain ⟨rfl, rfl⟩ := Prod.mk.inj (Option.some.inj h)
      rfl
    · obtain ⟨rfl, rfl⟩ := Prod.mk.inj (Option.some.inj h)
      rfl
    · obtain ⟨c, s, hc, hhead⟩ := number_head h
      have hstops : Stops r := by
        refine hr.resolve_right ?_
        rintro ⟨entries, rfl⟩
        exact number_ne_obj h
      have hnumber := number_append h hstops q
      rcases hhead with rfl | rfl
      · rwa [List.cons_append, value_digit hc]
      · rwa [List.cons_append, List.cons_append, value_minus hc]

/-- What begins with a brace is an object, if it is anything. -/
theorem obj_of_value {fuel : Nat} {t : List Char} {v : Value} {r : List Char} (h : value fuel ('\x7b' :: t) = some (v, r)) :
    ∃ entries, v = .obj entries := by
  cases fuel with
  | zero => cases h
  | succ fuel =>
    rw [value] at h
    split at h
    · exact ⟨[], (Prod.mk.inj (Option.some.inj h)).1.symm⟩
    · simp only [Option.bind_eq_bind, Option.bind_eq_some_iff, Option.pure_def, Option.some.injEq, Prod.mk.injEq] at h
      obtain ⟨⟨entries, rest⟩, -, rfl, -⟩ := h
      exact ⟨_, rfl⟩

/-- A text that breaks off inside of an object is not read. -/
theorem loads_of_prefix {entries : List (List Nat × Value)} (h : Clean (.obj entries)) {p q : List Char}
    (hp : p ++ q = render (.obj entries)) (hq : q ≠ []) : loads p = none := by
  cases p with
  | nil => rfl
  | cons c p =>
    obtain rfl : c = '\x7b' := (List.cons.inj hp).1
    have hskip : skip ('\x7b' :: p) = '\x7b' :: p := skip_cons rfl p
    rw [loads, hskip]
    cases hv : value (('\x7b' :: p).length + 1) ('\x7b' :: p) with
    | none => rfl
    | some vr =>
      obtain ⟨v, r⟩ := vr
      -- the whole text is read as this value too, and would have a rest
      have hlength : ('\x7b' :: p).length + 1 ≤ (render (.obj entries)).length + 1 := by
        rw [← hp, List.length_append]
        omega
      have hmore := value_append hlength hv (.inr (obj_of_value hv)) q
      have hwhole := value_render h (Nat.le_succ _) [] (by rintro _ ⟨⟩)
      rw [hp] at hmore
      rw [List.append_nil, hmore] at hwhole
      have hrest := (Prod.mk.inj (Option.some.inj hwhole)).2
      exact absurd (List.append_eq_nil_iff.1 hrest).2 hq

/-! ### Fuel -/

/-- What an element leaves is shorter than what it was given. -/
def Shrinks {α : Type} (element : List Char → Option (α × List Char)) : Prop :=
  ∀ ⦃t a r⦄, element t = some (a, r) → r.length < t.length

theorem length_skip_le (t : List Char) : (skip t).length ≤ t.length := (List.dropWhile_suffix isBlank).length_le

theorem units_shrinks : Shrinks units := by
  intro t s r h
  obtain ⟨w, hne, rfl, -⟩ := units_local h
  have hpos := List.length_pos_iff.2 hne
  rw [List.length_append]
  omega

theorem length_optional_le (cs t : List Char) : (optional cs t).2.length ≤ t.length := by
  cases t with
  | nil => exact le_rfl
  | cons c t =>
    rw [optional_cons]
    split
    · exact Nat.le_succ _
    · exact le_rfl

theorem length_digitsAfter_le {lead t rest : List Char} (h : rest.length ≤ t.length) :
    (digitsAfter lead t rest).2.length ≤ t.length := by
  unfold digitsAfter
  split
  · exact le_rfl
  · exact (List.dropWhile_suffix _).length_le.trans h

theorem length_fraction_le (t : List Char) : (fraction t).2.length ≤ t.length := by
  have h := length_optional_le ['.'] t
  unfold fraction
  split
  · exact le_rfl
  · rename_i mark rest _ hmark
    rw [hmark] at h
    exact length_digitsAfter_le h

theorem length_exponent_le (t : List Char) : (exponent t).2.length ≤ t.length := by
  have h := length_optional_le ['e', 'E'] t
  unfold exponent
  split
  · exact le_rfl
  · rename_i mark rest _ hmark
    rw [hmark] at h
    exact length_digitsAfter_le ((length_optional_le _ rest).trans h)

theorem number_shrinks : Shrinks number := by
  intro t v r h
  unfold number at h
  simp only [Option.bind_eq_bind, Option.bind_eq_some_iff] at h
  obtain ⟨⟨whole, rest⟩, hwhole, h⟩ := h
  dsimp only at h
  have hr : r = (exponent (fraction rest).2).2 := by
    generalize exponent (fraction rest).2 = power at h ⊢
    split at h
    · simp only [Option.bind_eq_some_iff, Option.pure_def, Option.some.injEq, Prod.mk.injEq] at h
      exact h.choose_spec.2.2.symm
    · exact (Prod.mk.inj (Option.some.inj h)).2.symm
  have hrest : rest.length < (optional ['-'] t).2.length := by
    generalize (optional ['-'] t).2 = s at hwhole ⊢
    unfold wholePart at hwhole
    split at hwhole
    · rename_i hzero
      obtain ⟨-, rfl⟩ := Prod.mk.inj (Option.some.inj hwhole)
      rw [List.eq_cons_of_mem_head? hzero]
      exact Nat.lt_succ_self _
    · split at hwhole
      · cases hwhole
      · rename_i hdigits
        obtain ⟨-, rfl⟩ := Prod.mk.inj (Option.some.inj hwhole)
        have hsplit := congrArg List.length (List.takeWhile_append_dropWhile (p := Char.isDigit) (l := s))
        have hpos := List.length_pos_iff.2 hdigits
        rw [List.length_append] at hsplit
        omega
  have hfraction := length_fraction_le rest
  have hexponent := length_exponent_le (fraction rest).2
  have hsign := length_optional_le ['-'] t
  rw [hr]
  omega

theorem sequence_shrinks {α : Type} {element : List Char → Option (α × List Char)} (h : Shrinks element) (close : Char)
    (fuel : Nat) : Shrinks (sequence element close fuel) := by
  induction fuel with
  | zero =>
    intro t l r h
    cases h
  | succ fuel ih =>
    intro t l r hread
    simp only [sequence, Option.bind_eq_bind, Option.bind_eq_some_iff] at hread
    obtain ⟨⟨a, s⟩, ha, hread⟩ := hread
    have hlt := h ha
    have hskip := length_skip_le s
    cases hs : skip s with
    | nil =>
      rw [hs] at hread
      cases hread
    | cons c s' =>
      rw [hs, List.length_cons] at hskip
      rw [hs] at hread
      dsimp only at hread
      split at hread
      · simp only [Option.bind_eq_some_iff, Option.pure_def, Option.some.injEq, Prod.mk.injEq] at hread
        obtain ⟨⟨more, rest⟩, hmore, -, rfl⟩ := hread
        have hmore := ih hmore
        have hskip' := length_skip_le s'
        dsimp only at hmore hlt ⊢
        omega
      · split at hread
        · obtain ⟨-, rfl⟩ := Prod.mk.inj (Option.some.inj hread)
          omega
        · cases hread

theorem member_shrinks {element : List Char → Option (Value × List Char)} (h : Shrinks element) : Shrinks (member element) := by
  intro t a r hread
  unfold member at hread
  split at hread
  · simp only [Option.bind_eq_bind, Option.bind_eq_some_iff] at hread
    obtain ⟨⟨key, rest'⟩, hkey, hread⟩ := hread
    dsimp only at hread
    split at hread
    · rename_i rest rest'' hcolon
      simp only [Option.bind_eq_some_iff, Option.pure_def, Option.some.injEq, Prod.mk.injEq] at hread
      obtain ⟨⟨v, s⟩, hv, -, rfl⟩ := hread
      have hunits := units_shrinks hkey
      have hskip := length_skip_le rest'
      have hskip' := length_skip_le rest''
      have hvalue := h hv
      rw [hcolon, List.length_cons] at hskip
      simp only [List.length_cons]
      omega
    · cases hread
  · cases hread

theorem value_shrinks (fuel : Nat) : Shrinks (value fuel) := by
  induction fuel with
  | zero =>
    intro t v r h
    cases h
  | succ fuel ih =>
    intro t v r h
    unfold value at h
    split at h
    · simp only [Option.bind_eq_bind, Option.bind_eq_some_iff, Option.pure_def, Option.some.injEq, Prod.mk.injEq] at h
      obtain ⟨⟨s, rest'⟩, hs, -, rfl⟩ := h
      exact Nat.lt_succ_of_lt (units_shrinks hs)
    · rename_i rest
      have hskip := length_skip_le rest
      split at h
      · rename_i rest' hbrace
        obtain ⟨-, rfl⟩ := Prod.mk.inj (Option.some.inj h)
        rw [hbrace] at hskip
        exact Nat.lt_succ_of_lt hskip
      · simp only [Option.bind_eq_bind, Option.bind_eq_some_iff, Option.pure_def, Option.some.injEq, Prod.mk.injEq] at h
        obtain ⟨⟨entries, rest'⟩, hentries, -, rfl⟩ := h
        exact Nat.lt_succ_of_lt ((sequence_shrinks (member_shrinks ih) _ _ hentries).trans_le hskip)
    · rename_i rest
      have hskip := length_skip_le rest
      split at h
      · rename_i rest' hbracket
        obtain ⟨-, rfl⟩ := Prod.mk.inj (Option.some.inj h)
        rw [hbracket] at hskip
        exact Nat.lt_succ_of_lt hskip
      · simp only [Option.bind_eq_bind, Option.bind_eq_some_iff, Option.pure_def, Option.some.injEq, Prod.mk.injEq] at h
        obtain ⟨⟨items, rest'⟩, hitems, -, rfl⟩ := h
        exact Nat.lt_succ_of_lt ((sequence_shrinks ih _ _ hitems).trans_le hskip)
    all_goals first
      | exact number_shrinks h
      | obtain ⟨-, rfl⟩ := Prod.mk.inj (Option.some.inj h)
        simp only [List.length_cons]
        omega

theorem sequence_congr {α : Type} {element element' : List Char → Option (α × List Char)} (hshrinks : Shrinks element)
    (close : Char) {fuel : Nat} {t : List Char} (h : ∀ s, s.length ≤ t.length → element s = element' s) :
    sequence element close fuel t = sequence element' close fuel t := by
  induction fuel generalizing t with
  | zero => rfl
  | succ fuel ih =>
    rw [sequence, sequence, ← h t le_rfl]
    cases ha : element t with
    | none => rfl
    | some p =>
      obtain ⟨a, s⟩ := p
      have hlt := hshrinks ha
      have hskip := length_skip_le s
      simp only [Option.bind_eq_bind, Option.bind_some]
      cases hs : skip s with
      | nil => rfl
      | cons c s' =>
        have hskip' := length_skip_le s'
        rw [hs, List.length_cons] at hskip
        dsimp only
        rw [ih fun u hu => h u (by omega)]

theorem member_congr {element element' : List Char → Option (Value × List Char)} {t : List Char}
    (h : ∀ s, s.length < t.length → element s = element' s) : member element t = member element' t := by
  unfold member
  split
  · rename_i rest
    cases hkey : units rest with
    | none => rfl
    | some p =>
      obtain ⟨key, rest'⟩ := p
      have hunits := units_shrinks hkey
      have hskip := length_skip_le rest'
      simp only [Option.bind_eq_bind, Option.bind_some]
      split
      · rename_i rest'' hcolon
        have hskip' := length_skip_le rest''
        rw [hcolon, List.length_cons] at hskip
        rw [h (skip rest'') (by rw [List.length_cons]; omega)]
      · rfl
  · rfl

/-- More fuel than characters is enough. -/
theorem value_of_fuel {fuel fuel' : Nat} {t : List Char} (h : t.length < fuel) (h' : t.length < fuel') :
    value fuel t = value fuel' t := by
  induction fuel generalizing fuel' t with
  | zero => exact absurd h (Nat.not_lt_zero _)
  | succ fuel ih =>
    obtain ⟨fuel', rfl⟩ : ∃ n, fuel' = n + 1 := ⟨fuel' - 1, by omega⟩
    have hsame : ∀ rest : List Char, rest.length < fuel → rest.length < fuel' → ∀ s : List Char,
        s.length ≤ (skip rest).length → value fuel s = value fuel' s := fun rest hrest hrest' s hs =>
      ih (hs.trans_lt ((length_skip_le rest).trans_lt hrest)) (hs.trans_lt ((length_skip_le rest).trans_lt hrest'))
    unfold value
    split
    · rfl
    · rename_i rest
      have hrest := hsame rest (Nat.lt_of_succ_lt_succ h) (Nat.lt_of_succ_lt_succ h')
      have hmember : ∀ s : List Char, s.length ≤ (skip rest).length → member (value fuel) s = member (value fuel') s :=
        fun s hs => member_congr fun u hu => hrest u (hu.le.trans hs)
      split
      · rfl
      · rw [sequence_congr (member_shrinks (value_shrinks fuel)) _ hmember]
    · rename_i rest
      have hrest := hsame rest (Nat.lt_of_succ_lt_succ h) (Nat.lt_of_succ_lt_succ h')
      split
      · rfl
      · rw [sequence_congr (value_shrinks fuel) _ hrest]
    all_goals rfl

end Json
