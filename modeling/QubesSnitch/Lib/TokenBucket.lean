import QubesSnitch.Lib.Dict

/-!
# Token buckets in a bounded table

A bucket holds up to `burst` tokens and gains `rate` of them in a unit of time; a call takes one token if there is one.
The table has a bucket for every key that was used lately.  A key without a bucket starts with a full one, and the bucket
that has been used least lately goes when there are more than `capacity`.

The bound for a window of time is amortised: what a bucket holds, and will have gained at the end of the window, pays for
all calls that are still to be let through (`allowedIn_le_of_get?`).  It says nothing when a bucket goes and comes back
full, so it is about windows in which the bucket stays.
-/

namespace TokenBucket

variable {κ α : Type} [DecidableEq κ] [Field α] [LinearOrder α]

structure Limits (α : Type) [Field α] [LinearOrder α] where
  rate : α
  burst : α
  capacity : Nat
  rate_pos : 0 < rate
  burst_ge : 1 ≤ burst
  capacity_pos : 0 < capacity

/-- The tokens of a bucket with the time at which they were counted. -/
abbrev Table (κ α : Type) := Dict κ (α × α)

variable (limits : Limits α)

/-- What a bucket holds at the time `now`. -/
def refill (now : α) (bucket : α × α) : α := min limits.burst (bucket.1 + (now - bucket.2) * limits.rate)

/-- What the bucket of a key holds at the time `now`. -/
def tokens (now : α) (key : κ) (table : Table κ α) : α :=
  refill limits now ((table.get? key).getD (limits.burst, now))

/-- Whether a call is let through, and the table after it. -/
def call (now : α) (key : κ) (table : Table κ α) : Bool × Table κ α :=
  let allowed := decide (1 ≤ tokens limits now key table)
  let left := if allowed then tokens limits now key table - 1 else tokens limits now key table
  (allowed, ((table.set key (left, now)).moveToEnd key).keepNewest limits.capacity)

/-- Counted tokens, in a table at the time `now`. -/
def Valid (now : α) (table : Table κ α) : Prop :=
  ∀ key bucket, table.get? key = some bucket → 0 ≤ bucket.1 ∧ bucket.1 ≤ limits.burst ∧ bucket.2 ≤ now

/-! ### Calls -/

section Calls

variable {limits} {now : α} {key k : κ} {table : Table κ α} {bucket : α × α}

theorem Valid.empty : Valid limits now (.empty : Table κ α) := fun _ _ h => by cases h

theorem Valid.later {now' : α} (h : Valid limits now table) (hnow : now ≤ now') : Valid limits now' table :=
  fun key bucket hget => ⟨(h key bucket hget).1, (h key bucket hget).2.1, (h key bucket hget).2.2.trans hnow⟩

theorem tokens_le_burst : tokens limits now key table ≤ limits.burst := min_le_left _ _

theorem tokens_of_get? (h : table.get? key = some bucket) : tokens limits now key table = refill limits now bucket := by
  rw [tokens, h, Option.getD_some]

theorem tokens_of_none (h : table.get? key = none) : tokens limits now key table = limits.burst := by
  simp [tokens, h, refill]

/-- A bucket holds at most what it held and what it has gained. -/
theorem tokens_le (h : table.get? key = some bucket) :
    tokens limits now key table ≤ bucket.1 + (now - bucket.2) * limits.rate := by
  rw [tokens_of_get? h]
  exact min_le_right _ _

/-- A key without a bucket is let through. -/
theorem call_allowed_of_none (h : table.get? key = none) : (call limits now key table).1 = true := by
  rw [call, tokens_of_none h]
  exact decide_eq_true limits.burst_ge

theorem call_size_le : (call limits now key table).2.size ≤ limits.capacity := by
  rw [call, Dict.size_keepNewest]
  exact min_le_left _ _

/-- Another bucket is the same as before, if it is still there. -/
theorem get?_of_call (hk : k ≠ key) (h : (call limits now key table).2.get? k = some bucket) :
    table.get? k = some bucket := by
  have hset := Dict.get?_of_keepNewest h
  rwa [Dict.get?_moveToEnd, Dict.get?_set_of_ne _ _ hk] at hset

/-- What is left in the bucket that was used, with the token that was taken. -/
theorem call_get?_self : ∃ left, (call limits now key table).2.get? key = some (left, now) ∧
    left + (if (call limits now key table).1 then 1 else 0) = tokens limits now key table := by
  refine ⟨_, Dict.get?_keepNewest_last limits.capacity_pos (Dict.entries_set_moveToEnd table key _), ?_⟩
  show (if decide (1 ≤ tokens limits now key table) then _ else _) +
    (if decide (1 ≤ tokens limits now key table) then 1 else 0) = _
  split
  · exact sub_add_cancel _ _
  · exact add_zero _

variable [IsStrictOrderedRing α]

theorem tokens_nonneg (h : Valid limits now table) : 0 ≤ tokens limits now key table := by
  have hburst : 0 ≤ limits.burst := zero_le_one.trans limits.burst_ge
  cases hget : table.get? key with
  | none =>
    rw [tokens_of_none hget]
    exact hburst
  | some bucket =>
    obtain ⟨h0, -, hle⟩ := h key bucket hget
    rw [tokens_of_get? hget]
    exact le_min hburst (add_nonneg h0 (mul_nonneg (sub_nonneg.2 hle) limits.rate_pos.le))

/-- A bucket has a token again after the time in which one is gained. -/
theorem call_allowed_of_gained (h : Valid limits now table) (hget : table.get? key = some bucket)
    (hgained : 1 / limits.rate ≤ now - bucket.2) : (call limits now key table).1 = true := by
  have hone : 1 ≤ (now - bucket.2) * limits.rate := (div_le_iff₀ limits.rate_pos).1 hgained
  rw [call, tokens_of_get? hget]
  exact decide_eq_true (le_min limits.burst_ge (hone.trans (le_add_of_nonneg_left (h key bucket hget).1)))

theorem Valid.call (h : Valid limits now table) : Valid limits now (call limits now key table).2 := by
  intro k bucket hget
  by_cases hk : k = key
  · subst hk
    obtain ⟨left, hleft, hsum⟩ : ∃ left, (TokenBucket.call limits now k table).2.get? k = some (left, now) ∧
        left + (if (TokenBucket.call limits now k table).1 then 1 else 0) = tokens limits now k table := call_get?_self
    obtain rfl := Option.some.inj (hleft.symm.trans hget)
    have htokens : tokens limits now k table ≤ limits.burst := tokens_le_burst
    by_cases hallowed : (TokenBucket.call limits now k table).1
    · have hone : 1 ≤ tokens limits now k table := of_decide_eq_true hallowed
      rw [if_pos hallowed] at hsum
      exact ⟨by linarith, by linarith, le_refl _⟩
    · rw [if_neg hallowed, add_zero] at hsum
      exact ⟨hsum ▸ tokens_nonneg h, hsum ▸ htokens, le_refl _⟩
  · exact h k bucket (get?_of_call hk hget)

end Calls

/-! ### Runs -/

/-- What is known of a call. -/
structure Call (κ α : Type) where
  before : Table κ α
  time : α
  key : κ
  allowed : Bool
  after : Table κ α

/-- Calls one after the other. -/
def run : Table κ α → List (α × κ) → List (Call κ α)
  | _, [] => []
  | table, (now, key) :: calls =>
    let result := call limits now key table
    ⟨table, now, key, result.1, result.2⟩ :: run result.2 calls

/-- The times of the calls, which begin at `now`, do not decrease. -/
def Ordered (now : α) (calls : List (α × κ)) : Prop := (now :: calls.map Prod.fst).Pairwise (· ≤ ·)

/-- The bucket of a key stays for all calls from `t₁` to `t₂`. -/
def Stays (key : κ) (t₁ t₂ : α) (trace : List (Call κ α)) : Prop :=
  ∀ c ∈ trace, t₁ ≤ c.time → c.time ≤ t₂ → key ∈ c.before.keys → key ∈ c.after.keys

/-- The calls with a key that are let through from `t₁` to `t₂`. -/
def allowedIn (key : κ) (t₁ t₂ : α) (trace : List (Call κ α)) : Nat :=
  trace.countP fun c => c.allowed && decide (c.key = key) && decide (t₁ ≤ c.time) && decide (c.time ≤ t₂)

section Runs

variable {limits} {now t₁ t₂ : α} {key : κ} {table : Table κ α} {calls : List (α × κ)}

omit [DecidableEq κ] [Field α] in
theorem Ordered.cons {t : α} {k : κ} (h : Ordered now ((t, k) :: calls)) : now ≤ t ∧ Ordered t calls := by
  obtain ⟨hnow, hrest⟩ := List.pairwise_cons.1 h
  exact ⟨hnow t List.mem_cons_self, hrest⟩

omit [DecidableEq κ] [Field α] in
/-- Calls may be said to begin with the first of them. -/
theorem Ordered.self {t : α} {k : κ} (h : Ordered now ((t, k) :: calls)) : Ordered t ((t, k) :: calls) := by
  refine List.pairwise_cons.2 ⟨fun t' ht' => ?_, h.cons.2⟩
  rcases List.mem_cons.1 ht' with rfl | ht'
  · exact le_refl _
  · exact (List.pairwise_cons.1 h.cons.2).1 t' ht'

omit [DecidableEq κ] in
theorem exists_ordered (h : (calls.map Prod.fst).Pairwise (· ≤ ·)) : ∃ now, Ordered now calls := by
  cases calls with
  | nil => exact ⟨0, List.pairwise_singleton _ _⟩
  | cons first calls =>
    refine ⟨first.1, List.pairwise_cons.2 ⟨fun t ht => ?_, h⟩⟩
    rcases List.mem_cons.1 ht with rfl | ht
    · exact le_refl _
    · exact (List.pairwise_cons.1 h).1 t ht

omit [DecidableEq κ] [Field α] in
theorem Stays.tail {c : Call κ α} {trace : List (Call κ α)} (h : Stays key t₁ t₂ (c :: trace)) :
    Stays key t₁ t₂ trace := fun c' hc' => h c' (List.mem_cons_of_mem _ hc')

omit [Field α] in
theorem allowedIn_cons (c : Call κ α) (trace : List (Call κ α)) : allowedIn key t₁ t₂ (c :: trace) =
    allowedIn key t₁ t₂ trace + if c.allowed ∧ c.key = key ∧ t₁ ≤ c.time ∧ c.time ≤ t₂ then 1 else 0 := by
  rw [allowedIn, List.countP_cons, allowedIn]
  simp [and_assoc]

/-- The last call with a key. -/
def lastCall (key : κ) (trace : List (Call κ α)) : Option (Call κ α) := (trace.filter fun c => c.key = key).getLast?

omit [Field α] [LinearOrder α] in
theorem lastCall_cons (c : Call κ α) (trace : List (Call κ α)) : lastCall key (c :: trace) =
    (lastCall key trace).or (if c.key = key then some c else none) := by
  rw [lastCall, List.filter_cons, lastCall]
  by_cases hk : c.key = key
  · cases h : (trace.filter fun c => c.key = key).getLast? <;> simp [hk, h, List.getLast?_cons]
  · simp [hk]

/-- A bucket was counted at the last call with its key, or is there from the beginning. -/
theorem lastCall_of_get? {front back : List (Call κ α)} {c : Call κ α} {bucket : α × α}
    (hrun : run limits table calls = front ++ c :: back) (hget : c.before.get? key = some bucket) :
    (∃ c', lastCall key front = some c' ∧ c'.time = bucket.2) ∨
      lastCall key front = none ∧ table.get? key = some bucket := by
  induction front generalizing table calls with
  | nil =>
    cases calls with
    | nil => cases hrun
    | cons first calls =>
      obtain ⟨rfl, -⟩ := List.cons.inj hrun
      exact .inr ⟨rfl, hget⟩
  | cons c₁ front ih =>
    cases calls with
    | nil => cases hrun
    | cons first calls =>
      obtain ⟨t, k⟩ := first
      obtain ⟨rfl, hrest⟩ := List.cons.inj hrun
      rw [lastCall_cons]
      rcases ih hrest with ⟨c', hlast, htime⟩ | ⟨hnone, htable⟩
      · exact .inl ⟨c', by rw [hlast, Option.some_or], htime⟩
      · rw [hnone, Option.none_or]
        by_cases hk : k = key
        · subst hk
          obtain ⟨left, hleft, -⟩ : ∃ left, (call limits t k table).2.get? k = some (left, t) ∧
              left + (if (call limits t k table).1 then 1 else 0) = tokens limits t k table := call_get?_self
          obtain rfl := Option.some.inj (hleft.symm.trans htable)
          exact .inl ⟨_, if_pos rfl, rfl⟩
        · exact .inr ⟨if_neg hk, get?_of_call (fun h => hk h.symm) htable⟩

variable [IsStrictOrderedRing α]

/-- Every call of a run is a call on a valid table. -/
theorem run_spec (hvalid : Valid limits now table) (hordered : Ordered now calls) {c : Call κ α}
    (hc : c ∈ run limits table calls) : Valid limits c.time c.before ∧ now ≤ c.time ∧
      c.allowed = (call limits c.time c.key c.before).1 ∧ c.after = (call limits c.time c.key c.before).2 := by
  induction calls generalizing now table with
  | nil => cases hc
  | cons first calls ih =>
    obtain ⟨t, k⟩ := first
    obtain ⟨hnow, hrest⟩ := hordered.cons
    rcases List.mem_cons.1 hc with rfl | hc
    · exact ⟨hvalid.later hnow, hnow, rfl, rfl⟩
    · obtain ⟨hbefore, htime, hcall⟩ := ih (hvalid.later hnow).call hrest hc
      exact ⟨hbefore, hnow.trans htime, hcall⟩

/-- Nothing is counted behind the window. -/
theorem allowedIn_eq_zero (hvalid : Valid limits now table) (hordered : Ordered now calls) (hlt : t₂ < now) :
    allowedIn key t₁ t₂ (run limits table calls) = 0 := by
  refine List.countP_eq_zero.2 fun c hc => ?_
  have htime := (run_spec hvalid hordered hc).2.1
  simp [not_le.2 (hlt.trans_le htime)]

/-- A bucket that stays pays for the calls up to `t₂` with what it holds and what it will have gained by then. -/
theorem allowedIn_le_of_get? {bucket : α × α} (hvalid : Valid limits now table) (hordered : Ordered now calls)
    (hstays : Stays key t₁ t₂ (run limits table calls)) (hget : table.get? key = some bucket) (h₁ : t₁ ≤ now)
    (h₂ : bucket.2 ≤ t₂) :
    (allowedIn key t₁ t₂ (run limits table calls) : α) ≤ bucket.1 + (t₂ - bucket.2) * limits.rate := by
  have hpays : 0 ≤ bucket.1 + (t₂ - bucket.2) * limits.rate :=
    add_nonneg (hvalid key bucket hget).1 (mul_nonneg (sub_nonneg.2 h₂) limits.rate_pos.le)
  induction calls generalizing now table bucket with
  | nil => simpa [run, allowedIn] using hpays
  | cons first calls ih =>
    obtain ⟨t, k⟩ := first
    obtain ⟨hnow, hrest⟩ := hordered.cons
    have hvalid' : Valid limits t table := hvalid.later hnow
    by_cases ht : t ≤ t₂
    · rw [run, allowedIn_cons]
      by_cases hk : k = key
      · -- the bucket that pays is used
        subst hk
        obtain ⟨left, hleft, hsum⟩ : ∃ left, (call limits t k table).2.get? k = some (left, t) ∧
            left + (if (call limits t k table).1 then 1 else 0) = tokens limits t k table := call_get?_self
        have hrefill : tokens limits t k table ≤ bucket.1 + (t - bucket.2) * limits.rate := tokens_le hget
        have hlater : 0 ≤ left + (t₂ - t) * limits.rate :=
          add_nonneg (hvalid'.call k _ hleft).1 (mul_nonneg (sub_nonneg.2 ht) limits.rate_pos.le)
        have hcount := ih hvalid'.call hrest hstays.tail hleft (h₁.trans hnow) ht hlater
        have hself : (((if (call limits t k table).1 ∧ k = k ∧ t₁ ≤ t ∧ t ≤ t₂ then 1 else 0 : Nat)) : α) =
            if (call limits t k table).1 then 1 else 0 := by
          simp [h₁.trans hnow, ht]
        rw [Nat.cast_add, hself]
        calc (allowedIn k t₁ t₂ (run limits (call limits t k table).2 calls) : α) +
              (if (call limits t k table).1 then 1 else 0)
            ≤ left + (t₂ - t) * limits.rate + (if (call limits t k table).1 then 1 else 0) := by gcongr
          _ = tokens limits t k table + (t₂ - t) * limits.rate := by rw [← hsum]; ring
          _ ≤ bucket.1 + (t - bucket.2) * limits.rate + (t₂ - t) * limits.rate := by gcongr
          _ = bucket.1 + (t₂ - bucket.2) * limits.rate := by ring
      · have hafter : key ∈ (call limits t k table).2.keys :=
          hstays _ List.mem_cons_self (h₁.trans hnow) ht (Dict.mem_keys_of_get? hget)
        obtain ⟨bucket', hbucket'⟩ := Dict.mem_keys_iff.1 hafter
        obtain rfl : bucket = bucket' :=
          Option.some.inj (hget.symm.trans (get?_of_call (fun h => hk h.symm) hbucket'))
        have hcount := ih hvalid'.call hrest hstays.tail hbucket' (h₁.trans hnow) h₂ hpays
        simpa [hk] using hcount
    · rw [allowedIn_eq_zero hvalid' hordered.self (not_le.1 ht), Nat.cast_zero]
      exact hpays

/-- In a window in which the bucket of a key stays, not more calls are let through than a full bucket and what is gained
in the window pay for. -/
theorem allowedIn_le (hvalid : Valid limits now table) (hordered : Ordered now calls)
    (hstays : Stays key t₁ t₂ (run limits table calls)) (ht : t₁ ≤ t₂) :
    (allowedIn key t₁ t₂ (run limits table calls) : α) ≤ limits.burst + (t₂ - t₁) * limits.rate := by
  have hburst : 0 ≤ limits.burst := zero_le_one.trans limits.burst_ge
  have hbound : 0 ≤ limits.burst + (t₂ - t₁) * limits.rate :=
    add_nonneg hburst (mul_nonneg (sub_nonneg.2 ht) limits.rate_pos.le)
  induction calls generalizing now table with
  | nil => simpa [run, allowedIn] using hbound
  | cons first calls ih =>
    obtain ⟨t, k⟩ := first
    obtain ⟨hnow, hrest⟩ := hordered.cons
    have hvalid' : Valid limits t table := hvalid.later hnow
    have hcount := ih hvalid'.call hrest hstays.tail
    rw [run, allowedIn_cons]
    by_cases hcounted : (call limits t k table).1 ∧ k = key ∧ t₁ ≤ t ∧ t ≤ t₂
    · -- the first call that counts leaves a bucket that pays for the others
      rw [if_pos hcounted]
      obtain ⟨hallowed, rfl, h₁, h₂⟩ := hcounted
      obtain ⟨left, hleft, hsum⟩ : ∃ left, (call limits t k table).2.get? k = some (left, t) ∧
          left + (if (call limits t k table).1 then 1 else 0) = tokens limits t k table := call_get?_self
      rw [if_pos hallowed] at hsum
      have hrests := allowedIn_le_of_get? hvalid'.call hrest hstays.tail hleft h₁ h₂
      have hfull : tokens limits t k table ≤ limits.burst := tokens_le_burst
      rw [Nat.cast_add, Nat.cast_one]
      calc (allowedIn k t₁ t₂ (run limits (call limits t k table).2 calls) : α) + 1
          ≤ left + (t₂ - t) * limits.rate + 1 := by gcongr
        _ = tokens limits t k table + (t₂ - t) * limits.rate := by rw [← hsum]; ring
        _ ≤ limits.burst + (t₂ - t₁) * limits.rate := by
          have hgained : (t₂ - t) * limits.rate ≤ (t₂ - t₁) * limits.rate :=
            mul_le_mul_of_nonneg_right (sub_le_sub_left h₁ _) limits.rate_pos.le
          exact add_le_add hfull hgained
    · rw [if_neg hcounted, Nat.add_zero]
      exact hcount

end Runs

end TokenBucket
