import QubesSnitch.Basic
import QubesSnitch.Lib.PyText
import QubesSnitch.Lib.Regex
import QubesSnitch.Lib.TokenBucket

/-!
# Throttled log lines

Every log line of a reject and every security alert asks `log_allowed` first.  Its keys have parts of packets in them, so
the table of the buckets is bounded.

For a configuration that `read_config` accepts it is a table of token buckets, and everything that is known of those is
known of the log (`logAllowed_throttles`).
-/

namespace QubesSnitch

/-- What `config.yml` says about the log. -/
structure LogLimits where
  limitRate : String
  burst : Int
  logBucketMaxEntries : Int
  deriving DecidableEq, Repr

/-! ### The configuration -/

/-- `[1-9][0-9]*` -/
def limitCountRe : Regex :=
  .seq (.cls fun c => '1' ≤ c && c ≤ '9') (.star (.cls fun c => '0' ≤ c && c ≤ '9'))

def periods : List (String × Nat) := [("second", 1), ("minute", 60), ("hour", 3600), ("day", 86400)]

def limitRateError : PyError := .valueError "expected nftables rate like 3/minute"

/-- A number without a leading zero, a slash and one of the periods; that `int` refuses more than 4300 digits is left
out. -/
def parseLimitRate (text : String) : Except PyError (Nat × Nat) :=
  match Py.splitFirst '/' text.toList with
  | none => .error limitRateError
  | some (count, period) =>
    match periods.find? fun p => p.1 = String.ofList period, Py.int count with
    | some (_, seconds), some n => if limitCountRe.fullmatch count then .ok (n, seconds) else .error limitRateError
    | _, _ => .error limitRateError

/-- The checks of `read_config` on the log limits. -/
def checkLogLimits (configFile : String) (limits : LogLimits) : Except PyError Unit :=
  match parseLimitRate limits.limitRate with
  | .error (.valueError error) => .error (.systemExit (configFile ++ ": limit rate " ++ error))
  | .error e => .error e
  | .ok _ =>
    if !(1 ≤ limits.burst && limits.burst ≤ 10000) then
      .error (.systemExit (configFile ++ ": burst must be an integer from 1 to 10000"))
    else if !(1 ≤ limits.logBucketMaxEntries && limits.logBucketMaxEntries ≤ 1000000) then
      .error (.systemExit (configFile ++ ": log_bucket_max_entries must be an integer from 1 to 1000000"))
    else .ok ()

/-! ### The log -/

variable {κ : Type} [DecidableEq κ]

/-- `LOG_BUCKETS` -/
abbrev LogBuckets (κ : Type) := Dict κ (Rat × Rat)

def logAllowed (limits : LogLimits) (now : Rat) (key : κ) (buckets : LogBuckets κ) :
    Except PyError (Bool × LogBuckets κ) := do
  let (count, seconds) ← parseLimitRate limits.limitRate
  let burst : Rat := limits.burst
  let (tokens, updated) := (buckets.get? key).getD (burst, now)
  let tokens := min burst (tokens + (now - updated) * count / seconds)
  let allowed := decide (1 ≤ tokens)
  let buckets := (buckets.set key (if allowed then tokens - 1 else tokens, now)).moveToEnd key
  return (allowed, buckets.keepNewest limits.logBucketMaxEntries.toNat)

/-- Calls of `log_allowed` at given times, one after the other. -/
def logCalls (limits : LogLimits) : LogBuckets κ → List (Rat × κ) → Except PyError (List (TokenBucket.Call κ Rat))
  | _, [] => .ok []
  | buckets, (now, key) :: calls => do
    let (allowed, after) ← logAllowed limits now key buckets
    return ⟨buckets, now, key, allowed, after⟩ :: (← logCalls limits after calls)

/-! ### Accepted limits -/

section Accepted

variable {limits : LogLimits} {configFile : String} {count seconds : Nat}

theorem digits_of_limitCountRe {s : List Char} (h : limitCountRe.fullmatch s) :
    s ≠ [] ∧ (∀ c ∈ s, c.isDigit) ∧ s.head? ≠ some '0' := by
  have hword := (Regex.fullmatch_iff _ _).1 h
  have hdigit : ∀ c : Char, '0' ≤ c → c ≤ '9' → c.isDigit := by
    intro c hlow hhigh
    simp only [Char.isDigit, Bool.and_eq_true, decide_eq_true_eq]
    exact ⟨hlow, hhigh⟩
  have hdigits : limitCountRe.Within fun c => c.isDigit := by
    refine ⟨fun c hc => ?_, fun c hc => ?_⟩
    · simp only [Bool.and_eq_true, decide_eq_true_eq] at hc
      exact hdigit c (le_trans (by decide) hc.1) hc.2
    · simp only [Bool.and_eq_true, decide_eq_true_eq] at hc
      exact hdigit c hc.1 hc.2
  have hall := hdigits.mem hword
  obtain ⟨u, v, ⟨c, hc, rfl⟩, -, rfl⟩ := hword
  refine ⟨by simp, hall, ?_⟩
  rintro hzero
  obtain rfl := Option.some.inj hzero
  simp at hc

/-- A rate is a positive number in a positive time. -/
theorem parseLimitRate_pos {text : String} (h : parseLimitRate text = .ok (count, seconds)) :
    0 < count ∧ 0 < seconds := by
  unfold parseLimitRate at h
  split at h
  · cases h
  · split at h
    · rename_i hperiod hcount
      split at h
      · rename_i hmatch
        cases h
        obtain ⟨hne, hdigits, hzero⟩ := digits_of_limitCountRe hmatch
        obtain ⟨n, hn, hint, -⟩ := Py.exists_decimal hne hdigits hzero
        obtain rfl := Option.some.inj (hint.symm.trans hcount)
        have hperiods : ∀ p ∈ periods, 0 < p.2 := by decide
        exact ⟨hn, hperiods _ (List.mem_of_find?_eq_some hperiod)⟩
      · cases h
    · cases h

/-- What `read_config` accepts are the limits of a table of buckets. -/
theorem checkLogLimits_ok (h : checkLogLimits configFile limits = .ok ()) : ∃ count seconds : Nat,
    parseLimitRate limits.limitRate = .ok (count, seconds) ∧ 0 < count ∧ 0 < seconds ∧ 1 ≤ limits.burst ∧
      1 ≤ limits.logBucketMaxEntries := by
  unfold checkLogLimits at h
  split at h
  · cases h
  · cases h
  · rename_i rate hrate
    split at h
    · cases h
    · rename_i hburst
      split at h
      · cases h
      · rename_i hmax
        simp only [Bool.not_eq_true, Bool.not_eq_false', Bool.and_eq_true, decide_eq_true_eq] at hburst hmax
        obtain ⟨count, seconds⟩ := rate
        obtain ⟨hcount, hseconds⟩ := parseLimitRate_pos hrate
        exact ⟨count, seconds, hrate, hcount, hseconds, hburst.1, hmax.1⟩

/-- The bucket table that the limits stand for. -/
def LogLimits.bucket (limits : LogLimits) (count seconds : Nat) (hcount : 0 < count) (hseconds : 0 < seconds)
    (hburst : 1 ≤ limits.burst) (hmax : 1 ≤ limits.logBucketMaxEntries) : TokenBucket.Limits Rat where
  rate := count / seconds
  burst := limits.burst
  capacity := limits.logBucketMaxEntries.toNat
  rate_pos := div_pos (Nat.cast_pos.2 hcount) (Nat.cast_pos.2 hseconds)
  burst_ge := by exact_mod_cast hburst
  capacity_pos := by omega

variable {hcount : 0 < count} {hseconds : 0 < seconds} {hburst : 1 ≤ limits.burst}
  {hmax : 1 ≤ limits.logBucketMaxEntries}

theorem logAllowed_eq (hrate : parseLimitRate limits.limitRate = .ok (count, seconds)) (now : Rat) (key : κ)
    (buckets : LogBuckets κ) : logAllowed limits now key buckets =
      .ok (TokenBucket.call (limits.bucket count seconds hcount hseconds hburst hmax) now key buckets) := by
  have htokens : TokenBucket.tokens (limits.bucket count seconds hcount hseconds hburst hmax) now key buckets =
      min (limits.burst : Rat) (((buckets.get? key).getD (limits.burst, now)).1 +
        (now - ((buckets.get? key).getD (limits.burst, now)).2) * count / seconds) := by
    rw [mul_div_assoc]
    rfl
  rw [logAllowed, hrate, TokenBucket.call, htokens]
  rfl

theorem logCalls_eq (hrate : parseLimitRate limits.limitRate = .ok (count, seconds)) (buckets : LogBuckets κ)
    (calls : List (Rat × κ)) : logCalls limits buckets calls =
      .ok (TokenBucket.run (limits.bucket count seconds hcount hseconds hburst hmax) buckets calls) := by
  induction calls generalizing buckets with
  | nil => rfl
  | cons first calls ih =>
    obtain ⟨now, key⟩ := first
    rw [logCalls, @logAllowed_eq _ _ limits count seconds hcount hseconds hburst hmax hrate]
    show (logCalls limits _ calls >>= _) = _
    rw [ih]
    rfl

end Accepted

/-! ### Throttling -/

/-- What the throttle does in a run, with the rate `count / seconds`. -/
structure Throttles (limits : LogLimits) (count seconds : Nat) (trace : List (TokenBucket.Call κ Rat)) : Prop where
  /-- The table is bounded, and has the key that was used. -/
  bounded : ∀ c ∈ trace, (c.after.size : Int) ≤ limits.logBucketMaxEntries ∧ c.key ∈ c.after.keys
  tokens : ∀ c ∈ trace, ∀ key bucket, c.after.get? key = some bucket → 0 ≤ bucket.1 ∧ bucket.1 ≤ limits.burst
  /-- In a window of time in which a key is not evicted. -/
  window : ∀ key t₁ t₂, t₁ ≤ t₂ → TokenBucket.Stays key t₁ t₂ trace →
    (TokenBucket.allowedIn key t₁ t₂ trace : Rat) ≤ limits.burst + (t₂ - t₁) * count / seconds
  fresh : ∀ c ∈ trace, c.key ∉ c.before.keys → c.allowed = true
  /-- After the time in which a token is gained. -/
  gained : ∀ front c back, trace = front ++ c :: back → ∀ c', TokenBucket.lastCall c.key front = some c' →
    (seconds : Rat) / count ≤ c.time - c'.time → c.allowed = true

/-- With limits that `read_config` accepts, the log is throttled by a bounded table of token buckets, whatever the keys
are. -/
theorem logAllowed_throttles {limits : LogLimits} {configFile : String}
    (hread : checkLogLimits configFile limits = .ok ()) {calls : List (Rat × κ)}
    (hordered : (calls.map Prod.fst).Pairwise (· ≤ ·)) :
    ∃ count seconds trace, parseLimitRate limits.limitRate = .ok (count, seconds) ∧
      logCalls limits .empty calls = .ok trace ∧ Throttles limits count seconds trace := by
  obtain ⟨count, seconds, hrate, hcount, hseconds, hburst, hmax⟩ := checkLogLimits_ok hread
  let bucket := limits.bucket count seconds hcount hseconds hburst hmax
  obtain ⟨start, hordered⟩ := TokenBucket.exists_ordered hordered
  have hempty : TokenBucket.Valid bucket start (.empty : LogBuckets κ) := .empty
  have hspec : ∀ c ∈ TokenBucket.run bucket .empty calls, TokenBucket.Valid bucket c.time c.before ∧
      c.allowed = (TokenBucket.call bucket c.time c.key c.before).1 ∧
      c.after = (TokenBucket.call bucket c.time c.key c.before).2 := fun c hc =>
    ⟨(TokenBucket.run_spec hempty hordered hc).1, (TokenBucket.run_spec hempty hordered hc).2.2⟩
  refine ⟨count, seconds, TokenBucket.run bucket .empty calls, hrate, logCalls_eq hrate _ _, ?_, ?_, ?_, ?_, ?_⟩
  · intro c hc
    obtain ⟨-, -, hafter⟩ := hspec c hc
    rw [hafter]
    obtain ⟨left, hleft, -⟩ := @TokenBucket.call_get?_self κ Rat _ _ _ bucket c.time c.key c.before
    have hsize : (TokenBucket.call bucket c.time c.key c.before).2.size ≤ limits.logBucketMaxEntries.toNat :=
      TokenBucket.call_size_le
    exact ⟨by omega, Dict.mem_keys_of_get? hleft⟩
  · intro c hc key b hget
    obtain ⟨hvalid, -, hafter⟩ := hspec c hc
    rw [hafter] at hget
    exact ⟨(hvalid.call key b hget).1, (hvalid.call key b hget).2.1⟩
  -- the number of records in a window, while the bucket stays in the table
  · intro key t₁ t₂ ht hstays
    rw [mul_div_assoc]
    exact TokenBucket.allowedIn_le hempty hordered hstays ht
  · intro c hc hnew
    rw [(hspec c hc).2.1]
    exact TokenBucket.call_allowed_of_none (Dict.get?_eq_none_iff.2 hnew)
  -- a bucket that has gained a token since its last call
  · intro front c back htrace c' hlast hgained
    obtain ⟨hvalid, hallowed, -⟩ := hspec c (by rw [htrace]; simp)
    rw [hallowed]
    cases hget : c.before.get? c.key with
    | none => exact TokenBucket.call_allowed_of_none hget
    | some b =>
      rcases TokenBucket.lastCall_of_get? htrace hget with ⟨c'', hlast', htime⟩ | ⟨hnone, -⟩
      · obtain rfl := Option.some.inj (hlast.symm.trans hlast')
        refine TokenBucket.call_allowed_of_gained hvalid hget ?_
        rw [← htime]
        exact (one_div_div _ _).trans_le hgained
      · rw [hlast] at hnone
        cases hnone

namespace Sample

def logLimits : LogLimits := ⟨"1/minute", 1, 2⟩

/-- Two sources, the first of them twice. -/
def logCallTimes : List (Rat × String) := [(100, "one"), (100, "two"), (130, "one"), (160, "one")]

theorem logAllowed_throttles_twoSources : ∃ count seconds trace,
    parseLimitRate logLimits.limitRate = .ok (count, seconds) ∧
      logCalls logLimits .empty logCallTimes = .ok trace ∧ Throttles logLimits count seconds trace := by
  have hread : checkLogLimits "config.yml" logLimits = .ok () := by decide +kernel
  exact logAllowed_throttles hread (by decide +kernel)

/-- Half a minute gains half a token. -/
example : (logCalls logLimits .empty logCallTimes).map (fun trace => trace.map TokenBucket.Call.allowed) =
    .ok [true, true, false, true] := by decide +kernel

end Sample

end QubesSnitch
