import TurboMedia.Signaling.SourceBooks

/-!
# The token bucket over 64-bit words

`consume_token_bucket` with every sum and product checked, beside the bucket that it stands for.
`grants_eq_ideal`: no check fails, and both grant the same, when a first reading of zero is taken
for one.
-/

namespace TurboMedia.Signaling

open TokenBucket Option

/-- The value of a sum or product of `uint64_t` that does not wrap. -/
def unwrapped (value : ℕ) : Option ℕ :=
  if value < 2 ^ 64 then some value else none

def TokenBucket.refill64 (bucket : TokenBucket) (rate capacity nowMs : ℕ) : Option TokenBucket :=
  if bucket.lastRefillMs = 0 then some ⟨if nowMs = 0 then 1 else nowMs, capacity⟩
  else if bucket.lastRefillMs < nowMs then
    let elapsed := nowMs - bucket.lastRefillMs
    let tokens := if capacity ≤ bucket.tokens then capacity else bucket.tokens
    let missing := capacity - tokens
    (if missing = 0 then some 0
      else (unwrapped (missing + rate)).map (fun sum => (sum - 1) / rate)).bind
        (fun refillToCapacityMs =>
          if refillToCapacityMs ≤ elapsed then some ⟨nowMs, capacity⟩
          else
            (unwrapped (elapsed * rate)).bind (fun gain =>
              (unwrapped (tokens + gain)).map (⟨nowMs, ·⟩)))
  else some bucket

/-- `consume_token_bucket`; `none` when a sum or product wraps. -/
def consumeTokenBucket64 (refillRate burst : Int32) (bucket : TokenBucket) (nowMs : UInt64) :
    Option (TokenBucket × Bool) :=
  if refillRate.toInt ≤ 0 then some (bucket, true)
  else if burst.toInt ≤ 0 then some (bucket, false)
  else
    (unwrapped (burst.toInt.toNat * rateTokenUnits)).bind (fun capacity =>
      (bucket.refill64 refillRate.toInt.toNat capacity nowMs.toNat).map (fun filled =>
        if filled.tokens < rateTokenUnits then (filled, false)
        else ({ filled with tokens := filled.tokens - rateTokenUnits }, true)))

/-- The answers to a sequence of clock readings, and the bucket after it. -/
def grants (refillRate burst : Int32) (bucket : TokenBucket) :
    List UInt64 → Option (List Bool × TokenBucket)
  | [] => some ([], bucket)
  | nowMs :: rest =>
    (consumeTokenBucket64 refillRate burst bucket nowMs).bind (fun answer =>
      (grants refillRate burst answer.1 rest).map (fun out => (answer.2 :: out.1, out.2)))

/-- The ideal bucket, which had a level at the latest time so far. -/
def idealGrants (rate capacity : ℕ) : ℕ → ℕ → List ℕ → List Bool
  | _, _, [] => []
  | level, clock, nowMs :: rest =>
    let filled := min capacity (level + rate * (nowMs - clock))
    if filled < rateTokenUnits then
      false :: idealGrants rate capacity filled (max clock nowMs) rest
    else
      true :: idealGrants rate capacity (filled - rateTokenUnits) (max clock nowMs) rest

/-- It starts full at the first reading. -/
def idealBucket (rate capacity : ℕ) (readings : List ℕ) : List Bool :=
  idealGrants rate capacity capacity (readings.headD 0) readings

variable {rate capacity nowMs : ℕ} {bucket : TokenBucket} {refillRate burst : Int32}

theorem unwrapped_of_lt {value : ℕ} (h : value < 2 ^ 64) : unwrapped value = some value :=
  if_pos h

theorem refill64_eq (hrate : 0 < rate) (hroom : capacity + rate < 2 ^ 64)
    (htokens : bucket.lastRefillMs ≠ 0 → bucket.tokens ≤ capacity) :
    bucket.refill64 rate capacity nowMs = some (bucket.refill rate capacity nowMs) := by
  unfold refill64
  by_cases hzero : bucket.lastRefillMs = 0
  · rw [if_pos hzero, refill, if_pos hzero]
  have hfilled := @refill_tokens rate capacity nowMs bucket hrate (htokens hzero)
  rw [if_neg hzero] at hfilled ⊢
  unfold refill at hfilled ⊢
  rw [if_neg hzero] at hfilled ⊢
  by_cases hlater : bucket.lastRefillMs < nowMs
  · rw [if_pos hlater] at hfilled
    rw [if_pos hlater, if_pos hlater]
    dsimp only at hfilled ⊢
    have htokens := htokens hzero
    have hclip : (if capacity ≤ bucket.tokens then capacity else bucket.tokens) =
        bucket.tokens := by
      split <;> omega
    have hceil : (if capacity - bucket.tokens = 0 then some 0
        else (unwrapped (capacity - bucket.tokens + rate)).map (fun sum => (sum - 1) / rate)) =
        some (if capacity - bucket.tokens = 0 then 0
          else (capacity - bucket.tokens + rate - 1) / rate) := by
      rw [unwrapped_of_lt (by omega)]
      split <;> rfl
    rw [hclip] at hfilled ⊢
    rw [hceil, bind_some]
    rw [Nat.mul_comm rate] at hfilled
    by_cases hfull : (if capacity - bucket.tokens = 0 then 0
        else (capacity - bucket.tokens + rate - 1) / rate) ≤ nowMs - bucket.lastRefillMs
    · rw [if_pos hfull, if_pos hfull]
    · rw [if_neg hfull] at hfilled
      rw [if_neg hfull, if_neg hfull, unwrapped_of_lt (by omega), bind_some,
        unwrapped_of_lt (by omega)]
      rfl
  · rw [if_neg hlater, if_neg hlater]

theorem consume64_eq (hrate : 0 < refillRate.toInt) (hburst : 0 < burst.toInt)
    (htokens : bucket.lastRefillMs ≠ 0 → bucket.tokens ≤ burst.toInt.toNat * rateTokenUnits)
    (now : UInt64) :
    consumeTokenBucket64 refillRate burst bucket now =
      some (consumeTokenBucket refillRate.toInt burst.toInt bucket now.toNat) := by
  have hrmax := refillRate.toInt_lt
  have hbmax := burst.toInt_lt
  have hcap : burst.toInt.toNat * rateTokenUnits + refillRate.toInt.toNat < 2 ^ 64 := by
    unfold rateTokenUnits
    omega
  rw [consumeTokenBucket64, consumeTokenBucket, if_neg (by omega), if_neg (by omega),
    if_neg (by omega), if_neg (by omega), unwrapped_of_lt (by omega), bind_some,
    refill64_eq (by omega) hcap htokens]
  rfl

/-- The buckets agree once they have been started. -/
theorem grants_started (hrate : 0 < refillRate.toInt) (hburst : 0 < burst.toInt)
    (hstart : bucket.lastRefillMs ≠ 0)
    (htokens : bucket.tokens ≤ burst.toInt.toNat * rateTokenUnits) (readings : List UInt64) :
    ∃ after, grants refillRate burst bucket readings =
        some (idealGrants refillRate.toInt.toNat (burst.toInt.toNat * rateTokenUnits)
          bucket.tokens bucket.lastRefillMs (readings.map UInt64.toNat), after) ∧
      after.tokens ≤ burst.toInt.toNat * rateTokenUnits := by
  induction readings generalizing bucket with
  | nil => exact ⟨bucket, rfl, htokens⟩
  | cons now rest ih =>
    have hfilled := @refill_tokens refillRate.toInt.toNat _ now.toNat _ (by omega) htokens
    have hlast := @refill_last refillRate.toInt.toNat (burst.toInt.toNat * rateTokenUnits)
      now.toNat bucket
    rw [if_neg hstart] at hfilled hlast
    rw [grants, consume64_eq hrate hburst (fun _ => htokens), consumeTokenBucket,
      if_neg (by omega), if_neg (by omega), List.map_cons, idealGrants]
    generalize bucket.refill _ _ now.toNat = filled at hfilled hlast ⊢
    dsimp only
    rw [← hfilled, ← hlast]
    by_cases hfew : filled.tokens < rateTokenUnits
    · obtain ⟨after, hafter, hle⟩ := @ih filled (by omega) (by omega)
      rw [if_pos hfew, if_pos hfew, bind_some, hafter]
      exact ⟨after, rfl, hle⟩
    · obtain ⟨after, hafter, hle⟩ := @ih ⟨filled.lastRefillMs, filled.tokens - rateTokenUnits⟩
        (show filled.lastRefillMs ≠ 0 by omega) (show filled.tokens - _ ≤ _ by omega)
      rw [if_neg hfew, if_neg hfew, bind_some, hafter]
      exact ⟨after, rfl, hle⟩

/-- A bucket that has not been started grants what the ideal one grants when a first reading
of zero is taken for one; no sum or product wraps, and the tokens stay within the capacity. -/
theorem grants_eq_ideal (hrate : 0 < refillRate.toInt) (hburst : 0 < burst.toInt)
    (tokens : ℕ) (first : UInt64) (rest : List UInt64) :
    ∃ after, grants refillRate burst ⟨0, tokens⟩ (first :: rest) =
        some (idealBucket refillRate.toInt.toNat (burst.toInt.toNat * rateTokenUnits)
          (((if first = 0 then 1 else first) :: rest).map UInt64.toNat), after) ∧
      after.tokens ≤ burst.toInt.toNat * rateTokenUnits := by
  obtain ⟨clock, hclock⟩ : ∃ clock : UInt64, clock = if first = 0 then 1 else first := ⟨_, rfl⟩
  have hvalue : clock.toNat = if first.toNat = 0 then 1 else first.toNat := by
    rw [hclock, apply_ite UInt64.toNat]
    exact if_congr UInt64.toNat_inj.symm rfl rfl
  have hstart : clock.toNat ≠ 0 := by
    rw [hvalue]
    split <;> omega
  rw [← hclock]
  obtain ⟨after, hafter, hle⟩ :=
    @grants_started ⟨clock.toNat, _⟩ _ _ hrate hburst hstart le_rfl (clock :: rest)
  -- the first reading fills the bucket up, as if it had been full at that time
  have hsame : consumeTokenBucket refillRate.toInt burst.toInt ⟨0, tokens⟩ first.toNat =
      consumeTokenBucket refillRate.toInt burst.toInt
        ⟨clock.toNat, burst.toInt.toNat * rateTokenUnits⟩ clock.toNat := by
    have hfull : (⟨0, tokens⟩ : TokenBucket).refill refillRate.toInt.toNat
        (burst.toInt.toNat * rateTokenUnits) first.toNat = refill
          ⟨clock.toNat, burst.toInt.toNat * rateTokenUnits⟩ refillRate.toInt.toNat
          (burst.toInt.toNat * rateTokenUnits) clock.toNat := by
      rw [refill, if_pos rfl, refill, if_neg hstart,
        if_neg (lt_irrefl _), ← hvalue]
    rw [consumeTokenBucket, consumeTokenBucket, if_neg hrate.not_ge, if_neg hburst.not_ge,
      hfull, if_neg hrate.not_ge, if_neg hburst.not_ge]
  refine ⟨after, ?_, hle⟩
  rw [grants, consume64_eq hrate hburst (fun _ => le_rfl), ← hsame] at hafter
  rw [grants, consume64_eq hrate hburst (by simp)]
  exact hafter

theorem grants_eq_ideal_zero :
    ∃ after, grants 1000 1 ⟨0, 0⟩ [0, 2] = some ([true, true], after) ∧ after.tokens ≤ 1000 := by
  obtain ⟨after, hafter, hle⟩ := @grants_eq_ideal 1000 1 (by decide) (by decide) 0 0 [2]
  have hideal : idealBucket 1000 1000 [1, 2] = [true, true] := by decide
  exact ⟨after, hideal ▸ hafter, hle⟩

/-- A millisecond after a first reading of zero the ideal bucket has been filled up again. -/
theorem grants_late_from_zero :
    (grants 1000 1 ⟨0, 0⟩ [0, 1]).map Prod.fst = some [true, false] ∧
      idealBucket 1000 1000 [0, 1] = [true, true] := by
  decide

end TurboMedia.Signaling
