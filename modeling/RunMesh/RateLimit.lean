import Mathlib.Data.Rat.Floor
import Mathlib.Tactic.FieldSimp
import RunMesh.Metering

/-!
# The rate limit of a tenant

`tokenBucketScript`, `Limiter.Allow` and `Limiter.Middleware` of `internal/ratelimit/limiter.go`.
The script keeps the tokens of a tenant under one key of Redis, and each request runs it once.
Its numbers are exact here : the clock, the tokens and the quotients are rationals.

The key has an expiry, set anew by each request, and Redis may drop it once that is over. The
`redis` machine runs the requests of one tenant and leaves to the label whether the key is still
there. A dropped key reads as a full bucket, and the expiry is long enough for the bucket to be
full by then (`Bucket.Kept.refill_eq_burst`), so the script cannot tell (`refill_read`). The
tokens are a credit in the sense of `Machine.Metered`.
-/

namespace RunMesh

namespace RateLimit

/-! ## The script -/

/-- `Limiter`, with the limits `config.Load` accepts. -/
structure Limiter where
  rate : ℤ
  burst : ℤ
  failOpen : Bool
  rate_pos : 0 < rate
  burst_pos : 0 < burst

/-- The hash `runmesh:rate:<tenant>`, and the time until which Redis keeps it. -/
structure Bucket where
  tokens : ℚ
  updated : ℚ
  expiresAt : ℚ
  deriving DecidableEq, Repr

/-- A value of a reply of Redis. -/
inductive Value
  | int64 (n : ℤ)
  | other
  deriving DecidableEq, Repr

/-- The milliseconds the script gives to `PEXPIRE`. -/
def Limiter.pexpire (l : Limiter) : ℤ :=
  ⌈(l.burst : ℚ) / l.rate * 2000⌉

/-- The tokens after the refill, with the defaults of a key that is not there. -/
def Limiter.refill (l : Limiter) (values : Option Bucket) (now : ℚ) : ℚ :=
  let tokens := (values.map Bucket.tokens).getD l.burst
  let updated := (values.map Bucket.updated).getD now
  min l.burst (tokens + max 0 (now - updated) * l.rate)

/-- `tokenBucketScript` : its reply and the key it leaves. -/
def Limiter.script (l : Limiter) (values : Option Bucket) (now : ℚ) : List ℤ × Bucket :=
  let tokens := l.refill values now
  let expiresAt := now + l.pexpire / 1000
  if 1 ≤ tokens then
    ([1, ⌊tokens - 1⌋, 0], ⟨tokens - 1, now, expiresAt⟩)
  else
    ([0, ⌊tokens⌋, ⌈(1 - tokens) / l.rate * 1000⌉], ⟨tokens, now, expiresAt⟩)

/-! ## Requests -/

/-- A request of the tenant : the time Redis has for it, and whether the key has been dropped
since the last one. -/
structure Hit where
  now : ℚ
  dropped : Bool
  deriving DecidableEq, Repr

/-- What the script reads. -/
def Hit.read (hit : Hit) (key : Option Bucket) : Option Bucket :=
  if hit.dropped then none else key

/-- The same request at a Redis that never drops the key. -/
def Hit.kept (hit : Hit) : Hit :=
  { hit with dropped := false }

/-- The requests of one tenant. The clock does not go back, and a key is dropped only when its
expiry is over. -/
def Limiter.redis (l : Limiter) : Machine (Option Bucket) Hit where
  next key hit := some (l.script (hit.read key) hit.now).2
  allowed key hit :=
    ∀ b ∈ key, b.updated ≤ hit.now ∧ (hit.dropped = true → b.expiresAt ≤ hit.now)

/-- The reply of the script to a request. -/
def Limiter.reply (l : Limiter) (key : Option Bucket) (hit : Hit) : List ℤ :=
  (l.script (hit.read key) hit.now).1

/-- The script admits the request. -/
def Limiter.admits (l : Limiter) (key : Option Bucket) (hit : Hit) : Bool :=
  (l.reply key hit).head? == some 1

/-- `Result`. A duration is in nanoseconds. -/
structure Result where
  allowed : Bool
  remaining : ℤ
  retryAfter : ℤ
  deriving DecidableEq, Repr

/-- `time.Millisecond`. -/
def millisecond : ℤ := 1000000

/-- `time.Second`. -/
def second : ℤ := 1000000000

/-- `Limiter.Allow`, given what `Eval` returns. -/
def allow : Except String (List Value) → Except String Result
  | .error err => .error err
  | .ok [value0, value1, value2] => do
    let .int64 allowed := value0 | throw "invalid Redis allow result"
    let .int64 remaining := value1 | throw "invalid Redis remaining result"
    let .int64 retryMilliseconds := value2 | throw "invalid Redis retry result"
    return ⟨allowed == 1, remaining, retryMilliseconds * millisecond⟩
  | .ok _ => .error "unexpected Redis rate-limit result"

/-- `Duration.Round` : the nearest multiple of `m`, halves away from zero. -/
def round (d m : ℤ) : ℤ :=
  let r := d.tmod m
  if d < 0 then
    if 2 * -r < m then d - r else d - m - r
  else if 2 * r < m then d - r else d + m - r

/-- What a request gets from the limiter : headers, and the error it is answered with unless it
is passed on. -/
structure Answer where
  headers : List (String × ℤ)
  error : Option (ℕ × String)
  deriving DecidableEq, Repr

/-- `Limiter.Middleware`, given what `Allow` returns. -/
def Limiter.middleware (l : Limiter) : Except String Result → Answer
  | .error _ =>
    if l.failOpen then ⟨[], none⟩ else ⟨[], some (503, "rate limiter unavailable")⟩
  | .ok result =>
    let headers := [("RateLimit-Limit", l.burst), ("RateLimit-Remaining", result.remaining)]
    if result.allowed then
      ⟨headers, none⟩
    else
      let retrySeconds := (round result.retryAfter second).tdiv second
      let retrySeconds := if retrySeconds < 1 then 1 else retrySeconds
      ⟨headers ++ [("Retry-After", retrySeconds)], some (429, "tenant rate limit exceeded")⟩

/-- `Allow` for a request that reaches Redis. -/
def Limiter.result (l : Limiter) (key : Option Bucket) (hit : Hit) : Except String Result :=
  allow (.ok ((l.reply key hit).map .int64))

/-! ## The tokens of a bucket -/

variable {l : Limiter} {key : Option Bucket} {hit : Hit} {b : Bucket}

theorem Limiter.rate_pos' (l : Limiter) : (0 : ℚ) < l.rate :=
  Int.cast_pos.2 l.rate_pos

theorem Limiter.one_le_rate (l : Limiter) : (1 : ℚ) ≤ l.rate := by
  exact_mod_cast l.rate_pos

theorem Limiter.one_le_burst (l : Limiter) : (1 : ℚ) ≤ l.burst := by
  exact_mod_cast l.burst_pos

/-- What the script leaves under the key. -/
structure Bucket.Kept (l : Limiter) (b : Bucket) : Prop where
  nonneg : 0 ≤ b.tokens
  le_burst : b.tokens ≤ l.burst
  expiresAt : b.expiresAt = b.updated + l.pexpire / 1000

@[simp] theorem refill_none (l : Limiter) (now : ℚ) : l.refill none now = l.burst := by
  simp [Limiter.refill]

theorem refill_some (l : Limiter) (b : Bucket) (now : ℚ) :
    l.refill (some b) now = min (l.burst : ℚ) (b.tokens + max 0 (now - b.updated) * l.rate) :=
  rfl

theorem refill_le_burst (l : Limiter) (key : Option Bucket) (now : ℚ) :
    l.refill key now ≤ l.burst :=
  min_le_left _ _

theorem refill_nonneg (hkey : ∀ b ∈ key, b.Kept l) (now : ℚ) : 0 ≤ l.refill key now := by
  have hburst := zero_le_one.trans l.one_le_burst
  cases key with
  | none => simpa using hburst
  | some b =>
    have htokens := (hkey b rfl).nonneg
    have hgrow : 0 ≤ max 0 (now - b.updated) * (l.rate : ℚ) :=
      mul_nonneg (le_max_left _ _) l.rate_pos'.le
    exact le_min hburst (add_nonneg htokens hgrow)

/-- The tokens grow by at most `rate` in a second. -/
theorem refill_slope (l : Limiter) (key : Option Bucket) {t t' : ℚ} (h : t ≤ t') :
    l.refill key t' ≤ l.refill key t + l.rate * (t' - t) := by
  have hgrow : 0 ≤ (l.rate : ℚ) * (t' - t) := mul_nonneg l.rate_pos'.le (sub_nonneg.2 h)
  cases key with
  | none => simpa using hgrow
  | some b =>
    have hwait : max 0 (t' - b.updated) ≤ max 0 (t - b.updated) + (t' - t) := by
      rcases max_cases 0 (t - b.updated) with ⟨h1, h2⟩ | ⟨h1, h2⟩ <;>
        exact max_le (by linarith) (by linarith)
    have hmul := mul_le_mul_of_nonneg_right hwait l.rate_pos'.le
    rw [refill_some, refill_some, ← min_add_add_right]
    refine min_le_min ?_ ?_ <;> linarith

/-- Within its expiry a bucket fills up. -/
theorem Bucket.Kept.refill_eq_burst (hb : b.Kept l) {now : ℚ} (hnow : b.expiresAt ≤ now) :
    l.refill (some b) now = l.burst := by
  have hexpire : (l.burst : ℚ) / l.rate * 2000 ≤ l.pexpire := Int.le_ceil _
  have hquot : (0 : ℚ) ≤ l.burst / l.rate :=
    div_nonneg (zero_le_one.trans l.one_le_burst) l.rate_pos'.le
  have hwait : (l.burst : ℚ) / l.rate ≤ now - b.updated := by
    rw [hb.expiresAt] at hnow
    linarith
  have hfill : (l.burst : ℚ) ≤ max 0 (now - b.updated) * l.rate :=
    (div_le_iff₀ l.rate_pos').1 (hwait.trans (le_max_right _ _))
  exact min_eq_left (hfill.trans (le_add_of_nonneg_left hb.nonneg))

/-- A dropped key reads as the bucket it would be by then. -/
theorem refill_read (hkey : ∀ b ∈ key, b.Kept l) (hhit : l.redis.allowed key hit) :
    l.refill (hit.read key) hit.now = l.refill key hit.now := by
  unfold Hit.read
  split
  case isFalse => rfl
  case isTrue hdrop =>
    cases key with
    | none => rfl
    | some b => rw [refill_none, (hkey b rfl).refill_eq_burst ((hhit b rfl).2 hdrop)]

/-! ## One request -/

/-- The script reads the key only through the refill. -/
theorem script_congr {values values' : Option Bucket} {now : ℚ}
    (h : l.refill values now = l.refill values' now) :
    l.script values now = l.script values' now := by
  simp only [Limiter.script, h]

theorem script_of_one_le {values : Option Bucket} {now : ℚ} (h : 1 ≤ l.refill values now) :
    l.script values now = ([1, ⌊l.refill values now - 1⌋, 0],
      ⟨l.refill values now - 1, now, now + l.pexpire / 1000⟩) :=
  if_pos h

theorem script_of_lt_one {values : Option Bucket} {now : ℚ} (h : l.refill values now < 1) :
    l.script values now =
      ([0, ⌊l.refill values now⌋, ⌈(1 - l.refill values now) / l.rate * 1000⌉],
        ⟨l.refill values now, now, now + l.pexpire / 1000⟩) :=
  if_neg h.not_ge

/-- A request is admitted exactly when the refill leaves a token. -/
theorem admits_eq (l : Limiter) (key : Option Bucket) (hit : Hit) :
    l.admits key hit = decide (1 ≤ l.refill (hit.read key) hit.now) := by
  unfold Limiter.admits Limiter.reply
  rcases le_or_gt 1 (l.refill (hit.read key) hit.now) with h | h
  · simp [script_of_one_le h, h]
  · simp [script_of_lt_one h, h]

theorem script_tokens (l : Limiter) (key : Option Bucket) (hit : Hit) :
    (l.script (hit.read key) hit.now).2.tokens + (l.admits key hit).toNat =
      l.refill (hit.read key) hit.now := by
  rw [admits_eq]
  rcases le_or_gt 1 (l.refill (hit.read key) hit.now) with h | h
  · simp [script_of_one_le h, h]
  · simp [script_of_lt_one h, h.not_ge]

@[simp] theorem script_updated (l : Limiter) (values : Option Bucket) (now : ℚ) :
    (l.script values now).2.updated = now := by
  rcases le_or_gt 1 (l.refill values now) with h | h
  · rw [script_of_one_le h]
  · rw [script_of_lt_one h]

theorem script_kept (hkey : ∀ b ∈ key, b.Kept l) (now : ℚ) : (l.script key now).2.Kept l := by
  have hle := refill_le_burst l key now
  rcases le_or_gt 1 (l.refill key now) with h | h
  · rw [script_of_one_le h]
    exact ⟨sub_nonneg.2 h, (sub_le_self _ zero_le_one).trans hle, rfl⟩
  · rw [script_of_lt_one h]
    exact ⟨refill_nonneg hkey now, hle, rfl⟩

theorem read_kept (hkey : ∀ b ∈ key, b.Kept l) (hit : Hit) : ∀ b ∈ hit.read key, b.Kept l := by
  unfold Hit.read
  split
  · rintro b ⟨⟩
  · exact hkey

theorem next_kept (hkey : ∀ b ∈ key, b.Kept l) (hit : Hit) :
    ∀ b ∈ l.redis.next key hit, b.Kept l := by
  rintro b ⟨⟩
  exact script_kept (read_kept hkey hit) hit.now

/-- A bucket has its own tokens at the time it is written. -/
theorem Bucket.Kept.refill_updated (hb : b.Kept l) : l.refill (some b) b.updated = b.tokens := by
  rw [refill_some, sub_self, max_self, zero_mul, add_zero, min_eq_right hb.le_burst]

/-- The tokens pay for the admitted requests. -/
theorem redis_metered (l : Limiter) :
    l.redis.Metered (fun key => ∀ b ∈ key, b.Kept l) Hit.now l.admits l.refill l.rate l.burst where
  keeps key hit hkey _ := next_kept hkey hit
  rate_nonneg := l.rate_pos'.le
  nonneg key now hkey := refill_nonneg hkey now
  le_burst := refill_le_burst l
  slope key _ _ h := refill_slope l key h
  pays key hit hkey hhit := by
    have hb := script_kept (read_kept hkey hit) hit.now
    have hleft := hb.refill_updated
    rw [script_updated] at hleft
    have hpaid := script_tokens l key hit
    rw [refill_read hkey hhit] at hpaid
    exact (hleft ▸ hpaid).le
  forward key hit later hlater := by
    simpa using (hlater _ rfl).1

/-! ## The bucket of a tenant -/

theorem run_kept {hits : List Hit} (h : l.redis.Valid none hits) :
    ∀ b ∈ l.redis.run none hits, b.Kept l :=
  l.redis.invariant (P := fun key => ∀ b ∈ key, b.Kept l)
    (fun _ hit hkey _ => next_kept hkey hit) (by simp) h

/-- A request leaves the same key whether or not the old one was dropped. -/
theorem next_kept_eq (hkey : ∀ b ∈ key, b.Kept l) (hhit : l.redis.allowed key hit) :
    l.redis.next key hit.kept = l.redis.next key hit := by
  have hread : l.refill (hit.kept.read key) hit.now = l.refill (hit.read key) hit.now :=
    (refill_read hkey hhit).symm
  exact congrArg (fun r => some r.2) (script_congr hread)

theorem reply_kept_eq (hkey : ∀ b ∈ key, b.Kept l) (hhit : l.redis.allowed key hit) :
    l.reply key hit.kept = l.reply key hit := by
  have hread : l.refill (hit.kept.read key) hit.now = l.refill (hit.read key) hit.now :=
    (refill_read hkey hhit).symm
  exact congrArg Prod.fst (script_congr hread)

/-- The key that may be dropped and the key that never is hold the same bucket. -/
theorem run_map_kept {hits : List Hit} (hkey : ∀ b ∈ key, b.Kept l)
    (h : l.redis.Valid key hits) : l.redis.run key (hits.map Hit.kept) = l.redis.run key hits := by
  induction hits generalizing key with
  | nil => rfl
  | cons hit hits ih =>
    rw [List.map_cons, Machine.run_cons, Machine.run_cons, next_kept_eq hkey h.1]
    exact ih (next_kept hkey hit) h.2

/-- In an interval of any length at most `burst` requests are admitted, and `rate` for each second
of it. The tokens stay between zero and `burst`. Each reply is the one of a bucket whose key is
never dropped. -/
theorem token_bucket_bound (l : Limiter) (hits : List Hit) (h : l.redis.Valid none hits) :
    (∀ a d : ℚ, 0 ≤ d → (l.redis.countAlong (fun key hit => l.admits key hit &&
      decide (a ≤ hit.now ∧ hit.now ≤ a + d)) none hits : ℚ) ≤ l.burst + l.rate * d) ∧
    (∀ before, before <+: hits → ∀ b ∈ l.redis.run none before,
      0 ≤ b.tokens ∧ b.tokens ≤ l.burst) ∧
    ∀ before hit, before ++ [hit] <+: hits →
      l.reply (l.redis.run none before) hit =
        l.reply (l.redis.run none (before.map Hit.kept)) hit.kept := by
  refine ⟨fun a d hd => ?_, fun before hbefore b hb => ?_, fun before hit hbefore => ?_⟩
  · exact (redis_metered l).count_window_le hd (by simp) h
  · have hkept := run_kept (l.redis.along_of_prefix hbefore h) b hb
    exact ⟨hkept.nonneg, hkept.le_burst⟩
  · have hvalid := (l.redis.along_snoc _ none before hit).1 (l.redis.along_of_prefix hbefore h)
    have hkey := run_kept hvalid.1
    rw [run_map_kept (by simp) hvalid.1, reply_kept_eq hkey hvalid.2]

/-- The limits of the integration test. -/
def twoPerSecond : Limiter :=
  ⟨2, 2, false, by decide, by decide⟩

/-- Three requests at once, a fourth after the expiry of the key. -/
def burstThenPause : List Hit :=
  [⟨0, false⟩, ⟨0, false⟩, ⟨0, false⟩, ⟨3, true⟩]

instance (l : Limiter) (key : Option Bucket) (hit : Hit) : Decidable (l.redis.allowed key hit) :=
  inferInstanceAs (Decidable (∀ b ∈ key, b.updated ≤ hit.now ∧
    (hit.dropped = true → b.expiresAt ≤ hit.now)))

theorem token_bucket_bound_twoPerSecond :
    (twoPerSecond.redis.countAlong (fun key hit => twoPerSecond.admits key hit &&
      decide (0 ≤ hit.now ∧ hit.now ≤ 0 + 3)) none burstThenPause : ℚ) ≤
        twoPerSecond.burst + twoPerSecond.rate * 3 :=
  (token_bucket_bound twoPerSecond burstThenPause (by decide +kernel)).1 0 3 (by decide +kernel)

/-! ## The wait of a rejected request -/

/-- A wait in which the missing tokens grow is enough. -/
theorem admits_of_wait {later : Hit} {w : ℚ} (hkey : ∀ b ∈ key, b.Kept l)
    (hhit : l.redis.allowed key hit) (hlater : l.redis.allowed (l.redis.next key hit) later)
    (hw : 1 - l.refill key hit.now ≤ w * l.rate) (hrejected : l.admits key hit = false)
    (hwait : hit.now + w ≤ later.now) :
    l.admits (l.redis.next key hit) later = true := by
  have htokens := script_tokens l key hit
  rw [hrejected, refill_read hkey hhit] at htokens
  have hwaited : w ≤ max 0 (later.now - hit.now) := le_max_of_le_right (by linarith)
  have hgrow := mul_le_mul_of_nonneg_right hwaited l.rate_pos'.le
  rw [admits_eq, refill_read (next_kept hkey hit) hlater, decide_eq_true_eq]
  refine le_min l.one_le_burst ?_
  simp only [Bool.toNat_false, Nat.cast_zero, add_zero] at htokens
  simp only [Limiter.redis, Option.map_some, Option.getD_some, script_updated, htokens]
  linarith

/-- `Allow` reads the reply of the script. -/
theorem result_eq (l : Limiter) (key : Option Bucket) (hit : Hit) :
    ∃ remaining, l.result key hit = .ok ⟨l.admits key hit, remaining,
      if l.admits key hit then 0
      else ⌈(1 - l.refill (hit.read key) hit.now) / l.rate * 1000⌉ * millisecond⟩ := by
  rw [admits_eq]
  unfold Limiter.result Limiter.reply
  rcases le_or_gt 1 (l.refill (hit.read key) hit.now) with h | h
  · rw [script_of_one_le h, decide_eq_true h]
    exact ⟨_, rfl⟩
  · rw [script_of_lt_one h, decide_eq_false h.not_ge]
    exact ⟨_, rfl⟩

/-- The seconds of a `Retry-After` header are at least one. -/
theorem one_le_of_retryAfter {result : Except String Result} {s : ℤ}
    (h : ("Retry-After", s) ∈ (l.middleware result).headers) :
    1 ≤ s ∧ ∃ r, result = .ok r ∧ r.allowed = false := by
  unfold Limiter.middleware at h
  split at h
  case h_1 => split at h <;> simp at h
  case h_2 r =>
    dsimp only at h
    split at h
    case isTrue => simp at h
    case isFalse hr =>
      simp at h
      refine ⟨?_, r, rfl, by simpa using hr⟩
      split at h <;> omega

/-- The middleware passes on what `Allow` admits. -/
theorem middleware_of_admits (h : l.admits key hit = true) :
    (l.middleware (l.result key hit)).error = none := by
  obtain ⟨remaining, hresult⟩ := result_eq l key hit
  rw [hresult, h]
  rfl

/-- A request made when the wait of a rejected one is over is admitted, whether the wait is the
one of the header or the duration `Allow` returns. -/
theorem retry_after_sufficient (l : Limiter) (hits : List Hit) (hit later : Hit)
    (h : l.redis.Valid none (hits ++ [hit, later])) :
    (∀ s : ℤ, ("Retry-After", s) ∈ (l.middleware (l.result (l.redis.run none hits) hit)).headers →
      hit.now + s ≤ later.now →
        (l.middleware (l.result (l.redis.run none (hits ++ [hit])) later)).error = none) ∧
    ∀ r, l.result (l.redis.run none hits) hit = .ok r → r.allowed = false →
      hit.now + r.retryAfter / second ≤ later.now →
        ∃ r', l.result (l.redis.run none (hits ++ [hit])) later = .ok r' ∧ r'.allowed = true := by
  obtain ⟨hbefore, hhit, hlater, -⟩ := (l.redis.along_append _ hits [hit, later] none).1 h
  have hkey := run_kept hbefore
  rw [Machine.run_snoc]
  generalize l.redis.run none hits = key at *
  have hread := refill_read hkey hhit
  have htokens := refill_nonneg hkey hit.now
  obtain ⟨remaining, hresult⟩ := result_eq l key hit
  refine ⟨fun s hs hwait => ?_, fun r hr hrejected hwait => ?_⟩
  · -- The header says at least one second, and a second refills at least one token.
    obtain ⟨hone, r, hr, hrejected⟩ := one_le_of_retryAfter hs
    obtain rfl := Except.ok.inj (hresult.symm.trans hr)
    have hsecond : (1 : ℚ) ≤ s := by exact_mod_cast hone
    have hgrow : (1 : ℚ) * 1 ≤ s * l.rate :=
      mul_le_mul hsecond l.one_le_rate zero_le_one (zero_le_one.trans hsecond)
    exact middleware_of_admits
      (admits_of_wait hkey hhit hlater (by linarith) hrejected hwait)
  · -- The duration is rounded up to milliseconds.
    obtain rfl := Except.ok.inj (hresult.symm.trans hr)
    obtain ⟨remaining', hresult'⟩ := result_eq l (l.redis.next key hit) later
    refine ⟨_, hresult', admits_of_wait hkey hhit hlater ?_ hrejected hwait⟩
    have hceil := Int.le_ceil ((1 - l.refill key hit.now) / l.rate * 1000)
    have hquot : (1 - l.refill key hit.now) / l.rate ≤
        ((⌈(1 - l.refill key hit.now) / l.rate * 1000⌉ : ℤ) : ℚ) / 1000 := by
      linarith
    have hdiv := (div_le_iff₀ l.rate_pos').1 hquot
    dsimp only at hrejected
    simp only [hrejected, hread, Bool.false_eq_true, if_false, millisecond, second]
    push_cast
    linarith

theorem retry_after_sufficient_twoPerSecond :
    (twoPerSecond.middleware (twoPerSecond.result
      (twoPerSecond.redis.run none ([⟨0, false⟩, ⟨0, false⟩] ++ [⟨0, false⟩]))
        ⟨1, false⟩)).error = none :=
  (retry_after_sufficient twoPerSecond [⟨0, false⟩, ⟨0, false⟩] ⟨0, false⟩ ⟨1, false⟩
    (by decide +kernel)).1 1 (by decide +kernel) (by decide +kernel)

end RateLimit

end RunMesh
