import GatewayAuth.Lib.Metering
import GatewayAuth.Classify

/-!
Scope-aware rate limiting: a budget of reads and a budget of writes, each keyed by principal
name. A budget of zero disables limiting for that scope.
-/

namespace GatewayAuth.Ratelimit

open GatewayAuth.Lib.Metering GatewayAuth.Classify

/-- A burst capacity, and the nanoseconds in which one cell is replenished. -/
structure Quota where
  maxBurst : ℕ
  replenish1Per : ℕ
  deriving DecidableEq

/-- The limiter crate: how it meters a key under a quota. -/
abbrev Governor (Cell : Type) := Quota → Meter Cell

variable {Cell : Type} (governor : Governor Cell)

structure KeyedLimiter (Cell : Type) where
  quota : Quota
  cells : String → Cell

structure RateLimiters (Cell : Type) where
  read : Option (KeyedLimiter Cell)
  write : Option (KeyedLimiter Cell)

/-- A per-minute budget as a quota: burst capacity `n`, fully replenished once per minute. -/
def quotaOf (perMinute : ℕ) : Option Quota :=
  if perMinute = 0 then none else some ⟨perMinute, 60000000000 / perMinute⟩

def build (perMinute : ℕ) : Option (KeyedLimiter Cell) :=
  (quotaOf perMinute).map fun quota => ⟨quota, fun _ => (governor quota).fresh⟩

/-- Build read/write limiters from per-minute budgets. -/
def RateLimiters.new (readPerMinute writePerMinute : ℕ) : RateLimiters Cell :=
  ⟨build governor readPerMinute, build governor writePerMinute⟩

def RateLimiters.limiter (l : RateLimiters Cell) : Scope → Option (KeyedLimiter Cell)
  | .read => l.read
  | .write => l.write

def RateLimiters.withLimiter (l : RateLimiters Cell) (k : KeyedLimiter Cell) :
    Scope → RateLimiters Cell
  | .read => { l with read := some k }
  | .write => { l with write := some k }

/-- Whether a request of `scope` from `key` is allowed, and the limiters with one cell
consumed if it is. -/
def RateLimiters.check (l : RateLimiters Cell) (now : ℕ) (scope : Scope) (key : String) :
    Bool × RateLimiters Cell :=
  match l.limiter scope with
  | some k =>
    let (ok, cells) := checkKey (governor k.quota) k.cells now key
    (ok, l.withLimiter { k with cells := cells } scope)
  | none => (true, l)

/-! ### What a check reads and writes -/

@[simp] lemma limiter_withLimiter (l : RateLimiters Cell) (k : KeyedLimiter Cell) (s : Scope) :
    (l.withLimiter k s).limiter s = some k := by cases s <;> rfl

lemma limiter_withLimiter_of_ne (l : RateLimiters Cell) (k : KeyedLimiter Cell) {s t : Scope}
    (h : t ≠ s) : (l.withLimiter k s).limiter t = l.limiter t := by
  cases s <;> cases t <;> first | rfl | exact absurd rfl h

lemma limiter_new (r w : ℕ) (s : Scope) :
    (RateLimiters.new governor r w).limiter s =
      build governor (match s with | .read => r | .write => w) := by
  cases s <;> rfl

variable {governor}

lemma check_limited {l : RateLimiters Cell} {k : KeyedLimiter Cell} {s : Scope}
    (h : l.limiter s = some k) (now : ℕ) (key : String) :
    l.check governor now s key = (((governor k.quota).check now (k.cells key)).1,
      l.withLimiter ⟨k.quota, (checkKey (governor k.quota) k.cells now key).2⟩ s) := by
  unfold RateLimiters.check
  rw [h]
  rfl

lemma check_unlimited {l : RateLimiters Cell} {s : Scope} (h : l.limiter s = none) (now : ℕ)
    (key : String) : l.check governor now s key = (true, l) := by
  unfold RateLimiters.check
  rw [h]

/-- A check keeps the quotas. -/
lemma check_quota (l : RateLimiters Cell) (now : ℕ) (s s' : Scope) (key : String) :
    ((l.check governor now s key).2.limiter s').map KeyedLimiter.quota =
      (l.limiter s').map KeyedLimiter.quota := by
  rcases hl : l.limiter s with _ | k
  · rw [check_unlimited hl]
  · rw [check_limited hl]
    by_cases hs : s' = s
    · subst hs; simp [hl]
    · rw [limiter_withLimiter_of_ne _ _ hs]

end GatewayAuth.Ratelimit
