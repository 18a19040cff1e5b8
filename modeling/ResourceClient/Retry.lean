import ResourceClient.Config

namespace ResourceClient

structure RetryPolicy where
  /-- The first attempt counts. -/
  maxAttempts : Nat := 5
  initialBackoff : Duration := .ofMillis 250
  /-- Share of the wait by which it may be off. -/
  jitter : Binary64 := ⟨0x3FD0000000000000⟩
  deriving DecidableEq, Inhabited, Repr

def Config.retryPolicy (c : Config) : RetryPolicy :=
  { maxAttempts := c.noForkMaxAttempts
    initialBackoff := .ofMillis c.noForkBackoffMs
    jitter := c.noForkJitter }

inductive Wait where
  | exactly (length : Duration)
  | around (length : Duration) (jitter : Binary64)
  deriving DecidableEq, Inhabited, Repr

def RetryPolicy.wait (p : RetryPolicy) (length : Duration) : Wait :=
  if p.jitter.isPositive then .around length p.jitter else .exactly length

structure RetryState where
  policy : RetryPolicy
  attempts : Nat := 0
  backoff : Duration
  deriving DecidableEq, Inhabited, Repr

namespace RetryState

def start (policy : RetryPolicy) : RetryState := { policy, backoff := policy.initialBackoff }

def recordAttempt (s : RetryState) : RetryState := { s with attempts := s.attempts + 1 }

/-- The wait before the next attempt, or `none` once the budget is spent. -/
def onConflict (s : RetryState) : Option Wait × RetryState :=
  if s.policy.maxAttempts ≤ s.attempts then (none, s)
  else (some (s.policy.wait s.backoff), { s with backoff := s.backoff.double })

def reset (s : RetryState) : RetryState := start s.policy

theorem onConflict_eq_none_iff (s : RetryState) :
    s.onConflict.1 = none ↔ s.policy.maxAttempts ≤ s.attempts := by
  unfold onConflict
  split <;> simp_all

end RetryState

end ResourceClient
