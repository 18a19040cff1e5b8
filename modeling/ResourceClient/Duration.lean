namespace ResourceClient

structure Duration where
  nanos : Nat
  deriving DecidableEq, Inhabited, Repr

namespace Duration

def nanosPerMilli : Nat := 1000000

def nanosPerSecond : Nat := 1000 * nanosPerMilli

def longest : Duration := ⟨UInt64.size * nanosPerSecond - 1⟩

def ofMillis (n : Nat) : Duration := ⟨n * nanosPerMilli⟩

def double (d : Duration) : Duration := ⟨min (2 * d.nanos) longest.nanos⟩

def seconds (d : Duration) : Nat := d.nanos / nanosPerSecond

def subsecNanos (d : Duration) : Nat := d.nanos % nanosPerSecond

theorem nanos_double_le (d : Duration) : d.double.nanos ≤ longest.nanos := Nat.min_le_right _ _

theorem nanos_double_of_le {d : Duration} (h : 2 * d.nanos ≤ longest.nanos) :
    d.double.nanos = 2 * d.nanos := Nat.min_eq_left h

end Duration

end ResourceClient
