/-!
Spans of time, to the nanosecond. Settings give them in milliseconds and messages show them in
milliseconds.
-/

namespace LogKv

/-- A span of time. -/
structure Duration where
  /-- Its length in nanoseconds. -/
  nanos : Nat
  deriving DecidableEq, Repr

namespace Duration

/-- The span of so many milliseconds. -/
def ofMillis (ms : Nat) : Duration := ⟨ms * 1000000⟩

/-- The span of so many seconds and nanoseconds. -/
def ofSecs (secs nanos : Nat) : Duration := ⟨secs * 1000000000 + nanos⟩

/-- The whole milliseconds in a span. -/
def millis (d : Duration) : Nat := d.nanos / 1000000

/-- The whole seconds in a span. -/
def secs (d : Duration) : Nat := d.nanos / 1000000000

/-- The nanoseconds past the last whole second. -/
def subsecNanos (d : Duration) : Nat := d.nanos % 1000000000

@[simp] theorem millis_ofMillis (ms : Nat) : (ofMillis ms).millis = ms := by
  simp [ofMillis, millis]

end Duration

end LogKv
