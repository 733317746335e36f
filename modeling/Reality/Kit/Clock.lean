import Mathlib.Data.Int.Order.Basic

/-!
# Clock readings

`time.Time` as an instant in nanoseconds since the Unix epoch and
`time.Duration` as a number of nanoseconds, both integers. Subtracting
two instants SATURATES at the ends of the 64-bit range, as
`time.Time.Sub` does, so the result can be compared with any configured
duration.
-/

namespace Kit

/-- The longest `time.Duration`. -/
def maxDuration : Int := 9223372036854775807

/-- The shortest (most negative) `time.Duration`. -/
def minDuration : Int := -9223372036854775808

def second : Int := 1000000000

def minute : Int := 60 * second

/-- The zero `time.Time`: January 1, year 1. -/
def zeroTime : Int := -62135596800 * second

/-- `t.Sub(u)`. -/
def timeSub (t u : Int) : Int :=
  max minDuration (min (t - u) maxDuration)

/-- `t.UnixNano()`, which wraps around outside the years 1678 to 2262. -/
def unixNano (t : Int) : Int := t.bmod 18446744073709551616

/-- `t.Unix()` -/
def unixSeconds (t : Int) : Int := t / second

/-- `d.Abs()`: the most negative duration maps to the most positive. -/
def durationAbs (d : Int) : Int :=
  if 0 ≤ d then d else if d = minDuration then maxDuration else -d

end Kit
