import ClusterBackup.Numeric.Number
/-!
# Times and delays

Times and delays are numbers of seconds. The controller runs on binary64 numbers, and a delay may
be given as an integer of any size; the rationals serve where exact times are wanted.
-/

namespace ClusterBackup

/-- Numbers that serve as times and delays in seconds. -/
class Seconds (τ : Type) extends Add τ, Sub τ, NatCast τ where
  lt : τ → τ → Bool
  same : τ → τ → Bool
  /-- Whether a delay is so long that it cannot be added to a time. -/
  isBeyondRange : τ → Bool
  /-- Five milliseconds doubled the given number of times, if such a power is in range. -/
  backoff? : Nat → Option τ

namespace Seconds

variable {τ : Type} [Seconds τ]

def zero : τ := ((0 : Nat) : τ)

def le (a b : τ) : Bool := lt a b || same a b

/-- The greater of two numbers; the first one unless the second is greater. -/
def longer (a b : τ) : τ := if lt a b then b else a

/-- The lesser of two numbers; the first one unless the second is less. -/
def shorter (a b : τ) : τ := if lt b a then b else a

def later? (now delay : τ) : Option τ := if isBeyondRange delay then none else some (now + delay)

end Seconds

/-- The power of two that a delay is multiplied with has to be a binary64 number itself. -/
instance : Seconds Binary64 where
  lt := Binary64.lt
  same := Binary64.same
  isBeyondRange _ := false
  backoff? doublings :=
    if doublings < 1024 then some (.ofDecimal false 5 (-3) * .ofNat (twoTo doublings)) else none

/-- Sums and differences are binary64 numbers. -/
instance : Seconds Number where
  add a b := .real (a.rounded + b.rounded)
  sub a b := .real (a.rounded - b.rounded)
  natCast n := .real n
  lt := Number.lt
  same := Number.same
  isBeyondRange := Number.isBeyondRange
  backoff? doublings := (Seconds.backoff? doublings).map .real

instance : Seconds Rat where
  lt a b := decide (a < b)
  same a b := decide (a = b)
  isBeyondRange _ := false
  backoff? doublings := some (mkRat (Int.ofNat (twoTo doublings)) 200)

end ClusterBackup
