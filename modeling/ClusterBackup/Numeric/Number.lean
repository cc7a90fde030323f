import ClusterBackup.Numeric.Binary64
/-!
# Numbers

A number is an integer of any size or a binary64 number. Numbers are compared by what they exactly
stand for: the integer `10 ^ 23` is another quantity than the binary64 number nearest to it.
-/

namespace ClusterBackup

inductive Quantity where
  | nan
  | infinite (negative : Bool)
  | finite (value : Rat)
deriving DecidableEq

/-- Whether the first quantity is less than the second. Nothing is less than a NaN, nor greater. -/
def Quantity.lt : Quantity → Quantity → Bool
  | nan, _ => false
  | _, nan => false
  | infinite s, infinite t => s && !t
  | infinite s, finite _ => s
  | finite _, infinite t => !t
  | finite a, finite b => decide (a < b)

namespace Binary64

def quantity : Binary64 → Quantity
  | nan => .nan
  | infinite negative => .infinite negative
  | finite negative m e => .finite (mkRat (signed negative m * twoTo e) (twoTo (-e)))

end Binary64

/-- A number: an integer of any size, or a binary64 number. -/
inductive Number where
  | whole (n : Int)
  | real (x : Binary64)
deriving DecidableEq

namespace Number

def quantity : Number → Quantity
  | whole n => .finite n
  | real x => x.quantity

def rounded : Number → Binary64
  | whole n => .ofInt n
  | real x => x

def isBeyondRange : Number → Bool
  | whole n =>
    match Binary64.ofInt n with
    | .infinite _ => true
    | _ => false
  | real _ => false

def lt (a b : Number) : Bool := a.quantity.lt b.quantity

/-- Whether two numbers are equal in value. A NaN equals nothing. -/
def same (a b : Number) : Bool := a.quantity == b.quantity && a.quantity != .nan

end Number

end ClusterBackup
