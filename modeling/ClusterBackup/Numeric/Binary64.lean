import ClusterBackup.Numeric.Power
/-!
# Binary64 numbers

Floating-point numbers of the binary64 format by their exact values. A sum or a product is the
exact result rounded once, to the nearest number of the format and on a tie to the even one.
-/

namespace ClusterBackup

/-- A number of the binary64 format. The finite ones are `mantissa * 2 ^ exponent`, with a sign
that zero keeps too. -/
inductive Binary64 where
  | nan
  | infinite (negative : Bool)
  | finite (negative : Bool) (mantissa : Nat) (exponent : Int)
deriving DecidableEq, Repr

/-- The quotient of two naturals rounded to the nearest one, a tie going to the even neighbour. -/
def roundDiv (num den : Nat) : Nat :=
  if 2 * (num % den) < den then num / den
  else if den < 2 * (num % den) then num / den + 1
  else num / den + num / den % 2

namespace Binary64

def zeroOf (negative : Bool) : Binary64 := finite negative 0 (-1074)

def zero : Binary64 := zeroOf false

/-- The greatest exponent `e` for which the quotient holds `2 ^ 52` units of `2 ^ e`. -/
def unitExponent (num den : Nat) : Int :=
  let e : Int := (num.log2 : Int) - den.log2 - 52
  if num * twoTo (-e) < den * twoTo e * twoTo 52 then e - 1 else e

/-- The number of the format nearest to a quotient of naturals, with the sign given. -/
def ofRatio (negative : Bool) (num den : Nat) : Binary64 :=
  if num = 0 then zeroOf negative
  else
    let e := max (unitExponent num den) (-1074)
    let m := roundDiv (num * twoTo (-e)) (den * twoTo e)
    if m < twoTo 53 then
      if e ≤ 971 then finite negative m e else infinite negative
    else
      if e < 971 then finite negative (twoTo 52) (e + 1) else infinite negative

/-- The number nearest to `n * 2 ^ e`; an exact zero takes the sign given. -/
def ofScaled (zeroNegative : Bool) (n : Int) (e : Int) : Binary64 :=
  let negative := if n = 0 then zeroNegative else decide (n < 0)
  ofRatio negative (n.natAbs * twoTo e) (twoTo (-e))

def ofInt (n : Int) : Binary64 := ofScaled false n 0

def ofNat (n : Nat) : Binary64 := ofInt n

/-- The number nearest to `m * 10 ^ e`. Powers of ten that are out of reach of the format are not
computed: three binary digits are less than one decimal digit. -/
def ofDecimal (negative : Bool) (m : Nat) (e : Int) : Binary64 :=
  if m = 0 then zeroOf negative
  else if e > 400 then infinite negative
  else if (m.log2 : Int) + 1 + 3 * e < -1100 then zeroOf negative
  else ofRatio negative (m * tenTo e) (tenTo (-e))

def signed (negative : Bool) (m : Nat) : Int := if negative then -(m : Int) else m

/-- The mantissas of two numbers brought to the lesser of their exponents. -/
def aligned (m₁ : Int) (e₁ : Int) (m₂ : Int) (e₂ : Int) : Int × Int :=
  (m₁ * twoTo (e₁ - e₂), m₂ * twoTo (e₂ - e₁))

def neg : Binary64 → Binary64
  | nan => nan
  | infinite s => infinite !s
  | finite s m e => finite (!s) m e

def add : Binary64 → Binary64 → Binary64
  | nan, _ => nan
  | _, nan => nan
  | infinite s, infinite t => if s = t then infinite s else nan
  | infinite s, finite .. => infinite s
  | finite .., infinite t => infinite t
  | finite s m e, finite t n f =>
    let p := aligned (signed s m) e (signed t n) f
    ofScaled (s && t) (p.1 + p.2) (min e f)

def sub (x y : Binary64) : Binary64 := x.add y.neg

def mul : Binary64 → Binary64 → Binary64
  | nan, _ => nan
  | _, nan => nan
  | infinite s, infinite t => infinite (s != t)
  | infinite s, finite t n _ => if n = 0 then nan else infinite (s != t)
  | finite s m _, infinite t => if m = 0 then nan else infinite (s != t)
  | finite s m e, finite t n f => ofScaled (s != t) (signed s m * signed t n) (e + f)

/-- Whether the first number is less than the second. Nothing is less than a NaN, nor greater. -/
def lt : Binary64 → Binary64 → Bool
  | nan, _ => false
  | _, nan => false
  | infinite s, infinite t => s && !t
  | infinite s, finite .. => s
  | finite .., infinite t => !t
  | finite s m e, finite t n f =>
    let p := aligned (signed s m) e (signed t n) f
    p.1 < p.2

/-- Whether two numbers are equal in value. A NaN equals nothing. -/
def same : Binary64 → Binary64 → Bool
  | nan, _ => false
  | _, nan => false
  | infinite s, infinite t => s == t
  | infinite _, finite .. => false
  | finite .., infinite _ => false
  | finite s m e, finite t n f =>
    let p := aligned (signed s m) e (signed t n) f
    p.1 == p.2

def le (x y : Binary64) : Bool := x.lt y || x.same y

def isZero : Binary64 → Bool
  | finite _ m _ => m == 0
  | _ => false

instance : Add Binary64 := ⟨add⟩
instance : Sub Binary64 := ⟨sub⟩
instance : Mul Binary64 := ⟨mul⟩
instance : NatCast Binary64 := ⟨ofNat⟩

end Binary64

end ClusterBackup
