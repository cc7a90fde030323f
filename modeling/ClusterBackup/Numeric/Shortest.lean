import ClusterBackup.Numeric.Binary64
/-!
# Shortest decimals

A number is written with the fewest decimal digits that read back to it, and of two such decimals
with the nearer one; a tie goes to the even digit. The decimals that read back to a number are
those between the halfway points to its neighbours, the points themselves included when the
mantissa is even.
-/

namespace ClusterBackup

/-- A decimal number, `digits * 10 ^ exponent`. -/
structure Decimal where
  digits : Nat
  exponent : Int
deriving DecidableEq, Repr

namespace Decimal

def compareScaled (d : Decimal) (n : Nat) (e : Int) : Ordering :=
  compare (d.digits * tenTo d.exponent * twoTo (-e)) (n * twoTo e * tenTo (-d.exponent))

/-- Whether the decimal rounds to the binary64 number `m * 2 ^ e`. The neighbour below a power of
two is only half as far away. -/
def readsBack (d : Decimal) (m : Nat) (e : Int) : Bool :=
  let below := if m = twoTo 52 ∧ e > -1074 then 4 * m - 1 else 4 * m - 2
  let low := d.compareScaled below (e - 2)
  let high := d.compareScaled (4 * m + 2) (e - 2)
  let even := m % 2 == 0
  (low == .gt || (even && low == .eq)) && (high == .lt || (even && high == .eq))

def stripped : (fuel : Nat) → Decimal → Decimal
  | 0, d => d
  | fuel + 1, d =>
    if d.digits ≠ 0 ∧ d.digits % 10 = 0 then stripped fuel ⟨d.digits / 10, d.exponent + 1⟩ else d

def quotientOnGrid (m : Nat) (e x : Int) : Nat :=
  m * twoTo e * tenTo (-x) / (twoTo (-e) * tenTo x)

/-- The decimal with unit `10 ^ x` that reads back to `m * 2 ^ e`, if there is one. -/
def onGrid (m : Nat) (e x : Int) : Option Decimal :=
  let q := quotientOnGrid m e x
  let lower : Decimal := ⟨q, x⟩
  let upper : Decimal := ⟨q + 1, x⟩
  match lower.readsBack m e, upper.readsBack m e with
  | false, false => none
  | true, false => some lower
  | false, true => some upper
  | true, true =>
    match (Decimal.mk (2 * q + 1) x).compareScaled (2 * m) e with
    | .gt => some lower
    | .lt => some upper
    | .eq => some (if q % 2 = 0 then lower else upper)

/-- An exponent of ten that `m * 2 ^ e` does not reach, and is within a factor of a hundred of. -/
def scaleOf (m : Nat) (e : Int) : Int :=
  let x := Int.fdiv (((m.log2 : Int) + e) * 30103) 100000 + 1
  if (Decimal.mk 1 x).compareScaled m e == .gt then x else x + 1

def shortest (m : Nat) (e : Int) : Decimal :=
  let x := scaleOf m e
  let found := (List.range 18).findSome? fun (n : Nat) => onGrid m e (x - 1 - n)
  let exact : Decimal := ⟨m * twoTo e * Nat.pow 5 (-e).toNat, min e 0⟩
  stripped 400 (found.getD exact)

end Decimal

/-- How a decimal is laid out: where positional notation ends on either side, by the exponent of
the leading digit. -/
structure Layout where
  plainFrom : Int
  plainBelow : Int

namespace Layout

/-- The text of a decimal. Positional notation always has a digit after the point; otherwise the
exponent has a sign and at least two digits. -/
def render (layout : Layout) (d : Decimal) : String :=
  let digits := (toString d.digits).toList
  let lead : Int := d.exponent + digits.length - 1
  if layout.plainFrom ≤ lead ∧ lead < layout.plainBelow then
    if lead < 0 then
      String.ofList ('0' :: '.' :: List.replicate (-lead - 1).toNat '0' ++ digits)
    else if digits.length ≤ lead.toNat + 1 then
      String.ofList (digits ++ List.replicate (lead.toNat + 1 - digits.length) '0' ++ ['.', '0'])
    else
      String.ofList (digits.take (lead.toNat + 1) ++ '.' :: digits.drop (lead.toNat + 1))
  else
    let point := match digits with
      | [d] => [d]
      | d :: ds => d :: '.' :: ds
      | [] => []
    let exponent := (toString lead.natAbs).toList
    String.ofList (point ++ 'e' :: (if lead < 0 then '-' else '+') ::
      (List.replicate (2 - exponent.length) '0' ++ exponent))

end Layout

/-- Numbers in messages are positional from a ten-thousandth up to below ten to the sixteenth. -/
def Binary64.layout : Layout := ⟨-4, 16⟩

def Binary64.shortestText : Binary64 → String
  | nan => "nan"
  | infinite negative => if negative then "-inf" else "inf"
  | finite negative m e =>
    (if negative then "-" else "") ++
      if m = 0 then "0.0" else layout.render (Decimal.shortest m e)

def Binary64.wireText : Binary64 → String
  | nan => "NaN"
  | infinite negative => if negative then "-Infinity" else "Infinity"
  | x => x.shortestText

example : (Binary64.ofDecimal false 30000000000000004 (-17)).shortestText =
    "0.30000000000000004" := by decide +kernel

end ClusterBackup
