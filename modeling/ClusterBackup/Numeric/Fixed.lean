import ClusterBackup.Numeric.Binary64
/-!
# Six decimal places

Times and delays are written with six places after the point: the exact value rounded to the
nearest millionth, a tie going to the even one. A sign is kept even where only zeros remain.
-/

namespace ClusterBackup.Binary64

def millionths (n : Nat) : String :=
  let digits := (toString n).toList
  let padded := List.replicate (7 - digits.length) '0' ++ digits
  let whole := padded.length - 6
  String.ofList (padded.take whole ++ '.' :: padded.drop whole)

def sixPlaces : Binary64 → String
  | nan => "nan"
  | infinite negative => if negative then "-inf" else "inf"
  | finite negative m e =>
    (if negative then "-" else "") ++
      millionths (roundDiv (m * 1000000 * twoTo e) (twoTo (-e)))

example : (ofDecimal false 1 (-1)).sixPlaces = "0.100000" := by decide +kernel

end ClusterBackup.Binary64
