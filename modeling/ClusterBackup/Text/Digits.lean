/-!
# Digits in fixed places

A number written in a set number of digits, and read back from one.
-/

namespace ClusterBackup.Text

def digitChar (n : Nat) : Char :=
  if n < 10 then Char.ofNat (48 + n) else Char.ofNat (87 + n)

/-- The lowest digits of a number in a base, highest first. -/
def inPlaces (base : Nat) : (places : Nat) → Nat → List Char
  | 0, _ => []
  | places + 1, n => inPlaces base places (n / base) ++ [digitChar (n % base)]

@[simp] theorem length_inPlaces (base places n : Nat) :
    (inPlaces base places n).length = places := by
  induction places generalizing n with
  | zero => rfl
  | succ places ih => simp [inPlaces, ih]

def decimalValue (cs : List Char) : Nat :=
  cs.foldl (fun n c => 10 * n + (c.toNat - 48)) 0

def readPlaces? (places : Nat) (cs : List Char) : Option (Nat × List Char) :=
  let front := cs.take places
  if front.length = places && front.all Char.isDigit then
    some (decimalValue front, cs.drop places)
  else none

end ClusterBackup.Text
