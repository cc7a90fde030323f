/-!
# Sets of characters as ranges

A property of characters is a list of closed ranges of code points, ascending and apart.
-/

namespace ClusterBackup.Text

abbrev Ranges := List (Nat × Nat)

def Ranges.has (ranges : Ranges) (c : Char) : Bool :=
  ranges.any fun r => r.1 ≤ c.toNat && c.toNat ≤ r.2

end ClusterBackup.Text
