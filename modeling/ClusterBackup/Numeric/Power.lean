/-!
# Powers of two and of ten

Powers with an integer exponent as far as they are whole. A quotient by a power is written with
the power of the opposite exponent on its other side.
-/

namespace ClusterBackup

def twoTo (e : Int) : Nat := Nat.pow 2 e.toNat

def tenTo (e : Int) : Nat := Nat.pow 10 e.toNat

theorem twoTo_pos (e : Int) : 0 < twoTo e := Nat.pow_pos (by decide)

end ClusterBackup
