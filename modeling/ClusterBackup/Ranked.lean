import ClusterBackup.Table
/-!
# Ranked keys

An order for sorting that may leave pairs of keys without an order. The entries of a table can be
sorted if there is an order between any two of its keys.
-/

namespace ClusterBackup

/-- An order for sorting, which may leave pairs without an order. -/
class Ranked (α : Type) where
  /-- Whether the first key comes before the second, if there is an order between them. -/
  before? : α → α → Option Bool

def Ranked.areOrdered {α : Type} [Ranked α] (keys : List α) : Bool :=
  keys.all fun k => keys.all fun l => (before? k l).isSome

def Table.sorted? {κ ν : Type} [BEq κ] [Ranked κ] (t : Table κ ν) : Option (List (κ × ν)) :=
  if Ranked.areOrdered t.keys then
    some (t.entries.mergeSort fun a b => Ranked.before? b.1 a.1 != some true)
  else none

end ClusterBackup
