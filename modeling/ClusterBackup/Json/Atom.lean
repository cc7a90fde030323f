import ClusterBackup.Json.Equality
import ClusterBackup.Json.Text
/-!
# Atoms

The values that can name something: all but lists and objects. Two atoms name the same thing if
they stand for the same thing: a number names the same as every number of its value. Texts are
ordered by code points and numbers by value; between other atoms no order is defined.
-/

namespace ClusterBackup

/-- A value that can name something. -/
inductive Atom where
  | null
  | bool (b : Bool)
  | int (n : Int)
  | float (x : Binary64)
  | text (s : String)

namespace Atom

def toJson : Atom → Json
  | null => .null
  | bool b => .bool b
  | int n => .int n
  | float x => .float x
  | text s => .str s

def ofJson? : Json → Option Atom
  | .null => some null
  | .bool b => some (bool b)
  | .int n => some (int n)
  | .float x => some (float x)
  | .str s => some (text s)
  | .arr _ => none
  | .obj _ => none

instance : Coe Atom Json := ⟨toJson⟩

inductive Meaning where
  | nothing
  | quantity (q : Quantity)
  | text (s : String)
deriving DecidableEq

def meaning : Atom → Meaning
  | null => .nothing
  | bool b => .quantity (Number.whole (if b then 1 else 0)).quantity
  | int n => .quantity (Number.whole n).quantity
  | float x => .quantity (Number.real x).quantity
  | text s => .text s

/-- Atoms count as equal if they stand for the same thing. -/
instance : BEq Atom := ⟨fun a b => a.meaning == b.meaning⟩

theorem beq_def (a b : Atom) : (a == b) = (a.meaning == b.meaning) := rfl

instance : EquivBEq Atom where
  rfl {a} := by rw [beq_def]; exact beq_self_eq_true _
  symm {a b} h := by rw [beq_def] at *; exact BEq.symm h
  trans {a b c} h k := by rw [beq_def] at *; exact BEq.trans h k

def before? (a b : Atom) : Option Bool :=
  match a.meaning, b.meaning with
  | .text s, .text t => some (decide (s < t))
  | .quantity p, .quantity q => some (p.lt q)
  | _, _ => none

def memberName : Atom → String
  | null => "null"
  | bool b => if b then "true" else "false"
  | int n => toString n
  | float x => x.wireText
  | text s => s

@[simp] theorem ofJson?_toJson (a : Atom) : ofJson? a.toJson = some a := by
  cases a <;> rfl

theorem beq_eq_same (a b : Atom) : (a == b) = a.toJson.same b.toJson := by
  rw [beq_def, Bool.eq_iff_iff]
  cases a <;> cases b <;>
    simp [meaning, toJson, Json.same, Json.sameNumber, Json.quantity?, Json.number?, Json.isNull]

@[simp] theorem text_beq_text (s t : String) : (text s == text t) = (s == t) := by
  simp [beq_eq_same, toJson]

@[simp] theorem before?_text (s t : String) : (text s).before? (text t) = some (decide (s < t)) :=
  rfl

end Atom

end ClusterBackup
