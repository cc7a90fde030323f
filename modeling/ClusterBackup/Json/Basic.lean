import ClusterBackup.Numeric.Number
/-!
# Values of the API

The objects of the API are trees of JSON. Integers and floating-point numbers are kept apart, and
an object keeps its members in the order in which they came. A field may hold a value of any
kind: it is carried along as it is, and only an operation that the kind does not support fails.
-/

namespace ClusterBackup

inductive Json where
  | null
  | bool (b : Bool)
  | int (n : Int)
  | float (x : Binary64)
  | str (s : String)
  | arr (items : List Json)
  | obj (members : List (String × Json))
deriving Repr, Inhabited

inductive Malformed where
  /-- Members are wanted of a value that is no object. -/
  | noMembers
  /-- The kind of the value does not support the operation. -/
  | unsuited
  /-- A member is written as a sequence that is no pair. -/
  | noPair (index length : Nat)
deriving DecidableEq, Repr

def Malformed.message? : Malformed → Option String
  | noMembers => none
  | unsuited => none
  | noPair index length =>
    some ("dictionary update sequence element #" ++ toString index ++ " has length " ++
      toString length ++ "; 2 is required")

namespace Json

/-- Whether a value counts as given: null, false, zero and everything empty do not. -/
def given : Json → Bool
  | null => false
  | bool b => b
  | int n => n != 0
  | float x => !x.isZero
  | str s => s != ""
  | arr items => !items.isEmpty
  | obj members => !members.isEmpty

def orElse (j : Json) (other : Json) : Json := if j.given then j else other

def orBlank (j : Json) : Json := j.orElse (str "")

def orEmpty (j : Json) : Json := j.orElse (obj [])

/-- The member of an object under a name, null where there is none. -/
def member (j : Json) (name : String) : Except Malformed Json :=
  match j with
  | obj members => .ok ((members.lookup name).getD null)
  | _ => .error .noMembers

/-- Puts a member into a list of members: in its old place if the name is there, else at the
end. -/
def putMember (name : String) (value : Json) : List (String × Json) → List (String × Json)
  | [] => [(name, value)]
  | m :: ms => if m.1 = name then (name, value) :: ms else m :: putMember name value ms

def isNull : Json → Bool
  | null => true
  | _ => false

/-- Whether a value can name something: containers cannot. -/
def isAtom : Json → Bool
  | arr _ => false
  | obj _ => false
  | _ => true

/-- The number that a value is, if it is one. True counts as one and false as zero. -/
def number? : Json → Option Number
  | bool b => some (.whole (if b then 1 else 0))
  | int n => some (.whole n)
  | float x => some (.real x)
  | _ => none

@[simp] theorem given_str (s : String) : (str s).given = (s != "") := rfl

@[simp] theorem given_null : null.given = false := rfl

@[simp] theorem member_obj (members : List (String × Json)) (name : String) :
    (obj members).member name = .ok ((members.lookup name).getD null) := rfl

end Json

end ClusterBackup
