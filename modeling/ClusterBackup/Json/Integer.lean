import ClusterBackup.Json.Basic
import ClusterBackup.Numeric.Numeral
/-!
# Values as integers

The integer that a value is read as: a text as a numeral, and a number without its fraction.
-/

namespace ClusterBackup

inductive IntegerError where
  | numeral (e : NumeralError)
  | infinite
  | nan
  /-- A value of the given kind is neither a text nor a number. -/
  | unsuited (kind : String)
deriving DecidableEq

def IntegerError.message : IntegerError → String
  | numeral e => e.message
  | infinite => "cannot convert float infinity to integer"
  | nan => "cannot convert float NaN to integer"
  | unsuited kind =>
    "int() argument must be a string, a bytes-like object or a real number, not '" ++ kind ++ "'"

namespace Json

def kindName : Json → String
  | null => "NoneType"
  | bool _ => "bool"
  | int _ => "int"
  | float _ => "float"
  | str _ => "str"
  | arr _ => "list"
  | obj _ => "dict"

def toInteger : Json → Except IntegerError Int
  | str s => (Numeral.readInt s).mapError .numeral
  | bool b => .ok (if b then 1 else 0)
  | int n => .ok n
  | float .nan => .error .nan
  | float (.infinite _) => .error .infinite
  | float (.finite negative m e) => .ok (Binary64.signed negative (m * twoTo e / twoTo (-e)))
  | j => .error (.unsuited j.kindName)

end Json

end ClusterBackup
