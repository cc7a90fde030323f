import ClusterBackup.Json.Basic
import ClusterBackup.Numeric.Numeral
import ClusterBackup.Numeric.Shortest
/-!
# Values on the wire

The text in which a value travels. A number with a point or an exponent is a floating-point
number, any other one an integer, and the floating-point numbers that have no digits go by name; of
two members of one name the later one counts.
-/

namespace ClusterBackup.Json

/-! ### Reading -/

def skipSpace (cs : List Char) : List Char :=
  cs.dropWhile fun c => c == ' ' || c == '\n' || c == '\r' || c == '\t'

def hexValue? (c : Char) : Option Nat :=
  if c.isDigit then some (c.toNat - 48)
  else if 'a' ≤ c ∧ c ≤ 'f' then some (c.toNat - 87)
  else if 'A' ≤ c ∧ c ≤ 'F' then some (c.toNat - 55)
  else none

def escaped? : Char → Option Char
  | '"' => some '"'
  | '\\' => some '\\'
  | '/' => some '/'
  | 'b' => some '\x08'
  | 'f' => some '\x0c'
  | 'n' => some '\n'
  | 'r' => some '\r'
  | 't' => some '\t'
  | _ => none

/-- Reads what follows an opening quote, as code points or halves of them, up to the closing
quote. -/
def readUnits? : List Char → Option (List Nat × List Char)
  | [] => none
  | '"' :: rest => some ([], rest)
  | '\\' :: 'u' :: a :: b :: c :: d :: rest => do
    let high := (← hexValue? a) * 16 + (← hexValue? b)
    let low := (← hexValue? c) * 16 + (← hexValue? d)
    let (units, rest) ← readUnits? rest
    return ((high * 256 + low) :: units, rest)
  | '\\' :: c :: rest => do
    let c ← escaped? c
    let (units, rest) ← readUnits? rest
    return (c.toNat :: units, rest)
  | c :: rest => do
    let (units, rest) ← readUnits? rest
    return (c.toNat :: units, rest)

def joinUnits : List Nat → List Char
  | [] => []
  | [n] => [Char.ofNat n]
  | h :: l :: rest =>
    if 0xD800 ≤ h ∧ h < 0xDC00 ∧ 0xDC00 ≤ l ∧ l < 0xE000 then
      Char.ofNat (0x10000 + (h - 0xD800) * 0x400 + (l - 0xDC00)) :: joinUnits rest
    else Char.ofNat h :: joinUnits (l :: rest)

def readText? (cs : List Char) : Option (String × List Char) :=
  (readUnits? cs).map fun r => (String.ofList (joinUnits r.1), r.2)

def inNumber (c : Char) : Bool :=
  c.isDigit || c == '-' || c == '+' || c == '.' || c == 'e' || c == 'E'

def numberOf? (token : List Char) : Option Json :=
  let (negative, digits) := match token with
    | '-' :: digits => (true, digits)
    | digits => (false, digits)
  if digits.isEmpty then none
  else if digits.all Char.isDigit then
    let n : Int := Text.decimalValue digits
    some (int (if negative then -n else n))
  else (Numeral.readDecimal digits).map fun r => float (.ofDecimal negative r.1 r.2)

mutual

/-- Reads a value. The fuel bounds the number of steps; a text never needs more than its
length. -/
def readValue? : (fuel : Nat) → List Char → Option (Json × List Char)
  | 0, _ => none
  | fuel + 1, cs =>
    match skipSpace cs with
    | 'n' :: 'u' :: 'l' :: 'l' :: rest => some (null, rest)
    | 't' :: 'r' :: 'u' :: 'e' :: rest => some (bool true, rest)
    | 'f' :: 'a' :: 'l' :: 's' :: 'e' :: rest => some (bool false, rest)
    | 'N' :: 'a' :: 'N' :: rest => some (float .nan, rest)
    | 'I' :: 'n' :: 'f' :: 'i' :: 'n' :: 'i' :: 't' :: 'y' :: rest =>
      some (float (.infinite false), rest)
    | '-' :: 'I' :: 'n' :: 'f' :: 'i' :: 'n' :: 'i' :: 't' :: 'y' :: rest =>
      some (float (.infinite true), rest)
    | '"' :: rest => (readText? rest).map fun r => (str r.1, r.2)
    | '[' :: rest =>
      match skipSpace rest with
      | ']' :: rest => some (arr [], rest)
      | rest => (readItems? fuel rest).map fun r => (arr r.1, r.2)
    | '\x7b' :: rest =>
      match skipSpace rest with
      | '\x7d' :: rest => some (obj [], rest)
      | rest => (readMembers? fuel [] rest).map fun r => (obj r.1, r.2)
    | rest => (numberOf? (rest.takeWhile inNumber)).map fun n => (n, rest.dropWhile inNumber)

def readItems? : (fuel : Nat) → List Char → Option (List Json × List Char)
  | 0, _ => none
  | fuel + 1, cs => do
    let (item, rest) ← readValue? fuel cs
    match skipSpace rest with
    | ',' :: rest =>
      let (items, rest) ← readItems? fuel rest
      return (item :: items, rest)
    | ']' :: rest => return ([item], rest)
    | _ => none

def readMembers? : (fuel : Nat) → (done : List (String × Json)) → List Char →
    Option (List (String × Json) × List Char)
  | 0, _, _ => none
  | fuel + 1, done, cs => do
    let '"' :: rest := skipSpace cs | none
    let (name, rest) ← readText? rest
    let ':' :: rest := skipSpace rest | none
    let (value, rest) ← readValue? fuel rest
    let done := putMember name value done
    match skipSpace rest with
    | ',' :: rest => readMembers? fuel done rest
    | '\x7d' :: rest => return (done, rest)
    | _ => none

end

def ofWire? (text : String) : Option Json :=
  let cs := text.toList
  match readValue? (cs.length + 1) cs with
  | some (value, rest) => if (skipSpace rest).isEmpty then some value else none
  | none => none

/-! ### Writing -/

def wireChar (c : Char) : List Char :=
  if c = '"' ∨ c = '\\' then ['\\', c]
  else if c.toNat < 32 then '\\' :: 'u' :: Text.inPlaces 16 4 c.toNat
  else [c]

def wireText (s : String) : String :=
  String.ofList ('"' :: s.toList.flatMap wireChar ++ ['"'])

mutual

def toWire : Json → String
  | null => "null"
  | bool b => if b then "true" else "false"
  | int n => toString n
  | float x => x.wireText
  | str s => wireText s
  | arr items => "[" ++ String.intercalate "," (wireItems items) ++ "]"
  | obj members => "\x7b" ++ String.intercalate "," (wireMembers members) ++ "\x7d"

def wireItems : List Json → List String
  | [] => []
  | a :: rest => toWire a :: wireItems rest

def wireMembers : List (String × Json) → List String
  | [] => []
  | (k, a) :: rest => (wireText k ++ ":" ++ toWire a) :: wireMembers rest

end

end ClusterBackup.Json
