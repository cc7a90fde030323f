import ClusterBackup.Bucket
import ClusterBackup.Json.Atom
import ClusterBackup.Table
import ClusterBackup.Text.Blank
import ClusterBackup.Text.Lowercase
/-!
# Storage profiles

A cluster offers storage under names. A profile is a template for a volume claim, a bucket, or of
a kind that no backup can be written to.
-/

namespace ClusterBackup

namespace Json

def elements? : Json → Option (List Json)
  | str s => some (s.toList.map fun c => str (String.singleton c))
  | arr items => some items
  | obj members => some (members.map fun m => str m.1)
  | _ => none

/-- Reads members written as pairs; the pairs before the first one left are counted. Names that
count as equal are one name, which keeps the form in which it came first. -/
def tableOfPairs (done : Table Atom Json) (index : Nat) :
    List Json → Except Malformed (Table Atom Json)
  | [] => .ok done
  | pair :: pairs =>
    match pair.elements? with
    | some [name, value] =>
      match Atom.ofJson? name with
      | some name => tableOfPairs (done.insert name value) (index + 1) pairs
      | none => .error .unsuited
    | some parts => .error (.noPair index parts.length)
    | none => .error .unsuited

/-- The members of an object, or those that a sequence of pairs stands for. -/
def members : Json → Except Malformed (List (String × Json))
  | obj members => .ok members
  | j => match j.elements? with
    | some pairs => (tableOfPairs .empty 0 pairs).map fun t =>
      t.entries.map fun e => (e.1.memberName, e.2)
    | none => .error .unsuited

end Json

inductive Profile where
  | filesystem (template : List (String × Json))
  | bucket (bucket : Bucket)
  | unknown (kind : String)
deriving DecidableEq

namespace Profile

def filesystemKind : String := "filesystem"

def bucketKind : String := "s3"

/-- The kind that a description gives, blanks at the ends and capitals apart. -/
def kindOf (type : Json) : String :=
  String.ofList (Text.small (Text.trim type.orBlank.text.toList))

def ofJson (raw : Json) : Except Malformed Profile := do
  let kind := kindOf (← raw.member "type")
  if kind = filesystemKind then
    let volume := (← raw.member "volume").orEmpty
    return filesystem (← (← volume.member "persistentVolumeClaim").orEmpty.members)
  else if kind = bucketKind then
    return bucket (← Bucket.ofJson (← raw.member "s3").orEmpty)
  else return unknown (if kind = "" then "<empty>" else kind)

end Profile

end ClusterBackup
