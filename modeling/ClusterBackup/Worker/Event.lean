import ClusterBackup.Json.Basic
/-!
# Events

What a watch reports: an object was added, modified or deleted. Reports that name no object, and
those of other kinds, say nothing.
-/

namespace ClusterBackup

inductive Event where
  | changed (ns name : Json)
  | deleted (ns name : Json)
  | nothing

namespace Event

def ofParts (type ns name : Json) : Except Malformed Event :=
  match type with
  | .str "DELETED" => .ok (deleted ns name)
  | .str "ADDED" => .ok (changed ns name)
  | .str "MODIFIED" => .ok (changed ns name)
  | type => if type.isAtom then .ok nothing else .error .unsuited

def ofJson (event : Json) : Except Malformed Event := do
  match ← event.member "object" with
  | .obj members =>
    let metadata := (← (Json.obj members).member "metadata").orEmpty
    let ns ← metadata.member "namespace"
    let name ← metadata.member "name"
    if ns.given && name.given then ofParts (← event.member "type") ns name else return nothing
  | _ => return nothing

end Event

end ClusterBackup
