import ClusterBackup.Api.Group
import ClusterBackup.Json.Equality
/-!
# Resources

The objects that are created for a backup: their metadata, a specification, and the form in which
they are sent. Of what is sent, attributes without a value are left out.
-/

namespace ClusterBackup

/-- A reference from an object to the one that owns it. The last two are null where nothing is
said. -/
structure OwnerReference where
  apiVersion : Json
  kind : Json
  name : Json
  uid : Json
  controller : Json
  blockOwnerDeletion : Json
deriving DecidableEq

/-- The metadata of an object. There may be no list of owners, or an empty one. -/
structure Metadata where
  name : Json
  ns : Json
  labels : List (String × Json)
  owners : Option (List OwnerReference)
deriving DecidableEq

@[ext] structure Resource (σ : Type) where
  metadata : Option Metadata
  spec : Option σ
deriving DecidableEq

class Manifest (σ : Type) where
  typeName : String
  apiVersion : String
  kind : String
  specJson : σ → Json

def presentMembers (members : List (String × Json)) : List (String × Json) :=
  members.filter fun m => !m.2.isNull

def OwnerReference.toJson (r : OwnerReference) : Json :=
  .obj (presentMembers [("apiVersion", r.apiVersion), ("kind", r.kind), ("name", r.name),
    ("uid", r.uid), ("controller", r.controller), ("blockOwnerDeletion", r.blockOwnerDeletion)])

/-- Labels as they are sent; null where there are none. -/
def labelsJson (labels : List (String × Json)) : Json :=
  if labels.isEmpty then .null else .obj labels

def Metadata.toJson (m : Metadata) : Json :=
  .obj (presentMembers [("name", m.name), ("namespace", m.ns), ("labels", labelsJson m.labels),
    ("ownerReferences", match m.owners with
      | some owners => .arr (owners.map OwnerReference.toJson)
      | none => .null)])

/-- The form in which a resource is sent. One without a specification is only named. -/
def Resource.toJson {σ : Type} [Manifest σ] (r : Resource σ) : Json :=
  .obj ((match r.spec with
      | some _ => [("apiVersion", .str (Manifest.apiVersion σ)), ("kind", .str (Manifest.kind σ))]
      | none => []) ++
    (match r.metadata with
      | some m => [("metadata", m.toJson)]
      | none => []) ++
    (match r.spec with
      | some spec => [("spec", Manifest.specJson spec)]
      | none => []))

end ClusterBackup
