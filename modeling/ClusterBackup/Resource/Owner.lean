import ClusterBackup.Backup
import ClusterBackup.Resource.Metadata
/-!
# Ownership

The objects created for a backup are owned by it, so that they are removed with it. An owner has
to have a uid and to live in the namespace of what it owns.
-/

namespace ClusterBackup

inductive OwnershipError where
  | noMetadata (typeName : String)
  | foreignOwner (ns name ownerNs ownerName : Json)
  | noUid (ownerNs ownerName : Json)
deriving DecidableEq

def OwnershipError.message : OwnershipError → String
  | noMetadata typeName => typeName ++ " has no metadata to carry an owner reference"
  | foreignOwner ns name ownerNs ownerName =>
    "cross-namespace owner references are not allowed: " ++ ns.text ++ "/" ++ name.text ++
      " cannot be owned by " ++ ownerNs.text ++ "/" ++ ownerName.text
  | noUid ownerNs ownerName =>
    "backup " ++ ownerNs.text ++ "/" ++ ownerName.text ++ " has no uid and cannot own resources"

def Backup.asOwner (b : Backup) : OwnerReference where
  apiVersion := .str Api.groupVersion
  kind := .str Api.backupKind
  name := b.name
  uid := b.uid
  controller := .bool true
  blockOwnerDeletion := .bool true

/-- The reference is to the backup, as the owner that controls an object and stays as long as the
object is there. -/
structure OwnerReference.NamesOwner (r : OwnerReference) (b : Backup) : Prop where
  apiVersion : r.apiVersion = .str Api.groupVersion
  kind : r.kind = .str Api.backupKind
  name : r.name = b.name
  uid : r.uid = b.uid
  controller : r.controller = .bool true
  blockOwnerDeletion : r.blockOwnerDeletion = .bool true

theorem Backup.namesOwner_asOwner (b : Backup) : b.asOwner.NamesOwner b :=
  ⟨rfl, rfl, rfl, rfl, rfl, rfl⟩

def Resource.ownedBy {σ : Type} [Manifest σ] (r : Resource σ) (owner : Backup) :
    Except OwnershipError (Resource σ) :=
  match r.metadata with
  | none => .error (.noMetadata (Manifest.typeName σ))
  | some m =>
    if m.ns.given && !m.ns.equals owner.ns then
      .error (.foreignOwner m.ns m.name owner.ns owner.name)
    else if !owner.uid.given then .error (.noUid owner.ns owner.name)
    else
      let owners := m.owners.getD [] ++ [owner.asOwner]
      .ok { r with metadata := some { m with owners := some owners } }

/-- An owner that is accepted comes after those that were there. -/
theorem Resource.ownedBy_eq_ok {σ : Type} [Manifest σ] {m : Metadata} {spec : Option σ}
    {b : Backup} {r : Resource σ} (h : Resource.ownedBy ⟨some m, spec⟩ b = .ok r) :
    r = ⟨some { m with owners := some (m.owners.getD [] ++ [b.asOwner]) }, spec⟩ := by
  simp only [ownedBy] at h
  split at h
  · cases h
  · split at h
    · cases h
    · exact (Except.ok.inj h).symm

/-- The reference by which a backup comes to own a resource names it. -/
theorem Resource.namesOwner_of_ownedBy {σ : Type} [Manifest σ] {m : Metadata} {spec : Option σ}
    {b : Backup} {r : Resource σ} (h : Resource.ownedBy ⟨some m, spec⟩ b = .ok r) :
    ∃ reference : OwnerReference, reference.NamesOwner b ∧
      r = ⟨some { m with owners := some (m.owners.getD [] ++ [reference]) }, spec⟩ :=
  ⟨b.asOwner, b.namesOwner_asOwner, ownedBy_eq_ok h⟩

end ClusterBackup
