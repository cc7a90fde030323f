import ClusterBackup.Resource.Owner
/-!
# Volume claims

The claim that a backup to a filesystem is written through, made from the template of the storage
profile.
-/

namespace ClusterBackup

/-- The specification of a volume claim, taken over from a template. -/
structure ClaimSpec where
  template : List (String × Json)
deriving DecidableEq

instance : Manifest ClaimSpec where
  typeName := "V1PersistentVolumeClaim"
  apiVersion := "v1"
  kind := "PersistentVolumeClaim"
  specJson spec := .obj spec.template

abbrev Claim := Resource ClaimSpec

def Claim.forBackup (b : Backup) (template : List (String × Json)) (name : String) :
    Except OwnershipError Claim :=
  let claim : Claim := {
    metadata := some {
      name := .str name
      ns := b.ns
      labels := [("app.kubernetes.io/name", .str "pxc-backup"),
        ("app.kubernetes.io/component", .str "backup-volume")]
      owners := none }
    spec := some ⟨template⟩ }
  claim.ownedBy b

end ClusterBackup
