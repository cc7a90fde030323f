import ClusterBackup.Profile
/-!
# Clusters

What a backup needs to know of a database cluster.
-/

namespace ClusterBackup

/-- How a cluster is backed up: the image to run, the storage profiles by name, the secrets to
pull the image with, and the service account, null where none is given. -/
structure BackupSection where
  image : Json
  profiles : List (String × Profile)
  pullSecrets : List Json
  serviceAccount : Json
deriving DecidableEq

structure Cluster where
  ns : Json
  name : Json
  backup : Option BackupSection
deriving DecidableEq

namespace BackupSection

def readProfiles : List (String × Json) → Except Malformed (List (String × Profile))
  | [] => .ok []
  | (name, raw) :: rest => do
    let profile ← Profile.ofJson raw.orEmpty
    return (name, profile) :: (← readProfiles rest)

/-- Reads the names of the pull secrets, entries without a name left out. -/
def readPullSecrets : List Json → Except Malformed (List Json)
  | [] => .ok []
  | entry :: rest => do
    let name ← entry.member "name"
    let names ← readPullSecrets rest
    return if name.given then name :: names else names

def ofJson (raw : Json) : Except Malformed BackupSection := do
  let image := (← raw.member "image").orBlank
  let profiles ← match (← raw.member "storages").orEmpty with
    | .obj profiles => readProfiles profiles
    | _ => .error .noMembers
  let secrets ← match (← raw.member "imagePullSecrets").orElse (.arr []) |>.elements? with
    | some entries => readPullSecrets entries
    | none => .error .unsuited
  return { image, profiles, pullSecrets := secrets,
           serviceAccount := ← raw.member "serviceAccountName" }

end BackupSection

namespace Cluster

def ofJson (raw : Json) : Except Malformed Cluster := do
  let metadata := (← raw.member "metadata").orEmpty
  let spec := (← raw.member "spec").orEmpty
  let backup ← spec.member "backup"
  let backup ← if backup.given then some <$> BackupSection.ofJson backup else pure none
  return {
    ns := (← metadata.member "namespace").orBlank
    name := (← metadata.member "name").orBlank
    backup }

end Cluster

end ClusterBackup
