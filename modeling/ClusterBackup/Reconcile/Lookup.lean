import ClusterBackup.Cluster
import ClusterBackup.Destination
import ClusterBackup.Reconcile.Task
/-!
# Looking up where a backup goes

The cluster that a backup names, the storage profile that it selects there, and the destination
that follows.
-/

namespace ClusterBackup

def Cluster.listOfJson (response : Json) : Except Malformed (List Cluster) := do
  match ((← response.member "items").orElse (.arr [])).elements? with
  | some items => items.mapM Cluster.ofJson
  | none => .error .unsuited

/-- The first cluster of a namespace that has the name. -/
def lookUpCluster {τ : Type} (ns name : Json) : Task τ Cluster := do
  match ← Task.ask (.listClusters ns) with
  | .error e =>
    if e.isNotFound then Task.fail (.noSuchCluster name [])
    else Task.fail (.clustersUnreadable e)
  | .ok response =>
    let clusters ← Task.require (fun e => .fault (.malformed e)) (Cluster.listOfJson response)
    match clusters.find? fun c => c.name.equals name with
    | some cluster => return cluster
    | none => Task.fail (.noSuchCluster name (clusters.map Cluster.name))

def Cluster.profiles (c : Cluster) : List (String × Profile) :=
  match c.backup with
  | some backup => backup.profiles
  | none => []

def Cluster.profileNames (c : Cluster) : List String :=
  (c.profiles.map Prod.fst).mergeSort fun a b => !decide (b < a)

def Cluster.profile (c : Cluster) (name : Json) : Except Stop Profile :=
  let missing : Except Stop Profile := .error (.obstacle (.noSuchProfile name c.profileNames))
  match name with
  | .str key =>
    match c.profiles.lookup key with
    | some profile => .ok profile
    | none => missing
  | name => if name.isAtom then missing else .error (.fault (.malformed .unsuited))

def Destination.ofProfile (b : Backup) (profile : Profile) (claim : String) :
    Except Stop Destination :=
  match profile with
  | .filesystem _ => .ok (onClaim claim)
  | .bucket bucket =>
    match bucketAddressOf bucket.name b.cluster b.createdAt with
    | .ok address => .ok ⟨address, none, some bucket⟩
    | .error e => .error (.fault (.malformed e))
  | .unknown kind => .error (.obstacle (.unknownKind b.profile kind))

end ClusterBackup
