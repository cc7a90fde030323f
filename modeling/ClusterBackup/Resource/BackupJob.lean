import ClusterBackup.Destination
import ClusterBackup.Resource.Owner
/-!
# Jobs

The job that carries out a backup: one container with the cluster's backup image, told by its
environment where to write, with the claim mounted or the keys of the bucket at hand.
-/

namespace ClusterBackup

inductive VariableSource where
  | value (v : Json)
  | secret (name : Json) (key : String)
deriving DecidableEq

structure Variable where
  name : String
  source : VariableSource
deriving DecidableEq

structure Mount where
  volume : String
  path : String
deriving DecidableEq

structure Volume where
  name : String
  claim : String
deriving DecidableEq

structure JobSpec where
  backoffLimit : Int
  labels : List (String × Json)
  serviceAccount : Json
  pullSecrets : List Json
  image : Json
  command : List String
  environment : List Variable
  mounts : List Mount
  volumes : List Volume
deriving DecidableEq

/-- A list as it is sent; null where it is empty. -/
def filledList (items : List Json) : Json :=
  if items.isEmpty then .null else .arr items

namespace JobSpec

def variableJson (v : Variable) : Json :=
  .obj (presentMembers [("name", .str v.name), match v.source with
    | .value value => ("value", value)
    | .secret name key => ("valueFrom",
      .obj [("secretKeyRef", .obj (presentMembers [("name", name), ("key", .str key)]))])])

def toJson (spec : JobSpec) : Json :=
  let container := presentMembers [
    ("name", .str "xtrabackup"),
    ("image", spec.image),
    ("command", .arr (spec.command.map Json.str)),
    ("env", .arr (spec.environment.map variableJson)),
    ("volumeMounts", filledList (spec.mounts.map fun m =>
      .obj [("name", .str m.volume), ("mountPath", .str m.path)]))]
  let pod := presentMembers [
    ("restartPolicy", .str "Never"),
    ("serviceAccountName", spec.serviceAccount),
    ("imagePullSecrets", filledList (spec.pullSecrets.map fun name =>
      .obj (presentMembers [("name", name)]))),
    ("containers", .arr [.obj container]),
    ("volumes", filledList (spec.volumes.map fun v =>
      .obj [("name", .str v.name),
        ("persistentVolumeClaim", .obj [("claimName", .str v.claim)])]))]
  .obj [("backoffLimit", .int spec.backoffLimit),
    ("template", .obj [("metadata", .obj [("labels", .obj spec.labels)]), ("spec", .obj pod)])]

end JobSpec

instance : Manifest JobSpec where
  typeName := "V1Job"
  apiVersion := "batch/v1"
  kind := "Job"
  specJson := JobSpec.toJson

abbrev Job := Resource JobSpec

inductive JobError where
  | noBackupSection (cluster : Json)
  | ownership (e : OwnershipError)
deriving DecidableEq

namespace Job

def nameFor (b : Backup) : String := "xb-" ++ b.name.text

def volumeName : String := "xtrabackup"

def labels (cluster : Json) : List (String × Json) :=
  [("app.kubernetes.io/name", .str "pxc-backup"), ("cluster", cluster),
    ("type", .str "xtrabackup")]

def baseVariables (cluster : Json) (d : Destination) : List Variable :=
  [⟨"PXC_SERVICE", .value (.str (cluster.text ++ "-pxc"))⟩,
    ⟨"BACKUP_DESTINATION", .value (.str d.address)⟩]

/-- A variable that is only there when its value counts as given. -/
def optionalVariable (name : String) (value : Json) : List Variable :=
  if value.given then [⟨name, .value value⟩] else []

def bucketVariables (d : Destination) (bucket : Bucket) : List Variable :=
  [⟨"S3_BUCKET_URL", .value (.str d.address)⟩,
    ⟨"ACCESS_KEY_ID", .secret bucket.credentials "AWS_ACCESS_KEY_ID"⟩,
    ⟨"SECRET_ACCESS_KEY", .secret bucket.credentials "AWS_SECRET_ACCESS_KEY"⟩] ++
    optionalVariable "DEFAULT_REGION" bucket.region ++
    optionalVariable "ENDPOINT" bucket.endpoint

/-- The specification of the job for a destination. A claim takes precedence over a bucket. -/
def specFor (cluster : Cluster) (settings : BackupSection) (d : Destination)
    (backoffLimit : Int) : JobSpec where
  backoffLimit
  labels := labels cluster.name
  serviceAccount := settings.serviceAccount
  pullSecrets := settings.pullSecrets
  image := settings.image
  command := ["bash", "/usr/bin/backup.sh"]
  environment := baseVariables cluster.name d ++
    match d.claim, d.bucket with
    | none, some bucket => bucketVariables d bucket
    | _, _ => []
  mounts := match d.claim with
    | some _ => [⟨volumeName, "/backup"⟩]
    | none => []
  volumes := match d.claim with
    | some claim => [⟨volumeName, claim⟩]
    | none => []

def forBackup (b : Backup) (cluster : Cluster) (d : Destination) (backoffLimit : Int) :
    Except JobError Job :=
  match cluster.backup with
  | none => .error (.noBackupSection cluster.name)
  | some backup =>
    let job : Job := {
      metadata := some {
        name := .str (nameFor b)
        ns := b.ns
        labels := labels cluster.name
        owners := none }
      spec := some (specFor cluster backup d backoffLimit) }
    (job.ownedBy b).mapError .ownership

end Job

end ClusterBackup
