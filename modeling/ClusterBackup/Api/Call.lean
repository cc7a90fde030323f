import ClusterBackup.Record
import ClusterBackup.Resource.BackupJob
import ClusterBackup.Resource.VolumeClaim
/-!
# Calls

The calls that are made to the API, what each of them answers, and how they fail.
-/

namespace ClusterBackup.Api

/-- When a job was completed: not said, at a time, or as a text that is taken as it is. -/
inductive Completion where
  | unsaid
  | time (t : Timestamp)
  | text (s : String)
deriving DecidableEq

/-- The status of a job. Counters that are not set are null. -/
structure JobStatus where
  active : Json
  succeeded : Json
  failed : Json
  completion : Completion
deriving DecidableEq

def JobStatus.blank : JobStatus := ⟨.null, .null, .null, .unsaid⟩

/-- A new record for a backup that was read at a version, null where it had none. -/
structure StatusUpdate where
  ns : Json
  name : Json
  version : Json
  record : Record
deriving DecidableEq

def StatusUpdate.toJson (u : StatusUpdate) : Json :=
  .obj [("apiVersion", .str groupVersion), ("kind", .str backupKind),
    ("metadata", .obj ([("name", u.name), ("namespace", u.ns)] ++
      if u.version.given then [("resourceVersion", u.version)] else [])),
    ("status", u.record.toJson)]

inductive Call where
  | getBackup (ns name : Json)
  | listClusters (ns : Json)
  | readClaim (ns name : Json)
  | createClaim (ns : Json) (body : Claim)
  | readJob (ns name : Json)
  | createJob (ns : Json) (body : Job)
  | replaceStatus (update : StatusUpdate)
deriving DecidableEq

/-- What a call answers: the stored backup; the object that lists the clusters; the phase of a
claim, if the claim has a status; the status of a job, if it has one. -/
abbrev Call.Answer : Call → Type
  | getBackup .. => Json
  | listClusters .. => Json
  | readClaim .. => Option Json
  | createClaim .. => Unit
  | readJob .. => Option JobStatus
  | createJob .. => Unit
  | replaceStatus .. => Unit

/-- How a call fails: the API rejects it with a status and a reason, either of which may be null,
or something else goes wrong. -/
inductive Failure where
  | rejected (status reason : Json)
  | broken (text : String)
deriving DecidableEq

abbrev Call.Outcome (c : Call) : Type := Except Failure c.Answer

def bodyName {σ : Type} (body : Resource σ) : Json :=
  match body.metadata with
  | some m => m.name
  | none => .null

structure CallError where
  call : Call
  failure : Failure
deriving DecidableEq

namespace Call

def purpose : Call → String
  | getBackup ns name => "get backup '" ++ ns.text ++ "/" ++ name.text ++ "'"
  | listClusters ns => "list clusters in namespace '" ++ ns.text ++ "'"
  | readClaim ns name => "read PVC '" ++ ns.text ++ "/" ++ name.text ++ "'"
  | createClaim ns body => "create PVC '" ++ ns.text ++ "/" ++ (bodyName body).text ++ "'"
  | readJob ns name => "read Job '" ++ ns.text ++ "/" ++ name.text ++ "'"
  | createJob ns body => "create Job '" ++ ns.text ++ "/" ++ (bodyName body).text ++ "'"
  | replaceStatus u => "update status of backup '" ++ u.ns.text ++ "/" ++ u.name.text ++ "'"

def hint : Call → String
  | getBackup .. => "Check RBAC verbs for perconaxtradbbackups."
  | listClusters .. =>
    "Check RBAC verbs for perconaxtradbclusters and confirm the CRD is installed."
  | readClaim .. => "Check RBAC verbs for persistentvolumeclaims."
  | createClaim .. =>
    "Check RBAC verbs for persistentvolumeclaims and the storage class in the claim template."
  | readJob .. => "Check RBAC verbs for jobs in the batch API group."
  | createJob .. => "Check RBAC verbs for jobs in the batch API group."
  | replaceStatus .. =>
    "A conflict means the backup changed since it was read; the next reconcile retries."

def creates : Call → Bool
  | createClaim .. => true
  | createJob .. => true
  | _ => false

end Call

namespace Failure

def notFound : Failure := rejected (.int 404) (.str "Not Found")

def alreadyExists : Failure := rejected (.int 409) (.str "AlreadyExists")

def conflict : Failure := rejected (.int 409) (.str "Conflict")

def hasStatus (f : Failure) (code : Int) : Bool :=
  match f with
  | rejected status _ => status.equals (.int code)
  | broken _ => false

def text : Failure → String
  | rejected status reason =>
    "API status " ++ (if status.isNull then "unknown" else status.text) ++ " (" ++
      (reason.orElse (.str "no reason provided")).text ++ ")"
  | broken text => text

end Failure

namespace CallError

def isNotFound (e : CallError) : Bool := e.failure.hasStatus 404

def isDuplicate (e : CallError) : Bool :=
  e.failure.hasStatus 409 && e.call.creates

def message (e : CallError) : String :=
  "Kubernetes call failed while trying to " ++ e.call.purpose ++ ": " ++ e.failure.text ++ ". " ++
    e.call.hint

end CallError

end ClusterBackup.Api
