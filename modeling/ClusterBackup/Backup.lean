import ClusterBackup.Calendar.IsoText
import ClusterBackup.Json.Text
import ClusterBackup.Record
/-!
# Backups

A requested backup: which cluster to back up, to which of its storage profiles, since when, and
what has been recorded about it.
-/

namespace ClusterBackup

inductive CreationError where
  | missing
  | unreadable (text : String) (e : TimestampError)
deriving DecidableEq, Repr

def CreationError.message : CreationError → String
  | missing => "creationTimestamp is required"
  | unreadable text .shape => "Invalid isoformat string: " ++ Text.quoted text
  | unreadable _ (.date e) => e.message
  | unreadable _ (.time e) => e.message
  | unreadable _ .offset => "offset must be strictly between -24 and 24 hours"

def zuluAsOffset (text : String) : String :=
  String.ofList (text.toList.flatMap fun c => if c = 'Z' then "+00:00".toList else [c])

def Timestamp.ofJson (j : Json) : Except CreationError Timestamp :=
  if !j.given then .error .missing
  else
    let text := zuluAsOffset j.text
    (Timestamp.read text.toList).mapError (.unreadable text)

inductive BackupError where
  | malformed (e : Malformed)
  | creation (e : CreationError)
deriving DecidableEq, Repr

/-- A requested backup. The version is null where the object has none. -/
structure Backup where
  ns : Json
  name : Json
  uid : Json
  cluster : Json
  profile : Json
  createdAt : Timestamp
  version : Json
  record : Option Record
deriving DecidableEq

namespace Backup

def ofJson (raw : Json) : Except BackupError Backup := do
  let metadata ← (raw.member "metadata").mapError .malformed
  let metadata := metadata.orEmpty
  let spec ← (raw.member "spec").mapError .malformed
  let spec := spec.orEmpty
  let inMetadata (name : String) := (metadata.member name).mapError BackupError.malformed
  let inSpec (name : String) := (spec.member name).mapError BackupError.malformed
  return {
    ns := (← inMetadata "namespace").orBlank
    name := (← inMetadata "name").orBlank
    uid := (← inMetadata "uid").orBlank
    cluster := (← inSpec "targetCluster").orBlank
    profile := (← inSpec "storageProfile").orBlank
    createdAt := ← (Timestamp.ofJson (← inMetadata "creationTimestamp")).mapError .creation
    version := ← inMetadata "resourceVersion"
    record := ← ((raw.member "status").bind Record.ofJson).mapError .malformed }

end Backup

end ClusterBackup
