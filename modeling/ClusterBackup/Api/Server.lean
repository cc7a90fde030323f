import ClusterBackup.Api.ObjectKey
import ClusterBackup.Api.Program
import ClusterBackup.Json.Integer
import ClusterBackup.Table
/-!
# The state of the API

The objects that the API holds, and what it answers to a call when nothing goes wrong. A backup's
record is only replaced by one based on the current version, and every replacement changes the
version.
-/

namespace ClusterBackup.Api

/-- What a read of a claim gives: its phase if it has a status, or a failure. -/
abbrev PhaseReading := Except Failure (Option Json)

/-- A claim: what it was created with, if it was created by a call, and the phases that reads of it
give, the last one for ever. -/
structure StoredClaim where
  body : Option Claim
  phases : List PhaseReading

structure StoredJob where
  body : Option Job
  status : Option JobStatus
deriving DecidableEq

/-- The objects of the API. Clusters are listed in the order in which they came, each with the
namespace that it is listed under. -/
structure Server where
  backups : Table ObjectKey Json
  clusters : List (Atom × Json)
  claims : Table ObjectKey StoredClaim
  jobs : Table ObjectKey StoredJob
  newClaimPhases : List PhaseReading

namespace Server

/-- An API without objects; the claims that are created are bound at once. -/
def empty : Server where
  backups := .empty
  clusters := []
  claims := .empty
  jobs := .empty
  newClaimPhases := [.ok (some (.str "Bound"))]

instance : Inhabited Server := ⟨empty⟩

def containerFailure (j : Json) : Failure :=
  .broken ("unhashable type: '" ++ j.kindName ++ "'")

def atomOf (j : Json) : Except Failure Atom :=
  match Atom.ofJson? j with
  | some a => .ok a
  | none => .error (containerFailure j)

/-- The key of the given parts; containers fail as keys, the first one found. -/
def keyOf (ns name : Json) : Except Failure ObjectKey := do
  return ⟨← atomOf ns, ← atomOf name⟩

def stored {ν : Type} (t : Table ObjectKey ν) (ns name : Json) : Except Failure (ObjectKey × ν) :=
  match keyOf ns name with
  | .error f => .error f
  | .ok key =>
    match t.find? key with
    | some v => .ok (key, v)
    | none => .error .notFound

def free {ν : Type} (t : Table ObjectKey ν) (ns name : Json) : Except Failure ObjectKey :=
  match keyOf ns name with
  | .error f => .error f
  | .ok key =>
    match t.find? key with
    | some _ => .error .alreadyExists
    | none => .ok key

def listing (s : Server) (ns : Json) : Except Failure Json := do
  let ns ← atomOf ns
  return .obj [("items", .arr ((s.clusters.filter fun c => c.1 == ns).map Prod.snd))]

def readPhase (c : StoredClaim) : PhaseReading × StoredClaim :=
  match c.phases with
  | [] => (.ok none, c)
  | [reading] => (reading, c)
  | reading :: phases => (reading, { c with phases })

def memberOrNull (j : Json) (name : String) : Json :=
  match j.member name with
  | .ok value => value
  | .error _ => .null

def withMember (j : Json) (name : String) (value : Json) : Json :=
  match j with
  | .obj members => .obj (Json.putMember name value members)
  | j => j

def versionOf (object : Json) : Json :=
  memberOrNull (memberOrNull object "metadata") "resourceVersion"

/-- The version that follows a given one. An object without a version is at zero. -/
def nextVersion (version : Json) : Except Failure Json := do
  let n ← (version.orElse (.str "0")).toInteger.mapError fun e => .broken e.message
  let text ← (Numeral.writeInt (n + 1)).mapError fun e => .broken e.message
  return .str text

def replaced (object : Json) (u : StatusUpdate) : Except Failure Json :=
  let version := versionOf object
  if u.version.given && !u.version.equals version then .error .conflict
  else
    (nextVersion version).map fun version =>
      withMember
        (withMember object "metadata"
          (withMember (memberOrNull object "metadata") "resourceVersion" version))
        "status" u.record.toJson

/-- What the API answers to a call, and its state afterwards. A call that fails changes nothing. -/
def answer (s : Server) : (c : Call) → c.Outcome × Server
  | .getBackup ns name => ((stored s.backups ns name).map Prod.snd, s)
  | .listClusters ns => (s.listing ns, s)
  | .readClaim ns name =>
    match stored s.claims ns name with
    | .error f => (.error f, s)
    | .ok (key, claim) =>
      let (reading, claim) := readPhase claim
      (reading, { s with claims := s.claims.insert key claim })
  | .createClaim ns body =>
    match free s.claims ns (bodyName body) with
    | .error f => (.error f, s)
    | .ok key => (.ok (), { s with claims := s.claims.insert key ⟨some body, s.newClaimPhases⟩ })
  | .readJob ns name => ((stored s.jobs ns name).map fun r => r.2.status, s)
  | .createJob ns body =>
    match free s.jobs ns (bodyName body) with
    | .error f => (.error f, s)
    | .ok key => (.ok (), { s with jobs := s.jobs.insert key ⟨some body, some .blank⟩ })
  | .replaceStatus u =>
    match stored s.backups u.ns u.name with
    | .error f => (.error f, s)
    | .ok (key, object) =>
      match replaced object u with
      | .error f => (.error f, s)
      | .ok object => (.ok (), { s with backups := s.backups.insert key object })

end Server

end ClusterBackup.Api
