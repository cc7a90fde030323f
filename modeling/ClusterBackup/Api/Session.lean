import ClusterBackup.Api.Patience
import ClusterBackup.Api.Server
/-!
# Sessions

An API that can be told in advance how to respond, with a clock and a log. A prepared response to
a kind of call is used up in order before the API answers by itself.
-/

namespace ClusterBackup.Api

/-- A prepared response: as by itself, a failure, or an answer without any effect. -/
inductive Response (α : Type) where
  | natural
  | failing (f : Failure)
  | giving (answer : α)

structure Script where
  getBackup : List (Response Json) := []
  listClusters : List (Response Json) := []
  readClaim : List (Response (Option Json)) := []
  createClaim : List (Response Unit) := []
  readJob : List (Response (Option JobStatus)) := []
  createJob : List (Response Unit) := []
  replaceStatus : List (Response Unit) := []

namespace Script

def next {α : Type} : List (Response α) → Response α × List (Response α)
  | [] => (.natural, [])
  | r :: rs => (r, rs)

def take (s : Script) : (c : Call) → Response c.Answer × Script
  | .getBackup .. => let (r, rest) := next s.getBackup; (r, { s with getBackup := rest })
  | .listClusters .. => let (r, rest) := next s.listClusters; (r, { s with listClusters := rest })
  | .readClaim .. => let (r, rest) := next s.readClaim; (r, { s with readClaim := rest })
  | .createClaim .. => let (r, rest) := next s.createClaim; (r, { s with createClaim := rest })
  | .readJob .. => let (r, rest) := next s.readJob; (r, { s with readJob := rest })
  | .createJob .. => let (r, rest) := next s.createJob; (r, { s with createJob := rest })
  | .replaceStatus .. =>
    let (r, rest) := next s.replaceStatus; (r, { s with replaceStatus := rest })

def append (s t : Script) : Script where
  getBackup := s.getBackup ++ t.getBackup
  listClusters := s.listClusters ++ t.listClusters
  readClaim := s.readClaim ++ t.readClaim
  createClaim := s.createClaim ++ t.createClaim
  readJob := s.readJob ++ t.readJob
  createJob := s.createJob ++ t.createJob
  replaceStatus := s.replaceStatus ++ t.replaceStatus

instance : Append Script := ⟨append⟩

end Script

/-- An API in use: its state, the responses prepared, the time limit of calls, the time, and what
has been called and paused so far. -/
structure Session (τ : Type) where
  now : τ
  server : Server := .empty
  script : Script := {}
  patience : Patience := .usual
  calls : List Call := []
  pauses : List τ := []

namespace Session

variable {τ α : Type}

def respond (s : Session τ) (c : Call) : c.Outcome × Session τ :=
  let (response, script) := s.script.take c
  let s := { s with script, calls := s.calls ++ [c] }
  match response with
  | .natural => let (outcome, server) := s.server.answer c; (outcome, { s with server })
  | .failing f => (.error f, s)
  | .giving answer => (.ok answer, s)

def pass [Add τ] (s : Session τ) (seconds : τ) : Session τ :=
  { s with now := s.now + seconds, pauses := s.pauses ++ [seconds] }

def host [Add τ] : Program.Host τ (Session τ) := ⟨respond, pass⟩

def run [Add τ] (s : Session τ) (p : Program τ α) : α × Session τ := p.run host s

def limits (s : Session τ) : List Int := s.calls.map fun _ => s.patience.seconds

def cleared (s : Session τ) : Session τ := { s with calls := [], pauses := [] }

end Session

end ClusterBackup.Api
