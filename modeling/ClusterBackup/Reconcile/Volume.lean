import ClusterBackup.Reconcile.Task
import ClusterBackup.Resource.VolumeClaim
/-!
# Providing a volume

The claim that a backup is written through is created if it is not there, and polled until it is
bound.
-/

namespace ClusterBackup.Volume

variable {τ : Type}

def undefinedPhase : Json := .str "Undefined"

def boundPhase : Json := .str "Bound"

def phaseOf : Option Json → Json
  | some phase => phase.orElse undefinedPhase
  | none => undefinedPhase

/-- Creates the claim unless it is there. One that is created by others in the meantime will
do. -/
def ensureClaim (ns : Json) (name : String) (claim : Claim) : Task τ Unit := do
  match ← Task.ask (.readClaim ns (.str name)) with
  | .ok _ => return
  | .error e =>
    if !e.isNotFound then Task.fail (.claimUnreadable e)
    else
      match ← Task.ask (.createClaim ns claim) with
      | .ok () => return
      | .error e => if e.isDuplicate then return else Task.fail (.claimNotCreated e)

/-- The phase of a claim, undefined where there is none. -/
def currentPhase (ns : Json) (name : String) : Task τ Json := do
  match ← Task.ask (.readClaim ns (.str name)) with
  | .ok reading => return phaseOf reading
  | .error e => if e.isNotFound then return undefinedPhase else Task.fail (.phaseUnreadable e)

/-- Looks whether a claim is bound; the phase seen is kept. -/
def checkBound (ns : Json) (name : String) : StateT Json (Task τ) Bool := do
  let phase ← (currentPhase ns name : Task τ Json)
  set phase
  return phase.equals boundPhase

def awaitBound (attempts : Int) (delay : Nat → τ) (ns : Json) (name : String) : Task τ Unit := do
  let pause (n : Nat) : StateT Json (Task τ) Unit := (Task.sleep (delay n) : Task τ Unit)
  match Polling.poll? attempts (fun _ => checkBound ns name) pause with
  | none => throw (.fault .noAttempts)
  | some polling =>
    let (bound, phase) ← polling.run undefinedPhase
    unless bound do Task.fail (.claimNotBound name phase attempts)

def provide (attempts : Int) (delay : Nat → τ) (b : Backup) (template : List (String × Json))
    (name : String) : Task τ Unit := do
  let claim ← Task.require (fun e => .obstacle (.ownership e)) (Claim.forBackup b template name)
  ensureClaim b.ns name claim
  awaitBound attempts delay b.ns name

end ClusterBackup.Volume
