import ClusterBackup.Reconcile.Basic
/-!
# Plans

What a reconcile decides once it has read the clusters: which of them is meant, where in it the
backup is stored, and the address that follows. After that it only follows the plan
(`run_carryOut`).
-/

namespace ClusterBackup

variable {τ : Type}

def chooseCluster (ns name : Json) : Except Api.Failure Json → Except Stop Cluster
  | .error f =>
    let e : Api.CallError := ⟨.listClusters ns, f⟩
    .error (.obstacle (if e.isNotFound then .noSuchCluster name [] else .clustersUnreadable e))
  | .ok response =>
    match Cluster.listOfJson response with
    | .error e => .error (.fault (.malformed e))
    | .ok clusters =>
      match clusters.find? fun c => c.name.equals name with
      | some cluster => .ok cluster
      | none => .error (.obstacle (.noSuchCluster name (clusters.map Cluster.name)))

theorem Task.require_bind_result {α β : Type} (x : Except Stop α) (f : α → Except Stop β) :
    (Task.require id (x >>= f) : Task τ β) =
      Task.require id x >>= fun a => Task.require id (f a) := by
  cases x with
  | error stop => rfl
  | ok a =>
    rw [Task.require_ok, pure_bind]
    rfl

theorem run_lookUpCluster (ns name : Json) :
    (lookUpCluster ns name : Task τ Cluster).run =
      .call (.listClusters ns) fun outcome => .done (chooseCluster ns name outcome) := by
  have hask : ∀ f : Except Api.CallError Json → Task τ Cluster,
      (Task.ask (.listClusters ns) >>= f).run = .call (.listClusters ns) fun outcome =>
        (f (outcome.mapError fun failure => ⟨.listClusters ns, failure⟩)).run := fun _ => rfl
  unfold lookUpCluster
  rw [hask]
  congr 1
  funext outcome
  cases outcome with
  | error f =>
    show (if _ then _ else _ : Task τ Cluster).run = _
    unfold chooseCluster
    dsimp only
    split <;> rfl
  | ok response =>
    unfold chooseCluster
    dsimp only [Except.mapError]
    cases Cluster.listOfJson response with
    | error e => rfl
    | ok clusters =>
      dsimp only
      rw [Task.require_ok, pure_bind]
      cases clusters.find? fun c => c.name.equals name <;> rfl

structure Plan where
  cluster : Cluster
  profile : Profile
  destination : Destination

/-- The plan for a backup, by what came of the call for the clusters. -/
def planFor (settings : Settings τ) (b : Backup) (outcome : Except Api.Failure Json) :
    Except Stop Plan := do
  let cluster ← chooseCluster b.ns b.cluster outcome
  match cluster.backup with
  | none => .error (.obstacle (.backupNotSetUp cluster.name))
  | some _ =>
    let profile ← cluster.profile b.profile
    let destination ← Destination.ofProfile b profile settings.claimName
    return ⟨cluster, profile, destination⟩

variable [NatCast τ]

def provideFor (settings : Settings τ) (b : Backup) : Profile → Task τ Unit
  | .filesystem template =>
    Volume.provide settings.bindAttempts (fun n => (n : τ)) b template settings.claimName
  | _ => pure ()

def prepare (settings : Settings τ) (b : Backup) (p : Plan) : Task τ Unit := do
  provideFor settings b p.profile
  let job ← Task.require Stop.ofJobError
    (Job.forBackup b p.cluster p.destination settings.jobBackoffLimit)
  discard (submit job)

def followPlan (settings : Settings τ) (b : Backup) (p : Plan) : Task τ Unit := do
  prepare settings b p
  discard (recordProgress b (Job.nameFor b) p.destination)

theorem run_carryOut (settings : Settings τ) (b : Backup) :
    (carryOut settings b).run = .call (.listClusters b.ns) fun outcome =>
      (Task.require id (planFor settings b outcome) >>= followPlan settings b).run := by
  have hlook : ∀ f : Cluster → Task τ Unit, (lookUpCluster b.ns b.cluster >>= f).run =
      .call (.listClusters b.ns) fun outcome =>
        (Task.require id (chooseCluster b.ns b.cluster outcome) >>= f).run := by
    intro f
    rw [ExceptT.run_bind, run_lookUpCluster, Api.Program.call_bind]
    congr 1
    funext outcome
    cases chooseCluster b.ns b.cluster outcome <;> rfl
  unfold carryOut
  rw [hlook]
  congr 1
  funext outcome
  unfold planFor
  rw [Task.require_bind_result, bind_assoc]
  congr 2
  funext cluster
  cases cluster.backup with
  | none => rfl
  | some backup =>
    dsimp only
    rw [Task.require_bind_result, bind_assoc]
    congr 1
    funext profile
    rw [Task.require_bind_result, bind_assoc]
    congr 1
    funext destination
    have hpure : (Task.require id (pure (⟨cluster, profile, destination⟩ : Plan)) : Task τ Plan) =
        pure ⟨cluster, profile, destination⟩ := rfl
    rw [hpure, pure_bind]
    cases profile <;> simp [followPlan, prepare, provideFor]

end ClusterBackup
