import ClusterBackup.Proofs.Program.Calls
import ClusterBackup.Reconcile.Basic
/-!
# The calls of a reconcile

A reconcile reads its backup first. All further calls are made for the backup as it was read: those
that prepare and submit its job (`Backup.Prepares`), and after them those that record how the job
stands (`Backup.Records`), each with what is known of it when it is made.
-/

namespace ClusterBackup

variable {τ : Type} {b : Backup} {D : τ → Prop}

inductive Backup.Prepares (b : Backup) : Api.Call → Prop where
  | listClusters : b.Prepares (.listClusters b.ns)
  | readClaim (name : String) : b.Prepares (.readClaim b.ns (.str name))
  | createClaim {claim : Claim} {template : List (String × Json)} {name : String}
      (h : Claim.forBackup b template name = .ok claim) : b.Prepares (.createClaim b.ns claim)
  | createJob {job : Job} {cluster : Cluster} {d : Destination} {limit : Int}
      (h : Job.forBackup b cluster d limit = .ok job) :
      b.Prepares (.createJob (bodyNamespace job) job)

inductive Backup.Records (b : Backup) : Api.Call → Prop where
  | readJob : b.Records (.readJob b.ns (.str (Job.nameFor b)))
  | replaceStatus {p : Progress} {d : Destination}
      (hopen : Record.isClosedTo b.record (.ofProgress p d b.profile) = .ok false)
      (hnew : (Record.ofProgress p d b.profile).differsFrom b.record = true) :
      b.Records (.replaceStatus ⟨b.ns, b.name, b.version, .ofProgress p d b.profile⟩)

def Backup.MayCall (b : Backup) (c : Api.Call) : Prop := b.Prepares c ∨ b.Records c

/-! ## Steps -/

theorem within_lookUpCluster (name : Json) :
    Task.Within b.Prepares D (lookUpCluster b.ns name : Task τ Cluster) := by
  refine (Task.Within.ask .listClusters).bind fun answer => ?_
  cases answer with
  | error e =>
    dsimp only
    split
    · exact .fail _
    · exact .fail _
  | ok response =>
    refine (Task.Within.require _ _).bind fun clusters => ?_
    split
    · exact .pure _
    · exact .fail _

theorem Volume.within_ensureClaim {claim : Claim} {template : List (String × Json)}
    {name : String} (h : Claim.forBackup b template name = .ok claim) :
    Task.Within b.Prepares D (ensureClaim b.ns name claim : Task τ Unit) := by
  refine (Task.Within.ask (.readClaim name)).bind fun answer => ?_
  cases answer with
  | ok phase => exact .pure _
  | error e =>
    dsimp only
    split
    · exact .fail _
    · refine (Task.Within.ask (.createClaim h)).bind fun created => ?_
      cases created with
      | ok => exact .pure _
      | error e =>
        dsimp only
        split
        · exact .pure _
        · exact .fail _

theorem Volume.within_currentPhase {P : Api.Call → Prop} {ns : Json} {name : String}
    (h : P (.readClaim ns (.str name))) :
    Task.Within P D (currentPhase ns name : Task τ Json) := by
  refine (Task.Within.ask h).bind fun answer => ?_
  cases answer with
  | ok phase => exact .pure _
  | error e =>
    dsimp only
    split
    · exact .pure _
    · exact .fail _

theorem Volume.within_awaitBound {P : Api.Call → Prop} {ns : Json} {name : String}
    (h : P (.readClaim ns (.str name))) (attempts : Int) {delay : Nat → τ}
    (hd : ∀ n, D (delay n)) : Task.Within P D (awaitBound attempts delay ns name) := by
  unfold awaitBound Polling.poll?
  dsimp only
  split
  · exact .throw _
  · rename_i polling hpoll
    split at hpoll
    · cases hpoll
    · cases hpoll
      refine Task.Within.bind (Polling.within_pollFrom ?_ ?_ _ _ _) fun result => ?_
      · intro n s
        exact Task.Within.bind ((within_currentPhase h).map _) fun _ => .pure _
      · intro n s
        exact (Task.Within.sleep (hd n)).map _
      · split
        · exact .pure _
        · exact .fail _

theorem Volume.within_provide (attempts : Int) {delay : Nat → τ} (hd : ∀ n, D (delay n))
    (template : List (String × Json)) (name : String) :
    Task.Within b.Prepares D (provide attempts delay b template name) := by
  refine Task.Within.require_bind fun claim hclaim => ?_
  exact (within_ensureClaim hclaim).bind fun _ => within_awaitBound (.readClaim name) attempts hd

theorem within_submit {job : Job} {cluster : Cluster} {d : Destination} {limit : Int}
    (h : Job.forBackup b cluster d limit = .ok job) :
    Task.Within b.Prepares D (submit job : Task τ Bool) := by
  refine (Task.Within.ask (.createJob h)).bind fun created => ?_
  cases created with
  | ok => exact .pure _
  | error e =>
    dsimp only
    split
    · exact .pure _
    · exact .fail _

theorem within_recordProgress (d : Destination) :
    Task.Within b.Records D (recordProgress b (Job.nameFor b) d : Task τ _) := by
  refine (Task.Within.ask .readJob).bind fun answer => ?_
  cases answer with
  | error e =>
    dsimp only
    split
    · exact .pure _
    · exact .fail _
  | ok status =>
    dsimp only
    split
    · exact .throw _
    · rename_i progress _
      refine Task.Within.require_bind fun closed hclosed => ?_
      split
      · exact .pure _
      · rename_i hopen
        rw [Bool.not_eq_true] at hopen
        rw [hopen] at hclosed
        split
        · rename_i hnew
          refine Task.Within.bind ?_ fun _ => .pure _
          refine (Task.Within.ask (.replaceStatus hclosed hnew)).bind fun written => ?_
          cases written with
          | ok => exact .pure _
          | error e => exact .fail _
        · exact .pure _

/-! ## The whole -/

variable [NatCast τ]

/-- A reconcile up to the submission of the job. What is left is to record how the job stands. -/
def toSubmission (settings : Settings τ) (b : Backup) : Task τ Destination := do
  let cluster ← lookUpCluster b.ns b.cluster
  match cluster.backup with
  | none => Task.fail (.backupNotSetUp cluster.name)
  | some _ =>
    let profile ← Task.require id (cluster.profile b.profile)
    let destination ← Task.require id (Destination.ofProfile b profile settings.claimName)
    if let .filesystem template := profile then
      Volume.provide settings.bindAttempts (fun n => (n : τ)) b template settings.claimName
    let job ← Task.require Stop.ofJobError
      (Job.forBackup b cluster destination settings.jobBackoffLimit)
    discard (submit job)
    return destination

theorem carryOut_eq (settings : Settings τ) (b : Backup) :
    carryOut settings b = toSubmission settings b >>= fun d =>
      discard (recordProgress b (Job.nameFor b) d) := by
  unfold carryOut toSubmission
  rw [bind_assoc]
  congr 1
  funext cluster
  cases cluster.backup with
  | none => rfl
  | some backup =>
    simp only [bind_assoc]
    congr 1
    funext profile
    congr 1
    funext destination
    cases profile <;> simp [bind_assoc]

theorem within_toSubmission (hd : ∀ n : Nat, D n) (settings : Settings τ) (b : Backup) :
    Task.Within b.Prepares D (toSubmission settings b) := by
  refine (within_lookUpCluster _).bind fun cluster => ?_
  split
  · exact .fail _
  · refine (Task.Within.require _ _).bind fun profile => ?_
    refine (Task.Within.require _ _).bind fun destination => ?_
    have hrest : Task.Within b.Prepares D (do
        let job ← Task.require Stop.ofJobError
          (Job.forBackup b cluster destination settings.jobBackoffLimit)
        discard (submit job)
        return destination : Task τ Destination) := by
      refine Task.Within.require_bind fun job hjob => ?_
      exact (within_submit hjob).discard.bind fun _ => .pure _
    split
    · exact (Volume.within_provide _ hd _ _).bind fun _ => hrest
    · exact hrest

theorem within_carryOut (hd : ∀ n : Nat, D n) (settings : Settings τ) (b : Backup) :
    Task.Within b.MayCall D (carryOut settings b) := by
  rw [carryOut_eq]
  refine ((within_toSubmission hd settings b).mono fun c hc => .inl hc).bind fun d => ?_
  exact ((within_recordProgress d).mono fun c hc => .inr hc).discard

def afterRead (settings : Settings τ) (key : ObjectKey) :
    Except Api.Failure Json → Api.Program τ (Except Fault Outcome)
  | .error f =>
    let e : Api.CallError := ⟨.getBackup key.ns key.name, f⟩
    .done (.ok (if e.isNotFound then .gone else .failed (.backupUnreadable e)))
  | .ok object =>
    match Backup.ofJson object with
    | .error e => .done (.error (.ofBackupError e))
    | .ok b => do return Outcome.ofResult (← (carryOut settings b).run)

theorem reconcile_eq (settings : Settings τ) (key : ObjectKey) :
    reconcile settings key =
      .call (.getBackup key.ns key.name) fun outcome => afterRead settings key outcome := by
  unfold reconcile reconcileNamed Api.Program.ask
  rw [Api.Program.call_bind]
  congr 1
  funext outcome
  rw [Api.Program.done_bind]
  cases outcome with
  | error f => rfl
  | ok object =>
    unfold afterRead
    dsimp only
    cases Backup.ofJson object <;> rfl

theorem within_afterRead (hd : ∀ n : Nat, D n) (settings : Settings τ) (key : ObjectKey)
    (outcome : Except Api.Failure Json) :
    (afterRead settings key outcome).Within
      (fun c => ∃ object b, outcome = .ok object ∧ Backup.ofJson object = .ok b ∧ b.MayCall c)
      D := by
  unfold afterRead
  split
  · trivial
  · rename_i object
    split
    · trivial
    · rename_i b hb
      refine Api.Program.Within.bind ?_ fun _ => trivial
      exact (within_carryOut hd settings b).mono fun c hc => ⟨object, b, rfl, hb, hc⟩

end ClusterBackup
