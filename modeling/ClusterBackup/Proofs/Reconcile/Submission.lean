import ClusterBackup.Proofs.Api.ServerFrame
import ClusterBackup.Proofs.Reconcile.Calls
import ClusterBackup.Proofs.Resource.Owned
/-!
# Submission and the record

A reconcile submits the job of its backup before it looks at the record. The jobs that are there
after a reconcile are therefore the same whatever is recorded on the backup, and whatever its
version is (`jobsAfter_withBackups`).
-/

namespace ClusterBackup

variable {τ : Type} {b : Backup}

/-! ## Recording -/

theorem isSubmission_recordProgress (b : Backup) (d : Destination) :
    Task.Within (fun c => c.isSubmission = false) (fun _ => True)
      (discard (recordProgress b (Job.nameFor b) d) : Task τ Unit) :=
  ((within_recordProgress d).mono fun c hc => by cases hc <;> rfl).discard

theorem callsUntil_recordProgress (b : Backup) (d : Destination) :
    Task.CallsUntil (fun c outcome => c.isJobRead = true ∧ outcome.isOk = true)
      (fun c => c.isWrite = false)
      (discard (recordProgress b (Job.nameFor b) d) : Task τ Unit) := by
  have hread : Task.CallsUntil (fun c outcome => c.isJobRead = true ∧ outcome.isOk = true)
      (fun c => c.isWrite = false) (recordProgress b (Job.nameFor b) d : Task τ _) := by
    refine Task.CallsUntil.ask_bind rfl fun outcome => ?_
    cases outcome with
    | ok status => exact .inl ⟨rfl, rfl⟩
    | error f =>
      refine .inr (Task.Within.callsUntil (D := fun _ => True) ?_)
      change Task.Within _ _ (if _ then _ else _)
      split
      · exact .pure _
      · exact .fail _
  exact hread.bind fun _ => trivial

/-! ## Up to the submission -/

variable [NatCast τ]

/-- Up to the submission neither the record nor the version is looked at. -/
theorem toSubmission_withRecord (settings : Settings τ) (b : Backup) (record : Option Record)
    (version : Json) :
    toSubmission settings { b with record, version } = toSubmission settings b := by
  rfl

theorem isForBackup_toSubmission (settings : Settings τ) (b : Backup) :
    Task.Within (fun c => c.isForBackup = false) (fun _ => True) (toSubmission settings b) :=
  (within_toSubmission (fun _ => trivial) settings b).mono fun c hc => by cases hc <;> rfl

/-! ## Up to the read of the job -/

/-- No record is written before the job has been read. -/
theorem callsUntil_afterRead (settings : Settings τ) (key : ObjectKey)
    (outcome : Except Api.Failure Json) :
    (afterRead settings key outcome).CallsUntil
      (fun c outcome => c.isJobRead = true ∧ outcome.isOk = true) fun c => c.isWrite = false := by
  unfold afterRead
  split
  · trivial
  · split
    · trivial
    · rename_i b hb
      refine Api.Program.CallsUntil.bind ?_ fun _ => trivial
      have hsubmission : Task.Within (fun c => c.isWrite = false) (fun _ => True)
          (toSubmission settings b) :=
        (within_toSubmission (fun _ => trivial) settings b).mono fun c hc => by cases hc <;> rfl
      rw [carryOut_eq]
      exact hsubmission.callsUntil.bind fun d => callsUntil_recordProgress b d

/-! ## The jobs after a reconcile -/

/-- The jobs after a reconcile of a backup that was read are those after its submission. -/
theorem jobs_carryOut (settings : Settings τ) (b : Backup) (s : Api.Server) :
    ((carryOut settings b).run.run (Api.Server.host τ) s).2.jobs =
      ((toSubmission settings b).run.run (Api.Server.host τ) s).2.jobs := by
  have hsplit : (carryOut settings b).run = (toSubmission settings b).run >>= ExceptT.bindCont
      fun d => discard (recordProgress b (Job.nameFor b) d) := by
    rw [carryOut_eq]
    rfl
  rw [hsplit, Api.Program.run_bind]
  cases ((toSubmission settings b).run.run (Api.Server.host τ) s).1 with
  | error stop => rfl
  | ok d => exact Api.Server.jobs_run (isSubmission_recordProgress b d) _

def jobsAfter (settings : Settings τ) (key : ObjectKey) (s : Api.Server) :
    Table ObjectKey Api.StoredJob :=
  ((reconcile settings key).run (Api.Server.host τ) s).2.jobs

theorem jobsAfter_eq {object : Json} {key : ObjectKey} {s : Api.Server}
    (settings : Settings τ) (hfind : s.answer (.getBackup key.ns key.name) = (.ok object, s))
    (hb : Backup.ofJson object = .ok b) :
    jobsAfter settings key s =
      ((toSubmission settings b).run.run (Api.Server.host τ) s).2.jobs := by
  rw [← jobs_carryOut, jobsAfter, reconcile_eq]
  show ((afterRead settings key (s.answer (.getBackup key.ns key.name)).1).run (Api.Server.host τ)
    (s.answer (.getBackup key.ns key.name)).2).2.jobs = _
  rw [hfind]
  unfold afterRead
  dsimp only
  rw [hb]
  dsimp only
  rw [Api.Program.run_bind]
  rfl

/-- A reconcile leaves the same jobs whatever is recorded on its backup, and whatever its version
is. -/
theorem jobsAfter_withBackups {object object' : Json} {key : ObjectKey} {s : Api.Server}
    {x : Table ObjectKey Json} {record : Option Record} {version : Json} (settings : Settings τ)
    (hfind : s.answer (.getBackup key.ns key.name) = (.ok object, s))
    (hb : Backup.ofJson object = .ok b)
    (hfind' : ({ s with backups := x } : Api.Server).answer (.getBackup key.ns key.name) =
      (.ok object', { s with backups := x }))
    (hb' : Backup.ofJson object' = .ok { b with record, version }) :
    jobsAfter settings key { s with backups := x } = jobsAfter settings key s := by
  rw [jobsAfter_eq settings hfind hb, jobsAfter_eq settings hfind' hb',
    toSubmission_withRecord, Api.Server.run_withBackups (isForBackup_toSubmission settings b)]

end ClusterBackup
