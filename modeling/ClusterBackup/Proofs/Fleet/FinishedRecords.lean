import ClusterBackup.Proofs.Fleet.Destinations
import ClusterBackup.Proofs.Fleet.StoredStages
/-!
# Records of finished backups

The record of a failure stays as it is, and so does that of a success with its time of completion.
The record of a success without one is replaced once at most, to add the time. It is then made anew
from the backup and the clusters as they are, so that it names another destination than before if
the profile was edited after the success (`finished_record_rewritten_once`).
-/

namespace ClusterBackup.Stored

open Api (Server)
open Api.Server (memberOrNull versionOf)
open Fleet (Occurrence)
open Submissions (jobKey Names)

variable {τ : Type} {key : ObjectKey} {s t : Stored} {object : Json} {settings : Settings τ}
  {b : Backup} {p : Plan} {progress : Progress} {u : Api.StatusUpdate}
  {h h' : List (Occurrence Stored)} {o : Occurrence Stored}

/-- A success is recorded with its time of completion, or a failure. -/
def IsClosed (s : Stored) : Prop :=
  s.stage? = some .failed ∨
    s.stage? = some .succeeded ∧ (completionOf s.object).isNull = false

def LacksCompletion (s : Stored) : Prop :=
  s.stage? = some .succeeded ∧ (completionOf s.object).isNull = true

theorem completionOf_of_record {r : Record} (h : s.status = r.toJson) :
    completionOf s.object = r.completedAt := by
  rw [← memberOrNull_completedAt_toJson, ← h]
  rfl

theorem completionOf_of_status (h : t.status = s.status) :
    completionOf t.object = completionOf s.object :=
  congrArg (memberOrNull · "completedAt") h

/-- Where a stage is recorded a record is read, with that stage and the time of completion. -/
theorem recorded {stage : Stage} (hb : Backup.ofJson s.object = .ok b)
    (hs : s.stage? = some stage) :
    ∃ r, b.record = some r ∧ r.stage? = some stage ∧ r.completedAt = completionOf s.object := by
  have hstate : stateOf s.object = .str stage.name := state_of_stageOf? hs
  have hgiven : (stateOf s.object).given = true := by
    rw [hstate]
    cases stage <;> rfl
  obtain ⟨r, hrecord, hrstate, hcompleted⟩ :=
    Record.ofJson_of_given (Backup.readFrom_of_ofJson hb).record hgiven
  exact ⟨r, hrecord, Record.stage?_of_state (hrstate.trans hstate), hcompleted⟩

theorem LacksCompletion.of_status (hs : s.LacksCompletion) (ht : t.status = s.status) :
    t.LacksCompletion := by
  refine ⟨(stage?_of_status ht).trans hs.1, ?_⟩
  rw [completionOf_of_status ht]
  exact hs.2

theorem IsClosed.of_status (hs : s.IsClosed) (ht : t.status = s.status) : t.IsClosed := by
  unfold IsClosed
  rw [stage?_of_status ht, completionOf_of_status ht]
  exact hs

theorem Moves.status_of_closed (hm : Moves τ h o) (hc : o.before.IsClosed) :
    o.after.status = o.before.status := by
  cases hm with
  | quiet hsame => exact hsame
  | replaced hreplaces =>
    have hopen := hreplaces.isOpen
    rcases hc with hfailed | ⟨hsucceeded, hcompleted⟩
    · obtain ⟨r, hr, hstage, -⟩ := recorded hreplaces.backup hfailed
      rw [hr, Record.isClosedTo_of_failed hstage] at hopen
      cases hopen
    · obtain ⟨r, hr, hstage, hcompletedAt⟩ := recorded hreplaces.backup hsucceeded
      have hc : r.completedAt.isNull = false := by
        rw [hcompletedAt]
        exact hcompleted
      rw [hr, Record.isClosedTo_of_completed hstage hc] at hopen
      cases hopen

/-! ## The time of completion -/

def completed (b : Backup) (p : Plan) (progress : Progress) : Record where
  state := .str Stage.succeeded.name
  destination := .str p.destination.address
  profile := b.profile
  bucket := p.destination.bucket
  completedAt := progress.completedAt

theorem ofProgress_eq_completed (h : progress.stage = .succeeded) :
    Record.ofProgress progress p.destination b.profile = completed b p progress := by
  simp [Record.ofProgress, completed, h]

/-- How the record of a success gets the time of completion that it lacks: it is made anew. -/
structure Completes (settings : Settings τ) (h : List (Occurrence Stored)) (s : Stored) (r : Record)
    (b : Backup) (p : Plan) (progress : Progress) (u : Api.StatusUpdate) : Prop extends
    Replaces settings h s b p progress u where
  recorded : b.record = some r
  wasSuccess : r.stage? = some .succeeded
  lacked : r.completedAt.isNull = true
  record : u.record = completed b p progress
  completion : progress.completedAt.isNull = false

theorem Replaces.completes (hr : Replaces settings h s b p progress u) (hs : s.LacksCompletion) :
    ∃ r, Completes settings h s r b p progress u := by
  obtain ⟨r, hrecord, hstage, hcompletedAt⟩ := recorded hr.backup hs.1
  have hopen := hr.isOpen
  rw [hrecord] at hopen
  obtain ⟨hsucceeded, hcompleted⟩ :=
    Record.completed_of_completes (Record.completes_of_open hstage hopen)
  refine ⟨r, hr, hrecord, hstage, ?_, ?_, hcompleted⟩
  · rw [hcompletedAt]
    exact hs.2
  · rw [hr.update]
    exact ofProgress_eq_completed hsucceeded

/-- The new record is the old one with the time exactly if the plan and the backup say what was
recorded. -/
theorem completed_eq_iff {r : Record} (hr : r.stage? = some .succeeded) :
    completed b p progress = { r with completedAt := progress.completedAt } ↔
      r.destination = .str p.destination.address ∧ r.profile = b.profile ∧
        r.bucket = p.destination.bucket := by
  obtain ⟨state, destination, profile, bucket, completedAt⟩ := r
  have hstate : state = .str Stage.succeeded.name := Record.state_of_stage? hr
  rw [completed, Record.mk.injEq, hstate]
  simp only [true_and, and_true]
  exact and_congr eq_comm (and_congr eq_comm eq_comm)

theorem isClosed_of_completed (hs : s.status = (completed b p progress).toJson)
    (hc : progress.completedAt.isNull = false) : s.IsClosed := by
  refine .inr ⟨stage?_of_record hs (Record.stage?_of_state rfl), ?_⟩
  rw [completionOf_of_record hs]
  exact hc

/-- Where the time of completion is lacking and is seen, the record is replaced. -/
theorem status_of_leaves {object' : Json} (hl : Leaves b (completed b p progress) object object')
    (hb : Backup.ofJson object = .ok b) (hs : (initial object).LacksCompletion)
    (hc : progress.completedAt.isNull = false) :
    (initial object').status = (completed b p progress).toJson := by
  cases hl with
  | written _ _ hstatus => exact hstatus
  | standing hclosed hstands =>
    have hread : Backup.ofJson (initial object).object = .ok b := hb
    obtain ⟨r, hr, hsuccess, hcompletedAt⟩ := recorded hread hs.1
    have hcandidate : (completed b p progress).stage? = some .succeeded :=
      Record.stage?_of_state rfl
    have hcompletes : (completed b p progress).completes r = true := by
      rw [Record.completes, hsuccess, hcandidate, hcompletedAt, hs.2, completed, hc]
      rfl
    obtain ⟨hopen, hnew⟩ := Record.isClosedTo_of_completes hcompletes
    rw [hr, hopen] at hclosed
    rw [hr, hnew] at hstands
    cases hclosed
    rcases hstands with hstands | hstands <;> cases hstands

/-- The record was replaced on the way to add the time of completion. -/
inductive CompletedOnce (τ : Type) (h : List (Occurrence Stored)) (status : Json) (r : Record)
    (b : Backup) (p : Plan) (progress : Progress) : List (Occurrence Stored) → Prop where
  | intro {front back : List (Occurrence Stored)} {s t : Stored} {u : Api.StatusUpdate}
      {outcome : Except Api.Failure Unit} {settings : Settings τ} (hbefore : s.status = status)
      (hcompletes : Completes settings (h ++ front) s r b p progress u) :
      CompletedOnce τ h status r b p progress
        (front ++ .called s (.replaceStatus u) outcome t :: back)

/-- What has become of the record of a success without a time of completion: it is there, or it was
replaced once. -/
def StaysOrCompleted (τ : Type) (h : List (Occurrence Stored)) (status : Json)
    (h' : List (Occurrence Stored)) (s : Stored) : Prop :=
  s.status = status ∨ ∃ r b p progress, CompletedOnce τ h status r b p progress h' ∧
    s.status = (completed b p progress).toJson

theorem CompletedOnce.wasSuccess {status : Json} {r : Record}
    (hc : CompletedOnce τ h status r b p progress h') :
    r.stage? = some .succeeded ∧ progress.completedAt.isNull = false := by
  obtain ⟨-, hcompletes⟩ := hc
  exact ⟨hcompletes.wasSuccess, hcompletes.completion⟩

theorem CompletedOnce.concat {status : Json} {r : Record}
    (hc : CompletedOnce τ h status r b p progress h') (o : Occurrence Stored) :
    CompletedOnce τ h status r b p progress (h' ++ [o]) := by
  obtain ⟨hbefore, hcompletes⟩ := hc
  rw [List.append_assoc, List.cons_append]
  exact ⟨hbefore, hcompletes⟩

theorem StaysOrCompleted.step (hs : s.LacksCompletion) (hm : Moves τ (h ++ h') o)
    (hi : StaysOrCompleted τ h s.status h' o.before) :
    StaysOrCompleted τ h s.status (h' ++ [o]) o.after := by
  rcases hi with hstays | ⟨r, b, p, progress, hcompleted, hstatus⟩
  · cases hm with
    | quiet hsame => exact .inl (hsame.trans hstays)
    | replaced hreplaces hstatus =>
      obtain ⟨r, hcompletes⟩ := hreplaces.completes (hs.of_status hstays)
      rw [hcompletes.record] at hstatus
      exact .inr ⟨r, _, _, _, ⟨hstays, hcompletes⟩, hstatus⟩
  · -- The record with the time of completion is closed.
    have hclosed := isClosed_of_completed hstatus hcompleted.wasSuccess.2
    exact .inr ⟨r, b, p, progress, hcompleted.concat o,
      (hm.status_of_closed hclosed).trans hstatus⟩

variable [NatCast τ]

/-- A closed record is not replaced. The record of a success without a time of completion is
replaced once at most, by the record of a success with one, which is otherwise the same exactly if
its plan says what was recorded. A reconcile on its own that reads the time does replace it. -/
theorem finished_record_rewritten_once (hv : (versionOf object).given = true)
    {middle : Fleet τ Stored} (hrun : Fleet.Run (rules τ key) ⟨initial object, []⟩ h middle) :
    (∀ h' last, Fleet.Run (rules τ key) middle h' last → middle.state.IsClosed →
      last.state.status = middle.state.status) ∧
    (∀ h' last, Fleet.Run (rules τ key) middle h' last → middle.state.LacksCompletion →
      last.state.status = middle.state.status ∨
        ∃ r b p progress, CompletedOnce τ h middle.state.status r b p progress h' ∧
          last.state.status = (completed b p progress).toJson ∧
          (completed b p progress = { r with completedAt := progress.completedAt } ↔
            r.destination = .str p.destination.address ∧ r.profile = b.profile ∧
              r.bucket = p.destination.bucket)) ∧
    (∀ (settings : Settings τ) (t : TextKey) (s : Server) (object : Json)
        (stored : Api.StoredJob) (progress : Progress),
      s.backups.find? t.key = some object → Names t object → (initial object).LacksCompletion →
        s.jobs.find? (jobKey t) = some stored →
        Progress.ofStatus? stored.status = some progress → progress.stage = .succeeded →
        progress.completedAt.isNull = false →
        ((reconcile settings t.key).run (Server.host τ) s).1 = .ok .settled →
        ∃ b p object', Backup.ofJson object = .ok b ∧
          planFor settings b (s.answer (.listClusters b.ns)).1 = .ok p ∧
          ((reconcile settings t.key).run (Server.host τ) s).2.backups.find? t.key =
            some object' ∧
          (initial object').status = (completed b p progress).toJson) := by
  refine ⟨?_, ?_, ?_⟩
  · intro h' last hrun' hclosed
    refine hrun'.induct (fun _ s => s.status = middle.state.status) rfl ?_
    intro front o back hh hsame
    subst hh
    exact ((moves_of_trans hv hrun hrun').status_of_closed (hclosed.of_status hsame)).trans hsame
  · intro h' last hrun' hlacks
    have hi : StaysOrCompleted τ h middle.state.status h' last.state := by
      refine hrun'.induct (StaysOrCompleted τ h middle.state.status) (.inl rfl) ?_
      intro front o back hh hi
      subst hh
      exact hi.step hlacks (moves_of_trans hv hrun hrun')
    refine hi.imp_right ?_
    rintro ⟨r, b, p, progress, hcompleted, hstatus⟩
    exact ⟨r, b, p, progress, hcompleted, hstatus, completed_eq_iff hcompleted.wasSuccess.1⟩
  · intro settings t s object stored progress hobject hn hlacks hjob hprogress hstage hcompletion
      hsettled
    obtain ⟨b, p, progress', object', hb, hplan, hprogress', hobject', hleaves⟩ :=
      leaves_of_settled hobject hn hjob hsettled
    cases hprogress.symm.trans hprogress'
    refine ⟨b, p, object', hb, hplan, hobject', ?_⟩
    rw [ofProgress_eq_completed hstage] at hleaves
    exact status_of_leaves hleaves hb hlacks hcompletion

/-! ## A profile that is edited after the success -/

namespace Nightly

def untimed : Api.JobStatus := ⟨.null, .int 1, .null, .unsaid⟩

def untimedRecord : Json :=
  .obj [("state", .str "Succeeded"),
    ("destination", .str "s3://dumps/main-2024-01-01-00:00:00-xtrabackup.stream"),
    ("storageProfile", .str "s3"), ("objectStorage", .obj [("bucket", .str "dumps")])]

/-- The server with the success recorded, the time of completion known, and another bucket in the
profile. -/
def edited : Server :=
  { Submissions.Nightly.server untimedRecord (Table.empty.insert (jobKey Nightly.names)
      ⟨none, some ClusterBackup.Nightly.succeeded⟩) with
    clusters := [(.text "apps", Destinations.Nightly.otherCluster)] }

/-- A reconcile that reads the success, the edit, and a reconcile that reads the time. -/
theorem run_edited : ∃ h middle h' last,
    Fleet.Run (rules Rat ClusterBackup.Nightly.key)
      ⟨initial (ClusterBackup.Nightly.backup .null), []⟩ h middle ∧
    Fleet.Run (rules Rat ClusterBackup.Nightly.key) middle h' last ∧
    middle.state.LacksCompletion ∧
    destinationOf middle.state.object =
      .str "s3://dumps/main-2024-01-01-00:00:00-xtrabackup.stream" ∧
    destinationOf last.state.object =
      .str "s3://archive/main-2024-01-01-00:00:00-xtrabackup.stream" := by
  obtain ⟨middle, hrun, hmiddle⟩ := run_alone
    (answersWith ClusterBackup.Nightly.cluster untimed) (.usual : Settings Rat)
    ClusterBackup.Nightly.key (initial (ClusterBackup.Nightly.backup .null)) []
  obtain ⟨last, hrun', hlast⟩ := run_alone
    (answersWith Destinations.Nightly.otherCluster ClusterBackup.Nightly.succeeded)
    (.usual : Settings Rat) ClusterBackup.Nightly.key middle.state middle.running
  rw [hmiddle] at hlast
  refine ⟨_, middle, _, last, hrun, hrun', ?_, ?_, ?_⟩
  · rw [hmiddle]
    exact ⟨by decide +kernel, by decide +kernel⟩
  · rw [hmiddle]
    decide +kernel
  · rw [hlast]
    decide +kernel

end Nightly

/-- The record of the success names the new bucket once the time of completion is added. That of a
failure stays. -/
theorem finished_record_rewritten_once_nightly :
    (∃ h middle h' last r b p progress,
      Fleet.Run (rules Rat ClusterBackup.Nightly.key)
        ⟨initial (ClusterBackup.Nightly.backup .null), []⟩ h middle ∧
      Fleet.Run (rules Rat ClusterBackup.Nightly.key) middle h' last ∧
      middle.state.LacksCompletion ∧
      CompletedOnce Rat h middle.state.status r b p progress h' ∧
      destinationOf middle.state.object =
        .str "s3://dumps/main-2024-01-01-00:00:00-xtrabackup.stream" ∧
      destinationOf last.state.object =
        .str "s3://archive/main-2024-01-01-00:00:00-xtrabackup.stream") ∧
    (∃ h last, Fleet.Run (rules Rat ClusterBackup.Nightly.key)
        ⟨initial (ClusterBackup.Nightly.backup (.obj [("state", .str "Failed")])), []⟩ h last ∧
      last.state.status = .obj [("state", .str "Failed")]) ∧
    ∃ object', ((reconcile (.usual : Settings Rat) Nightly.names.key).run
        (Server.host Rat) Nightly.edited).2.backups.find? Nightly.names.key =
          some object' ∧
      destinationOf object' = .str "s3://archive/main-2024-01-01-00:00:00-xtrabackup.stream" := by
  refine ⟨?_, ?_, ?_⟩
  · obtain ⟨h, middle, h', last, hrun, hrun', hlacks, hold, hnew⟩ := Nightly.run_edited
    rcases (finished_record_rewritten_once (by decide) hrun).2.1 h' last hrun' hlacks with
      hsame | ⟨r, b, p, progress, hcompleted, -, -⟩
    · have hdestination : destinationOf last.state.object = destinationOf middle.state.object :=
        congrArg (memberOrNull · "destination") hsame
      rw [hold, hnew] at hdestination
      exact absurd hdestination (by decide)
    · exact ⟨h, middle, h', last, r, b, p, progress, hrun, hrun', hlacks, hcompleted, hold, hnew⟩
  · obtain ⟨last, hrun, -⟩ := run_alone ClusterBackup.Nightly.answers (.usual : Settings Rat)
      ClusterBackup.Nightly.key
      (initial (ClusterBackup.Nightly.backup (.obj [("state", .str "Failed")]))) []
    refine ⟨_, last, hrun, ?_⟩
    exact (finished_record_rewritten_once (by decide) .refl).1 _ last hrun (.inl (by decide))
  · have hsettled : ((reconcile (.usual : Settings Rat) Nightly.names.key).run
        (Server.host Rat) Nightly.edited).1 = .ok .settled :=
      eq_ok_of_toOption (by decide +kernel)
    have hnone : Fleet.Run (rules Rat ClusterBackup.Nightly.key)
        ⟨initial (ClusterBackup.Nightly.backup .null), []⟩ [] ⟨_, []⟩ := .refl
    obtain ⟨b, p, object', -, -, hobject', -⟩ :=
      (finished_record_rewritten_once (by decide) hnone).2.2 (.usual : Settings Rat)
        Nightly.names Nightly.edited
        (ClusterBackup.Nightly.backup Nightly.untimedRecord)
        ⟨none, some ClusterBackup.Nightly.succeeded⟩
        ⟨.int 0, .int 1, .int 0, .str "2024-01-01T01:00:00+00:00"⟩ rfl ⟨rfl, rfl⟩
        ⟨by decide, by decide⟩ (by decide) rfl (by decide) rfl hsettled
    have hshown : (((reconcile (.usual : Settings Rat) Nightly.names.key).run
        (Server.host Rat) Nightly.edited).2.backups.find? Nightly.names.key).map
          destinationOf =
        some (.str "s3://archive/main-2024-01-01-00:00:00-xtrabackup.stream") := by
      decide +kernel
    rw [hobject', Option.map_some, Option.some.injEq] at hshown
    exact ⟨object', hobject', hshown⟩

end ClusterBackup.Stored
