import ClusterBackup.Proofs.Fleet.Replacements
import ClusterBackup.Proofs.Fleet.SoleReconcile
/-!
# The stages that are recorded one after the other

What is recorded of a backup goes forward from no stage to starting, running and a final stage, with
one exception. A backup that was recorded as running is recorded as starting again when the counters
of its job are read while none of them is one, such as between two pods
(`stored_stage_falls_only_from_running`).
-/

namespace ClusterBackup.Stored

open Api (Server)
open Api.Server (memberOrNull versionOf)
open Fleet (Occurrence)
open Submissions (jobKey Names)

variable {τ : Type} {key : ObjectKey} {s t : Stored} {object : Json}
  {h : List (Occurrence Stored)} {o : Occurrence Stored}

def stage? (s : Stored) : Option Stage := stageOf? s.object

theorem stage?_of_status (h : t.status = s.status) : t.stage? = s.stage? := by
  have hstate : stateOf t.object = stateOf s.object :=
    congrArg (memberOrNull · "state") h
  unfold stage? stageOf?
  rw [hstate]

theorem stage?_of_record {r : Record} {stage : Stage} (h : t.status = r.toJson)
    (hr : r.stage? = some stage) : t.stage? = some stage := stageOf?_of_record h hr

/-- A backup that was recorded as running is recorded as starting, by the counters that were
read. -/
def FallsBack (τ : Type) (h : List (Occurrence Stored)) (o : Occurrence Stored) : Prop :=
  o.before.stage? = some .running ∧ o.after.stage? = some .starting ∧
    ∃ (settings : Settings τ) (b : Backup) (p : Plan) (progress : Progress)
      (u : Api.StatusUpdate), Replaces settings h o.before b p progress u ∧
        progress.stage = .starting

/-- No occurrence takes a backup back to an earlier stage, except from running to starting. -/
theorem Moves.rank_le (hm : Moves τ h o) :
    Stage.rank o.before.stage? ≤ Stage.rank o.after.stage? ∨ FallsBack τ h o := by
  cases hm with
  | quiet hsame =>
    rw [stage?_of_status hsame]
    exact .inl (Nat.le_refl _)
  | @replaced s t u outcome settings b p progress hreplaces hstatus =>
    have hbefore : b.record.bind Record.stage? = s.stage? :=
      (Backup.readFrom_of_ofJson hreplaces.backup).stage?
    have hafter : t.stage? = some progress.stage := by
      refine stage?_of_record hstatus ?_
      rw [hreplaces.update]
      exact Record.stage?_ofProgress ..
    have hnext : Stage.next s.stage? progress.stage = progress.stage := by
      rw [← hbefore]
      exact Record.next_of_open hreplaces.isOpen
    rcases Stage.rank_le_next s.stage? progress.stage with hle | ⟨hrunning, hstarting⟩
    · rw [hnext, ← hafter] at hle
      exact .inl hle
    · rw [hnext] at hstarting
      refine .inr ⟨hrunning, ?_, settings, b, p, progress, u, hreplaces, hstarting⟩
      rw [← hstarting]
      exact hafter

variable [NatCast τ]

/-- From one moment of a run to a later one the stage does not fall, unless a running backup was
recorded as starting in between. That is what happens whenever a reconcile reads such counters: what
it leaves on its own is the stage that it saw, except for a final stage that was there. -/
theorem stored_stage_falls_only_from_running (hv : (versionOf object).given = true)
    {middle : Fleet τ Stored} (hrun : Fleet.Run (rules τ key) ⟨initial object, []⟩ h middle) :
    (∀ (h' : List (Occurrence Stored)) (last : Fleet τ Stored),
      Fleet.Run (rules τ key) middle h' last →
        Stage.rank middle.state.stage? ≤ Stage.rank last.state.stage? ∨
          ∃ front o back, h' = front ++ o :: back ∧ FallsBack τ (h ++ front) o) ∧
    (∀ (settings : Settings τ) (t : TextKey) (s : Server) (object : Json)
        (stored : Api.StoredJob),
      s.backups.find? t.key = some object → Names t object →
        s.jobs.find? (jobKey t) = some stored →
        ((reconcile settings t.key).run (Server.host τ) s).1 = .ok .settled →
        ∃ progress object', Progress.ofStatus? stored.status = some progress ∧
          ((reconcile settings t.key).run (Server.host τ) s).2.backups.find? t.key =
            some object' ∧
          stageOf? object' = some (Stage.next (stageOf? object) progress.stage)) := by
  constructor
  · intro h' last hrun'
    by_cases hfall : ∃ front o back, h' = front ++ o :: back ∧ FallsBack τ (h ++ front) o
    · exact .inr hfall
    · refine .inl (hrun'.induct (fun _ s => Stage.rank middle.state.stage? ≤ Stage.rank s.stage?)
        (Nat.le_refl _) fun front o back hh hle => hle.trans ?_)
      subst hh
      exact (moves_of_trans hv hrun hrun').rank_le.resolve_right fun hback =>
        hfall ⟨front, o, back, rfl, hback⟩
  · intro settings t s object stored hobject hn hjob hsettled
    obtain ⟨b, p, progress, object', hb, -, hprogress, hobject', hleaves⟩ :=
      leaves_of_settled hobject hn hjob hsettled
    exact ⟨progress, object', hprogress, hobject', hleaves.stage hb⟩

/-! ## A backup that is between two pods -/

namespace Nightly

def active : Api.JobStatus := ⟨.int 1, .null, .null, .unsaid⟩

/-- The server with the backup recorded as running, and its job between two pods. -/
def betweenPods : Server :=
  Submissions.Nightly.server (.obj [("state", .str "Running")])
    (Table.empty.insert (jobKey Nightly.names) ⟨none, some .blank⟩)

/-- A reconcile that reads the counters of an active pod, and one that reads them between two
pods. -/
theorem run_betweenPods : ∃ h middle h' last,
    Fleet.Run (rules Rat ClusterBackup.Nightly.key)
      ⟨initial (ClusterBackup.Nightly.backup .null), []⟩ h middle ∧
    Fleet.Run (rules Rat ClusterBackup.Nightly.key) middle h' last ∧
    middle.state.stage? = some .running ∧ last.state.stage? = some .starting := by
  obtain ⟨middle, hrun, hmiddle⟩ := run_alone
    (answersWith ClusterBackup.Nightly.cluster active) (.usual : Settings Rat)
    ClusterBackup.Nightly.key (initial (ClusterBackup.Nightly.backup .null)) []
  obtain ⟨last, hrun', hlast⟩ := run_alone
    (answersWith ClusterBackup.Nightly.cluster .blank) (.usual : Settings Rat)
    ClusterBackup.Nightly.key middle.state middle.running
  rw [hmiddle] at hlast
  refine ⟨_, middle, _, last, hrun, hrun', ?_, ?_⟩
  · rw [hmiddle]
    decide +kernel
  · rw [hlast]
    decide +kernel

end Nightly

/-- The nightly backup is recorded as running, and then as starting again. -/
theorem stored_stage_falls_only_from_running_nightly :
    (∃ h middle h' last,
      Fleet.Run (rules Rat ClusterBackup.Nightly.key)
        ⟨initial (ClusterBackup.Nightly.backup .null), []⟩ h middle ∧
      Fleet.Run (rules Rat ClusterBackup.Nightly.key) middle h' last ∧
      middle.state.stage? = some .running ∧ last.state.stage? = some .starting ∧
      ∃ front o back, h' = front ++ o :: back ∧ FallsBack Rat (h ++ front) o) ∧
    ∃ object', ((reconcile (.usual : Settings Rat) Nightly.names.key).run
        (Server.host Rat) Nightly.betweenPods).2.backups.find? Nightly.names.key =
          some object' ∧ stageOf? object' = some .starting := by
  constructor
  · obtain ⟨h, middle, h', last, hrun, hrun', hrunning, hstarting⟩ := Nightly.run_betweenPods
    refine ⟨h, middle, h', last, hrun, hrun', hrunning, hstarting, ?_⟩
    rcases (stored_stage_falls_only_from_running (by decide) hrun).1 h' last hrun' with
      hle | hfall
    · rw [hrunning, hstarting] at hle
      exact absurd hle (by decide)
    · exact hfall
  · have hsettled : ((reconcile (.usual : Settings Rat) Nightly.names.key).run
        (Server.host Rat) Nightly.betweenPods).1 = .ok .settled :=
      eq_ok_of_toOption (by decide +kernel)
    have hnone : Fleet.Run (rules Rat ClusterBackup.Nightly.key)
        ⟨initial (ClusterBackup.Nightly.backup .null), []⟩ [] ⟨_, []⟩ := .refl
    obtain ⟨progress, object', hprogress, hobject', hstage⟩ :=
      (stored_stage_falls_only_from_running (by decide) hnone).2 (.usual : Settings Rat)
        Nightly.names Nightly.betweenPods
        (ClusterBackup.Nightly.backup (.obj [("state", .str "Running")])) ⟨none, some .blank⟩
        rfl ⟨rfl, rfl⟩ (by decide) hsettled
    cases hprogress
    exact ⟨object', hobject', hstage⟩

end ClusterBackup.Stored
