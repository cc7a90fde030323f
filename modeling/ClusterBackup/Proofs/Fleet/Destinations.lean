import ClusterBackup.Proofs.Api.JobBodies
import ClusterBackup.Proofs.Fleet.Origins
import ClusterBackup.Proofs.Record.RoundTrip
/-!
# Where a job writes and what is recorded of it

The job of a backup keeps the destination it was created with. The record is made anew from the
clusters and the backup as they are at each reconcile. When the storage profile or the choice of it
is edited in between, the record names a place that the job does not write to. The two agree as long
as all plans of the run lead to one address (`recorded_destination`).
-/

namespace ClusterBackup

open Api (Server Call)
open Api.Server (memberOrNull)

def destinationOf (object : Json) : Json :=
  memberOrNull (memberOrNull object "status") "destination"

@[simp] theorem memberOrNull_destination_toJson (r : Record) :
    memberOrNull r.toJson "destination" = r.destination := by
  simp [memberOrNull, Record.toJson, lookup_cons_eq_ite]

namespace Destinations

open Origins (Planned Traced KeepsJob Invariant rules)
open Submissions (jobKey Names Answers)

variable {τ : Type} {settings : Settings τ} {t : TextKey} {h : List (Fleet.Occurrence Server)}
  {first s u : Server} {object object' : Json}

/-- What others may change: everything but the names of the backup, its record, and what a job was
created with. They may remove the backup, the record and the job. -/
structure Edits (t : TextKey) (s u : Server) : Prop extends KeepsJob t s u where
  records : ∀ object, u.backups.find? t.key = some object →
    (memberOrNull object "status").given = false ∨ ∃ old, s.backups.find? t.key = some old ∧
      memberOrNull object "status" = memberOrNull old "status"

structure IsFresh (t : TextKey) (s : Server) : Prop where
  names : ∀ object, s.backups.find? t.key = some object → Names t object
  record : ∀ object, s.backups.find? t.key = some object →
    (memberOrNull object "status").given = false
  job : s.jobs.find? (jobKey t) = none

/-- The record of the object, if it has one, is of a plan of the run. -/
def IsPlanned (settings : Settings τ) (t : TextKey) (h : List (Fleet.Occurrence Server))
    (object : Json) : Prop :=
  (memberOrNull object "status").given = true → ∃ b p progress, Planned settings t h b p ∧
    memberOrNull object "status" = (Record.ofProgress progress p.destination b.profile).toJson

/-- The server in every run: what jobs there are and what is recorded goes back to plans of the
run. -/
structure Accounted (settings : Settings τ) (t : TextKey) (first : Server)
    (h : List (Fleet.Occurrence Server)) (s : Server) : Prop extends
    Invariant settings t first h s where
  records : ∀ object, s.backups.find? t.key = some object → IsPlanned settings t h object

theorem IsPlanned.mono {before : List (Fleet.Occurrence Server)}
    (hp : IsPlanned settings t before object) (hsub : before ⊆ h) :
    IsPlanned settings t h object := by
  intro hg
  obtain ⟨b, p, progress, hplanned, hstatus⟩ := hp hg
  exact ⟨b, p, progress, hplanned.mono hsub, hstatus⟩

theorem Accounted.called {c : Call} {outcome : c.Outcome} (hi : Accounted settings t first h s)
    (hd : Fleet.IsDue (Due settings t.key) h c) (ha : Answers s c outcome u) :
    Accounted settings t first (h ++ [.called s c outcome u]) u := by
  have hsub : h ⊆ h ++ [.called s c outcome u] := List.subset_append_left h _
  refine ⟨hi.toInvariant.called hd ha, fun object hu => ?_⟩
  rcases ha.find? hu with hs | ⟨old, update, rfl, hs, hreplaced⟩
  · exact (hi.records object hs).mono hsub
  · -- The record that was accepted is the one of the call.
    obtain ⟨b, p, hplanned, progress, hupdate⟩ := Origins.planned_of_write hd
    refine fun _ => ⟨b, p, progress, hplanned.mono hsub, ?_⟩
    rw [(hi.names old hs).status_of_replaced hreplaced, hupdate]

theorem Accounted.changed (hi : Accounted settings t first h s) (hc : Edits t s u) :
    Accounted settings t first (h ++ [.changed s u]) u := by
  refine ⟨hi.toInvariant.changed hc.toKeepsJob, fun object hu hg => ?_⟩
  rcases hc.records object hu with hnone | ⟨old, hs, hstatus⟩
  · rw [hnone] at hg
    cases hg
  · rw [hstatus] at hg ⊢
    exact (hi.records old hs).mono (List.subset_append_left h _) hg

variable [NatCast τ] {last : Fleet τ Server}

theorem IsFresh.accounted (hf : IsFresh t first)
    (hrun : Fleet.Run (rules settings t (Edits t)) ⟨first, []⟩ h last) :
    Accounted settings t first h last.state := by
  refine hrun.invariant_of_due (fun p => Origins.due_of_starts) (fun hi hd ha => hi.called hd ha)
    (fun hi hc => hi.changed hc) ⟨⟨hf.names, fun stored hs => ?_⟩, fun object hs hg => ?_⟩
  · exact .inl ⟨stored, hs, rfl⟩
  · rw [hf.record object hs] at hg
    cases hg

/-- The job and the record of a backup, where it has both, each go back to a plan of the run. They
name the same destination if all plans of the run do. The record alone does not tell: a reconcile
records the same whatever the jobs that are there were created with. -/
theorem recorded_destination (settings : Settings τ) (hf : IsFresh t first) :
    (∀ (h : List (Fleet.Occurrence Server)) (last : Fleet τ Server) (object : Json)
        (stored : Api.StoredJob),
      Fleet.Run (rules settings t (Edits t)) ⟨first, []⟩ h last →
        last.state.backups.find? t.key = some object →
        (memberOrNull object "status").given = true →
        last.state.jobs.find? (jobKey t) = some stored →
        ∃ b p b' p' job, Planned settings t h b p ∧ Planned settings t h b' p' ∧
          stored.body = some job ∧ destinationOf object = .str p.destination.address ∧
          job.destination? = some (.str p'.destination.address) ∧
          ((∀ b p b' p', Planned settings t h b p → Planned settings t h b' p' →
              p.destination.address = p'.destination.address) →
            job.destination? = some (destinationOf object))) ∧
    (∀ (key : ObjectKey) (s s' : Server), s.SameButBodies s' →
      ((reconcile settings key).run (Server.host τ) s).1 =
          ((reconcile settings key).run (Server.host τ) s').1 ∧
        ((reconcile settings key).run (Server.host τ) s).2.backups =
          ((reconcile settings key).run (Server.host τ) s').2.backups) := by
  constructor
  · intro h last object stored hrun hobject hg hstored
    have ha := hf.accounted hrun
    obtain ⟨b, p, progress, hp, hstatus⟩ := ha.records object hobject hg
    have hrecorded : destinationOf object = .str p.destination.address := by
      rw [destinationOf, hstatus]
      exact memberOrNull_destination_toJson _
    rcases ha.jobs stored hstored with ⟨old, hold, -⟩ | ⟨b', p', job, hp', hbody, hjob⟩
    · rw [hf.job] at hold
      cases hold
    · have hwrites := Job.destination?_of_forBackup hjob
      refine ⟨b, p, b', p', job, hp, hp', hbody, hrecorded, hwrites, fun hagree => ?_⟩
      rw [hwrites, hrecorded, hagree b' p' b p hp' hp]
  · intro key s s' hsame
    obtain ⟨hresult, hstate⟩ := hsame.run (reconcile settings key)
    exact ⟨hresult, hstate.backups⟩

/-! ## A profile that is edited -/

namespace Nightly

open ClusterBackup.Nightly (names)
open Submissions.Nightly (server reconciled reconciling)

def otherCluster : Json :=
  .obj [("metadata", .obj [("name", .str "main")]),
    ("spec", .obj [("backup", .obj [("image", .str "xtrabackup"), ("storages", .obj [("s3",
      .obj [("type", .str "s3"), ("s3", .obj [("bucket", .str "archive")])])])])])]

def edited : Server :=
  { reconciled (server .null .empty) with clusters := [(.text "apps", otherCluster)] }

/-- A reconcile, the edit, and another reconcile. -/
def history : List (Fleet.Occurrence Server) :=
  reconciling (server .null .empty) ++ [.changed (reconciled (server .null .empty)) edited] ++
    reconciling edited

theorem isFresh_server : IsFresh names (server .null .empty) where
  names := Submissions.Nightly.isNew_server.names
  record object hs := by
    cases hs
    rfl
  job := rfl

theorem run_edited {first s : Server} {h : List (Fleet.Occurrence Server)}
    {back : List (Reconciling Rat)} (hf : IsFresh names first)
    (hrun : Fleet.Run (rules (.usual : Settings Rat) names (Edits names)) ⟨first, []⟩ h ⟨s, back⟩)
    (clusters : List (Atom × Json)) :
    Fleet.Run (rules (.usual : Settings Rat) names (Edits names)) ⟨first, []⟩
      (h ++ [.changed s { s with clusters }]) ⟨{ s with clusters }, back⟩ :=
  hrun.change ⟨⟨(hf.accounted hrun).names, fun stored hs => ⟨stored, hs, rfl⟩⟩,
    fun object hs => .inr ⟨object, hs, rfl⟩⟩

theorem run_history : ∃ back,
    Fleet.Run (rules (.usual : Settings Rat) names (Edits names)) ⟨server .null .empty, []⟩ history
      ⟨reconciled edited, back⟩ := by
  obtain ⟨_, h1⟩ := Origins.Nightly.run_reconciled (.refl : Fleet.Run
    (rules (.usual : Settings Rat) names (Edits names)) ⟨server .null .empty, []⟩ []
    ⟨server .null .empty, []⟩)
  exact Origins.Nightly.run_reconciled
    (run_edited isFresh_server h1 [(.text "apps", otherCluster)])

end Nightly

/-- After the edit the record names the new bucket, and the job writes to the old one. -/
theorem recorded_destination_nightly :
    ∃ (last : Fleet Rat Server) (object : Json) (stored : Api.StoredJob),
      Fleet.Run (rules (.usual : Settings Rat) Nightly.names
        (Edits Nightly.names)) ⟨Submissions.Nightly.server .null .empty, []⟩
        Nightly.history last ∧
      last.state.backups.find? Nightly.names.key = some object ∧
      last.state.jobs.find? (jobKey Nightly.names) = some stored ∧
      destinationOf object = .str "s3://archive/main-2024-01-01-00:00:00-xtrabackup.stream" ∧
      (∃ job, stored.body = some job ∧ job.destination? =
        some (.str "s3://dumps/main-2024-01-01-00:00:00-xtrabackup.stream")) ∧
      (Submissions.Nightly.reconciled last.state).backups =
        (Submissions.Nightly.reconciled { last.state with
          jobs := last.state.jobs.insert (jobKey Nightly.names)
            { stored with body := none } }).backups ∧
      ∃ b p b' p', Planned (.usual : Settings Rat) Nightly.names Nightly.history b p ∧
        Planned (.usual : Settings Rat) Nightly.names Nightly.history b' p' ∧
        p.destination.address ≠ p'.destination.address := by
  obtain ⟨back, hrun⟩ := Nightly.run_history
  have hrecord : ((Submissions.Nightly.reconciled Nightly.edited).backups.find?
      Nightly.names.key).map (fun object =>
        (destinationOf object, (memberOrNull object "status").given)) =
      some (.str "s3://archive/main-2024-01-01-00:00:00-xtrabackup.stream", true) := by
    decide +kernel
  have hjob : ((Submissions.Nightly.reconciled Nightly.edited).jobs.find?
      (jobKey Nightly.names)).map (fun stored =>
        stored.body.bind Job.destination?) =
      some (some (.str "s3://dumps/main-2024-01-01-00:00:00-xtrabackup.stream")) := by
    decide +kernel
  -- The run is only known by what was read off it here.
  generalize Submissions.Nightly.reconciled Nightly.edited = s at hrun hrecord hjob
  obtain ⟨object, hobject, hshown⟩ := Option.map_eq_some_iff.1 hrecord
  obtain ⟨stored, hstored, hbody⟩ := Option.map_eq_some_iff.1 hjob
  obtain ⟨hdestination, hgiven⟩ := Prod.mk.inj hshown
  obtain ⟨b, p, b', p', job, hp, hp', hstoredBody, hrecorded, hwrites, -⟩ :=
    (recorded_destination .usual Nightly.isFresh_server).1 _ _ object stored hrun hobject hgiven
      hstored
  rw [hstoredBody] at hbody
  have hother := ((recorded_destination (.usual : Settings Rat) Nightly.isFresh_server).2
    Nightly.names.key _ _ (Server.sameButBodies_insert none hstored)).2
  refine ⟨_, object, stored, hrun, hobject, hstored, hdestination, ⟨job, hstoredBody, hbody⟩,
    hother, b, p, b', p', hp, hp', fun hsame => ?_⟩
  rw [hdestination, hsame, Option.some.inj (hwrites.symm.trans hbody)] at hrecorded
  exact absurd hrecorded (by decide)

end Destinations

end ClusterBackup
