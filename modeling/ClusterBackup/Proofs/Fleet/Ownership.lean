import ClusterBackup.Proofs.Api.JobBodies
import ClusterBackup.Proofs.Fleet.Origins
/-!
# Whose job a record counts

A job is found by the name of its backup, and it is owned by the backup that it was made for. When
a backup is removed and created again while the job is there, the new one gets the record of the old
one's job: nobody looks at the owners. The job is the backup's own as long as all backups that the
run has read under the name are one (`written_record_counts`).
-/

namespace ClusterBackup

open Api (Server Call)

namespace Ownership

open Origins (Planned Written KeepsJob rules)
open Submissions (jobKey Names Answers)

variable {τ : Type} [NatCast τ] {t : TextKey} {first : Server}

/-- A record that is written counts the job of the backup's name that was there when it was read.
That job was there at first, or it is owned by a backup that the run had read, and by no other. It
is owned by the backup that is written to if the run has read only that one. The owners do not
matter: a reconcile does the same whatever the jobs that are there were created with. -/
theorem written_record_counts (settings : Settings τ)
    (hn : ∀ object, first.backups.find? t.key = some object → Names t object) :
    (∀ (before after : List (Fleet.Occurrence Server)) (last : Fleet τ Server) (s : Server)
        (update : Api.StatusUpdate) (outcome : Except Api.Failure Unit) (u : Server),
      Fleet.Run (rules settings t (KeepsJob t)) ⟨first, []⟩
          (before ++ .called s (.replaceStatus update) outcome u :: after) last →
        ∃ b p stored, Written settings t first before update b p stored ∧
          ((∃ old, first.jobs.find? (jobKey t) = some old ∧ old.body = stored.body) ∨
            ∃ b' p' job, Planned settings t before b' p' ∧ stored.body = some job ∧
              job.owners = [b'.asOwner]) ∧
          (first.jobs.find? (jobKey t) = none →
            (∀ b' p', Planned settings t before b' p' → b'.uid = b.uid) →
            ∃ job, stored.body = some job ∧ job.IsOwnedBy b.uid)) ∧
    (∀ (key : ObjectKey) (s s' : Server), s.SameButBodies s' →
      ((reconcile settings key).run (Server.host τ) s).1 =
          ((reconcile settings key).run (Server.host τ) s').1 ∧
        ((reconcile settings key).run (Server.host τ) s).2.SameButBodies
          ((reconcile settings key).run (Server.host τ) s').2) := by
  refine ⟨?_, fun key s s' hsame => hsame.run (reconcile settings key)⟩
  intro before after last s update outcome u hrun
  obtain ⟨b, p, stored, hwritten⟩ := Origins.written_of_run (fun _ _ hc => hc) hn hrun
  refine ⟨b, p, stored, hwritten, ?_, ?_⟩
  · refine hwritten.traced.imp_right ?_
    rintro ⟨b', p', job, hp', hbody, hjob⟩
    exact ⟨b', p', job, hp', hbody, Job.owners_of_forBackup hjob⟩
  · intro hnone hone
    rcases hwritten.traced with ⟨old, hold, -⟩ | ⟨b', p', job, hp', hbody, hjob⟩
    · rw [hnone] at hold
      cases hold
    · have howned := Job.isOwnedBy_of_forBackup hjob
      rw [hone b' p' hp'] at howned
      exact ⟨job, hbody, howned⟩

/-! ## A backup that is created again -/

namespace Nightly

open ClusterBackup.Nightly (names)
open Submissions.Nightly (server reconciled reconciling)

def recreated : Json :=
  .obj [("metadata", .obj [("namespace", .str "apps"), ("name", .str "nightly"),
      ("uid", .str "u2"), ("creationTimestamp", .str "2024-01-02T00:00:00Z"),
      ("resourceVersion", .str "9")]),
    ("spec", .obj [("targetCluster", .str "main"), ("storageProfile", .str "s3")])]

/-- The server after the job has succeeded and the backup was created again. -/
def replaced (s : Server) : Server :=
  { s with
    backups := Table.empty.insert names.key recreated
    jobs := match s.jobs.find? (jobKey names) with
      | some stored => s.jobs.insert (jobKey names)
          { stored with status := some ClusterBackup.Nightly.succeeded }
      | none => s.jobs }

/-- A reconcile, the success of the job and the change of the backup, and another reconcile. -/
def history : List (Fleet.Occurrence Server) :=
  let submitted := reconciled (server .null .empty)
  reconciling (server .null .empty) ++ [.changed submitted (replaced submitted)] ++
    reconciling (replaced submitted)

theorem keepsJob_replaced (s : Server) : KeepsJob names s (replaced s) where
  names object hs := by
    cases hs
    exact ⟨rfl, rfl⟩
  jobs stored hs := by
    unfold replaced at hs
    dsimp only at hs
    split at hs
    · rename_i old hold
      rw [Table.find?_insert, if_pos (BEq.refl _)] at hs
      cases hs
      exact ⟨old, hold, rfl⟩
    · exact ⟨stored, hs, rfl⟩

theorem run_history : ∃ last, Fleet.Run (rules (.usual : Settings Rat) names (KeepsJob names))
    ⟨server .null .empty, []⟩ history last := by
  obtain ⟨_, h1⟩ := Origins.Nightly.run_reconciled (.refl : Fleet.Run
    (rules (.usual : Settings Rat) names (KeepsJob names)) ⟨server .null .empty, []⟩ []
    ⟨server .null .empty, []⟩)
  obtain ⟨_, h2⟩ := Origins.Nightly.run_reconciled (h1.change (keepsJob_replaced _))
  exact ⟨_, h2⟩

def uid (s : Server) : Json :=
  Server.memberOrNull (Server.memberOrNull ((s.backups.find? names.key).getD .null) "metadata")
    "uid"

def ownerUids (s : Server) : List Json :=
  match s.jobs.find? (jobKey names) with
  | some ⟨some job, _⟩ => job.owners.map OwnerReference.uid
  | _ => []

/-- Whether a success is recorded on the new backup from the job of the old one. -/
def strays : Fleet.Occurrence Server → Bool
  | .called s (.replaceStatus update) (.ok ()) _ =>
    update.record.state = .str "Succeeded" && uid s = .str "u2" && ownerUids s = [.str "u1"]
  | _ => false

end Nightly

/-- The backup that was created again is recorded as a success, from the job of the old one. -/
theorem written_record_counts_nightly :
    ∃ before s update outcome u after, Nightly.history =
        before ++ .called s (.replaceStatus update) outcome u :: after ∧
      update.record.state = .str "Succeeded" ∧ Nightly.uid s = .str "u2" ∧
      Nightly.ownerUids s = [.str "u1"] ∧
      (∃ b p stored, Written (.usual : Settings Rat) Nightly.names
        (Submissions.Nightly.server .null .empty) before update b p stored) ∧
      ∀ s', s.SameButBodies s' →
        ((reconcile (.usual : Settings Rat) Nightly.names.key).run (Server.host Rat)
            s).1 =
          ((reconcile (.usual : Settings Rat) Nightly.names.key).run (Server.host Rat)
            s').1 := by
  obtain ⟨last, hrun⟩ := Nightly.run_history
  -- The write is found by a search through the history, which is not written out.
  have hany : Nightly.history.any Nightly.strays = true := by decide +kernel
  obtain ⟨o, ho, hstrays⟩ := List.any_eq_true.1 hany
  obtain ⟨before, after, hsplit⟩ := List.append_of_mem ho
  unfold Nightly.strays at hstrays
  split at hstrays
  · rename_i s update u
    rw [Bool.and_eq_true, Bool.and_eq_true, decide_eq_true_eq, decide_eq_true_eq,
      decide_eq_true_eq] at hstrays
    rw [hsplit] at hrun
    have hcounts := written_record_counts (.usual : Settings Rat)
      Submissions.Nightly.isNew_server.names
    obtain ⟨b, p, stored, hwritten, -⟩ := hcounts.1 before after last s update (.ok ()) u hrun
    exact ⟨before, s, update, .ok (), u, after, hsplit, hstrays.1.1, hstrays.1.2, hstrays.2,
      ⟨b, p, stored, hwritten⟩, fun s' hsame => (hcounts.2 _ s s' hsame).1⟩
  · cases hstrays

end Ownership

end ClusterBackup
