import ClusterBackup.Proofs.Api.Answers
import ClusterBackup.Proofs.Fleet.Submissions
import ClusterBackup.Proofs.Reconcile.Endings
import ClusterBackup.Proofs.Record.Stages
/-!
# What a reconcile leaves on its own

A reconcile of a backup on a server on which nothing else happens, when the job of the backup is
there and no obstacle comes up. It sees the backup as it is, makes a plan from the clusters as they
are, and reads the job as it is. What is recorded then follows from these three
(`leaves_of_settled`), and with it the stage (`Leaves.stage`).
-/

namespace ClusterBackup

open Api (Server Call Exchange)
open Api.Server (memberOrNull)
open Submissions (jobKey Names)

variable {τ : Type} {settings : Settings τ} {t : TextKey} {s : Server} {es : List Exchange}
  {object object' : Json} {stored : Api.StoredJob} {b : Backup}

/-! ## The server along the exchanges -/

def Api.Server.through (s : Server) (es : List Exchange) : Server :=
  es.foldl (fun s e => (s.answer e.call).2) s

theorem Api.Server.through_concat (s : Server) (es : List Exchange) (e : Exchange) :
    s.through (es ++ [e]) = ((s.through es).answer e.call).2 :=
  List.foldl_concat ..

theorem Api.Server.find?_job_through {k : ObjectKey} (h : s.jobs.find? k = some stored)
    (es : List Exchange) : (s.through es).jobs.find? k = some stored := by
  induction es generalizing s with
  | nil => exact h
  | cons e es ih => exact ih (find?_job_answer h e.call)

theorem Api.Server.backups_through (h : ∀ e ∈ es, e.call.isWrite = false) :
    (s.through es).backups = s.backups := by
  induction es generalizing s with
  | nil => rfl
  | cons e es ih =>
    rw [List.forall_mem_cons] at h
    exact (ih h.2).trans (backups_answer s h.1)

theorem Submissions.answer_readJob (hjob : s.jobs.find? (jobKey t) = some stored) :
    (s.answer (.readJob (.str t.1) (.str ("xb-" ++ t.2)))).1 = .ok stored.status := by
  have hkey : Server.keyOf (.str t.1) (.str ("xb-" ++ t.2)) = .ok (jobKey t) :=
    Server.keyOf_str t.1 ("xb-" ++ t.2)
  simp only [Server.answer, Server.stored_of_find? hkey hjob, Except.map]

theorem Submissions.replaced_of_answer {u : Api.StatusUpdate}
    (hobject : s.backups.find? t.key = some object) (hns : u.ns = .str t.1)
    (hname : u.name = .str t.2) (hok : (s.answer (.replaceStatus u)).1 = .ok ()) :
    ∃ object', Server.replaced object u = .ok object' ∧
      (s.answer (.replaceStatus u)).2.backups.find? t.key = some object' := by
  have hkey : Server.keyOf u.ns u.name = .ok t.key := by
    rw [hns, hname]
    exact Server.keyOf_str t.1 t.2
  simp only [Server.answer, Server.stored_of_find? hkey hobject] at hok ⊢
  cases hreplaced : Server.replaced object u with
  | error f =>
    rw [hreplaced] at hok
    cases hok
  | ok object' =>
    refine ⟨object', rfl, ?_⟩
    dsimp only
    rw [Table.find?_insert, if_pos (BEq.refl _)]

/-- What becomes of a backup with a new record: it stands as it is, where the record is closed or
says the same, or it has the new record. -/
inductive Leaves (b : Backup) (candidate : Record) (object : Json) : Json → Prop where
  | standing {closed : Bool} (hclosed : Record.isClosedTo b.record candidate = .ok closed)
      (hstands : closed = true ∨ candidate.differsFrom b.record = false) :
      Leaves b candidate object object
  | written {object' : Json} (hopen : Record.isClosedTo b.record candidate = .ok false)
      (hnew : candidate.differsFrom b.record = true)
      (hstatus : memberOrNull object' "status" = candidate.toJson) :
      Leaves b candidate object object'

/-- The stage that is recorded follows from the one that was recorded and the one that is seen. -/
theorem Leaves.stage {progress : Progress} {d : Destination}
    (h : Leaves b (.ofProgress progress d b.profile) object object')
    (hb : Backup.ofJson object = .ok b) :
    stageOf? object' = some (Stage.next (stageOf? object) progress.stage) := by
  rw [← (Backup.readFrom_of_ofJson hb).stage?]
  cases h with
  | standing hclosed hstands =>
    rw [← (Backup.readFrom_of_ofJson hb).stage?]
    rcases hstands with rfl | hsame
    · exact Record.next_of_closed hclosed
    · cases hr : b.record with
      | none =>
        rw [hr] at hsame
        cases hsame
      | some r =>
        rw [hr] at hclosed hsame
        have hstage : r.stage? = some progress.stage := by
          refine Record.stage?_of_same ?_ (Record.stage?_ofProgress progress d b.profile)
          simpa [Record.differsFrom] using hsame
        rw [Option.bind_some, hstage]
        show some progress.stage = some (if _ then _ else _)
        split <;> rfl
  | written hopen hnew hstatus =>
    rw [Record.next_of_open hopen]
    exact stageOf?_of_record hstatus (Record.stage?_ofProgress progress d b.profile)

/-- On a server each call is answered as the exchanges before it have left it. -/
theorem Api.Server.outcome_of_append {α : Type} {p : Api.Program τ α} (before : List Exchange)
    {after : List Exchange} {e : Exchange} (h : p.exchanges (host τ) s = before ++ e :: after) :
    e.outcome = ((s.through before).answer e.call).1 :=
  Api.Program.outcome_of_append (fun _ _ => rfl) before h

variable [NatCast τ]

theorem find?_of_exchanges {rest : List Exchange}
    (h : (reconcile settings t.key).exchanges (Server.host τ) s =
      ⟨.getBackup t.key.ns t.key.name, .ok object⟩ :: rest) :
    s.backups.find? t.key = some object := by
  have hread : Except.ok object = (s.answer (.getBackup t.key.ns t.key.name)).1 :=
    Server.outcome_of_append [] h
  rw [Submissions.answer_read] at hread
  cases hfind : s.backups.find? t.key with
  | none =>
    rw [hfind] at hread
    cases hread
  | some found =>
    rw [hfind] at hread
    cases hread
    rfl

/-- The backup is read as it is, and the clusters are listed as they are. -/
theorem HasPlan.of_sole {p : Plan} (hobject : s.backups.find? t.key = some object)
    (h : HasPlan settings t.key b p ((reconcile settings t.key).exchanges (Server.host τ) s)) :
    Backup.ofJson object = .ok b ∧
      planFor settings b (s.answer (.listClusters b.ns)).1 = .ok p := by
  obtain ⟨object', listing, rest, hes, hread, hplan⟩ := h.eq_cons
  have hthere := find?_of_exchanges hes
  rw [hobject] at hthere
  cases hthere
  have hlisting : Except.ok listing =
      ((s.answer (.getBackup t.key.ns t.key.name)).2.answer (.listClusters b.ns)).1 :=
    Server.outcome_of_append [_] hes
  rw [Submissions.answer_read] at hlisting
  rw [hlisting] at hplan
  exact ⟨hread, hplan⟩

/-- What a reconcile on its own leaves follows from the backup, the clusters and the job as they
are. -/
theorem leaves_of_settled (hobject : s.backups.find? t.key = some object) (hn : Names t object)
    (hjob : s.jobs.find? (jobKey t) = some stored)
    (hsettled : ((reconcile settings t.key).run (Server.host τ) s).1 = .ok .settled) :
    ∃ b p progress object', Backup.ofJson object = .ok b ∧
      planFor settings b (s.answer (.listClusters b.ns)).1 = .ok p ∧
      Progress.ofStatus? stored.status = some progress ∧
      ((reconcile settings t.key).run (Server.host τ) s).2.backups.find? t.key = some object' ∧
      Leaves b (.ofProgress progress p.destination b.profile) object object' := by
  have hended : Ended settings t.key ((reconcile settings t.key).exchanges (Server.host τ) s)
      ((reconcile settings t.key).run (Server.host τ) s).1 :=
    (obeys_reconcile_ended settings t.key).result (Server.host τ) s
  rw [hsettled] at hended
  obtain ⟨b, p, hfinished⟩ := hended.settled_iff.1 rfl
  obtain ⟨hb, hplan⟩ := hfinished.hasPlan.of_sole hobject
  obtain ⟨hns, hname⟩ := Submissions.names_of_readFrom (Backup.readFrom_of_ofJson hb) hn
  have hjobName : Job.nameFor b = "xb-" ++ t.2 := by
    rw [Job.nameFor, hname]
    rfl
  have hafter : ((reconcile settings t.key).run (Server.host τ) s).2 =
      s.through ((reconcile settings t.key).exchanges (Server.host τ) s) :=
    Api.Program.run_eq_foldl (fun _ _ => rfl) _ s
  -- The job is read as it is, since no call changes it.
  have hread : ∀ {es after} {outcome : Except Api.Failure (Option Api.JobStatus)},
      (reconcile settings t.key).exchanges (Server.host τ) s =
        es ++ ⟨.readJob b.ns (.str (Job.nameFor b)), outcome⟩ :: after →
      outcome = .ok stored.status := by
    intro es after outcome hes
    have houtcome : outcome = ((s.through es).answer (.readJob b.ns (.str (Job.nameFor b)))).1 :=
      Server.outcome_of_append es hes
    rw [hns, hjobName, Submissions.answer_readJob (Server.find?_job_through hjob es)] at houtcome
    exact houtcome
  have hearly : ∀ {es}, Submitted settings t.key b p es → (s.through es).backups = s.backups := by
    intro es h
    refine Server.backups_through fun e he => ?_
    have hnot := h.early e he
    simp only [Call.isEarly, Bool.and_eq_true, Bool.not_eq_true'] at hnot
    exact hnot.2
  rw [hafter]
  generalize hes : (reconcile settings t.key).exchanges (Server.host τ) s = es at hfinished
  cases hfinished with
  | jobGone => cases hread hes
  | @standing es status progress closed h hstatus hclosed hstands =>
    cases hread hes
    refine ⟨b, p, progress, object, hb, hplan, hstatus, ?_, .standing hclosed hstands⟩
    rw [Server.through_concat, Server.backups_answer _ rfl, hearly h]
    exact hobject
  | @written es status progress h hstatus hopen hnew =>
    have hes' := hes
    rw [List.append_assoc] at hes'
    cases hread hes'
    have hfind : (s.through (es ++ [⟨.readJob b.ns (.str (Job.nameFor b)),
        .ok stored.status⟩])).backups.find? t.key = some object := by
      rw [Server.through_concat, Server.backups_answer _ rfl, hearly h]
      exact hobject
    obtain ⟨object', hreplaced, hobject'⟩ := Submissions.replaced_of_answer hfind hns hname
      (Server.outcome_of_append _ hes).symm
    refine ⟨b, p, progress, object', hb, hplan, hstatus, ?_,
      .written hopen hnew (hn.status_of_replaced hreplaced)⟩
    rw [Server.through_concat]
    exact hobject'

end ClusterBackup
