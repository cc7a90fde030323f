import ClusterBackup.Proofs.Reconcile.CallOrder
import ClusterBackup.Proofs.Reconcile.Hindrances
/-!
# What a reconcile finds

On an API on which nothing fails a reconcile ends well exactly if its backup is feasible, and else
reports what hinders it (`reconcile_diagnoses`). The plan is found or missed by the clusters alone;
the uid and the claim count only after that.
-/

namespace ClusterBackup

open Api (Server)
open Api.Server (versionOf)

variable {τ : Type} {settings : Settings τ} {s : Server} {ns : String} {b : Backup} {p : Plan}
  {cluster : Cluster} {profile : Profile} {o : Obstacle} {object : Json}

/-! ## The parts of a plan -/

theorem run_submit {job : Job} {d : Destination} {limit : Int} (hb : b.ns = .str ns)
    (hjob : Job.forBackup b cluster d limit = .ok job) (s : Server) :
    (discard (submit job) : Task τ Unit).run.run (Server.host τ) s =
        (.ok (), (s.answer (.createJob (.str ns) job)).2) ∧
      ((s.answer (.createJob (.str ns) job)).2.jobs.find?
        (.ofTexts ns (Job.nameFor b))).isSome = true := by
  obtain ⟨hjobNs, hjobName⟩ := Job.metadata_of_forBackup hjob
  have hanswer : s.answer (.createJob (.str ns) job) = _ := Server.answer_createJob hjobName
  have hsubmit : ∃ created, (submit job : Task τ Bool).run.run (Server.host τ) s =
      (.ok created, (s.answer (.createJob (.str ns) job)).2) := by
    unfold submit
    rw [hjobNs, hb, Task.run_ask_bind, hanswer]
    cases s.jobs.find? (.ofTexts ns (Job.nameFor b)) <;> exact ⟨_, rfl⟩
  obtain ⟨created, hsubmit⟩ := hsubmit
  refine ⟨Task.run_discard hsubmit, ?_⟩
  rw [hanswer]
  cases hfind : s.jobs.find? (.ofTexts ns (Job.nameFor b)) with
  | some found => simp [hfind]
  | none => simp [Table.find?_insert]

theorem run_recordProgress {t : TextKey} {d : Destination} {next : Json} (hs : s.TypedAround)
    (hobject : s.backups.find? t.key = some object) (hread : Backup.ofJson object = .ok b)
    (hnext : Server.nextVersion (versionOf object) = .ok next) (hns : b.ns = .str t.1)
    (hname : b.name = .str t.2) (hb : b.IsTyped)
    (hjob : (s.jobs.find? (.ofTexts t.1 (Job.nameFor b))).isSome = true) :
    ∃ backups, (discard (recordProgress b (Job.nameFor b) d) : Task τ Unit).run.run
      (Server.host τ) s = (.ok (), { s with backups }) := by
  obtain ⟨job, hfind⟩ := Option.isSome_iff_exists.1 hjob
  obtain ⟨progress, hprogress⟩ := Option.isSome_iff_exists.1 (hs.jobs _ job hfind)
  have hanswer : s.answer (.readJob b.ns (.str (Job.nameFor b))) = (.ok job.status, s) := by
    rw [hns]
    simp only [Server.answer, Server.stored, Server.keyOf_str, hfind, Except.map]
  obtain ⟨closed, hclosed⟩ :=
    Record.isClosedTo_of_isAtom hb.state (.ofProgress progress d b.profile)
  obtain ⟨object', -, hwrite⟩ := answer_replaceStatus hobject hread hns hname hnext
    (.ofProgress progress d b.profile)
  have hnote : ∃ record backups, (noteProgress b d progress : Task τ _).run.run
      (Server.host τ) s = (.ok record, { s with backups }) := by
    cases closed with
    | true =>
      refine ⟨b.record, s.backups, ?_⟩
      unfold noteProgress
      dsimp only
      rw [hclosed]
      rfl
    | false =>
      by_cases hnew : (Record.ofProgress progress d b.profile).differsFrom b.record = true
      · exact ⟨_, _, run_noteProgress hclosed hnew hwrite⟩
      · refine ⟨some (.ofProgress progress d b.profile), s.backups, ?_⟩
        unfold noteProgress
        dsimp only
        rw [hclosed, Task.require_ok, pure_bind, if_neg (by decide), if_neg hnew]
        rfl
  obtain ⟨record, backups, hnote⟩ := hnote
  have hrecord : (recordProgress b (Job.nameFor b) d : Task τ _).run.run (Server.host τ) s =
      (.ok record, { s with backups }) := by
    rw [recordProgress_eq, Task.run_ask_bind, hanswer]
    unfold recordFrom
    dsimp only [Except.mapError]
    rw [hprogress]
    exact hnote
  exact ⟨backups, Task.run_discard hrecord⟩

variable [NatCast τ]

/-- A backup without a uid is stopped before anything is created. -/
theorem run_followPlan_of_noUid {backup : BackupSection} (hb : b.ns = .str ns)
    (huid : b.uid.given = false) (hbackup : p.cluster.backup = some backup) :
    (followPlan settings b p).run.run (Server.host τ) s =
      (.error (.obstacle (.ownership (.noUid b.ns b.name))), s) := by
  have hjob := (Job.forBackup_eq hb hbackup p.destination settings.jobBackoffLimit).2 huid
  have hprepare : (prepare settings b p).run.run (Server.host τ) s =
      (.error (.obstacle (.ownership (.noUid b.ns b.name))), s) := by
    unfold prepare provideFor
    split
    · rename_i template _
      have hclaim := (Claim.forBackup_eq hb template settings.claimName).2 huid
      refine Task.run_bind_error _ ?_
      unfold Volume.provide
      rw [hclaim]
      rfl
    · rw [pure_bind, hjob]
      rfl
  exact Task.run_bind_error _ hprepare

theorem run_followPlan_of_unbound {template : List (String × Json)} (hn : 0 < settings.bindAttempts)
    (hs : Volume.AllReadOn s) (hb : b.ns = .str ns) (huid : b.uid.given = true)
    (hp : p.profile = .filesystem template) (hunbound : ¬ settings.GetsBound s ns) :
    ∃ claim claims, Claim.forBackup b template settings.claimName = .ok claim ∧
      Volume.ClaimedAt (settings.claimKey ns) (Volume.bodyOr s (settings.claimKey ns) claim)
        s.claims claims ∧
      (followPlan settings b p).run.run (Server.host τ) s =
        (.error (.obstacle (.claimNotBound settings.claimName
          (Volume.phaseAt (Volume.polled s (settings.claimKey ns))
            (settings.bindAttempts.toNat - 1)) settings.bindAttempts)), { s with claims }) := by
  obtain ⟨claim, hclaim⟩ := (Claim.forBackup_eq hb template settings.claimName).1 huid
  obtain ⟨claims, hclaims, -, hnot⟩ :=
    Volume.run_provide (fun n => (n : τ)) hn (settings.keyOf_claimKey hb) hclaim hs
  refine ⟨claim, claims, hclaim, hclaims, ?_⟩
  have hprovide := hnot hunbound
  unfold followPlan prepare provideFor
  rw [hp]
  exact Task.run_bind_error _ (Task.run_bind_error _ hprovide)

theorem run_provideFor (hn : 0 < settings.bindAttempts) (hs : Volume.AllReadOn s)
    (hb : b.ns = .str ns) (huid : b.uid.given = true)
    (hbound : ∀ template, profile = .filesystem template → settings.GetsBound s ns) :
    ∃ claims, (provideFor settings b profile).run.run (Server.host τ) s =
      (.ok (), { s with claims }) := by
  unfold provideFor
  split
  · rename_i template
    obtain ⟨claim, hclaim⟩ := (Claim.forBackup_eq hb template settings.claimName).1 huid
    obtain ⟨claims, -, hwithin, -⟩ :=
      Volume.run_provide (fun n => (n : τ)) hn (settings.keyOf_claimKey hb) hclaim hs
    exact ⟨claims, hwithin (hbound template rfl)⟩
  · exact ⟨s.claims, rfl⟩

/-! ## Runs -/

variable {t : TextKey}

theorem run_reconcile (settings : Settings τ) {key : ObjectKey}
    (hfind : s.backups.find? key = some object) (hb : Backup.ofJson object = .ok b) :
    (reconcile settings key).run (Server.host τ) s =
      (Outcome.ofResult ((carryOut settings b).run.run (Server.host τ) s).1,
        ((carryOut settings b).run.run (Server.host τ) s).2) := by
  have hfound : s.answer (.getBackup key.ns key.name) = (.ok object, s) := by
    rw [Server.answer_get, hfind]
  rw [reconcile_eq]
  show (afterRead settings key (s.answer (.getBackup key.ns key.name)).1).run
    (Server.host τ) (s.answer (.getBackup key.ns key.name)).2 = _
  rw [hfound]
  unfold afterRead
  dsimp only
  rw [hb]
  dsimp only
  rw [Api.Program.run_bind]
  rfl

theorem run_carryOut_of_listing {listing : Json}
    (h : s.answer (.listClusters b.ns) = (.ok listing, s)) :
    (carryOut settings b).run.run (Server.host τ) s =
      (Task.require id (planFor settings b (.ok listing)) >>= followPlan settings b :
        Task τ Unit).run.run (Server.host τ) s := by
  rw [run_carryOut]
  show (Task.require id (planFor settings b (s.answer (.listClusters b.ns)).1) >>=
    followPlan settings b : Task τ Unit).run.run (Server.host τ)
      (s.answer (.listClusters b.ns)).2 = _
  rw [h]

theorem run_followPlan (hn : 0 < settings.bindAttempts) (hs : s.Healthy)
    (hobject : s.Holds t object) (hb : b.IsRead t object) (hgiven : b.uid.given = true)
    {backup : BackupSection} (hbackup : p.cluster.backup = some backup)
    (hbound : ∀ template, p.profile = .filesystem template → settings.GetsBound s t.1) :
    ∃ after, (followPlan settings b p).run.run (Server.host τ) s = (.ok (), after) ∧
      (after.jobs.find? (.ofTexts t.1 (Job.nameFor b))).isSome = true := by
  obtain ⟨job, hjob⟩ := (Job.forBackup_eq hb.ns hbackup p.destination
    settings.jobBackoffLimit).1 hgiven
  obtain ⟨claims, hprovide⟩ := run_provideFor hn hs.toAllReadOn hb.ns hgiven hbound
  obtain ⟨hsubmit, hthere⟩ := run_submit (τ := τ) hb.ns hjob { s with claims }
  have htyped : ({ s with claims } : Server).TypedAround := ⟨hs.clusters, hs.jobs⟩
  have hsubmitted := htyped.answer (.createJob (.str t.1) job)
  -- The submission leaves the backups alone, so that the record is written to the object as read.
  have hstored := Server.backups_answer ({ s with claims } : Server)
    (c := .createJob (.str t.1) job) rfl
  generalize (({ s with claims } : Server).answer (.createJob (.str t.1) job)).2 = submitted at *
  have hprepare : (prepare settings b p).run.run (Server.host τ) s = (.ok (), submitted) := by
    unfold prepare
    rw [Task.run_bind_ok _ hprovide, hjob, Task.require_ok, pure_bind]
    exact hsubmit
  obtain ⟨next, hnext⟩ := hobject.version
  obtain ⟨backups, hrecord⟩ := run_recordProgress (τ := τ) (d := p.destination) hsubmitted
    (hstored ▸ hobject.there) hb.read hnext hb.ns hb.name hb.toIsTyped hthere
  refine ⟨{ submitted with backups }, ?_, hthere⟩
  unfold followPlan
  rw [Task.run_bind_ok _ hprepare]
  exact hrecord

theorem run_carryOut_of_feasible (hn : 0 < settings.bindAttempts) (hs : s.Healthy)
    (hobject : s.Holds t object) (hb : b.IsRead t object) (h : Feasible settings s t.1 b) :
    ∃ after, (carryOut settings b).run.run (Server.host τ) s = (.ok (), after) ∧
      (after.jobs.find? (.ofTexts t.1 ("xb-" ++ t.2))).isSome = true := by
  obtain ⟨listing, hlisting, hclusters, hnames⟩ := answer_listClusters hs.toTypedAround t.1
  obtain ⟨target, htarget⟩ := hb.cluster
  obtain ⟨profile, hprofile, hkind, huid, hbound⟩ := h
  have hgiven := hb.given_uid.2 huid
  obtain ⟨p, hplan, rfl⟩ :=
    planFor_of_selects settings hclusters htarget hnames hprofile hkind
  obtain ⟨backup, hbackup⟩ := backup_of_planFor hplan
  obtain ⟨after, hfollow, hthere⟩ := run_followPlan hn hs hobject hb hgiven hbackup hbound
  have hname : Job.nameFor b = "xb-" ++ t.2 := by
    rw [Job.nameFor, hb.name, Json.text_str]
  refine ⟨after, ?_, hname ▸ hthere⟩
  rw [run_carryOut_of_listing (hb.ns ▸ hlisting), hplan]
  exact hfollow

/-- What a reconcile leaves that something hindered: the server as it was, but for a claim that was
waited for in vain. That one is there, and was created if it was not there before. -/
def LeftAs (settings : Settings τ) (s after : Server) (ns : String) (b : Backup) : Obstacle → Prop
  | .claimNotBound .. => ∃ template claim claims,
      b.Selects (s.clustersIn ns) (.filesystem template) ∧
      Claim.forBackup b template settings.claimName = .ok claim ∧
      Volume.ClaimedAt (settings.claimKey ns) (Volume.bodyOr s (settings.claimKey ns) claim)
        s.claims claims ∧ after = { s with claims }
  | _ => after = s

theorem run_carryOut_of_hindrance (hn : 0 < settings.bindAttempts) (hs : s.Healthy)
    (hb : b.IsRead t object) (h : Hindrance settings s t.1 b o) :
    ∃ after, (carryOut settings b).run.run (Server.host τ) s = (.error (.obstacle o), after) ∧
      after.jobs = s.jobs ∧ after.backups = s.backups ∧ LeftAs settings s after t.1 b o := by
  obtain ⟨listing, hlisting, hclusters, hnames⟩ := answer_listClusters hs.toTypedAround t.1
  obtain ⟨target, htarget⟩ := hb.cluster
  obtain ⟨name, hname⟩ := hb.profile
  rw [run_carryOut_of_listing (hb.ns ▸ hlisting)]
  -- Without a plan nothing is done.
  have hunplanned : ∀ o, planFor settings b (.ok listing) = .error (.obstacle o) →
      (Task.require id (planFor settings b (.ok listing)) >>= followPlan settings b :
        Task τ Unit).run.run (Server.host τ) s = (.error (.obstacle o), s) := by
    intro o hplan
    rw [hplan]
    rfl
  cases h with
  | noSuchCluster h =>
    refine ⟨s, hunplanned _ ?_, rfl, rfl, rfl⟩
    have hnone : (s.clustersIn t.1).find? (fun c => decide (c.name = b.cluster)) = none := by
      simpa using h
    rw [planFor_eq hclusters htarget, hnone]
  | backupNotSetUp hcluster h =>
    refine ⟨s, hunplanned _ ?_, rfl, rfl, rfl⟩
    rw [planFor_eq hclusters htarget, hcluster]
    dsimp only
    rw [h]
  | noSuchProfile hcluster hbackup h hperm hsorted =>
    refine ⟨s, hunplanned _ ?_, rfl, rfl, rfl⟩
    rw [eq_profileNames hbackup hperm hsorted]
    exact planFor_of_missing hclusters htarget hcluster hbackup hname h
  | unknownKind h =>
    exact ⟨s, hunplanned _ (planFor_of_unknown hclusters htarget h), rfl, rfl, rfl⟩
  | @noUid profile hprofile hkind h =>
    have hgiven : b.uid.given = false := by rw [h]; rfl
    obtain ⟨p, hplan, rfl⟩ :=
      planFor_of_selects settings hclusters htarget hnames hprofile hkind
    obtain ⟨backup, hbackup⟩ := backup_of_planFor hplan
    refine ⟨s, ?_, rfl, rfl, rfl⟩
    rw [hplan]
    exact run_followPlan_of_noUid hb.ns hgiven hbackup
  | @claimNotBound template hprofile huid hunbound =>
    obtain ⟨p, hplan, hp⟩ :=
      planFor_of_selects settings hclusters htarget hnames hprofile trivial
    obtain ⟨claim, claims, hclaim, hclaims, hfollow⟩ := run_followPlan_of_unbound hn
      hs.toAllReadOn hb.ns (hb.given_uid.2 huid) hp hunbound
    refine ⟨{ s with claims }, ?_, rfl, rfl, template, claim, claims, hprofile, hclaim, hclaims,
      rfl⟩
    rw [hplan]
    exact hfollow

/-- On an API on which nothing fails a reconcile ends well exactly if the backup is feasible, with
the job there, and else reports what hinders it first. Nothing is created or recorded then, but for
a claim that is waited for in vain. -/
theorem reconcile_diagnoses (settings : Settings τ) (hn : 0 < settings.bindAttempts)
    (hs : s.Healthy) (hobject : s.Holds t object) :
    ∃ b outcome after, Backup.ofJson object = .ok b ∧
      (reconcile settings t.key).run (Server.host τ) s = (.ok outcome, after) ∧
      (outcome = .settled ↔ Feasible settings s t.1 b) ∧
      (∀ o, outcome = .failed o ↔ Hindrance settings s t.1 b o) ∧
      (outcome ≠ .settled → ∃ o, outcome = .failed o) ∧
      (outcome = .settled → (after.jobs.find? (.ofTexts t.1 ("xb-" ++ t.2))).isSome = true) ∧
      ∀ o, outcome = .failed o →
        after.jobs = s.jobs ∧ after.backups = s.backups ∧ LeftAs settings s after t.1 b o := by
  obtain ⟨b, hb⟩ := hobject.read hs.toWellTyped
  have hrun := run_reconcile settings hobject.there hb.read
  rcases feasible_or_hindered settings s t.1 hb.toIsTyped with hfeasible | ⟨o, ho⟩
  · obtain ⟨after, hcarry, hjob⟩ := run_carryOut_of_feasible hn hs hobject hb hfeasible
    rw [hcarry] at hrun
    refine ⟨b, .settled, after, hb.read, hrun, iff_of_true rfl hfeasible, fun o => ?_,
      fun hnot => absurd rfl hnot, fun _ => hjob, nofun⟩
    refine iff_of_false nofun fun ho => ?_
    obtain ⟨_, hcarry', -⟩ := run_carryOut_of_hindrance hn hs hb ho
    rw [hcarry] at hcarry'
    cases hcarry'
  · obtain ⟨after, hcarry, hjobs, hbackups, hleft⟩ := run_carryOut_of_hindrance hn hs hb ho
    rw [hcarry] at hrun
    refine ⟨b, .failed o, after, hb.read, hrun, iff_of_false nofun fun hfeasible => ?_,
      fun o' => ?_, fun _ => ⟨o, rfl⟩, nofun, ?_⟩
    · obtain ⟨_, hcarry', -⟩ := run_carryOut_of_feasible hn hs hobject hb hfeasible
      rw [hcarry] at hcarry'
      cases hcarry'
    · constructor
      · intro hsame
        cases hsame
        exact ho
      · intro ho'
        obtain ⟨_, hcarry', -⟩ := run_carryOut_of_hindrance hn hs hb ho'
        rw [hcarry] at hcarry'
        cases hcarry'
        rfl
    · rintro _ ⟨⟩
      exact ⟨hjobs, hbackups, hleft⟩

namespace Nightly

/-- The server with the filesystem, where a new claim is pending when it is first looked at. -/
def withSlowClaims : Server :=
  { onFilesystem with
    newClaimPhases := [.ok (some (.str "Pending")), .ok (some (.str "Bound"))] }

def withAttempts (n : Int) : Settings Rat := { (.usual : Settings Rat) with bindAttempts := n }

theorem healthy_withSlowClaims : withSlowClaims.Healthy where
  clusters c hc := by
    cases List.mem_singleton.1 hc
    decide
  jobs k job hjob := by cases hjob
  backups k object hobject := by
    simp only [withSlowClaims, onFilesystem, Table.find?_insert] at hobject
    split at hobject
    · cases hobject
      exact ⟨by decide, _, rfl⟩
    · cases hobject
  claims k c hc := by cases hc
  newClaims r hr := by
    simp only [withSlowClaims, List.mem_cons, List.not_mem_nil, or_false] at hr
    rcases hr with rfl | rfl <;> exact ⟨_, rfl⟩

theorem holds_withSlowClaims : withSlowClaims.Holds names (backup .null) where
  there := rfl
  ns := rfl
  name := rfl
  version := ⟨.str "2", by rfl⟩

end Nightly

/-- With two attempts the nightly backup gets its job. With one its claim hinders it. -/
theorem reconcile_diagnoses_nightly :
    (∃ b, Backup.ofJson (Nightly.backup .null) = .ok b ∧
      Feasible (Nightly.withAttempts 2) Nightly.withSlowClaims "apps" b) ∧
    ∃ b o after, Backup.ofJson (Nightly.backup .null) = .ok b ∧
      (reconcile (Nightly.withAttempts 1) Nightly.names.key).run (Server.host Rat)
        Nightly.withSlowClaims = (.ok (.failed o), after) ∧
      Hindrance (Nightly.withAttempts 1) Nightly.withSlowClaims "apps" b o ∧
      after.jobs = Nightly.withSlowClaims.jobs := by
  constructor
  · have hsettled : ((reconcile (Nightly.withAttempts 2) Nightly.names.key).run (Server.host Rat)
        Nightly.withSlowClaims).1.toOption = some .settled := by decide +kernel
    obtain ⟨b, outcome, after, hb, hrun, hfeasible, -⟩ := reconcile_diagnoses
      (Nightly.withAttempts 2) (by decide) Nightly.healthy_withSlowClaims
      Nightly.holds_withSlowClaims
    rw [hrun] at hsettled
    cases hsettled
    exact ⟨b, hb, hfeasible.1 rfl⟩
  · have hfailed : ((reconcile (Nightly.withAttempts 1) Nightly.names.key).run (Server.host Rat)
        Nightly.withSlowClaims).1.toOption ≠ some .settled := by decide +kernel
    obtain ⟨b, outcome, after, hb, hrun, -, hhindrance, hfails, -, hleft⟩ := reconcile_diagnoses
      (Nightly.withAttempts 1) (by decide) Nightly.healthy_withSlowClaims
      Nightly.holds_withSlowClaims
    rw [hrun] at hfailed
    obtain ⟨o, rfl⟩ := hfails fun hsettled => hfailed (congrArg some hsettled)
    exact ⟨b, o, after, hb, hrun, (hhindrance o).1 rfl, (hleft o rfl).1⟩

/-- A claim that does not get bound was created all the same, if it was not there. -/
theorem unbound_claim_is_created :
    0 < (Nightly.withAttempts 1).bindAttempts ∧ Nightly.withSlowClaims.Healthy ∧
      Nightly.withSlowClaims.Holds Nightly.names (Nightly.backup .null) ∧
      ((reconcile (Nightly.withAttempts 1) Nightly.names.key).run (Server.host Rat)
        Nightly.withSlowClaims).1.toOption = some (.failed (.claimNotBound
          (Nightly.withAttempts 1).claimName (.str "Pending") 1)) ∧
      Nightly.withSlowClaims.claims.find? ((Nightly.withAttempts 1).claimKey "apps") = none ∧
      (((reconcile (Nightly.withAttempts 1) Nightly.names.key).run (Server.host Rat)
        Nightly.withSlowClaims).2.claims.find?
          ((Nightly.withAttempts 1).claimKey "apps")).isSome = true :=
  ⟨by decide, Nightly.healthy_withSlowClaims, Nightly.holds_withSlowClaims, by decide +kernel, rfl,
    by decide +kernel⟩

end ClusterBackup
