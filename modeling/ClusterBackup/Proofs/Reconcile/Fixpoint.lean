import ClusterBackup.Proofs.Cluster.Buckets
import ClusterBackup.Proofs.Reconcile.Settling
/-!
# A reconcile repeated

On a server on which nothing else happens, where every claim keeps its phase, a second reconcile
finds everything as the first one has left it: it adds nothing and has the same result
(`reconcile_settles`). The plan is the same, since it does not depend on what is recorded, and each
part that follows the plan is at rest.
-/

namespace ClusterBackup

open Api (Server Call)
open Api.Server (versionOf)

variable {τ : Type} [NatCast τ] {s : Server} {settings : Settings τ} {b : Backup} {p : Plan}
  {a : Atom} {ns : Json}

/-- A server on which reconciles of a key are not disturbed: the backup there carries the names that
it is stored under, its versions can be counted, claims keep their phase, and no object in the
clusters has two members of one name. -/
structure Api.Server.Undisturbed (s : Server) (key : ObjectKey) : Prop extends s.KeepsPhases where
  names : ∀ object b, s.backups.find? key = some object → Backup.ofJson object = .ok b →
    b.ns = key.ns ∧ b.name = key.name
  versions : ∀ object, s.backups.find? key = some object →
    ∃ next, Server.nextVersion (versionOf object) = .ok next
  clusters : ∀ c ∈ s.clusters, c.2.wellFormed = true

theorem settles_provideFor (settings : Settings τ) (hns : b.ns = a.toJson) (hs : s.KeepsPhases)
    (profile : Profile) :
    ∃ result claims,
      (provideFor settings b profile).run.run (Server.host τ) s = (result, { s with claims }) ∧
      ∀ s' : Server, s'.claims = claims →
        Task.Rests s' (provideFor settings b profile) result := by
  unfold provideFor
  split
  · exact Volume.settles_provide hns hs
  · exact ⟨_, s.claims, rfl, fun _ _ => rfl⟩

theorem settles_prepare (settings : Settings τ) (hns : b.ns = a.toJson) (hs : s.KeepsPhases)
    (p : Plan) :
    ∃ result claims jobs,
      (prepare settings b p).run.run (Server.host τ) s = (result, { s with claims, jobs }) ∧
      ∀ s' : Server, s'.claims = claims → s'.jobs = jobs →
        Task.Rests s' (prepare settings b p) result := by
  obtain ⟨provided, claims, hprovide, hprovided⟩ :=
    settles_provideFor settings hns hs p.profile
  unfold prepare
  cases provided with
  | error stop =>
    refine ⟨.error stop, claims, s.jobs, Task.run_bind_error _ hprovide, fun s' hs' _ => ?_⟩
    exact (hprovided s' hs').bind_error
  | ok =>
    rw [Task.run_bind_ok _ hprovide]
    cases hjob : Job.forBackup b p.cluster p.destination settings.jobBackoffLimit with
    | error e =>
      refine ⟨_, claims, s.jobs, rfl, fun s' hs' _ => ?_⟩
      exact (hprovided s' hs').bind rfl
    | ok job =>
      obtain ⟨jobs, hsubmit, hsubmitted⟩ := settles_submit hns hjob { s with claims }
      refine ⟨.ok (), claims, jobs, hsubmit, fun s' hs' hj' => ?_⟩
      exact (hprovided s' hs').bind (hsubmitted s' hj')

theorem settles_followPlan {key : ObjectKey} {object listing : Json}
    (hs : s.Undisturbed key) (hfind : s.backups.find? key = some object)
    (hb : Backup.ofJson object = .ok b) (hlisting : listing.wellFormed = true)
    (hp : planFor settings b (.ok listing) = .ok p) :
    ∃ result s₂ object' record version,
      (followPlan settings b p).run.run (Server.host τ) s = (result, s₂) ∧
      s₂.clusters = s.clusters ∧ s₂.backups.find? key = some object' ∧
      Backup.ofJson object' = .ok { b with record, version } ∧
      Task.Rests s₂ (followPlan settings { b with record, version } p) result := by
  -- What is prepared stays prepared while the record is written, since that changes only the
  -- backups.
  obtain ⟨hns, hname⟩ := hs.names object b hfind hb
  obtain ⟨next, hnext⟩ := hs.versions object hfind
  obtain ⟨result, claims, jobs, hprepare, hprepared⟩ :=
    settles_prepare settings hns hs.toKeepsPhases p
  unfold followPlan
  cases result with
  | error stop =>
    refine ⟨.error stop, { s with claims, jobs }, object, b.record, b.version,
      Task.run_bind_error _ hprepare, rfl, hfind, hb, ?_⟩
    exact (hprepared { s with claims, jobs } rfl rfl).bind_error
  | ok =>
    rw [Task.run_bind_ok _ hprepare]
    obtain ⟨name, hprofile, -⟩ := Cluster.mem_profiles_of_profile (planFor_ok hp).2.1
    obtain ⟨result, backups, object', record, version, hrecord, hfind', hb', hrecorded⟩ :=
      settles_recordProgress (s := { s with claims, jobs }) hfind hb hns hname hnext
        (by rw [hprofile]; rfl) (by rw [hprofile, Json.orBlank_str])
        fun bucket hbucket => bucket_of_planFor hlisting hp hbucket
    refine ⟨result, { s with backups, claims, jobs }, object', record, version, hrecord, rfl,
      hfind', hb', ?_⟩
    exact Task.Rests.bind (hprepared _ rfl rfl) (hrecorded _ rfl)

theorem wellFormed_of_list {ns : Json} {listing : Json}
    (h : (s.answer (.listClusters ns)).1 = .ok listing)
    (hc : ∀ c ∈ s.clusters, c.2.wellFormed = true) : listing.wellFormed = true := by
  obtain ⟨a, -, h⟩ := bind_eq_ok.1 (h : s.listing ns = .ok listing)
  cases h
  have hitems : Json.itemsWellFormed ((s.clusters.filter fun c => c.1 == a).map Prod.snd) =
      true := by
    rw [Json.itemsWellFormed_iff]
    intro item hitem
    obtain ⟨c, hmem, rfl⟩ := List.mem_map.1 hitem
    exact hc c (List.mem_filter.1 hmem).1
  simp [Json.wellFormed, Json.membersWellFormed, hitems]

theorem settles_carryOut (settings : Settings τ) {key : ObjectKey} {object : Json}
    (hs : s.Undisturbed key) (hfind : s.backups.find? key = some object)
    (hb : Backup.ofJson object = .ok b) :
    ∃ result s₂ object' record version,
      (carryOut settings b).run.run (Server.host τ) s = (result, s₂) ∧
      s₂.backups.find? key = some object' ∧ Backup.ofJson object' = .ok { b with record, version } ∧
      Task.Rests s₂ (carryOut settings { b with record, version }) result := by
  have hrun : (carryOut settings b).run.run (Server.host τ) s =
      (Task.require id (planFor settings b (s.answer (.listClusters b.ns)).1) >>=
        followPlan settings b).run.run (Server.host τ) s := by
    rw [run_carryOut]
    rfl
  -- The plan is the same for whatever is recorded on the backup.
  have hrests : ∀ (s₂ : Server) record version result, s₂.clusters = s.clusters →
      Task.Rests s₂ (Task.require id (planFor settings b (s.answer (.listClusters b.ns)).1) >>=
        followPlan settings { b with record, version }) result →
      Task.Rests s₂ (carryOut settings { b with record, version }) result := by
    intro s₂ record version result hclusters hresult
    have hanswer := Server.answer_list_of_clusters hclusters b.ns
    show Api.Program.Rests s₂ (carryOut settings { b with record, version }).run result
    rw [run_carryOut]
    refine ⟨rfl, rfl, ?_⟩
    show Api.Program.Rests s₂ (Task.require id (planFor settings b
      (s₂.answer (.listClusters b.ns)).1) >>= followPlan settings { b with record, version }).run _
    rw [hanswer]
    exact hresult
  rw [hrun]
  cases hp : planFor settings b (s.answer (.listClusters b.ns)).1 with
  | error stop =>
    refine ⟨.error stop, s, object, b.record, b.version, rfl, hfind, hb, hrests s _ _ _ rfl ?_⟩
    rw [hp]
    rfl
  | ok p =>
    cases houtcome : (s.answer (.listClusters b.ns)).1 with
    | error f =>
      rw [houtcome] at hp
      cases hp
    | ok listing =>
      rw [houtcome] at hp
      obtain ⟨result, s₂, object', record, version, hfollow, hclusters, hfind', hb', hfollowed⟩ :=
        settles_followPlan hs hfind hb (wellFormed_of_list houtcome hs.clusters) hp
      refine ⟨result, s₂, object', record, version, hfollow, hfind', hb',
        hrests s₂ _ _ _ hclusters ?_⟩
      rw [houtcome, hp]
      exact hfollowed

theorem settles_reconcile (settings : Settings τ) {key : ObjectKey} (hs : s.Undisturbed key) :
    ∃ result s₂, (reconcile settings key).run (Server.host τ) s = (result, s₂) ∧
      (reconcile settings key).Rests s₂ result := by
  have hrun : (reconcile settings key).run (Server.host τ) s =
      (afterRead settings key (s.answer (.getBackup key.ns key.name)).1).run
        (Server.host τ) s := by
    rw [reconcile_eq]
    rfl
  have hrests : ∀ s₂ result,
      (afterRead settings key (s₂.answer (.getBackup key.ns key.name)).1).Rests s₂ result →
      (reconcile settings key).Rests s₂ result := by
    intro s₂ result hresult
    rw [reconcile_eq]
    exact ⟨rfl, rfl, hresult⟩
  rw [hrun, Server.answer_get]
  cases hfind : s.backups.find? key with
  | none =>
    refine ⟨.ok .gone, s, rfl, hrests s _ ?_⟩
    rw [Server.answer_get, hfind]
    rfl
  | some object =>
    dsimp only
    cases hb : Backup.ofJson object with
    | error e =>
      have hread : afterRead settings key (.ok object) = .done (.error (.ofBackupError e)) := by
        simp only [afterRead, hb]
      refine ⟨_, s, by rw [hread]; rfl, hrests s _ ?_⟩
      rw [Server.answer_get, hfind]
      dsimp only
      rw [hread]
      rfl
    | ok b =>
      obtain ⟨result, s₂, object', record, version, hcarry, hfind', hb', hcarried⟩ :=
        settles_carryOut settings hs hfind hb
      have hread : ∀ object b, Backup.ofJson object = .ok b → afterRead settings key (.ok object) =
          (carryOut settings b).run >>= fun result => pure (Outcome.ofResult result) := by
        intro object b hb
        simp only [afterRead, hb]
      refine ⟨Outcome.ofResult result, s₂, ?_, hrests s₂ _ ?_⟩
      · rw [hread object b hb, Api.Program.run_bind, hcarry]
        rfl
      · rw [Server.answer_get, hfind']
        dsimp only
        rw [hread object' _ hb']
        exact Api.Program.Rests.bind hcarried rfl

/-- A reconcile that is repeated, with nothing else going on, finds the server as it leaves it. The
second one writes no record and creates nothing, leaves every object as it is, and has the same
result. -/
theorem reconcile_settles (settings : Settings τ) {key : ObjectKey} (hs : s.Undisturbed key) :
    (reconcile settings key).run (Server.host τ)
        ((reconcile settings key).run (Server.host τ) s).2 =
      (reconcile settings key).run (Server.host τ) s ∧
    ∀ o ∈ Fleet.happenings (Server.host τ) (reconcile settings key)
        ((reconcile settings key).run (Server.host τ) s).2,
      ∃ c outcome, o = .called ((reconcile settings key).run (Server.host τ) s).2 c outcome
          ((reconcile settings key).run (Server.host τ) s).2 ∧
        c.isWrite = false ∧ (c.creates = true → outcome.isOk = false) := by
  obtain ⟨result, s₂, hrun, hrests⟩ := settles_reconcile settings hs
  rw [hrun]
  refine ⟨hrests.run_eq, fun o ho => ?_⟩
  obtain ⟨c, outcome, ho, hadds⟩ := hrests.happenings o ho
  rw [Call.adds, Bool.or_eq_false_iff] at hadds
  refine ⟨c, outcome, ho, hadds.1, fun hcreates => ?_⟩
  simpa [hcreates] using hadds.2

namespace Nightly

def server : Server :=
  { Server.empty with
    backups := Table.empty.insert key (backup .null)
    clusters := [(.text "apps", cluster)] }

theorem undisturbed_server : server.Undisturbed key where
  names object b hfind hb := by
    cases hfind
    have hread := Backup.readFrom_of_ofJson hb
    exact ⟨hread.ns, hread.name⟩
  versions object hfind := by
    cases hfind
    exact ⟨.str "2", by rfl⟩
  claims k c hfind := by cases hfind
  newClaims body := ⟨some (.str "Bound"), rfl⟩
  clusters c hc := by
    cases List.mem_singleton.1 hc
    decide

end Nightly

/-- The job of the nightly backup is submitted once, and its record is written once. -/
theorem reconcile_settles_nightly :
    let first := (reconcile (.usual : Settings Rat) Nightly.key).run (Server.host Rat)
      Nightly.server
    first.1.toOption = some .settled ∧ first.2.jobs.size = 1 ∧
      (reconcile (.usual : Settings Rat) Nightly.key).run (Server.host Rat) first.2 = first :=
  ⟨by decide +kernel, by decide +kernel, (reconcile_settles .usual Nightly.undisturbed_server).1⟩

end ClusterBackup
