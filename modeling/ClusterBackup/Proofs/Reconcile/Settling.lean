import ClusterBackup.Proofs.Api.Answers
import ClusterBackup.Proofs.Program.Rest
import ClusterBackup.Proofs.Reconcile.Submission
import ClusterBackup.Proofs.Record.RoundTrip
/-!
# How the parts of a reconcile come to rest

On a server on which nothing else happens each part of a reconcile, once it was run, is at rest with
the result it had: the claim and the job that it may have created are there, and the record that it
may have written is the one that it would write again. Only what the part looks at has to stay as it
is: the claims, the jobs, or the jobs and what the backup is read as.
-/

namespace ClusterBackup

open Api (Server Call)
open Api.Server (versionOf keyOf)

variable {τ : Type} {s s' : Server} {b : Backup} {a : Atom} {k : ObjectKey} {ns : Json}

/-! ## The claim -/

structure Api.Server.KeepsPhases (s : Server) : Prop where
  claims : ∀ k c, s.claims.find? k = some c → c.IsSteady
  newClaims : ∀ body, (⟨body, s.newClaimPhases⟩ : Api.StoredClaim).IsSteady

theorem hasStatus_notFound : Api.Failure.notFound.hasStatus 404 = true := by decide

namespace Volume

theorem rests_ensureClaim {name : String} {claim : Claim} {c : Api.StoredClaim}
    (hk : keyOf ns (.str name) = .ok k) (hc : s.claims.find? k = some c) (hs : c.IsSteady) :
    Task.Rests s (ensureClaim ns name claim : Task τ Unit) (.ok ()) := by
  obtain ⟨reading, hr⟩ := hs
  have hanswer := Server.answer_readClaim_steady hk hc hr
  refine Task.Rests.ask_bind (by rw [hanswer]) rfl ?_
  rw [hanswer]
  rfl

theorem run_ensureClaim {name : String} {claim : Claim} (hname : Api.bodyName claim = .str name)
    (hk : keyOf ns (.str name) = .ok k) (hc : s.claims.find? k = none) :
    (ensureClaim ns name claim : Task τ Unit).run.run (Server.host τ) s =
      (.ok (), { s with claims := s.claims.insert k ⟨some claim, s.newClaimPhases⟩ }) := by
  have hread : s.answer (.readClaim ns (.str name)) = (.error .notFound, s) := by
    simp only [Server.answer, Server.stored_of_none hk hc]
  have hcreate : s.answer (.createClaim ns claim) =
      (.ok (), { s with claims := s.claims.insert k ⟨some claim, s.newClaimPhases⟩ }) := by
    simp only [Server.answer, hname, Server.free_of_none hk hc]
  unfold ensureClaim
  rw [Task.run_ask_bind, hread]
  show (if !(Api.CallError.isNotFound ⟨_, .notFound⟩) then _ else _ : Task τ Unit).run.run _ s = _
  rw [Api.CallError.isNotFound, hasStatus_notFound, Bool.not_true, if_neg (by decide)]
  rw [Task.run_ask_bind, hcreate]
  rfl

/-- After the claim is provided it is there, so that providing it again comes to the same. -/
theorem settles_provide {attempts : Int} {delay : Nat → τ} {template : List (String × Json)}
    {name : String} (hns : b.ns = a.toJson) (hs : s.KeepsPhases) :
    ∃ result claims,
      (provide attempts delay b template name).run.run (Server.host τ) s =
        (result, { s with claims }) ∧
      ∀ s' : Server, s'.claims = claims →
        Task.Rests s' (provide attempts delay b template name) result := by
  have hk : keyOf b.ns (.str name) = .ok ⟨a, .text name⟩ := by
    rw [hns]
    exact Server.keyOf_toJson a (.text name)
  unfold provide
  cases hclaim : Claim.forBackup b template name with
  | error e => exact ⟨_, s.claims, rfl, fun _ _ => rfl⟩
  | ok claim =>
    rw [Task.require_ok]
    simp only [pure_bind]
    -- Found or created, the claim is there and steady when it is waited for.
    have hthere : ∃ claims c, claims.find? ⟨a, .text name⟩ = some c ∧ c.IsSteady ∧
        (ensureClaim b.ns name claim : Task τ Unit).run.run (Server.host τ) s =
          (.ok (), { s with claims }) := by
      cases hc : s.claims.find? ⟨a, .text name⟩ with
      | some c =>
        have hsteady := hs.claims _ c hc
        exact ⟨s.claims, c, hc, hsteady, (rests_ensureClaim hk hc hsteady).run_eq⟩
      | none =>
        refine ⟨_, _, ?_, hs.newClaims (some claim),
          run_ensureClaim (Claim.bodyName_of_forBackup hclaim) hk hc⟩
        rw [Table.find?_insert, if_pos (BEq.refl _)]
    obtain ⟨claims, c, hc, hsteady, hensure⟩ := hthere
    obtain ⟨reading, hr⟩ := hsteady
    have hanswer : ∀ s' : Server, s'.claims = claims →
        s'.answer (.readClaim b.ns (.str name)) = (.ok reading, s') := by
      rintro s' rfl
      exact Server.answer_readClaim_steady hk hc hr
    have hwithin : Task.Within (fun c => c = .readClaim b.ns (.str name)) (fun _ => True)
        (awaitBound attempts delay b.ns name) :=
      within_awaitBound (P := fun c => c = .readClaim b.ns (.str name)) rfl attempts
        fun _ => trivial
    obtain ⟨result, hawait⟩ : ∃ result, Task.Rests { s with claims }
        (awaitBound attempts delay b.ns name) result := by
      refine ⟨_, Api.Program.Within.rests hwithin ?_⟩
      rintro c rfl
      rw [hanswer { s with claims } rfl]
      exact ⟨rfl, rfl⟩
    refine ⟨result, claims, ?_, fun s' hs' => ?_⟩
    · rw [Task.run_bind_ok _ hensure]
      exact hawait.run_eq
    · have hfound : s'.claims.find? ⟨a, .text name⟩ = some c := by rw [hs', hc]
      refine (rests_ensureClaim hk hfound ⟨reading, hr⟩).bind ?_
      refine Api.Program.Rests.elsewhere hawait hwithin ?_
      rintro c rfl
      rw [hanswer s' hs', hanswer { s with claims } rfl]

end Volume

/-! ## The job -/

theorem settles_submit {job : Job} {cluster : Cluster} {d : Destination} {limit : Int}
    (hns : b.ns = a.toJson) (hjob : Job.forBackup b cluster d limit = .ok job) (s : Server) :
    ∃ jobs,
      (discard (submit job) : Task τ Unit).run.run (Server.host τ) s = (.ok (), { s with jobs }) ∧
      ∀ s' : Server, s'.jobs = jobs →
        Task.Rests s' (discard (submit job) : Task τ Unit) (.ok ()) := by
  obtain ⟨hjobNs, hjobName⟩ := Job.metadata_of_forBackup hjob
  have hk : keyOf (bodyNamespace job) (Api.bodyName job) = .ok ⟨a, .text (Job.nameFor b)⟩ := by
    rw [hjobNs, hjobName, hns]
    exact Server.keyOf_toJson a (.text (Job.nameFor b))
  have hrests : ∀ (s : Server) found, s.jobs.find? ⟨a, .text (Job.nameFor b)⟩ = some found →
      Task.Rests s (discard (submit job) : Task τ Unit) (.ok ()) := by
    intro s found hfound
    have hanswer : s.answer (.createJob (bodyNamespace job) job) =
        (.error .alreadyExists, s) := by
      simp only [Server.answer, Server.free_of_find? hk hfound]
    have hsubmit : Task.Rests s (submit job : Task τ Bool) (.ok false) := by
      refine Task.Rests.ask_bind (by rw [hanswer]) (by rw [hanswer]; rfl) ?_
      rw [hanswer]
      rfl
    exact hsubmit.discard
  cases hfind : s.jobs.find? ⟨a, .text (Job.nameFor b)⟩ with
  | some found =>
    refine ⟨s.jobs, (hrests s found hfind).run_eq, fun s' hs' => hrests s' found ?_⟩
    rw [hs', hfind]
  | none =>
    have hanswer : s.answer (.createJob (bodyNamespace job) job) = (.ok (),
        { s with jobs := s.jobs.insert ⟨a, .text (Job.nameFor b)⟩ ⟨some job, some .blank⟩ }) := by
      simp only [Server.answer, Server.free_of_none hk hfind]
    refine ⟨s.jobs.insert ⟨a, .text (Job.nameFor b)⟩ ⟨some job, some .blank⟩, ?_, fun s' hs' =>
      hrests s' ⟨some job, some .blank⟩ ?_⟩
    · have hsubmit : (submit job : Task τ Bool).run.run (Server.host τ) s =
          (.ok true, (s.answer (.createJob (bodyNamespace job) job)).2) := by
        unfold submit
        rw [Task.run_ask_bind, hanswer]
        rfl
      rw [hanswer] at hsubmit
      exact Task.run_discard hsubmit
    · rw [hs', Table.find?_insert, if_pos (BEq.refl _)]

/-! ## The record -/

theorem Json.equals_self_of_nextVersion {version next : Json}
    (h : Server.nextVersion version = .ok next) (hg : version.given = true) :
    version.equals version = true := by
  unfold Server.nextVersion at h
  obtain ⟨n, hn, -⟩ := bind_eq_ok.1 h
  rw [mapError_eq_ok, orElse, if_pos hg] at hn
  cases version with
  | arr items => cases hn
  | obj members => cases hn
  | float x =>
    cases x with
    | nan => cases hn
    | _ =>
      rw [equals, same_self rfl]
      rfl
  | _ =>
    rw [equals, same_self rfl]
    rfl

/-- A record is accepted for the backup as it was just read. -/
theorem answer_replaceStatus {key : ObjectKey} {object next : Json}
    (hfind : s.backups.find? key = some object) (hb : Backup.ofJson object = .ok b)
    (hns : b.ns = key.ns) (hname : b.name = key.name)
    (hnext : Server.nextVersion (versionOf object) = .ok next) (r : Record) :
    ∃ object', Server.replaced object ⟨b.ns, b.name, b.version, r⟩ = .ok object' ∧
      s.answer (.replaceStatus ⟨b.ns, b.name, b.version, r⟩) =
        (.ok (), { s with backups := s.backups.insert key object' }) := by
  have haccept : (b.version.given && !b.version.equals (versionOf object)) = false := by
    rw [(Backup.readFrom_of_ofJson hb).version]
    cases hg : (versionOf object).given with
    | false => rfl
    | true => simp [Json.equals_self_of_nextVersion hnext hg]
  have hreplaced : ∃ object', Server.replaced object ⟨b.ns, b.name, b.version, r⟩ =
      .ok object' := by
    simp only [Server.replaced, haccept, hnext, Except.map]
    exact ⟨_, rfl⟩
  obtain ⟨object', hobject'⟩ := hreplaced
  have hk : keyOf b.ns b.name = .ok key := by
    rw [hns, hname]
    exact Server.keyOf_toJson key.ns key.name
  refine ⟨object', hobject', ?_⟩
  simp only [Server.answer, Server.stored_of_find? hk hfind, hobject']

def noteProgress (b : Backup) (d : Destination) (progress : Progress) : Task τ (Option Record) := do
  let candidate := Record.ofProgress progress d b.profile
  let closed ← Task.require (fun e => .fault (.malformed e))
    (Record.isClosedTo b.record candidate)
  if closed then return b.record
  else
    if candidate.differsFrom b.record then writeRecord b candidate
    return some candidate

theorem rests_noteProgress_written {d : Destination} {progress : Progress} {version : Json}
    (hprofile : b.profile.wellFormed = true) (hp : progress.completedAt.wellFormed = true)
    (hbucket : ∀ bucket, d.bucket = some bucket → bucket.Described) (s : Server) :
    Task.Rests s (noteProgress { b with record := some (.ofProgress progress d b.profile), version }
      d progress : Task τ _) (.ok (some (.ofProgress progress d b.profile))) := by
  obtain ⟨⟨closed, hclosed⟩, hsame⟩ := Record.isClosedTo_self hprofile hp hbucket
  unfold noteProgress
  dsimp only
  rw [hclosed, Task.require_ok]
  simp only [pure_bind]
  cases closed with
  | true => rfl
  | false =>
    rw [if_neg (by decide), hsame]
    rfl

theorem run_noteProgress {d : Destination} {progress : Progress}
    (hopen : Record.isClosedTo b.record (.ofProgress progress d b.profile) = .ok false)
    (hnew : (Record.ofProgress progress d b.profile).differsFrom b.record = true)
    (hanswer : s.answer (.replaceStatus ⟨b.ns, b.name, b.version,
      .ofProgress progress d b.profile⟩) = (.ok (), s')) :
    (noteProgress b d progress : Task τ _).run.run (Server.host τ) s =
      (.ok (some (.ofProgress progress d b.profile)), s') := by
  have hwrite : (writeRecord b (.ofProgress progress d b.profile) : Task τ Unit).run.run
      (Server.host τ) s = (.ok (), s') := by
    unfold writeRecord
    rw [Task.run_ask_bind, hanswer]
    rfl
  unfold noteProgress
  dsimp only
  rw [hopen, Task.require_ok]
  simp only [pure_bind]
  rw [if_neg (by decide), if_pos hnew, Task.run_bind_ok _ hwrite]
  rfl

def recordFrom (b : Backup) (d : Destination) :
    Except Api.CallError (Option Api.JobStatus) → Task τ (Option Record)
  | .error e => if e.isNotFound then return none else Task.fail (.jobUnreadable e)
  | .ok status =>
    match Progress.ofStatus? status with
    | none => throw (.fault .beyondCalendar)
    | some progress => noteProgress b d progress

theorem recordProgress_eq (b : Backup) (job : String) (d : Destination) :
    (recordProgress b job d : Task τ (Option Record)) =
      Task.ask (.readJob b.ns (.str job)) >>= recordFrom b d := by
  unfold recordProgress
  congr 1
  funext outcome
  cases outcome with
  | error e => rfl
  | ok status =>
    unfold recordFrom
    dsimp only
    cases Progress.ofStatus? status <;> rfl

theorem rests_recordFrom {d : Destination} {outcome : Except Api.CallError (Option Api.JobStatus)}
    (hquiet : ∀ status progress, outcome = .ok status →
      Progress.ofStatus? status = some progress →
      Record.isClosedTo b.record (.ofProgress progress d b.profile) = .ok false →
      (Record.ofProgress progress d b.profile).differsFrom b.record = false) :
    ∃ result, ∀ s, Task.Rests s (recordFrom b d outcome : Task τ _) result := by
  cases outcome with
  | error e =>
    unfold recordFrom
    dsimp only
    split
    · exact ⟨_, fun _ => rfl⟩
    · exact ⟨_, fun _ => rfl⟩
  | ok status =>
    unfold recordFrom
    dsimp only
    cases hprogress : Progress.ofStatus? status with
    | none => exact ⟨_, fun _ => rfl⟩
    | some progress =>
      unfold noteProgress
      dsimp only
      cases hclosed : Record.isClosedTo b.record (.ofProgress progress d b.profile) with
      | error e => exact ⟨_, fun _ => rfl⟩
      | ok closed =>
        rw [Task.require_ok]
        simp only [pure_bind]
        cases closed with
        | true => exact ⟨_, fun _ => rfl⟩
        | false =>
          rw [hquiet status progress rfl hprogress hclosed]
          exact ⟨_, fun _ => rfl⟩

theorem settles_recordProgress {key : ObjectKey} {object next : Json} {d : Destination}
    (hfind : s.backups.find? key = some object) (hb : Backup.ofJson object = .ok b)
    (hns : b.ns = key.ns) (hname : b.name = key.name)
    (hnext : Server.nextVersion (versionOf object) = .ok next)
    (hprofile : b.profile.wellFormed = true) (hblank : b.profile.orBlank = b.profile)
    (hbucket : ∀ bucket, d.bucket = some bucket → bucket.Described) :
    ∃ result backups object' record version,
      (discard (recordProgress b (Job.nameFor b) d) : Task τ Unit).run.run (Server.host τ) s =
        (result, { s with backups }) ∧
      backups.find? key = some object' ∧ Backup.ofJson object' = .ok { b with record, version } ∧
      ∀ s' : Server, s'.jobs = s.jobs → Task.Rests s'
        (discard (recordProgress { b with record, version } (Job.nameFor b) d) : Task τ Unit)
        result := by
  let read := Call.readJob b.ns (.str (Job.nameFor b))
  let outcome := (s.answer read).1.mapError fun failure => (⟨read, failure⟩ : Api.CallError)
  have hrests : ∀ (record : Option Record) (version : Json) (result : Except Stop (Option Record)),
      (∀ s, Task.Rests s (recordFrom { b with record, version } d outcome : Task τ _) result) →
      ∀ s' : Server, s'.jobs = s.jobs → Task.Rests s' (discard (recordProgress
        { b with record, version } (Job.nameFor b) d) : Task τ Unit) (result.map fun _ => ()) := by
    intro record version result hresult s' hs'
    have hanswer := Server.answer_readJob_of_jobs hs' b.ns (.str (Job.nameFor b))
    refine Task.Rests.discard ?_
    rw [recordProgress_eq]
    refine Task.Rests.ask_bind (by rw [hanswer]) rfl ?_
    rw [hanswer]
    exact hresult s'
  -- Either nothing is to be written, or the record is written and then says what it should.
  by_cases hquiet : ∀ status progress, outcome = .ok status →
      Progress.ofStatus? status = some progress →
      Record.isClosedTo b.record (.ofProgress progress d b.profile) = .ok false →
      (Record.ofProgress progress d b.profile).differsFrom b.record = false
  · obtain ⟨result, hresult⟩ : ∃ result, ∀ s, Task.Rests s
        (recordFrom b d outcome : Task τ _) result := rests_recordFrom hquiet
    refine ⟨_, s.backups, object, b.record, b.version, ?_, hfind, hb, hrests _ _ _ hresult⟩
    exact (hrests b.record b.version result hresult s rfl).run_eq
  · simp only [Classical.not_forall, Bool.not_eq_false] at hquiet
    obtain ⟨status, progress, hstatus, hprogress, hopen, hnew⟩ := hquiet
    obtain ⟨object', hreplaced, hanswer⟩ := answer_replaceStatus hfind hb hns hname hnext
      (.ofProgress progress d b.profile)
    obtain ⟨version, hb'⟩ := Backup.ofJson_replaced hb hreplaced
      (Record.ofJson_ofProgress progress hblank fun bucket h => (hbucket bucket h).filled)
    have hnote : ∀ b' : Backup,
        recordFrom b' d outcome = (noteProgress b' d progress : Task τ _) := by
      intro b'
      rw [hstatus]
      unfold recordFrom
      dsimp only
      rw [hprogress]
    refine ⟨.ok (), s.backups.insert key object', object', _, version, ?_, ?_, hb', ?_⟩
    · have hrun : (recordProgress b (Job.nameFor b) d : Task τ _).run.run (Server.host τ) s =
          (.ok (some (.ofProgress progress d b.profile)),
            { s with backups := s.backups.insert key object' }) := by
        rw [recordProgress_eq, Task.run_ask_bind]
        show (recordFrom b d outcome).run.run _ s = _
        rw [hnote, run_noteProgress hopen hnew hanswer]
      exact Task.run_discard hrun
    · rw [Table.find?_insert, if_pos (BEq.refl _)]
    · refine hrests _ version (.ok (some (.ofProgress progress d b.profile))) fun s => ?_
      rw [hnote]
      exact rests_noteProgress_written hprofile (Progress.wellFormed_completedAt hprogress)
        hbucket s

end ClusterBackup
