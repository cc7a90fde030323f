import ClusterBackup.Proofs.Destination.Addresses
import ClusterBackup.Proofs.Reconcile.CallOrder
/-!
# What is created fits together

The claim and the job that a reconcile creates are made from one plan, the plan that its record is
derived from as well. So the job writes to the place that is recorded, through the claim that was
found bound or with the keys of the bucket, and both objects belong to the backup and to nothing
else (`created_objects_are_wired`).
-/

namespace ClusterBackup

open Api (Call Exchange)

/-- The backup is the only owner, and controls what it owns. -/
def Backup.IsSoleOwner (b : Backup) (owners : List OwnerReference) : Prop :=
  ∃ r : OwnerReference, owners = [r] ∧ r.NamesOwner b

theorem Backup.isSoleOwner_asOwner (b : Backup) : b.IsSoleOwner [b.asOwner] :=
  ⟨b.asOwner, rfl, b.namesOwner_asOwner⟩

/-! ## Jobs -/

namespace Job

variable {job : Job} {b : Backup} {cluster : Cluster} {d : Destination} {limit : Int}

def environment (job : Job) : List Variable := (job.spec.map JobSpec.environment).getD []

def mounts (job : Job) : List Mount := (job.spec.map JobSpec.mounts).getD []

def volumes (job : Job) : List Volume := (job.spec.map JobSpec.volumes).getD []

def secretNames (job : Job) : List Json :=
  job.environment.filterMap fun v =>
    match v.source with
    | .secret name _ => some name
    | .value _ => none

def bucketNames : List String :=
  ["S3_BUCKET_URL", "ACCESS_KEY_ID", "SECRET_ACCESS_KEY", "DEFAULT_REGION", "ENDPOINT"]

/-- The job belongs to the backup, and its parts agree with each other: no variable is set twice,
it is told the address, and the volumes that are mounted are those that are declared. -/
structure IsWired (job : Job) (b : Backup) (address : String) : Prop where
  ns : bodyNamespace job = b.ns
  owner : b.IsSoleOwner job.owners
  names : (job.environment.map Variable.name).Nodup
  destination : job.destination? = some (.str address)
  mounted : ∀ name, (∃ m ∈ job.mounts, m.volume = name) ↔ ∃ v ∈ job.volumes, v.name = name

structure WritesToClaim (job : Job) (claim : String) : Prop where
  volumes : ∃ name, job.volumes = [⟨name, claim⟩]
  environment : ∀ v ∈ job.environment, v.name ∉ bucketNames
  secrets : job.secretNames = []

structure WritesToBucket (job : Job) (address : String) (bucket : Bucket) : Prop where
  volumes : job.volumes = []
  mounts : job.mounts = []
  url : ⟨"S3_BUCKET_URL", .value (.str address)⟩ ∈ job.environment
  secrets : job.secretNames = [bucket.credentials, bucket.credentials]

theorem names_optionalVariable (name : String) (value : Json) :
    ((optionalVariable name value).map Variable.name).Sublist [name] := by
  unfold optionalVariable
  split
  · exact List.Sublist.refl [name]
  · exact List.nil_sublist [name]

theorem names_bucketVariables (d : Destination) (bucket : Bucket) :
    ((bucketVariables d bucket).map Variable.name).Sublist bucketNames := by
  unfold bucketVariables
  rw [List.map_append, List.map_append]
  have hfirst : List.Sublist ["S3_BUCKET_URL", "ACCESS_KEY_ID", "SECRET_ACCESS_KEY"]
    ["S3_BUCKET_URL", "ACCESS_KEY_ID", "SECRET_ACCESS_KEY"] := List.Sublist.refl _
  exact (hfirst.append (names_optionalVariable _ _)).append (names_optionalVariable _ _)

/-- The names of the variables are some of a list without repetitions, in its order. -/
theorem names_of_forBackup (h : forBackup b cluster d limit = .ok job) :
    (job.environment.map Variable.name).Sublist
      (["PXC_SERVICE", "BACKUP_DESTINATION"] ++ bucketNames) := by
  obtain ⟨backup, -, rfl⟩ := forBackup_eq_ok h
  show ((baseVariables cluster.name d ++ _).map Variable.name).Sublist _
  rw [List.map_append]
  apply List.Sublist.append (List.Sublist.refl _)
  split
  · exact names_bucketVariables _ _
  · exact List.nil_sublist _

theorem isWired_of_forBackup (h : forBackup b cluster d limit = .ok job) :
    job.IsWired b d.address where
  ns := (metadata_of_forBackup h).1
  owner := by
    rw [owners_of_forBackup h]
    exact b.isSoleOwner_asOwner
  names := (names_of_forBackup h).nodup (by decide)
  destination := destination?_of_forBackup h
  mounted name := by
    obtain ⟨backup, -, rfl⟩ := forBackup_eq_ok h
    cases hclaim : d.claim <;> simp [mounts, volumes, specFor, hclaim]

theorem writesToClaim_of_forBackup {claim : String} (h : forBackup b cluster d limit = .ok job)
    (hd : d.claim = some claim) : job.WritesToClaim claim := by
  obtain ⟨backup, -, rfl⟩ := forBackup_eq_ok h
  constructor
  · exact ⟨volumeName, by simp [volumes, specFor, hd]⟩
  · simp [environment, specFor, hd, baseVariables, bucketNames]
  · simp [secretNames, environment, specFor, hd, baseVariables]

theorem secrets_optionalVariable (name : String) (value : Json) :
    (optionalVariable name value).filterMap (fun v =>
      match v.source with
      | .secret name _ => some name
      | .value _ => none) = [] := by
  unfold optionalVariable
  split <;> rfl

theorem writesToBucket_of_forBackup {bucket : Bucket} (h : forBackup b cluster d limit = .ok job)
    (hclaim : d.claim = none) (hbucket : d.bucket = some bucket) :
    job.WritesToBucket d.address bucket := by
  obtain ⟨backup, -, rfl⟩ := forBackup_eq_ok h
  constructor
  · simp [volumes, specFor, hclaim]
  · simp [mounts, specFor, hclaim]
  · simp [environment, specFor, hclaim, hbucket, bucketVariables]
  · simp [secretNames, environment, specFor, hclaim, hbucket, baseVariables, bucketVariables,
      secrets_optionalVariable]

end Job

/-! ## Along the course -/

variable {τ σ : Type} {settings : Settings τ} {key : ObjectKey} {b b' : Backup} {p p' : Plan}
  {es es' : List Exchange} {ns : Json} {job : Job} {claim : Claim}

theorem HasPlan.unique (h : HasPlan settings key b p es) (h' : HasPlan settings key b' p' es) :
    b = b' ∧ p = p' := by
  obtain ⟨object, listing, rest, rfl, hread, hplan⟩ := h.eq_cons
  obtain ⟨object', listing', rest', heq, hread', hplan'⟩ := h'.eq_cons
  obtain ⟨hfirst, hrest⟩ := List.cons.inj heq
  cases hfirst
  obtain rfl : b = b' := Except.ok.inj (hread.symm.trans hread')
  obtain ⟨hsecond, -⟩ := List.cons.inj hrest
  cases hsecond
  exact ⟨rfl, Except.ok.inj (hplan.symm.trans hplan')⟩

theorem HasPlan.destination (h : HasPlan settings key b p es) :
    Destination.ofProfile b p.profile settings.claimName = .ok p.destination := by
  obtain ⟨object, listing, rest, rfl, -, hplan⟩ := h.eq_cons
  exact (planFor_ok hplan).2.2

/-- Where a job writes that was created after some exchanges. For a filesystem the last of them
found the claim bound; for a bucket there is nothing to wait for. -/
inductive WritesAsPlanned (settings : Settings τ) (b : Backup) (p : Plan) (job : Job) :
    List Exchange → Prop where
  | claim {es : List Exchange} {template : List (String × Json)} {reading : Option Json}
      (hp : p.profile = .filesystem template)
      (hbound : (Volume.phaseOf reading).equals Volume.boundPhase = true)
      (haddress : p.destination.address = Destination.claimScheme ++ settings.claimName)
      (hjob : job.WritesToClaim settings.claimName) :
      WritesAsPlanned settings b p job
        (es ++ [⟨.readClaim b.ns (.str settings.claimName), .ok reading⟩])
  | bucket {es : List Exchange} {bucket : Bucket} (hp : p.profile = .bucket bucket)
      (hjob : job.WritesToBucket p.destination.address bucket) :
      WritesAsPlanned settings b p job es

theorem Ready.writesAsPlanned (h : Ready settings key b p es)
    (hjob : Job.forBackup b p.cluster p.destination settings.jobBackoffLimit = .ok job) :
    WritesAsPlanned settings b p job es := by
  have hd := h.hasPlan.destination
  cases h with
  | direct h hp =>
    cases hprofile : p.profile with
    | filesystem template => exact absurd hprofile (hp template)
    | bucket bucket =>
      rw [hprofile] at hd
      obtain ⟨name, -, -, hclaim, hbucket⟩ := Destination.address_of_ofProfile hd
      apply WritesAsPlanned.bucket hprofile
      exact Job.writesToBucket_of_forBackup hjob hclaim hbucket
    | unknown kind =>
      rw [hprofile] at hd
      cases hd
  | bound h hk hbound =>
    obtain ⟨template, hprofile⟩ := h.filesystem
    rw [hprofile] at hd
    have hclaim : p.destination = .onClaim settings.claimName := (Except.ok.inj hd).symm
    apply WritesAsPlanned.claim hprofile hbound
    · rw [hclaim]
      rfl
    · apply Job.writesToClaim_of_forBackup hjob
      rw [hclaim]
      rfl

theorem Due.plan_of_createJob (h : Due settings key es (.createJob ns job)) :
    ∃ b p, HasPlan settings key b p es ∧ ns = b.ns ∧ job.IsWired b p.destination.address ∧
      WritesAsPlanned settings b p job es := by
  cases h with
  | createJob h hjob =>
    exact ⟨_, _, h.hasPlan, rfl, Job.isWired_of_forBackup hjob, h.writesAsPlanned hjob⟩

theorem Due.plan_of_createClaim (h : Due settings key es (.createClaim ns claim)) :
    ∃ b p template, HasPlan settings key b p es ∧ ns = b.ns ∧
      p.profile = .filesystem template ∧
      Claim.forBackup b template settings.claimName = .ok claim := by
  cases h with
  | createClaim h hp hf hclaim => exact ⟨_, _, _, h.hasPlan.append _, rfl, hp, hclaim⟩

theorem Due.plan_of_readClaim {name : Json} (h : Due settings key es (.readClaim ns name)) :
    ∃ b p, HasPlan settings key b p es ∧ ns = b.ns ∧ name = .str settings.claimName := by
  cases h with
  | lookForClaim h hp => exact ⟨_, _, h.hasPlan, rfl, rfl⟩
  | checkClaim h hk => exact ⟨_, _, h.hasPlan, rfl, rfl⟩

theorem Due.plan_of_replaceStatus {update : Api.StatusUpdate}
    (h : Due settings key es (.replaceStatus update)) :
    ∃ b p, HasPlan settings key b p es ∧
      update.record.destination = .str p.destination.address := by
  cases h with
  | replaceStatus h hstatus hopen hnew => exact ⟨_, _, h.hasPlan.append _, rfl⟩

/-! ## Runs -/

/-- What a reconcile with some exchanges has to do with a job that it creates: the job is made for
the backup and the plan that the exchanges begin with, and is told to write to where every record
of this reconcile says that the backup is. -/
structure JobFits (settings : Settings τ) (key : ObjectKey) (b : Backup) (p : Plan)
    (es before : List Exchange) (ns : Json) (job : Job) : Prop where
  plan : HasPlan settings key b p before
  ns : ns = b.ns
  wired : job.IsWired b p.destination.address
  writes : WritesAsPlanned settings b p job before
  candidate : ∀ progress : Progress,
    job.destination? = some (Record.ofProgress progress p.destination b.profile).destination
  recorded : ∀ update outcome, ⟨.replaceStatus update, outcome⟩ ∈ es →
    job.destination? = some update.record.destination

/-- What a reconcile with some exchanges has to do with a claim that it creates: the claim is made
for the backup and the plan that the exchanges begin with, from the template of the profile, and it
is the one that is polled. -/
structure ClaimFits (settings : Settings τ) (key : ObjectKey) (b : Backup) (p : Plan)
    (es before : List Exchange) (ns : Json) (claim : Claim) : Prop where
  plan : HasPlan settings key b p before
  ns : ns = b.ns
  bodyNs : bodyNamespace claim = b.ns
  polled : ∀ ns' name outcome, ⟨.readClaim ns' name, outcome⟩ ∈ es →
    ns' = b.ns ∧ name = Api.bodyName claim
  owner : b.IsSoleOwner claim.owners
  spec : ∃ template, p.profile = .filesystem template ∧ claim.spec = some ⟨template⟩

variable [NatCast τ]

theorem due_of_split {host : Api.Program.Host τ σ} {s : σ} {before after : List Exchange}
    {e : Exchange} (h : (reconcile settings key).exchanges host s = before ++ e :: after) :
    before <+: (reconcile settings key).exchanges host s ∧ Due settings key before e.call := by
  refine ⟨?_, (obeys_reconcile settings key).of_append host s h⟩
  rw [h]
  exact List.prefix_append _ _

theorem due_of_mem {host : Api.Program.Host τ σ} {s : σ} {e : Exchange}
    (h : e ∈ (reconcile settings key).exchanges host s) : ∃ before,
      before <+: (reconcile settings key).exchanges host s ∧ Due settings key before e.call := by
  obtain ⟨before, after, hsplit⟩ := List.append_of_mem h
  exact ⟨before, due_of_split hsplit⟩

/-- The jobs and claims that a reconcile creates fit its plan, its record and each other, whatever
is stored and whatever the API answers. -/
theorem created_objects_are_wired (settings : Settings τ) (key : ObjectKey)
    (host : Api.Program.Host τ σ) (s : σ) :
    let es := (reconcile settings key).exchanges host s
    (∀ before after ns job outcome, es = before ++ ⟨.createJob ns job, outcome⟩ :: after →
      ∃ b p, JobFits settings key b p es before ns job) ∧
    (∀ before after ns claim outcome, es = before ++ ⟨.createClaim ns claim, outcome⟩ :: after →
      ∃ b p, ClaimFits settings key b p es before ns claim) := by
  intro es
  constructor
  · intro before after ns job outcome hsplit
    obtain ⟨hbefore, hcreated⟩ := due_of_split hsplit
    obtain ⟨b, p, hplan, hns, hwired, hwrites⟩ := hcreated.plan_of_createJob
    refine ⟨b, p, hplan, hns, hwired, hwrites, fun _ => hwired.destination, ?_⟩
    intro update outcome hmem
    -- The record is written by the same plan: both calls come after the exchanges that give it.
    obtain ⟨earlier, hearlier, hdue⟩ := due_of_mem hmem
    obtain ⟨b', p', hplan', hrecord⟩ := hdue.plan_of_replaceStatus
    obtain ⟨-, rfl⟩ := (hplan.mono hbefore).unique (hplan'.mono hearlier)
    rw [hrecord, hwired.destination]
  · intro before after ns claim outcome hsplit
    obtain ⟨hbefore, hcreated⟩ := due_of_split hsplit
    obtain ⟨b, p, template, hplan, hns, hprofile, hclaim⟩ := hcreated.plan_of_createClaim
    refine ⟨b, p, hplan, hns, ?_, ?_, ?_, template, hprofile, ?_⟩
    · rw [Resource.ownedBy_eq_ok hclaim]
      rfl
    · intro ns' name outcome hmem
      obtain ⟨earlier, hearlier, hdue⟩ := due_of_mem hmem
      obtain ⟨b', p', hplan', hns', hname⟩ := hdue.plan_of_readClaim
      obtain ⟨rfl, -⟩ := (hplan.mono hbefore).unique (hplan'.mono hearlier)
      exact ⟨hns', by rw [hname, Claim.bodyName_of_forBackup hclaim]⟩
    · rw [Claim.owners_of_forBackup hclaim]
      exact b.isSoleOwner_asOwner
    · rw [Resource.ownedBy_eq_ok hclaim]

/-- The first reconcile of the nightly backup creates its claim and then its job. -/
theorem created_objects_are_wired_nightly :
    (∃ b p before ns job, JobFits (.usual : Settings Rat) Nightly.key b p Nightly.firstExchanges
      before ns job) ∧
    ∃ b p before ns claim, ClaimFits (.usual : Settings Rat) Nightly.key b p Nightly.firstExchanges
      before ns claim := by
  have hjob : Nightly.firstExchanges.any (·.call.isSubmission) = true := by decide +kernel
  have hclaim : Nightly.firstExchanges.any (·.call.isClaimCreation) = true := by decide +kernel
  obtain ⟨hjobs, hclaims⟩ := created_objects_are_wired (.usual : Settings Rat) Nightly.key
    (Api.Server.host Rat) Nightly.onFilesystem
  constructor
  · obtain ⟨⟨call, outcome⟩, hmem, hcall⟩ := List.any_eq_true.1 hjob
    cases call with
    | createJob ns job =>
      obtain ⟨before, after, hsplit⟩ := List.append_of_mem hmem
      obtain ⟨b, p, hfits⟩ := hjobs before after ns job outcome hsplit
      exact ⟨b, p, before, ns, job, hfits⟩
    | _ => cases hcall
  · obtain ⟨⟨call, outcome⟩, hmem, hcall⟩ := List.any_eq_true.1 hclaim
    cases call with
    | createClaim ns claim =>
      obtain ⟨before, after, hsplit⟩ := List.append_of_mem hmem
      obtain ⟨b, p, hfits⟩ := hclaims before after ns claim outcome hsplit
      exact ⟨b, p, before, ns, claim, hfits⟩
    | _ => cases hcall

end ClusterBackup
