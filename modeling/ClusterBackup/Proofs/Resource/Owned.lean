import ClusterBackup.Proofs.Record.Reading
import ClusterBackup.Reconcile.Recording
import ClusterBackup.Resource.BackupJob
import ClusterBackup.Resource.VolumeClaim
/-!
# What is created for a backup

A job or a claim that could be made for a backup is put in the namespace of the backup, and the
backup is its only owner.
-/

namespace ClusterBackup

variable {b : Backup} {ns : String}

/-- What is put where the backup is can be owned by it, if the backup has a uid. -/
theorem Resource.ownedBy_of_ns {σ : Type} [Manifest σ] {m : Metadata} {spec : Option σ}
    (hm : m.ns = .str ns) (hb : b.ns = .str ns) :
    Resource.ownedBy ⟨some m, spec⟩ b =
      if b.uid.given then
        .ok ⟨some { m with owners := some (m.owners.getD [] ++ [b.asOwner]) }, spec⟩
      else .error (.noUid b.ns b.name) := by
  unfold Resource.ownedBy
  dsimp only
  rw [hm, hb]
  cases b.uid.given <;> simp

/-! ## Jobs -/

theorem Job.forBackup_eq_ok {job : Job} {cluster : Cluster} {d : Destination} {limit : Int}
    (h : forBackup b cluster d limit = .ok job) :
    ∃ backup, cluster.backup = some backup ∧
      job = ⟨some ⟨.str (nameFor b), b.ns, labels cluster.name, some [b.asOwner]⟩,
        some (specFor cluster backup d limit)⟩ := by
  unfold forBackup at h
  cases hbackup : cluster.backup with
  | none =>
    rw [hbackup] at h
    cases h
  | some backup =>
    rw [hbackup] at h
    exact ⟨backup, rfl, Resource.ownedBy_eq_ok (mapError_eq_ok.1 h)⟩

theorem Job.metadata_of_forBackup {job : Job} {cluster : Cluster} {d : Destination} {limit : Int}
    (h : forBackup b cluster d limit = .ok job) :
    bodyNamespace job = b.ns ∧ Api.bodyName job = .str (nameFor b) := by
  obtain ⟨backup, -, rfl⟩ := forBackup_eq_ok h
  exact ⟨rfl, rfl⟩

def Job.owners (job : Job) : List OwnerReference :=
  (job.metadata.bind Metadata.owners).getD []

/-- The job carries a reference to the owner of a uid. -/
def Job.IsOwnedBy (job : Job) (uid : Json) : Prop := ∃ r ∈ job.owners, r.uid = uid

theorem Job.owners_of_forBackup {job : Job} {cluster : Cluster} {d : Destination} {limit : Int}
    (h : forBackup b cluster d limit = .ok job) : job.owners = [b.asOwner] := by
  obtain ⟨backup, -, rfl⟩ := forBackup_eq_ok h
  rfl

theorem Job.isOwnedBy_of_forBackup {job : Job} {cluster : Cluster} {d : Destination} {limit : Int}
    (h : forBackup b cluster d limit = .ok job) : job.IsOwnedBy b.uid := by
  rw [IsOwnedBy, owners_of_forBackup h]
  exact ⟨b.asOwner, List.mem_cons_self, rfl⟩

def Job.destination? (job : Job) : Option Json := do
  let spec ← job.spec
  let v ← spec.environment.find? fun v => v.name == "BACKUP_DESTINATION"
  match v.source with
  | .value destination => some destination
  | .secret .. => none

theorem Job.destination?_of_forBackup {job : Job} {cluster : Cluster} {d : Destination}
    {limit : Int} (h : forBackup b cluster d limit = .ok job) :
    job.destination? = some (.str d.address) := by
  obtain ⟨backup, -, rfl⟩ := forBackup_eq_ok h
  simp [destination?, specFor, baseVariables]

def Job.limit? (job : Job) : Option Int := job.spec.map JobSpec.backoffLimit

theorem Job.limit?_of_forBackup {job : Job} {cluster : Cluster} {d : Destination} {limit : Int}
    (h : forBackup b cluster d limit = .ok job) : job.limit? = some limit := by
  obtain ⟨backup, -, rfl⟩ := forBackup_eq_ok h
  rfl

def Job.claimNames (job : Job) : List String :=
  match job.spec with
  | some spec => spec.volumes.map Volume.claim
  | none => []

theorem Job.claimNames_of_forBackup {job : Job} {cluster : Cluster} {d : Destination} {limit : Int}
    (h : forBackup b cluster d limit = .ok job) : job.claimNames = d.claim.toList := by
  obtain ⟨backup, -, rfl⟩ := forBackup_eq_ok h
  cases hd : d.claim <;> simp [claimNames, specFor, hd]

theorem Job.forBackup_eq {cluster : Cluster} {backup : BackupSection} (hb : b.ns = .str ns)
    (hbackup : cluster.backup = some backup) (d : Destination) (limit : Int) :
    (b.uid.given = true → ∃ job, forBackup b cluster d limit = .ok job) ∧
      (b.uid.given = false →
        forBackup b cluster d limit = .error (.ownership (.noUid b.ns b.name))) := by
  unfold forBackup
  rw [hbackup]
  dsimp only
  rw [Resource.ownedBy_of_ns hb hb]
  constructor
  · intro hgiven
    rw [if_pos hgiven]
    exact ⟨_, rfl⟩
  · intro hgiven
    rw [if_neg (by rw [hgiven]; decide)]
    rfl

/-! ## Claims -/

theorem Claim.bodyName_of_forBackup {template : List (String × Json)} {name : String}
    {claim : Claim} (h : forBackup b template name = .ok claim) :
    Api.bodyName claim = .str name := by
  rw [Resource.ownedBy_eq_ok h]
  rfl

def Claim.owners (claim : Claim) : List OwnerReference :=
  (claim.metadata.bind Metadata.owners).getD []

theorem Claim.owners_of_forBackup {template : List (String × Json)} {name : String}
    {claim : Claim} (h : forBackup b template name = .ok claim) : claim.owners = [b.asOwner] := by
  rw [Resource.ownedBy_eq_ok h]
  rfl

/-- The claim is removed with the owner of the uid: it has an owner, and no other one. -/
def Claim.GoesWith (claim : Claim) (uid : Json) : Prop :=
  claim.owners ≠ [] ∧ ∀ r ∈ claim.owners, r.uid = uid

theorem Claim.goesWith_iff {claim : Claim} (h : claim.owners = [b.asOwner]) (uid : Json) :
    claim.GoesWith uid ↔ uid = b.uid := by
  unfold GoesWith
  rw [h]
  simp [Backup.asOwner, eq_comm]

theorem Claim.forBackup_eq (hb : b.ns = .str ns) (template : List (String × Json))
    (name : String) :
    (b.uid.given = true → ∃ claim, forBackup b template name = .ok claim) ∧
      (b.uid.given = false → forBackup b template name = .error (.noUid b.ns b.name)) := by
  unfold forBackup
  dsimp only
  rw [Resource.ownedBy_of_ns hb hb]
  constructor
  · intro hgiven
    rw [if_pos hgiven]
    exact ⟨_, rfl⟩
  · intro hgiven
    rw [if_neg (by rw [hgiven]; decide)]

end ClusterBackup
