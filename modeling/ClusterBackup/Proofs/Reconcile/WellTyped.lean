import ClusterBackup.Proofs.Cluster.Buckets
import ClusterBackup.Proofs.Json.Schema
/-!
# What is read of well-typed objects

The types that the API documents for backups and clusters. Objects of these types are read, and once
a backup was read only an obstacle can keep it from a plan (`obstacle_of_planFor`).
-/

namespace ClusterBackup

open Api.Server (memberOrNull)

namespace Schema

def bucket : Schema :=
  object [("bucket", text), ("credentialsSecret", text), ("region", text), ("endpointUrl", text)]

def record : Schema :=
  object [("state", text), ("destination", text), ("storageProfile", text),
    ("objectStorage", bucket), ("completedAt", text)]

def backup : Schema :=
  object [("metadata", object [("namespace", text), ("name", text), ("uid", text),
      ("creationTimestamp", text), ("resourceVersion", text)]),
    ("spec", object [("targetCluster", text), ("storageProfile", text)]),
    ("status", record)]

def profile : Schema :=
  object [("type", text), ("volume", object [("persistentVolumeClaim", table anything)]),
    ("s3", bucket)]

def backupSection : Schema :=
  object [("image", text), ("storages", table profile),
    ("imagePullSecrets", list (object [("name", text)])), ("serviceAccountName", text)]

def cluster : Schema :=
  object [("metadata", object [("namespace", text), ("name", text)]),
    ("spec", object [("backup", backupSection)])]

def listing : Schema := object [("items", list cluster)]

theorem describes_listing {items : List Json} (h : ∀ i ∈ items, cluster.describes i = true) :
    listing.describes (.obj [("items", .arr items)]) = true := by
  rw [listing, describes, describesFields_iff, List.forall_mem_singleton]
  show (list cluster).describes (.arr items) = true
  rw [describes, List.all_eq_true]
  exact h

end Schema

variable {raw : Json}

/-! ## Records and backups -/

theorem Bucket.ofJson_of_describes (h : Schema.bucket.describes raw = true) :
    ∃ b name, ofJson raw = .ok b ∧ b.name = .str name := by
  obtain ⟨bucket, hbucket, htext⟩ := Schema.describes_member h "bucket" rfl
  obtain ⟨credentials, hcredentials, -⟩ := Schema.describes_member h "credentialsSecret" rfl
  obtain ⟨region, hregion, -⟩ := Schema.describes_member h "region" rfl
  obtain ⟨endpoint, hendpoint, -⟩ := Schema.describes_member h "endpointUrl" rfl
  obtain ⟨name, hname⟩ := Schema.orBlank_of_admits htext
  exact ⟨⟨bucket.orBlank, credentials.orBlank, region, endpoint⟩, name,
    ofJson_eq_ok.2 ⟨bucket, credentials, hbucket, hcredentials, hregion, hendpoint, rfl, rfl⟩,
    hname⟩

theorem Record.ofJson_of_admits (h : Schema.record.admits raw = true) :
    ∃ record, ofJson raw = .ok record ∧ ∀ r, record = some r → r.state.isAtom = true := by
  unfold ofJson
  by_cases hg : raw.given = true
  · have hd := Schema.describes_of_given h hg
    obtain ⟨state, hstate, htext⟩ := Schema.describes_member hd "state" rfl
    obtain ⟨bucket, hbucket, hstored⟩ := Schema.describes_member hd "objectStorage" rfl
    obtain ⟨destination, hdestination, -⟩ := Schema.describes_member hd "destination" rfl
    obtain ⟨profile, hprofile, -⟩ := Schema.describes_member hd "storageProfile" rfl
    obtain ⟨completedAt, hcompleted, -⟩ := Schema.describes_member hd "completedAt" rfl
    have hatom : state.given = true → state.isAtom = true := by
      intro hgiven
      have hstr := Schema.describes_of_given htext hgiven
      cases state with
      | str _ => rfl
      | _ => cases hstr
    simp only [hg, hstate, hbucket, hdestination, hprofile, hcompleted, bind, Except.bind, pure,
      Except.pure]
    by_cases hgiven : state.given = true
    · by_cases hb : bucket.given = true
      · obtain ⟨b, -, hread, -⟩ := Bucket.ofJson_of_describes (Schema.describes_of_given hstored hb)
        simp [hgiven, hb, hread, hatom hgiven, Functor.map, Except.map]
      · simp [hgiven, hb, hatom hgiven]
    · simp [hgiven]
  · simp [hg, pure, Except.pure]

/-- The names in the backup are texts, and the state of its record can be compared. -/
structure Backup.IsTyped (b : Backup) : Prop where
  cluster : ∃ name, b.cluster = .str name
  profile : ∃ name, b.profile = .str name
  uid : ∃ uid, b.uid = .str uid
  state : ∀ r, b.record = some r → r.state.isAtom = true

theorem Backup.ofJson_of_describes (h : Schema.backup.describes raw = true) {t : Timestamp}
    (ht : Timestamp.ofJson (memberOrNull (memberOrNull raw "metadata") "creationTimestamp") =
      .ok t) :
    ∃ b, ofJson raw = .ok b ∧ b.IsTyped := by
  obtain ⟨metadata, hmetadata, hm⟩ := Schema.describes_member h "metadata" rfl
  obtain ⟨spec, hspec, hs⟩ := Schema.describes_member h "spec" rfl
  obtain ⟨status, hstatus, hr⟩ := Schema.describes_member h "status" rfl
  obtain ⟨ns, hns, -⟩ := Schema.admits_member hm "namespace" rfl
  obtain ⟨name, hname, -⟩ := Schema.admits_member hm "name" rfl
  obtain ⟨uid, huid, huidText⟩ := Schema.admits_member hm "uid" rfl
  obtain ⟨created, hcreated, -⟩ := Schema.admits_member hm "creationTimestamp" rfl
  obtain ⟨version, hversion, -⟩ := Schema.admits_member hm "resourceVersion" rfl
  obtain ⟨cluster, hcluster, hclusterText⟩ := Schema.admits_member hs "targetCluster" rfl
  obtain ⟨profile, hprofile, hprofileText⟩ := Schema.admits_member hs "storageProfile" rfl
  obtain ⟨record, hrecord, hatom⟩ := Record.ofJson_of_admits hr
  rw [memberOrNull_of_member hmetadata, memberOrNull_of_orEmpty hcreated] at ht
  refine ⟨⟨ns.orBlank, name.orBlank, uid.orBlank, cluster.orBlank, profile.orBlank, t, version,
    record⟩, ?_, Schema.orBlank_of_admits hclusterText, Schema.orBlank_of_admits hprofileText,
    Schema.orBlank_of_admits huidText, hatom⟩
  unfold ofJson
  simp only [bind_eq_ok, mapError_eq_ok]
  exact ⟨metadata, hmetadata, spec, hspec, ns, hns, name, hname, uid, huid, cluster, hcluster,
    profile, hprofile, created, hcreated, t, ht, version, hversion, record,
    bind_eq_ok.2 ⟨status, hstatus, hrecord⟩, rfl⟩

theorem Backup.IsTyped.given_uid {b : Backup} (hb : b.IsTyped) :
    b.uid.given = true ↔ b.uid ≠ .str "" := by
  obtain ⟨uid, huid⟩ := hb.uid
  rw [huid, Json.given_str, bne_iff_ne, Ne, Ne, Json.str.injEq]

/-! ## Clusters -/

/-- Every bucket that the cluster offers is named by a text. -/
def NamesBuckets (profiles : List (String × Profile)) : Prop :=
  ∀ key bucket, (key, .bucket bucket) ∈ profiles → ∃ name, bucket.name = .str name

theorem Profile.ofJson_of_describes (h : Schema.profile.describes raw = true) :
    ∃ p, ofJson raw = .ok p ∧ ∀ b, p = .bucket b → ∃ name, b.name = .str name := by
  obtain ⟨type, htype, -⟩ := Schema.describes_member h "type" rfl
  obtain ⟨volume, hvolume, hv⟩ := Schema.describes_member h "volume" rfl
  obtain ⟨description, hdescription, hb⟩ := Schema.describes_member h "s3" rfl
  obtain ⟨claim, hclaim, hc⟩ := Schema.admits_member hv "persistentVolumeClaim" rfl
  obtain ⟨template, htemplate, -⟩ := Schema.table_of_admits hc
  obtain ⟨bucket, name, hbucket, hname⟩ :=
    Bucket.ofJson_of_describes (Schema.describes_orEmpty hb)
  unfold ofJson
  simp only [htype, hvolume, hdescription, hclaim, htemplate, hbucket, Json.members, bind,
    Except.bind, pure, Except.pure]
  split
  · exact ⟨_, rfl, by simp⟩
  · split
    · exact ⟨_, rfl, by simp [hname]⟩
    · exact ⟨_, rfl, by simp⟩

theorem BackupSection.readProfiles_of_admits {members : List (String × Json)}
    (h : ∀ m ∈ members, Schema.profile.admits m.2 = true) :
    ∃ profiles, readProfiles members = .ok profiles ∧ NamesBuckets profiles := by
  induction members with
  | nil => exact ⟨[], rfl, by simp [NamesBuckets]⟩
  | cons m members ih =>
    obtain ⟨name, raw⟩ := m
    obtain ⟨hraw, hrest⟩ := List.forall_mem_cons.1 h
    obtain ⟨profile, hprofile, hbucket⟩ :=
      Profile.ofJson_of_describes (Schema.describes_orEmpty hraw)
    obtain ⟨profiles, hprofiles, hnames⟩ := ih hrest
    refine ⟨(name, profile) :: profiles, ?_, ?_⟩
    · simp only [readProfiles, hprofile, hprofiles, bind, Except.bind, pure, Except.pure]
    · intro key bucket hmem
      rcases List.mem_cons.1 hmem with heq | hmem
      · cases heq
        exact hbucket bucket rfl
      · exact hnames key bucket hmem

theorem BackupSection.readPullSecrets_of_describes {entries : List Json}
    (h : ∀ e ∈ entries, (Schema.object [("name", .text)]).describes e = true) :
    ∃ names, readPullSecrets entries = .ok names := by
  induction entries with
  | nil => exact ⟨[], rfl⟩
  | cons e entries ih =>
    obtain ⟨hentry, hrest⟩ := List.forall_mem_cons.1 h
    obtain ⟨name, hname, -⟩ := Schema.describes_member hentry "name" rfl
    obtain ⟨names, hnames⟩ := ih hrest
    refine ⟨if name.given then name :: names else names, ?_⟩
    simp only [readPullSecrets, hname, hnames, bind, Except.bind, pure, Except.pure]

theorem BackupSection.ofJson_of_describes (h : Schema.backupSection.describes raw = true) :
    ∃ backup, ofJson raw = .ok backup ∧ NamesBuckets backup.profiles := by
  obtain ⟨image, himage, -⟩ := Schema.describes_member h "image" rfl
  obtain ⟨storages, hstorages, hs⟩ := Schema.describes_member h "storages" rfl
  obtain ⟨secrets, hsecrets, hp⟩ := Schema.describes_member h "imagePullSecrets" rfl
  obtain ⟨account, haccount, -⟩ := Schema.describes_member h "serviceAccountName" rfl
  obtain ⟨members, hmembers, hm⟩ := Schema.table_of_admits hs
  obtain ⟨entries, hentries, he⟩ := Schema.elements_of_admits hp
  obtain ⟨profiles, hprofiles, hnames⟩ := readProfiles_of_admits hm
  obtain ⟨names, hread⟩ := readPullSecrets_of_describes he
  refine ⟨⟨image.orBlank, profiles, names, account⟩, ?_, hnames⟩
  simp only [ofJson, himage, hstorages, hsecrets, haccount, hmembers, hentries, hprofiles, hread,
    bind, Except.bind, pure, Except.pure]

theorem Cluster.ofJson_of_describes (h : Schema.cluster.describes raw = true) :
    ∃ c, ofJson raw = .ok c ∧ NamesBuckets c.profiles := by
  obtain ⟨metadata, hmetadata, hm⟩ := Schema.describes_member h "metadata" rfl
  obtain ⟨spec, hspec, hs⟩ := Schema.describes_member h "spec" rfl
  obtain ⟨backup, hbackup, hb⟩ := Schema.admits_member hs "backup" rfl
  obtain ⟨ns, hns, -⟩ := Schema.admits_member hm "namespace" rfl
  obtain ⟨name, hname, -⟩ := Schema.admits_member hm "name" rfl
  unfold ofJson
  simp only [hmetadata, hspec, hbackup, hns, hname, bind, Except.bind, pure, Except.pure]
  split
  · rename_i hgiven
    obtain ⟨found, hfound, hnames⟩ :=
      BackupSection.ofJson_of_describes (Schema.describes_of_given hb hgiven)
    rw [hfound]
    exact ⟨_, rfl, hnames⟩
  · exact ⟨_, rfl, by simp [NamesBuckets, profiles]⟩

theorem exists_mapM_of_forall {ε α β : Type} {f : α → Except ε β} {P : β → Prop} {xs : List α}
    (h : ∀ x ∈ xs, ∃ y, f x = .ok y ∧ P y) : ∃ ys, xs.mapM f = .ok ys ∧ ∀ y ∈ ys, P y := by
  induction xs with
  | nil => exact ⟨[], rfl, by simp⟩
  | cons x xs ih =>
    obtain ⟨⟨y, hy, hp⟩, hrest⟩ := List.forall_mem_cons.1 h
    obtain ⟨ys, hys, hps⟩ := ih hrest
    refine ⟨y :: ys, ?_, List.forall_mem_cons.2 ⟨hp, hps⟩⟩
    rw [List.mapM_cons, hy, hys]
    rfl

theorem Cluster.listOfJson_of_describes (h : Schema.listing.describes raw = true) :
    ∃ clusters, listOfJson raw = .ok clusters ∧ ∀ c ∈ clusters, NamesBuckets c.profiles := by
  obtain ⟨items, hitems, hi⟩ := Schema.describes_member h "items" rfl
  obtain ⟨elements, helements, he⟩ := Schema.elements_of_admits hi
  obtain ⟨clusters, hclusters, hnames⟩ :=
    exists_mapM_of_forall fun raw hraw => Cluster.ofJson_of_describes (he raw hraw)
  refine ⟨clusters, ?_, hnames⟩
  simp only [listOfJson, hitems, helements, hclusters, bind, Except.bind]

/-! ## Plans -/

variable {stop : Stop} {outcome : Except Api.Failure Json}

theorem obstacle_of_chooseCluster {ns name : Json}
    (hl : ∀ listing, outcome = .ok listing → Schema.listing.describes listing = true)
    (h : chooseCluster ns name outcome = .error stop) : ∃ o, stop = .obstacle o := by
  cases outcome with
  | error f =>
    cases h
    exact ⟨_, rfl⟩
  | ok listing =>
    obtain ⟨clusters, hclusters, -⟩ := Cluster.listOfJson_of_describes (hl listing rfl)
    unfold chooseCluster at h
    dsimp only at h
    rw [hclusters] at h
    dsimp only at h
    split at h
    · cases h
    · cases h
      exact ⟨_, rfl⟩

theorem obstacle_of_profile {cluster : Cluster} {name : String}
    (h : cluster.profile (.str name) = .error stop) : ∃ o, stop = .obstacle o := by
  unfold Cluster.profile at h
  dsimp only at h
  split at h
  · cases h
  · cases h
    exact ⟨_, rfl⟩

theorem obstacle_of_ofProfile {b : Backup} {profile : Profile} {claim : String}
    (hb : ∀ bucket, profile = .bucket bucket → ∃ name, bucket.name = .str name)
    (h : Destination.ofProfile b profile claim = .error stop) : ∃ o, stop = .obstacle o := by
  cases profile with
  | filesystem template => cases h
  | bucket bucket =>
    obtain ⟨name, hname⟩ := hb bucket rfl
    unfold Destination.ofProfile at h
    dsimp only at h
    rw [hname] at h
    cases h
  | unknown kind =>
    cases h
    exact ⟨_, rfl⟩

/-- What keeps a backup that was read from its plan is an obstacle. -/
theorem obstacle_of_planFor {τ : Type} {settings : Settings τ} {b : Backup} {profile : String}
    (hprofile : b.profile = .str profile)
    (hl : ∀ listing, outcome = .ok listing → Schema.listing.describes listing = true)
    (h : planFor settings b outcome = .error stop) : ∃ o, stop = .obstacle o := by
  unfold planFor at h
  rcases bind_eq_error.1 h with h | ⟨cluster, hcluster, h⟩
  · exact obstacle_of_chooseCluster hl h
  · split at h
    · cases h
      exact ⟨_, rfl⟩
    · rcases bind_eq_error.1 h with h | ⟨selected, hselected, h⟩
      · rw [hprofile] at h
        exact obstacle_of_profile h
      · rcases bind_eq_error.1 h with h | ⟨destination, -, h⟩
        · refine obstacle_of_ofProfile (fun bucket hbucket => ?_) h
          cases outcome with
          | error f => cases hcluster
          | ok listing =>
            obtain ⟨clusters, hclusters, hmem⟩ := chooseCluster_ok hcluster
            obtain ⟨clusters', hclusters', hnames⟩ :=
              Cluster.listOfJson_of_describes (hl listing rfl)
            rw [hclusters] at hclusters'
            cases hclusters'
            obtain ⟨key, -, hkey⟩ := Cluster.mem_profiles_of_profile hselected
            exact hnames cluster hmem key bucket (hbucket ▸ hkey)
        · cases h

end ClusterBackup
