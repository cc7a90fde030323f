import ClusterBackup.Proofs.Api.TextKey
import ClusterBackup.Proofs.Cluster.Lookup
import ClusterBackup.Proofs.Reconcile.Containment
import ClusterBackup.Proofs.Reconcile.Phases
/-!
# What hinders a backup

The conditions that a backup has to meet to be carried out, by the objects that the API holds, and
what is reported of the first one that is not met. A backup is feasible, or something hinders it
(`feasible_or_hindered`). The clusters alone decide whether there is a plan for it.
-/

namespace ClusterBackup

open Api (Server)
open Api.Server (memberOrNull versionOf)

variable {τ : Type} {settings : Settings τ} {s : Server} {ns : String} {b : Backup}
  {cluster : Cluster} {backup : BackupSection} {profile : Profile} {object : Json}

/-! ## Conditions -/

def Api.Server.clustersIn (s : Server) (ns : String) : List Cluster :=
  ((s.clusters.filter fun c => c.1 == .text ns).map Prod.snd).filterMap fun raw =>
    (Cluster.ofJson raw).toOption

/-- The cluster is the first one of the name that the backup gives. -/
def Backup.Targets (b : Backup) (clusters : List Cluster) (cluster : Cluster) : Prop :=
  clusters.find? (fun c => decide (c.name = b.cluster)) = some cluster

/-- The backup section of the cluster that is targeted offers the profile under the name that the
backup gives. -/
inductive Backup.Selects (b : Backup) (clusters : List Cluster) (profile : Profile) : Prop where
  | intro {cluster : Cluster} {backup : BackupSection} {name : String}
      (hcluster : b.Targets clusters cluster) (hbackup : cluster.backup = some backup)
      (hname : b.profile = .str name) (hprofile : backup.profiles.lookup name = some profile)

def Profile.IsUsable : Profile → Prop
  | filesystem _ => True
  | bucket _ => True
  | unknown _ => False

def Settings.claimKey (settings : Settings τ) (ns : String) : ObjectKey :=
  .ofTexts ns settings.claimName

theorem Settings.keyOf_claimKey (settings : Settings τ) (hb : b.ns = .str ns) :
    Server.keyOf b.ns (.str settings.claimName) = .ok (settings.claimKey ns) := by
  rw [hb]
  rfl

/-- One of the phases that are polled, as many as there are attempts, is the bound one. -/
def Settings.GetsBound (settings : Settings τ) (s : Server) (ns : String) : Prop :=
  Volume.IsBoundWithin (Volume.polled s (settings.claimKey ns)) settings.bindAttempts.toNat

/-- All that a backup has to meet. -/
def Feasible (settings : Settings τ) (s : Server) (ns : String) (b : Backup) : Prop :=
  ∃ profile, b.Selects (s.clustersIn ns) profile ∧ profile.IsUsable ∧ b.uid ≠ .str "" ∧
    ∀ template, profile = .filesystem template → settings.GetsBound s ns

/-- What is in the way of a backup: the first condition that it does not meet. -/
inductive Hindrance (settings : Settings τ) (s : Server) (ns : String) (b : Backup) :
    Obstacle → Prop where
  | noSuchCluster (h : ∀ c ∈ s.clustersIn ns, c.name ≠ b.cluster) :
      Hindrance settings s ns b
        (.noSuchCluster b.cluster ((s.clustersIn ns).map Cluster.name))
  | backupNotSetUp {cluster : Cluster} (hcluster : b.Targets (s.clustersIn ns) cluster)
      (h : cluster.backup = none) : Hindrance settings s ns b (.backupNotSetUp cluster.name)
  | noSuchProfile {cluster : Cluster} {backup : BackupSection} {names : List String}
      (hcluster : b.Targets (s.clustersIn ns) cluster) (hbackup : cluster.backup = some backup)
      (h : ∀ p ∈ backup.profiles, b.profile ≠ .str p.1)
      (hnames : names.Perm (backup.profiles.map Prod.fst)) (hsorted : names.Pairwise (· ≤ ·)) :
      Hindrance settings s ns b (.noSuchProfile b.profile names)
  | unknownKind {kind : String} (h : b.Selects (s.clustersIn ns) (.unknown kind)) :
      Hindrance settings s ns b (.unknownKind b.profile kind)
  | noUid {profile : Profile} (hprofile : b.Selects (s.clustersIn ns) profile)
      (hkind : profile.IsUsable) (h : b.uid = .str "") :
      Hindrance settings s ns b (.ownership (.noUid b.ns b.name))
  | claimNotBound {template : List (String × Json)}
      (hprofile : b.Selects (s.clustersIn ns) (.filesystem template)) (huid : b.uid ≠ .str "")
      (h : ¬ settings.GetsBound s ns) :
      Hindrance settings s ns b (.claimNotBound settings.claimName
        (Volume.phaseAt (Volume.polled s (settings.claimKey ns))
          (settings.bindAttempts.toNat - 1)) settings.bindAttempts)

/-! ## Names of profiles -/

theorem sorted_profileNames (cluster : Cluster) : cluster.profileNames.Pairwise (· ≤ ·) := by
  have hle : ∀ a b : String, (!decide (b < a)) = true ↔ a ≤ b := by
    intro a b
    rw [Bool.not_eq_true', decide_eq_false_iff_not, String.not_lt]
  have htrans : ∀ a b c : String, (!decide (b < a)) = true → (!decide (c < b)) = true →
      (!decide (c < a)) = true := by
    intro a b c hab hbc
    exact (hle a c).2 (String.le_trans ((hle a b).1 hab) ((hle b c).1 hbc))
  have htotal : ∀ a b : String, (!decide (b < a) || !decide (a < b)) = true := by
    intro a b
    rw [Bool.or_eq_true, hle, hle]
    exact String.le_total a b
  have hsorted := List.pairwise_mergeSort htrans htotal (cluster.profiles.map Prod.fst)
  exact hsorted.imp fun h => (hle _ _).1 h

theorem perm_profileNames (h : cluster.backup = some backup) :
    cluster.profileNames.Perm (backup.profiles.map Prod.fst) := by
  unfold Cluster.profileNames Cluster.profiles
  rw [h]
  exact List.mergeSort_perm _ _

theorem eq_profileNames {names : List String}
    (h : cluster.backup = some backup) (hnames : names.Perm (backup.profiles.map Prod.fst))
    (hsorted : names.Pairwise (· ≤ ·)) : names = cluster.profileNames :=
  List.Perm.eq_of_pairwise (fun _ _ _ _ => String.le_antisymm) hsorted (sorted_profileNames cluster)
    (hnames.trans (perm_profileNames h).symm)

/-! ## Healthy APIs -/

/-- The objects of the server are of their types, and no read of a claim fails. -/
structure Api.Server.Healthy (s : Server) : Prop extends s.WellTyped, Volume.AllReadOn s

/-- The object is stored under the key that it names itself, and its version can be counted. -/
structure Api.Server.Holds (s : Server) (t : TextKey) (object : Json) : Prop where
  there : s.backups.find? t.key = some object
  ns : memberOrNull (memberOrNull object "metadata") "namespace" = .str t.1
  name : memberOrNull (memberOrNull object "metadata") "name" = .str t.2
  version : ∃ next, Server.nextVersion (versionOf object) = .ok next

structure Backup.IsRead (b : Backup) (t : TextKey) (object : Json) : Prop extends b.IsTyped where
  read : Backup.ofJson object = .ok b
  ns : b.ns = .str t.1
  name : b.name = .str t.2

theorem Api.Server.Holds.read {t : TextKey} (h : s.Holds t object) (hs : s.WellTyped) :
    ∃ b : Backup, b.IsRead t object := by
  obtain ⟨b, hb, htyped⟩ := (hs.backups _ object h.there).read
  have hread := Backup.readFrom_of_ofJson hb
  refine ⟨b, htyped, hb, ?_, ?_⟩
  · rw [hread.ns, h.ns, Json.orBlank_str]
  · rw [hread.name, h.name, Json.orBlank_str]

/-! ## One of them -/

/-- A backup that selects a profile is feasible, or its profile, its uid or its claim hinders it. -/
theorem feasible_or_hindered_of_selects (hprofile : b.Selects (s.clustersIn ns) profile) :
    Feasible settings s ns b ∨ ∃ o, Hindrance settings s ns b o := by
  by_cases hkind : profile.IsUsable
  · by_cases huid : b.uid = .str ""
    · exact .inr ⟨_, .noUid hprofile hkind huid⟩
    · by_cases hbound : ∀ template, profile = .filesystem template → settings.GetsBound s ns
      · exact .inl ⟨profile, hprofile, hkind, huid, hbound⟩
      · obtain ⟨template, hnot⟩ := Classical.not_forall.1 hbound
        obtain ⟨rfl, hunbound⟩ := Classical.not_imp.1 hnot
        exact .inr ⟨_, .claimNotBound hprofile huid hunbound⟩
  · cases profile with
    | filesystem => exact absurd trivial hkind
    | bucket => exact absurd trivial hkind
    | unknown kind => exact .inr ⟨_, .unknownKind hprofile⟩

theorem feasible_or_hindered (settings : Settings τ) (s : Server) (ns : String)
    (hb : b.IsTyped) : Feasible settings s ns b ∨ ∃ o, Hindrance settings s ns b o := by
  obtain ⟨name, hname⟩ := hb.profile
  cases hcluster : (s.clustersIn ns).find? fun c => decide (c.name = b.cluster) with
  | none => exact .inr ⟨_, .noSuchCluster (by simpa using hcluster)⟩
  | some cluster =>
    cases hbackup : cluster.backup with
    | none => exact .inr ⟨_, .backupNotSetUp hcluster hbackup⟩
    | some backup =>
      cases hprofile : backup.profiles.lookup name with
      | some profile =>
        exact feasible_or_hindered_of_selects (.intro hcluster hbackup hname hprofile)
      | none =>
        refine .inr ⟨_, .noSuchProfile hcluster hbackup ?_ (perm_profileNames hbackup)
          (sorted_profileNames cluster)⟩
        rintro p hp hsame
        rw [hname, Json.str.injEq] at hsame
        rw [List.lookup_eq_none_iff] at hprofile
        have hdiffers := hprofile p hp
        simp [hsame] at hdiffers

/-! ## The plan -/

theorem filterMap_toOption_of_mapM {ε α β : Type} {f : α → Except ε β} {xs : List α} {ys : List β}
    (h : xs.mapM f = .ok ys) : xs.filterMap (fun x => (f x).toOption) = ys := by
  induction xs generalizing ys with
  | nil =>
    cases h
    rfl
  | cons x xs ih =>
    rw [List.mapM_cons, bind_eq_ok] at h
    obtain ⟨y, hy, h⟩ := h
    obtain ⟨rest, hrest, h⟩ := bind_eq_ok.1 h
    cases h
    rw [List.filterMap_cons, hy, ih hrest]
    rfl

theorem Cluster.listOfJson_items (items : List Json) :
    listOfJson (.obj [("items", .arr items)]) = items.mapM ofJson :=
  listOfJson_of_lists (lists_items items)

theorem answer_listClusters (hs : s.TypedAround) (ns : String) :
    ∃ listing, s.answer (.listClusters (.str ns)) = (.ok listing, s) ∧
      Cluster.listOfJson listing = .ok (s.clustersIn ns) ∧
      ∀ c ∈ s.clustersIn ns, NamesBuckets c.profiles := by
  have hlisting : Schema.listing.describes (.obj [("items",
      .arr ((s.clusters.filter fun c => c.1 == .text ns).map Prod.snd))]) = true :=
    hs.isTyped (.listClusters (.str ns))
  obtain ⟨clusters, hclusters, hnames⟩ := Cluster.listOfJson_of_describes hlisting
  have hmap := hclusters
  rw [Cluster.listOfJson_items] at hmap
  have hread : s.clustersIn ns = clusters := filterMap_toOption_of_mapM hmap
  rw [hread]
  exact ⟨_, rfl, hclusters, hnames⟩

variable {listing : Json} {clusters : List Cluster} {target name : String}

theorem planFor_eq (hclusters : Cluster.listOfJson listing = .ok clusters)
    (htarget : b.cluster = .str target) :
    planFor settings b (.ok listing) =
      match clusters.find? fun c => decide (c.name = b.cluster) with
      | none => .error (.obstacle (.noSuchCluster b.cluster (clusters.map Cluster.name)))
      | some cluster => match cluster.backup with
        | none => .error (.obstacle (.backupNotSetUp cluster.name))
        | some _ => do
          let profile ← cluster.profile b.profile
          let destination ← Destination.ofProfile b profile settings.claimName
          return ⟨cluster, profile, destination⟩ := by
  have hequals : (fun c : Cluster => c.name.equals b.cluster) =
      fun c => decide (c.name = b.cluster) := by
    funext c
    rw [htarget, Bool.eq_iff_iff, Json.equals_str_iff, decide_eq_true_eq]
  unfold planFor chooseCluster
  dsimp only
  rw [hclusters]
  dsimp only
  rw [hequals]
  cases clusters.find? fun c => decide (c.name = b.cluster) <;> rfl

theorem planFor_of_targets (hclusters : Cluster.listOfJson listing = .ok clusters)
    (htarget : b.cluster = .str target) (hcluster : b.Targets clusters cluster)
    (hbackup : cluster.backup = some backup) :
    planFor settings b (.ok listing) = (do
      let profile ← cluster.profile b.profile
      let destination ← Destination.ofProfile b profile settings.claimName
      return ⟨cluster, profile, destination⟩) := by
  rw [planFor_eq hclusters htarget, hcluster]
  dsimp only
  rw [hbackup]

theorem Cluster.profile_of_lookup (hbackup : cluster.backup = some backup)
    (h : backup.profiles.lookup name = some profile) :
    cluster.profile (.str name) = .ok profile := by
  unfold Cluster.profile Cluster.profiles
  dsimp only
  rw [hbackup]
  dsimp only
  rw [h]

theorem Destination.exists_ofProfile (b : Backup) (claim : String) (hkind : profile.IsUsable)
    (hnames : ∀ bucket, profile = .bucket bucket → ∃ name, bucket.name = .str name) :
    ∃ d, ofProfile b profile claim = .ok d := by
  cases profile with
  | filesystem template => exact ⟨_, rfl⟩
  | bucket bucket =>
    obtain ⟨name, hname⟩ := hnames bucket rfl
    unfold ofProfile
    dsimp only
    rw [hname]
    exact ⟨_, rfl⟩
  | unknown kind => exact absurd hkind id

theorem planFor_of_selects (settings : Settings τ)
    (hclusters : Cluster.listOfJson listing = .ok clusters) (htarget : b.cluster = .str target)
    (hnames : ∀ c ∈ clusters, NamesBuckets c.profiles) (h : b.Selects clusters profile)
    (hkind : profile.IsUsable) :
    ∃ p, planFor settings b (.ok listing) = .ok p ∧ p.profile = profile := by
  obtain ⟨hcluster, hbackup, hname, hprofile⟩ := h
  rename_i cluster backup name
  have hselected := Cluster.profile_of_lookup hbackup hprofile
  have hbucket : ∀ bucket, profile = .bucket bucket → ∃ name, bucket.name = .str name := by
    rintro bucket rfl
    obtain ⟨key, -, hkey⟩ := Cluster.mem_profiles_of_profile hselected
    exact hnames cluster (List.mem_of_find?_eq_some hcluster) key bucket hkey
  obtain ⟨d, hd⟩ := Destination.exists_ofProfile b settings.claimName hkind hbucket
  refine ⟨⟨cluster, profile, d⟩, ?_, rfl⟩
  rw [planFor_of_targets hclusters htarget hcluster hbackup, hname, hselected]
  show (Destination.ofProfile b profile settings.claimName >>= fun _ => _) = _
  rw [hd]
  rfl

theorem planFor_of_unknown {kind : String}
    (hclusters : Cluster.listOfJson listing = .ok clusters) (htarget : b.cluster = .str target)
    (h : b.Selects clusters (.unknown kind)) :
    planFor settings b (.ok listing) = .error (.obstacle (.unknownKind b.profile kind)) := by
  obtain ⟨hcluster, hbackup, hname, hprofile⟩ := h
  rw [planFor_of_targets hclusters htarget hcluster hbackup, hname,
    Cluster.profile_of_lookup hbackup hprofile, ← hname]
  rfl

theorem planFor_of_missing (hclusters : Cluster.listOfJson listing = .ok clusters)
    (htarget : b.cluster = .str target) (hcluster : b.Targets clusters cluster)
    (hbackup : cluster.backup = some backup) (hname : b.profile = .str name)
    (h : ∀ p ∈ backup.profiles, b.profile ≠ .str p.1) :
    planFor settings b (.ok listing) =
      .error (.obstacle (.noSuchProfile b.profile cluster.profileNames)) := by
  have hnone : backup.profiles.lookup name = none := by
    rw [List.lookup_eq_none_iff]
    intro p hp
    have hdiffers := h p hp
    rw [hname, Ne, Json.str.injEq] at hdiffers
    simpa using hdiffers
  have hmissing : cluster.profile b.profile =
      .error (.obstacle (.noSuchProfile b.profile cluster.profileNames)) := by
    rw [hname]
    unfold Cluster.profile
    dsimp only
    rw [Cluster.profiles, hbackup]
    dsimp only
    rw [hnone]
  rw [planFor_of_targets hclusters htarget hcluster hbackup, hmissing]
  rfl

end ClusterBackup
