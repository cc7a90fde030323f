import ClusterBackup.Proofs.Reconcile.Plan
import ClusterBackup.Proofs.Record.RoundTrip
/-!
# Buckets that are described

The bucket of a plan was read from the listing of the clusters, so that it is described there
without repeated names if the listing has none.
-/

namespace ClusterBackup

theorem Json.wellFormed_of_elements {j : Json} {items : List Json} (hj : j.wellFormed = true)
    (hi : j.elements? = some items) : ∀ item ∈ items, item.wellFormed = true := by
  intro item hitem
  cases j with
  | arr as =>
    cases hi
    exact Json.itemsWellFormed_iff.1 hj item hitem
  | str s =>
    cases hi
    obtain ⟨c, -, rfl⟩ := List.mem_map.1 hitem
    rfl
  | obj members =>
    cases hi
    obtain ⟨m, -, rfl⟩ := List.mem_map.1 hitem
    rfl
  | _ => cases hi

theorem exists_mem_of_mapM {ε α β : Type} {f : α → Except ε β} {xs : List α} {ys : List β} {y : β}
    (h : xs.mapM f = .ok ys) (hy : y ∈ ys) : ∃ x ∈ xs, f x = .ok y := by
  induction xs generalizing ys with
  | nil =>
    cases h
    cases hy
  | cons x xs ih =>
    rw [List.mapM_cons, bind_eq_ok] at h
    obtain ⟨first, hfirst, h⟩ := h
    obtain ⟨rest, hrest, h⟩ := bind_eq_ok.1 h
    cases h
    rcases List.mem_cons.1 hy with rfl | hy
    · exact ⟨x, List.mem_cons_self, hfirst⟩
    · obtain ⟨x', hx', hf⟩ := ih hrest hy
      exact ⟨x', List.mem_cons_of_mem _ hx', hf⟩

theorem Profile.described_of_ofJson {raw : Json} {bucket : Bucket} (hraw : raw.wellFormed = true)
    (h : ofJson raw = .ok (.bucket bucket)) : bucket.Described := by
  unfold ofJson at h
  obtain ⟨type, -, h⟩ := bind_eq_ok.1 h
  dsimp only at h
  split at h
  · obtain ⟨volume, -, h⟩ := bind_eq_ok.1 h
    obtain ⟨claim, -, h⟩ := bind_eq_ok.1 h
    obtain ⟨template, -, h⟩ := bind_eq_ok.1 h
    cases h
  · split at h
    · obtain ⟨description, hdescription, h⟩ := bind_eq_ok.1 h
      obtain ⟨found, hfound, h⟩ := bind_eq_ok.1 h
      cases h
      exact ⟨_, Json.wellFormed_orEmpty (Json.wellFormed_of_member hraw hdescription), hfound⟩
    · cases h

namespace BackupSection

theorem described_of_readProfiles {members : List (String × Json)}
    {profiles : List (String × Profile)} (hm : Json.membersWellFormed members = true)
    (h : readProfiles members = .ok profiles) :
    ∀ name bucket, (name, .bucket bucket) ∈ profiles → bucket.Described := by
  induction members generalizing profiles with
  | nil =>
    cases h
    intro name bucket hmem
    cases hmem
  | cons m ms ih =>
    obtain ⟨first, raw⟩ := m
    rw [Json.membersWellFormed, Bool.and_eq_true] at hm
    obtain ⟨profile, hprofile, h⟩ := bind_eq_ok.1 h
    obtain ⟨rest, hrest, h⟩ := bind_eq_ok.1 h
    cases h
    intro name bucket hmem
    rcases List.mem_cons.1 hmem with hfirst | hmem
    · cases hfirst
      exact Profile.described_of_ofJson (Json.wellFormed_orEmpty hm.1) hprofile
    · exact ih hm.2 hrest name bucket hmem

theorem described_of_ofJson {raw : Json} {backup : BackupSection} (hraw : raw.wellFormed = true)
    (h : ofJson raw = .ok backup) :
    ∀ name bucket, (name, .bucket bucket) ∈ backup.profiles → bucket.Described := by
  unfold ofJson at h
  obtain ⟨image, -, h⟩ := bind_eq_ok.1 h
  obtain ⟨storages, hstorages, h⟩ := bind_eq_ok.1 h
  have hwell : storages.orEmpty.wellFormed = true :=
    Json.wellFormed_orEmpty (Json.wellFormed_of_member hraw hstorages)
  split at h
  · rename_i members hmembers
    rw [hmembers, Json.wellFormed, Bool.and_eq_true] at hwell
    obtain ⟨profiles, hprofiles, h⟩ := bind_eq_ok.1 h
    obtain ⟨secrets, -, h⟩ := bind_eq_ok.1 h
    have hread : backup.profiles = profiles := by
      split at h
      · obtain ⟨names, -, h⟩ := bind_eq_ok.1 h
        obtain ⟨account, -, h⟩ := bind_eq_ok.1 h
        cases h
        rfl
      · cases h
    rw [hread]
    exact described_of_readProfiles hwell.2 hprofiles
  · cases h

end BackupSection

theorem Cluster.described_of_ofJson {raw : Json} {cluster : Cluster}
    (hraw : raw.wellFormed = true) (h : ofJson raw = .ok cluster) :
    ∀ name bucket, (name, .bucket bucket) ∈ cluster.profiles → bucket.Described := by
  unfold ofJson at h
  obtain ⟨metadata, hmetadata, h⟩ := bind_eq_ok.1 h
  obtain ⟨spec, hspec, h⟩ := bind_eq_ok.1 h
  obtain ⟨backup, hbackup, h⟩ := bind_eq_ok.1 h
  dsimp only at h
  have hwell : backup.wellFormed = true := Json.wellFormed_of_member
    (Json.wellFormed_orEmpty (Json.wellFormed_of_member hraw hspec)) hbackup
  split at h
  · obtain ⟨stored, hstored, h⟩ := bind_eq_ok.1 h
    obtain ⟨ns, -, h⟩ := bind_eq_ok.1 h
    obtain ⟨name, -, h⟩ := bind_eq_ok.1 h
    cases hread : BackupSection.ofJson backup with
    | error e =>
      rw [hread] at hstored
      cases hstored
    | ok found =>
      rw [hread] at hstored
      cases hstored
      cases h
      exact BackupSection.described_of_ofJson hwell hread
  · obtain ⟨stored, hstored, h⟩ := bind_eq_ok.1 h
    obtain ⟨ns, -, h⟩ := bind_eq_ok.1 h
    obtain ⟨name, -, h⟩ := bind_eq_ok.1 h
    cases hstored
    cases h
    intro name bucket hmem
    cases hmem

theorem Cluster.described_of_listOfJson {listing : Json} {clusters : List Cluster}
    (hlisting : listing.wellFormed = true) (h : listOfJson listing = .ok clusters)
    {cluster : Cluster} (hc : cluster ∈ clusters) :
    ∀ name bucket, (name, .bucket bucket) ∈ cluster.profiles → bucket.Described := by
  unfold listOfJson at h
  obtain ⟨items, hitems, h⟩ := bind_eq_ok.1 h
  split at h
  · rename_i elements helements
    obtain ⟨raw, hraw, hread⟩ := exists_mem_of_mapM h hc
    have hwell : (items.orElse (.arr [])).wellFormed = true :=
      Json.wellFormed_orElse (Json.wellFormed_of_member hlisting hitems) (by decide)
    exact described_of_ofJson (Json.wellFormed_of_elements hwell helements raw hraw) hread
  · cases h

theorem Cluster.lookup_of_profile {cluster : Cluster} {name : Json} {profile : Profile}
    (h : cluster.profile name = .ok profile) :
    ∃ key, name = .str key ∧ cluster.profiles.lookup key = some profile := by
  unfold Cluster.profile at h
  cases name with
  | str key =>
    dsimp only at h
    split at h
    · rename_i found hfound
      cases h
      exact ⟨key, rfl, hfound⟩
    · cases h
  | _ =>
    dsimp only at h
    split at h <;> cases h

theorem Cluster.mem_profiles_of_profile {cluster : Cluster} {name : Json} {profile : Profile}
    (h : cluster.profile name = .ok profile) :
    ∃ key, name = .str key ∧ (key, profile) ∈ cluster.profiles := by
  obtain ⟨key, hname, hlookup⟩ := lookup_of_profile h
  obtain ⟨front, back, hsplit, -⟩ := List.lookup_eq_some_iff.1 hlookup
  exact ⟨key, hname, by simp [hsplit]⟩

theorem chooseCluster_ok {ns name listing : Json} {cluster : Cluster}
    (h : chooseCluster ns name (.ok listing) = .ok cluster) :
    ∃ clusters, Cluster.listOfJson listing = .ok clusters ∧ cluster ∈ clusters := by
  unfold chooseCluster at h
  dsimp only at h
  split at h
  · cases h
  · rename_i clusters hclusters
    split at h
    · rename_i found hfound
      cases h
      exact ⟨clusters, hclusters, List.mem_of_find?_eq_some hfound⟩
    · cases h

variable {τ : Type} {settings : Settings τ} {b : Backup} {p : Plan}

theorem planFor_ok {listing : Json} (h : planFor settings b (.ok listing) = .ok p) :
    chooseCluster b.ns b.cluster (.ok listing) = .ok p.cluster ∧
      p.cluster.profile b.profile = .ok p.profile ∧
      Destination.ofProfile b p.profile settings.claimName = .ok p.destination := by
  unfold planFor at h
  obtain ⟨cluster, hcluster, h⟩ := bind_eq_ok.1 h
  split at h
  · cases h
  · obtain ⟨profile, hprofile, h⟩ := bind_eq_ok.1 h
    obtain ⟨destination, hdestination, h⟩ := bind_eq_ok.1 h
    cases h
    exact ⟨hcluster, hprofile, hdestination⟩

theorem bucket_of_planFor {listing : Json} {bucket : Bucket} (hlisting : listing.wellFormed = true)
    (hp : planFor settings b (.ok listing) = .ok p) (hb : p.destination.bucket = some bucket) :
    bucket.Described := by
  obtain ⟨hcluster, hprofile, hdestination⟩ := planFor_ok hp
  obtain ⟨clusters, hclusters, hmem⟩ := chooseCluster_ok hcluster
  obtain ⟨key, -, hkey⟩ := Cluster.mem_profiles_of_profile hprofile
  have hpb : p.profile = .bucket bucket := by
    unfold Destination.ofProfile at hdestination
    split at hdestination
    · rw [← Except.ok.inj hdestination] at hb
      cases hb
    · rename_i stored hstored
      split at hdestination
      · rw [← Except.ok.inj hdestination] at hb
        rw [hstored, ← Option.some.inj hb]
      · cases hdestination
    · cases hdestination
  rw [hpb] at hkey
  exact Cluster.described_of_listOfJson hlisting hclusters hmem key bucket hkey

end ClusterBackup
