import ClusterBackup.Proofs.Fleet.SoleReconcile
import ClusterBackup.Proofs.Reconcile.CallOrder
import ClusterBackup.Proofs.Reconcile.Hindrances
/-!
# What a reconcile touches

A reconcile on a server on which nothing else happens, of a backup that does not select a
filesystem. It makes calls for that backup and its job only (`isAbout_of_mem`). Each of them leaves
all else as it is, and of the backup all but its record and its version (`Touches`).
-/

namespace ClusterBackup

open Api (Call Exchange Server)
open Api.Server (memberOrNull withMember)
open Submissions (jobKey Names)

variable {τ : Type} {settings : Settings τ} {t : TextKey} {s s' s'' : Server} {b : Backup}
  {p : Plan} {c : Call} {es : List Exchange} {object object' object'' : Json}

/-! ## Objects -/

/-- Nothing of an object differs but its record and its version. -/
structure SameButRecord (object object' : Json) : Prop where
  members : ∀ name, name ≠ "metadata" → name ≠ "status" → object'.member name = object.member name
  metadata : ∀ name, name ≠ "resourceVersion" →
    (memberOrNull object' "metadata").member name = (memberOrNull object "metadata").member name

theorem SameButRecord.refl (object : Json) : SameButRecord object object :=
  ⟨fun _ _ _ => rfl, fun _ _ => rfl⟩

theorem SameButRecord.trans (h : SameButRecord object object')
    (h' : SameButRecord object' object'') : SameButRecord object object'' where
  members name hm hs := (h'.members name hm hs).trans (h.members name hm hs)
  metadata name hv := (h'.metadata name hv).trans (h.metadata name hv)

theorem member_withMember (j value : Json) {name other : String} (h : other ≠ name) :
    (withMember j name value).member other = j.member other := by
  cases j with
  | obj members =>
    unfold withMember
    rw [Json.member_obj, Json.member_obj, lookup_putMember, if_neg h]
  | _ => rfl

theorem Api.Server.sameButRecord_replaced {u : Api.StatusUpdate}
    (h : replaced object u = .ok object') : SameButRecord object object' := by
  unfold replaced at h
  dsimp only at h
  split at h
  · cases h
  · cases hv : nextVersion (versionOf object) with
    | error f =>
      rw [hv] at h
      cases h
    | ok version =>
      rw [hv] at h
      cases h
      refine ⟨fun name hm hs => ?_, fun name hversion => ?_⟩
      · rw [member_withMember _ _ hs, member_withMember _ _ hm]
      · cases object with
        | obj members =>
          have hmetadata : ∀ metadata record, memberOrNull
              (withMember (withMember (.obj members) "metadata" metadata) "status" record)
              "metadata" = metadata := by
            intro metadata record
            refine memberOrNull_of_member ?_
            rw [member_withMember _ _ (by decide)]
            unfold withMember
            rw [Json.member_obj, lookup_putMember, if_pos rfl, Option.getD_some]
          rw [hmetadata, member_withMember _ _ hversion]
        | _ => rfl

/-! ## Servers -/

/-- Nothing differs but the job of a backup, and its record and version if it is there. -/
structure Touches (t : TextKey) (s s' : Server) : Prop where
  clusters : s'.clusters = s.clusters
  claims : s'.claims = s.claims
  newClaimPhases : s'.newClaimPhases = s.newClaimPhases
  jobs : ∀ k, (jobKey t == k) = false → s'.jobs.find? k = s.jobs.find? k
  backups : ∀ k, (t.key == k) = false → s'.backups.find? k = s.backups.find? k
  backup : Option.Rel SameButRecord (s.backups.find? t.key) (s'.backups.find? t.key)

theorem sameButRecord_refl (found : Option Json) : Option.Rel SameButRecord found found := by
  cases found with
  | none => exact .none
  | some object => exact .some (.refl object)

theorem Touches.refl (t : TextKey) (s : Server) : Touches t s s :=
  ⟨rfl, rfl, rfl, fun _ _ => rfl, fun _ _ => rfl, sameButRecord_refl _⟩

theorem Touches.trans (h : Touches t s s') (h' : Touches t s' s'') : Touches t s s'' where
  clusters := h'.clusters.trans h.clusters
  claims := h'.claims.trans h.claims
  newClaimPhases := h'.newClaimPhases.trans h.newClaimPhases
  jobs k hk := (h'.jobs k hk).trans (h.jobs k hk)
  backups k hk := (h'.backups k hk).trans (h.backups k hk)
  backup := by
    have hfirst := h.backup
    have hsecond := h'.backup
    generalize s.backups.find? t.key = found at hfirst
    generalize s'.backups.find? t.key = found' at hfirst hsecond
    generalize s''.backups.find? t.key = found'' at hsecond
    cases hfirst with
    | none =>
      cases hsecond
      exact .none
    | some hfirst =>
      cases hsecond with
      | some hsecond => exact .some (hfirst.trans hsecond)

inductive IsAbout (t : TextKey) : Call → Prop where
  | getBackup : IsAbout t (.getBackup t.key.ns t.key.name)
  | listClusters : IsAbout t (.listClusters (.str t.1))
  | createJob {job : Job} (hname : Api.bodyName job = .str ("xb-" ++ t.2)) :
      IsAbout t (.createJob (.str t.1) job)
  | readJob : IsAbout t (.readJob (.str t.1) (.str ("xb-" ++ t.2)))
  | replaceStatus {u : Api.StatusUpdate} (hns : u.ns = .str t.1) (hname : u.name = .str t.2) :
      IsAbout t (.replaceStatus u)

theorem keyOf_update {u : Api.StatusUpdate} (hns : u.ns = .str t.1) (hname : u.name = .str t.2) :
    Server.keyOf u.ns u.name = .ok t.key := by
  rw [hns, hname]
  exact Server.keyOf_str t.1 t.2

theorem IsAbout.touches (h : IsAbout t c) (s : Server) : Touches t s (s.answer c).2 := by
  cases h with
  | getBackup => exact .refl t s
  | listClusters => exact .refl t s
  | readJob => exact .refl t s
  | @createJob job hname =>
    rw [Server.answer_createJob hname]
    cases s.jobs.find? (.ofTexts t.1 ("xb-" ++ t.2)) with
    | some found => exact .refl t s
    | none =>
      refine ⟨rfl, rfl, rfl, fun k hk => ?_, fun _ _ => rfl, sameButRecord_refl _⟩
      exact (Table.find?_insert ..).trans (if_neg (Bool.eq_false_iff.1 hk))
  | @replaceStatus u hns hname =>
    rw [Server.answer_replaceStatus (keyOf_update hns hname)]
    cases hfind : s.backups.find? t.key with
    | none => exact .refl t s
    | some object =>
      dsimp only
      cases hreplaced : Server.replaced object u with
      | error f => exact .refl t s
      | ok object' =>
        refine ⟨rfl, rfl, rfl, fun _ _ => rfl, fun k hk => ?_, ?_⟩
        · exact (Table.find?_insert ..).trans (if_neg (Bool.eq_false_iff.1 hk))
        · dsimp only
          rw [hfind, Table.find?_insert, if_pos (BEq.refl _)]
          exact .some (Server.sameButRecord_replaced hreplaced)

theorem touches_through (h : ∀ e ∈ es, IsAbout t e.call) (s : Server) :
    Touches t s (s.through es) := by
  induction es generalizing s with
  | nil => exact .refl t s
  | cons e es ih =>
    rw [List.forall_mem_cons] at h
    exact (h.1.touches s).trans (ih h.2 _)

/-! ## The plan -/

/-- The backup of a name selects a filesystem among the clusters of its namespace. -/
def SelectsFilesystem (s : Server) (t : TextKey) : Prop :=
  ∃ object b template, s.backups.find? t.key = some object ∧ Backup.ofJson object = .ok b ∧
    b.Selects (s.clustersIn t.1) (.filesystem template)

def Cluster.offersFilesystem (c : Cluster) : Bool :=
  c.profiles.any fun p => match p.2 with
    | .filesystem _ => true
    | _ => false

theorem not_selectsFilesystem (h : (s.clustersIn t.1).any Cluster.offersFilesystem = false) :
    ¬ SelectsFilesystem s t := by
  rintro ⟨object, b, template, -, -, hselects⟩
  obtain ⟨hcluster, hbackup, -, hprofile⟩ := hselects
  rename_i cluster backup name
  obtain ⟨front, back, hsplit, -⟩ := List.lookup_eq_some_iff.1 hprofile
  have hmem : (name, Profile.filesystem template) ∈ cluster.profiles := by
    unfold Cluster.profiles
    rw [hbackup]
    simp [hsplit]
  have hoffers : cluster.offersFilesystem = true := List.any_eq_true.2 ⟨_, hmem, rfl⟩
  have hnone := List.any_eq_false.1 h cluster (List.mem_of_find?_eq_some hcluster)
  exact hnone hoffers

theorem selects_of_planFor {listing : Json} {clusters : List Cluster} {target : String}
    (hclusters : Cluster.listOfJson listing = .ok clusters) (htarget : b.cluster = .str target)
    (h : planFor settings b (.ok listing) = .ok p) : b.Selects clusters p.profile := by
  rw [planFor_eq hclusters htarget] at h
  split at h
  · cases h
  · rename_i cluster hcluster
    split at h
    · cases h
    · rename_i backup hbackup
      obtain ⟨profile, hprofile, h⟩ := bind_eq_ok.1 h
      obtain ⟨destination, -, h⟩ := bind_eq_ok.1 h
      cases h
      obtain ⟨name, hname, hlookup⟩ := Cluster.lookup_of_profile hprofile
      unfold Cluster.profiles at hlookup
      rw [hbackup] at hlookup
      exact .intro hcluster hbackup hname hlookup

variable [NatCast τ]

/-- What holds of a server for a reconcile of a backup on it to be about nothing else: the names of
the backup are those of its key, and it does not select a filesystem. -/
structure IsDirect (s : Server) (t : TextKey) : Prop where
  wellTyped : s.WellTyped
  names : ∀ object, s.backups.find? t.key = some object → Names t object
  profile : ¬ SelectsFilesystem s t

theorem IsDirect.names_of_read (h : IsDirect s t) (hfind : s.backups.find? t.key = some object)
    (hb : Backup.ofJson object = .ok b) : b.ns = .str t.1 ∧ b.name = .str t.2 :=
  Submissions.names_of_readFrom (Backup.readFrom_of_ofJson hb) (h.names object hfind)

theorem IsDirect.of_hasPlan (h : IsDirect s t) {before after : List Exchange}
    (hes : (reconcile settings t.key).exchanges (Server.host τ) s = before ++ after)
    (hplan : HasPlan settings t.key b p before) :
    (b.ns = .str t.1 ∧ b.name = .str t.2) ∧ ∀ template, p.profile ≠ .filesystem template := by
  have hwhole : HasPlan settings t.key b p
      ((reconcile settings t.key).exchanges (Server.host τ) s) := hes ▸ hplan.append after
  obtain ⟨object, _, rest, hread, -, -⟩ := hwhole.eq_cons
  have hfind := find?_of_exchanges hread
  obtain ⟨hb, hp⟩ := hwhole.of_sole hfind
  have hnames := h.names_of_read hfind hb
  refine ⟨hnames, fun template hfilesystem => h.profile ?_⟩
  obtain ⟨listing, hlisting, hclusters, -⟩ := answer_listClusters h.wellTyped.toTypedAround t.1
  rw [hnames.1, hlisting] at hp
  obtain ⟨b', hb', htyped⟩ := (h.wellTyped.backups _ object hfind).read
  rw [hb] at hb'
  cases hb'
  obtain ⟨target, htarget⟩ := htyped.cluster
  exact ⟨object, b, template, hfind, hb, hfilesystem ▸ selects_of_planFor hclusters htarget hp⟩

/-! ## Runs -/

/-- A reconcile of a backup on a server on which nothing else happens. -/
def reconcileOn (settings : Settings τ) (s : Server) (t : TextKey) :
    Except Fault Outcome × Server :=
  (reconcile settings t.key).run (Server.host τ) s

theorem IsDirect.isAbout (h : IsDirect s t) {e : Exchange}
    (he : e ∈ (reconcile settings t.key).exchanges (Server.host τ) s) : IsAbout t e.call := by
  obtain ⟨before, after, hes⟩ := List.append_of_mem he
  have hdue : Due settings t.key before e.call :=
    (obeys_reconcile settings t.key).of_append (Server.host τ) s hes
  have hplan : ∀ {b p}, HasPlan settings t.key b p before →
      (b.ns = .str t.1 ∧ b.name = .str t.2) ∧ ∀ template, p.profile ≠ .filesystem template :=
    h.of_hasPlan hes
  generalize e.call = c at hdue
  -- The calls for a claim are only due after a plan that wants one.
  cases hdue with
  | getBackup => exact .getBackup
  | listClusters hread =>
    rw [(h.names_of_read (find?_of_exchanges hes) hread).1]
    exact .listClusters
  | lookForClaim hopened hp => exact absurd hp ((hplan hopened.hasPlan).2 _)
  | createClaim hopened hp => exact absurd hp ((hplan (hopened.hasPlan.append _)).2 _)
  | checkClaim hpolled =>
    obtain ⟨template, hp⟩ := hpolled.filesystem
    exact absurd hp ((hplan hpolled.hasPlan).2 template)
  | createJob hready hjob =>
    obtain ⟨⟨hns, hname⟩, -⟩ := hplan hready.hasPlan
    rw [hns]
    refine .createJob ?_
    rw [(Job.metadata_of_forBackup hjob).2, Job.nameFor, hname, Json.text_str]
  | readJob hsubmitted =>
    obtain ⟨⟨hns, hname⟩, -⟩ := hplan hsubmitted.hasPlan
    rw [hns, Job.nameFor, hname]
    exact .readJob
  | replaceStatus hsubmitted =>
    obtain ⟨⟨hns, hname⟩, -⟩ := hplan (hsubmitted.hasPlan.append _)
    exact .replaceStatus hns hname

theorem touches_reconcileOn
    (h : ∀ e ∈ (reconcile settings t.key).exchanges (Server.host τ) s, IsAbout t e.call) :
    Touches t s (reconcileOn settings s t).2 := by
  unfold reconcileOn
  rw [Api.Program.run_eq_foldl fun _ _ => rfl]
  exact touches_through h s

theorem IsDirect.touches (h : IsDirect s t) (settings : Settings τ) :
    Touches t s (reconcileOn settings s t).2 :=
  touches_reconcileOn fun _ he => h.isAbout he

end ClusterBackup
