import ClusterBackup.Proofs.Api.Answers
import ClusterBackup.Proofs.Destination.Addresses
import ClusterBackup.Proofs.Fleet.Exchanges
import ClusterBackup.Proofs.Reconcile.Course
import ClusterBackup.Proofs.Reconcile.Phases
/-!
# Whose claim a job mounts

Any number of reconciles of any backups on one server that has no claims at first. A claim that is
there is taken for what is wanted, whoever owns it, and the name of the claim is a setting. So all
backups of a namespace that are written to claims share one: that of the backup for which it was
created (`mounted_claim_is_of_first`). It is the backup's own as long as the run has read no other
backup in the namespace.
-/

namespace ClusterBackup

open Api (Server Call Exchange StoredClaim)

namespace Claims

open Api.Server (keyOf atomOf)

variable {τ : Type} {h before after : List (Fleet.Occurrence Server)} {first s u : Server}
  {k : ObjectKey} {b : Backup} {claim : Claim} {c : Call} {es : List Exchange}

/-! ## Claims and where they come from -/

def IsRead (h : List (Fleet.Occurrence Server)) (b : Backup) : Prop :=
  ∃ (key : ObjectKey) (object : Json), Backup.ofJson object = .ok b ∧
    Fleet.Happened h ⟨.getBackup key.ns key.name, .ok object⟩

theorem IsRead.mono (hb : IsRead before b) (hsub : before ⊆ h) : IsRead h b := by
  obtain ⟨key, object, hread, hhappened⟩ := hb
  exact ⟨key, object, hread, hhappened.mono hsub⟩

theorem isRead_of_hasPlan {settings : Settings τ} {key : ObjectKey} {p : Plan}
    (hp : HasPlan settings key b p es) (hes : ∀ e ∈ es, Fleet.Happened h e) : IsRead h b := by
  obtain ⟨object, listing, rest, rfl, hread, -⟩ := hp.eq_cons
  exact ⟨key, object, hread, hes _ List.mem_cons_self⟩

def Created (h : List (Fleet.Occurrence Server)) (k : ObjectKey) (ns : Json) (claim : Claim) :
    Prop :=
  Fleet.Happened h ⟨.createClaim ns claim, .ok ()⟩ ∧
    ∃ l, keyOf ns (Api.bodyName claim) = .ok l ∧ (l == k) = true

/-- The claim was created under the key for a backup that the run had read. -/
structure CreatedFor (h : List (Fleet.Occurrence Server)) (k : ObjectKey) (claim : Claim)
    (b : Backup) : Prop where
  read : IsRead h b
  made : ∃ template name, Claim.forBackup b template name = .ok claim
  created : Created h k b.ns claim

theorem CreatedFor.mono (hc : CreatedFor before k claim b) (hsub : before ⊆ h) :
    CreatedFor h k claim b where
  read := hc.read.mono hsub
  made := hc.made
  created := hc.created.imp_left fun hhappened => hhappened.mono hsub

theorem CreatedFor.owners (hc : CreatedFor h k claim b) : claim.owners = [b.asOwner] := by
  obtain ⟨template, name, hmade⟩ := hc.made
  exact Claim.owners_of_forBackup hmade

def Together (b b' : Backup) : Prop :=
  ∃ a a', atomOf b.ns = .ok a ∧ atomOf b'.ns = .ok a' ∧ (a == a') = true

theorem CreatedFor.together {b' : Backup} {name : Json} (hc : CreatedFor h k claim b')
    (hk : keyOf b.ns name = .ok k) : Together b' b := by
  obtain ⟨-, l, hl, hlk⟩ := hc.created
  rw [ObjectKey.beq_def, Bool.and_eq_true] at hlk
  exact ⟨l.ns, k.ns, Server.atomOf_of_keyOf hl, Server.atomOf_of_keyOf hk, hlk.1⟩

/-! ## What calls do to claims -/

/-- The same claims are there, with what they were created with. -/
def KeepsClaims (s u : Server) : Prop :=
  ∀ k, (u.claims.find? k).map StoredClaim.body = (s.claims.find? k).map StoredClaim.body

theorem KeepsClaims.find? {stored : StoredClaim} (hu : KeepsClaims s u)
    (hs : s.claims.find? k = some stored) :
    ∃ stored', u.claims.find? k = some stored' ∧ stored'.body = stored.body := by
  have hk := hu k
  rw [hs] at hk
  exact Option.map_eq_some_iff.1 hk

theorem KeepsClaims.symm (hu : KeepsClaims s u) : KeepsClaims u s := fun k => (hu k).symm

theorem claims_answer (s : Server) (c : Call) :
    KeepsClaims s (s.answer c).2 ∧
        (∀ ns claim, (⟨.createClaim ns claim, .ok ()⟩ : Exchange) ≠ ⟨c, (s.answer c).1⟩) ∨
      ∃ ns claim k, c = .createClaim ns claim ∧ keyOf ns (Api.bodyName claim) = .ok k ∧
        s.claims.find? k = none ∧ s.answer (.createClaim ns claim) =
          (.ok (), { s with claims := s.claims.insert k ⟨some claim, s.newClaimPhases⟩ }) := by
  cases c with
  | getBackup | listClusters | readJob => exact .inl ⟨fun _ => rfl, fun _ _ h => by cases h⟩
  | createJob ns job =>
    refine .inl ⟨fun _ => ?_, fun _ _ h => by cases h⟩
    simp only [Server.answer]
    cases Server.free s.jobs ns (Api.bodyName job) <;> rfl
  | replaceStatus update =>
    refine .inl ⟨fun _ => ?_, fun _ _ h => by cases h⟩
    simp only [Server.answer]
    split
    · rfl
    · split <;> rfl
  | readClaim ns name =>
    refine .inl ⟨fun l => ?_, fun _ _ h => by cases h⟩
    simp only [Server.answer, Server.stored]
    cases keyOf ns name with
    | error f => rfl
    | ok k =>
      dsimp only
      cases hfind : s.claims.find? k with
      | none => rfl
      | some stored =>
        dsimp only
        -- Reading goes on to the next phase of the claim, and leaves the claim as it is.
        rw [Table.find?_insert]
        split
        · rename_i hkl
          rw [← Table.find?_congr hkl, hfind, Option.map_some, Option.map_some,
            Volume.body_readPhase]
        · rfl
  | createClaim ns claim =>
    cases hfree : Server.free s.claims ns (Api.bodyName claim) with
    | error f =>
      have hanswer : s.answer (.createClaim ns claim) = (.error f, s) := by
        simp only [Server.answer, hfree]
      rw [hanswer]
      exact .inl ⟨fun _ => rfl, fun _ _ h => by cases h⟩
    | ok k =>
      obtain ⟨hk, hnone⟩ := Server.free_eq_ok hfree
      refine .inr ⟨ns, claim, k, rfl, hk, hnone, ?_⟩
      simp only [Server.answer, hfree]

/-! ## Runs -/

/-- The rules for reconciles of any backups, each with settings of its own, on a server without
failures. -/
def rules [NatCast τ] (Configured : Settings τ → Prop) (Changes : Server → Server → Prop) :
    Fleet.Rules τ Server where
  Starts p := ∃ settings key, Configured settings ∧ p = reconcile settings key
  Answers s c outcome u := s.answer c = (outcome, u)
  Changes := Changes

def SomeDue (τ : Type) (es : List Exchange) (c : Call) : Prop :=
  ∃ (settings : Settings τ) (key : ObjectKey), Due settings key es c

/-- What holds of the server in every run: the claims that are there are those that were created,
for backups that the run had read, and what was read is there. -/
structure Invariant (h : List (Fleet.Occurrence Server)) (s : Server) : Prop where
  made : ∀ k stored, s.claims.find? k = some stored →
    ∃ b claim, stored.body = some claim ∧ CreatedFor h k claim b
  kept : ∀ k ns claim, Created h k ns claim →
    ∃ stored, s.claims.find? k = some stored ∧ stored.body = some claim
  seen : ∀ ns name reading, Fleet.Happened h ⟨.readClaim ns name, .ok reading⟩ →
    ∃ k stored, keyOf ns name = .ok k ∧ s.claims.find? k = some stored

theorem made_of_due {ns : Json} (hd : Fleet.IsDue (SomeDue τ) h (.createClaim ns claim)) :
    ∃ b, IsRead h b ∧ ns = b.ns ∧ ∃ template name, Claim.forBackup b template name = .ok claim := by
  obtain ⟨es, ⟨settings, key, hdue⟩, hes⟩ := hd
  cases hdue with
  | createClaim hopened hp hf hclaim =>
    exact ⟨_, isRead_of_hasPlan (hopened.hasPlan.append _) hes, rfl, _, _, hclaim⟩

/-- A due submission is of a job for a backup that was read, and the claim that it writes to was
read as well. -/
theorem mounts_of_due {ns : Json} {job : Job}
    (hd : Fleet.IsDue (SomeDue τ) h (.createJob ns job)) :
    ∃ b, IsRead h b ∧ ns = b.ns ∧ job.owners = [b.asOwner] ∧
      ∀ name, job.destination? = some (.str (Destination.claimScheme ++ name)) →
        job.claimNames = [name] ∧
          ∃ reading, Fleet.Happened h ⟨.readClaim b.ns (.str name), .ok reading⟩ := by
  obtain ⟨es, ⟨settings, key, hdue⟩, hes⟩ := hd
  cases hdue with
  | createJob hready hjob =>
    rename_i b p
    refine ⟨b, isRead_of_hasPlan hready.hasPlan hes, rfl, Job.owners_of_forBackup hjob, ?_⟩
    intro name hdestination
    rw [Job.destination?_of_forBackup hjob] at hdestination
    have haddress : p.destination.address = Destination.claimScheme ++ name :=
      Json.str.inj (Option.some.inj hdestination)
    obtain ⟨object, listing, rest, -, -, hplan⟩ := hready.hasPlan.eq_cons
    obtain ⟨honClaim, rfl, template, hprofile⟩ :=
      Destination.eq_onClaim_of_ofProfile (planFor_ok hplan).2.2 haddress
    constructor
    · rw [Job.claimNames_of_forBackup hjob, honClaim]
      rfl
    · cases hready with
      | direct _ hp => exact absurd hprofile (hp template)
      | bound _ _ _ => exact ⟨_, hes _ (List.mem_append_right _ List.mem_cons_self)⟩

theorem Invariant.keeps {o : Fleet.Occurrence Server} (hi : Invariant h s) (hu : KeepsClaims s u)
    (hnew : ∀ k ns claim, Created (h ++ [o]) k ns claim → Created h k ns claim)
    (hread : ∀ ns name reading, Fleet.Happened (h ++ [o]) ⟨.readClaim ns name, .ok reading⟩ →
      Fleet.Happened h ⟨.readClaim ns name, .ok reading⟩ ∨
        ∃ k stored, keyOf ns name = .ok k ∧ s.claims.find? k = some stored) :
    Invariant (h ++ [o]) u where
  made k stored hfind := by
    obtain ⟨old, hold, hbody⟩ := hu.symm.find? hfind
    obtain ⟨b, claim, hclaim, hcreated⟩ := hi.made k old hold
    exact ⟨b, claim, hbody ▸ hclaim, hcreated.mono (List.subset_append_left h _)⟩
  kept k ns claim hcreated := by
    obtain ⟨stored, hfind, hbody⟩ := hi.kept k ns claim (hnew k ns claim hcreated)
    obtain ⟨stored', hfind', hbody'⟩ := hu.find? hfind
    exact ⟨stored', hfind', hbody'.trans hbody⟩
  seen ns name reading hhappened := by
    have hthere : ∃ k stored, keyOf ns name = .ok k ∧ s.claims.find? k = some stored :=
      (hread ns name reading hhappened).elim (hi.seen ns name reading) id
    obtain ⟨k, stored, hk, hfind⟩ := hthere
    obtain ⟨stored', hfind', -⟩ := hu.find? hfind
    exact ⟨k, stored', hk, hfind'⟩

/-- A claim that is created is the only one under its key. -/
theorem Invariant.creates {ns : Json} (hi : Invariant h s)
    (hd : Fleet.IsDue (SomeDue τ) h (.createClaim ns claim))
    (hk : keyOf ns (Api.bodyName claim) = .ok k) (hnone : s.claims.find? k = none)
    (hu : u.claims = s.claims.insert k ⟨some claim, s.newClaimPhases⟩) :
    Invariant (h ++ [.called s (.createClaim ns claim) (.ok ()) u]) u := by
  have hsub : h ⊆ h ++ [.called s (.createClaim ns claim) (.ok ()) u] :=
    List.subset_append_left h _
  -- The key was free, so nothing that is there or was created lies under it.
  have hothers : ∀ {l : ObjectKey} {stored : StoredClaim}, s.claims.find? l = some stored →
      u.claims.find? l = some stored := by
    intro l stored hfind
    rw [hu, Table.find?_insert]
    split
    · rename_i hkl
      rw [Table.find?_congr hkl, hfind] at hnone
      cases hnone
    · exact hfind
  constructor
  · intro l stored hfind
    rw [hu, Table.find?_insert] at hfind
    split at hfind
    · rename_i hkl
      cases hfind
      obtain ⟨b, hread, rfl, hmade⟩ := made_of_due hd
      exact ⟨b, claim, rfl, hread.mono hsub, hmade,
        ⟨s, u, List.mem_append_right h List.mem_cons_self⟩, k, hk, hkl⟩
    · obtain ⟨b, old, hbody, hcreated⟩ := hi.made l stored hfind
      exact ⟨b, old, hbody, hcreated.mono hsub⟩
  · rintro l ns' claim' ⟨hhappened, l', hl', hl⟩
    rcases hhappened.of_concat with hold | hnew
    · obtain ⟨stored, hfind, hbody⟩ := hi.kept l ns' claim' ⟨hold, l', hl', hl⟩
      exact ⟨stored, hothers hfind, hbody⟩
    · cases hnew
      rw [hk] at hl'
      cases hl'
      exact ⟨_, by rw [hu, Table.find?_insert, if_pos hl], rfl⟩
  · intro ns' name reading hhappened
    rcases hhappened.of_concat with hold | hnew
    · obtain ⟨l, stored, hl, hfind⟩ := hi.seen ns' name reading hold
      exact ⟨l, stored, hl, hothers hfind⟩
    · cases hnew

theorem Invariant.called {outcome : c.Outcome} (hi : Invariant h s)
    (hd : Fleet.IsDue (SomeDue τ) h c) (ha : s.answer c = (outcome, u)) :
    Invariant (h ++ [.called s c outcome u]) u := by
  rcases claims_answer s c with ⟨hu, hnew⟩ | ⟨ns, claim, k, rfl, hk, hnone, hcreates⟩
  · rw [ha] at hu hnew
    refine hi.keeps hu ?_ ?_
    · rintro k ns claim ⟨hhappened, hkey⟩
      rcases hhappened.of_concat with hold | heq
      · exact ⟨hold, hkey⟩
      · exact absurd heq (hnew ns claim)
    · intro ns name reading hhappened
      rcases hhappened.of_concat with hold | heq
      · exact .inl hold
      · cases heq
        exact .inr (Server.find?_of_readClaim ha)
  · rw [hcreates] at ha
    cases ha
    exact hi.creates hd hk hnone rfl

theorem Invariant.changed (hi : Invariant h s) (hu : KeepsClaims s u) :
    Invariant (h ++ [.changed s u]) u :=
  hi.keeps hu (fun _ _ _ hcreated => hcreated.imp_left Fleet.Happened.of_changed)
    fun _ _ _ hhappened => .inl hhappened.of_changed

variable [NatCast τ] {Configured : Settings τ → Prop} {Changes : Server → Server → Prop}
  {last : Fleet τ Server}

theorem due_of_starts {p : Reconciling τ} (hp : (rules Configured Changes).Starts p) :
    p.Obeys (SomeDue τ) (fun _ _ => True) [] := by
  obtain ⟨settings, key, -, rfl⟩ := hp
  exact (obeys_reconcile settings key).imp fun es c hdue => ⟨settings, key, hdue⟩

theorem invariant_of_run (hc : ∀ s u, Changes s u → KeepsClaims s u)
    (hnone : ∀ k, first.claims.find? k = none)
    (hrun : Fleet.Run (rules Configured Changes) ⟨first, []⟩ h last) : Invariant h last.state := by
  refine hrun.invariant_of_due (fun p => due_of_starts) (fun hi hd ha => hi.called hd ha)
    (fun hi hch => hi.changed (hc _ _ hch)) ⟨?_, ?_, ?_⟩
  · intro k stored hfind
    rw [hnone k] at hfind
    cases hfind
  · rintro k ns claim ⟨⟨s, u, hmem⟩, -⟩
    cases hmem
  · rintro ns name reading ⟨s, u, hmem⟩
    cases hmem

/-! ## Jobs -/

/-- Where a job that writes to a claim is created for a backup, it mounts the claim and the claim is
there. The claim is the only one that was created in the run under its key. It was created for a
backup that the run had read, and that backup is its only owner: the claim is removed with that
backup and with no other. It is the backup's own if the run has read no other backup in the
namespace. -/
theorem mounted_claim_is_of_first (hc : ∀ s u, Changes s u → KeepsClaims s u)
    (hnone : ∀ k, first.claims.find? k = none) {ns : Json} {job : Job}
    (hrun : Fleet.Run (rules Configured Changes) ⟨first, []⟩
      (before ++ .called s (.createJob ns job) (.ok ()) u :: after) last) :
    ∃ b, IsRead before b ∧ ns = b.ns ∧ job.owners = [b.asOwner] ∧
      ∀ name, job.destination? = some (.str (Destination.claimScheme ++ name)) →
        job.claimNames = [name] ∧ ∃ k stored claim b', keyOf b.ns (.str name) = .ok k ∧
          s.claims.find? k = some stored ∧ stored.body = some claim ∧
          CreatedFor before k claim b' ∧
          (∀ ns' claim', Created before k ns' claim' → claim' = claim) ∧
          claim.owners = [b'.asOwner] ∧ (∀ uid, claim.GoesWith uid ↔ uid = b'.uid) ∧
          ((∀ b'', IsRead before b'' → Together b'' b → b''.uid = b.uid) →
            claim.GoesWith b.uid) := by
  obtain ⟨middle, hmiddle, hs⟩ := hrun.before rfl
  have hi := invariant_of_run hc hnone hmiddle
  rw [hs] at hi
  obtain ⟨b, hread, hns, howners, hmounts⟩ :=
    mounts_of_due (hrun.due (fun p => due_of_starts) rfl).1
  refine ⟨b, hread, hns, howners, fun name hdestination => ?_⟩
  obtain ⟨hnames, reading, hreading⟩ := hmounts name hdestination
  obtain ⟨k, stored, hk, hfind⟩ := hi.seen b.ns (.str name) reading hreading
  obtain ⟨b', claim, hbody, hcreated⟩ := hi.made k stored hfind
  have hgoes : ∀ uid, claim.GoesWith uid ↔ uid = b'.uid := Claim.goesWith_iff hcreated.owners
  refine ⟨hnames, k, stored, claim, b', hk, hfind, hbody, hcreated, ?_, hcreated.owners, hgoes, ?_⟩
  · intro ns' claim' hcreated'
    obtain ⟨stored', hfind', hbody'⟩ := hi.kept k ns' claim' hcreated'
    cases hfind.symm.trans hfind'
    exact Option.some.inj (hbody'.symm.trans hbody)
  · intro hone
    exact (hgoes b.uid).2 (hone b' hcreated.read (hcreated.together hk)).symm

/-! ## A claim of two backups -/

namespace Shared

def backup (name uid : String) : Json :=
  .obj [("metadata", .obj [("namespace", .str "apps"), ("name", .str name), ("uid", .str uid),
      ("creationTimestamp", .str "2024-01-01T00:00:00Z"), ("resourceVersion", .str "1")]),
    ("spec", .obj [("targetCluster", .str "main"), ("storageProfile", .str "fs")])]

def cluster : Json :=
  .obj [("metadata", .obj [("name", .str "main")]),
    ("spec", .obj [("backup", .obj [("image", .str "xtrabackup"), ("storages", .obj [("fs",
      .obj [("type", .str "filesystem"), ("volume", .obj [("persistentVolumeClaim",
        .obj [("accessModes", .arr [.str "ReadWriteOnce"])])])])])])])]

def server : Server :=
  { Server.empty with
    backups := (Table.empty.insert (.ofTexts "apps" "nightly") (backup "nightly" "u1")).insert
      (.ofTexts "apps" "weekly") (backup "weekly" "u2")
    clusters := [(.text "apps", cluster)] }

def reconciling (name : String) : Reconciling Rat :=
  reconcile .usual (.ofTexts "apps" name)

def reconciled : Server := ((reconciling "nightly").run (Server.host Rat) server).2

/-- A reconcile of the nightly backup, and one of the weekly backup. -/
def history : List (Fleet.Occurrence Server) :=
  Fleet.happenings (Server.host Rat) (reconciling "nightly") server ++
    Fleet.happenings (Server.host Rat) (reconciling "weekly") reconciled

def usualRules : Fleet.Rules Rat Server := rules (· = .usual) fun _ _ => False

theorem run_reconciling {h : List (Fleet.Occurrence Server)} {back : List (Reconciling Rat)}
    (hrun : Fleet.Run usualRules ⟨server, []⟩ h ⟨s, back⟩) (name : String) :
    ∃ back', Fleet.Run usualRules ⟨server, []⟩
      (h ++ Fleet.happenings (Server.host Rat) (reconciling name) s)
      ⟨((reconciling name).run (Server.host Rat) s).2, back'⟩ :=
  ⟨_, (hrun.start ⟨_, _, rfl, rfl⟩).alone (fun _ _ => rfl) fun _ _ => rfl⟩

theorem run_history : ∃ last, Fleet.Run usualRules ⟨server, []⟩ history last := by
  obtain ⟨_, h1⟩ := run_reconciling .refl "nightly"
  obtain ⟨_, h2⟩ := run_reconciling h1 "weekly"
  exact ⟨_, h2⟩

def claimName : String := "cluster1-xb-cron-pvc"

def claimKey : ObjectKey := .ofTexts "apps" claimName

def ownerUids (s : Server) : List Json :=
  match s.claims.find? claimKey with
  | some ⟨some claim, _⟩ => claim.owners.map OwnerReference.uid
  | _ => []

/-- Whether the job of the weekly backup is created, to write to the claim of the nightly one. -/
def mountsForeign : Fleet.Occurrence Server → Bool
  | .called s (.createJob ns job) (.ok ()) _ => ns = .str "apps" &&
    job.destination? = some (.str (Destination.claimScheme ++ claimName)) &&
    job.owners.map OwnerReference.uid = [.str "u2"] && ownerUids s = [.str "u1"]
  | _ => false

theorem ownerUids_eq {stored : StoredClaim} (hfind : s.claims.find? claimKey = some stored)
    (hbody : stored.body = some claim) : ownerUids s = claim.owners.map OwnerReference.uid := by
  obtain ⟨body, phases⟩ := stored
  cases hbody
  rw [ownerUids, hfind]

theorem exists_foreign : ∃ before s job u after last,
    Fleet.Run usualRules ⟨server, []⟩
      (before ++ .called s (.createJob (.str "apps") job) (.ok ()) u :: after) last ∧
    job.destination? = some (.str (Destination.claimScheme ++ claimName)) ∧
    job.owners.map OwnerReference.uid = [.str "u2"] ∧ ownerUids s = [.str "u1"] := by
  obtain ⟨last, hrun⟩ := run_history
  -- The submission is found by a search through the history, which is not written out.
  have hany : history.any mountsForeign = true := by decide +kernel
  obtain ⟨o, ho, hforeign⟩ := List.any_eq_true.1 hany
  obtain ⟨before, after, hsplit⟩ := List.append_of_mem ho
  unfold mountsForeign at hforeign
  split at hforeign
  · rename_i s ns job u
    simp only [Bool.and_eq_true, decide_eq_true_eq] at hforeign
    obtain ⟨⟨⟨rfl, hdestination⟩, howners⟩, hclaim⟩ := hforeign
    rw [hsplit] at hrun
    exact ⟨before, s, job, u, after, last, hrun, hdestination, howners, hclaim⟩
  · cases hforeign

end Shared

/-- The claim that a job writes to need not be owned by the owner of the job, though the server has
no claims and jobs at first and nothing goes wrong. -/
theorem mounted_claim_of_another : (∀ k, Shared.server.claims.find? k = none) ∧
    (∀ k, Shared.server.jobs.find? k = none) ∧
    ¬ ∀ (before after : List (Fleet.Occurrence Server)) (last : Fleet Rat Server) (s u : Server)
        (ns : Json) (job : Job) (name : String),
      Fleet.Run Shared.usualRules ⟨Shared.server, []⟩
          (before ++ .called s (.createJob ns job) (.ok ()) u :: after) last →
        job.destination? = some (.str (Destination.claimScheme ++ name)) →
        ∃ k stored claim, keyOf ns (.str name) = .ok k ∧ s.claims.find? k = some stored ∧
          stored.body = some claim ∧ ∀ r ∈ job.owners, ∃ r' ∈ claim.owners, r'.uid = r.uid := by
  refine ⟨fun _ => rfl, fun _ => rfl, fun hall => ?_⟩
  obtain ⟨before, s, job, u, after, last, hrun, hdestination, howners, hclaim⟩ :=
    Shared.exists_foreign
  obtain ⟨k, stored, claim, hk, hfind, hbody, howned⟩ :=
    hall before after last s u _ job Shared.claimName hrun hdestination
  cases hk
  rw [Shared.ownerUids_eq hfind hbody] at hclaim
  have hmem : Json.str "u2" ∈ job.owners.map OwnerReference.uid := by
    rw [howners]
    exact List.mem_cons_self
  obtain ⟨r, hr, hu2⟩ := List.mem_map.1 hmem
  obtain ⟨r', hr', hsame⟩ := howned r hr
  have hmem' : r'.uid ∈ claim.owners.map OwnerReference.uid := List.mem_map_of_mem hr'
  rw [hclaim, hsame, hu2] at hmem'
  exact absurd hmem' (by decide)

/-- The weekly backup's job writes to a claim that is removed with the nightly backup. -/
theorem mounted_claim_is_of_first_nightly :
    ∃ (before after : List (Fleet.Occurrence Server)) (last : Fleet Rat Server) (s u : Server)
      (job : Job) (stored : StoredClaim) (claim : Claim) (b b' : Backup),
      Fleet.Run Shared.usualRules ⟨Shared.server, []⟩
        (before ++ .called s (.createJob (.str "apps") job) (.ok ()) u :: after) last ∧
      IsRead before b ∧ job.owners = [b.asOwner] ∧ b.uid = .str "u2" ∧
      job.claimNames = [Shared.claimName] ∧
      s.claims.find? Shared.claimKey = some stored ∧ stored.body = some claim ∧
      CreatedFor before Shared.claimKey claim b' ∧ b'.uid = .str "u1" ∧
      claim.GoesWith (.str "u1") := by
  obtain ⟨before, s, job, u, after, last, hrun, hdestination, howners, hclaim⟩ :=
    Shared.exists_foreign
  obtain ⟨b, hread, hns, hb, hwrites⟩ := mounted_claim_is_of_first (fun _ _ hc => hc.elim)
    (fun _ => rfl) hrun
  obtain ⟨hnames, k, stored, claim, b', hk, hfind, hbody, hcreated, -, howner, hgoes, -⟩ :=
    hwrites Shared.claimName hdestination
  rw [← hns] at hk
  cases hk
  have hb' : b'.uid = .str "u1" := by
    rw [Shared.ownerUids_eq hfind hbody, howner] at hclaim
    exact (List.cons.inj hclaim).1
  refine ⟨before, after, last, s, u, job, stored, claim, b, b', hrun, hread, hb, ?_, hnames, hfind,
    hbody, hcreated, hb', (hgoes _).2 hb'.symm⟩
  rw [hb] at howners
  exact (List.cons.inj howners).1

end Claims

end ClusterBackup
