import ClusterBackup.Proofs.Reconcile.Footprint
/-!
# Reconciles that commute

Two reconciles on a server on which nothing else happens, of different backups that do not select a
filesystem. What one of them touches the other one does not see (`Touches.agree`), and what a
reconcile does follows from what it sees (`Agree.run`). So the order in which they are carried out
does not matter (`reconciles_commute`).
-/

namespace ClusterBackup

open Api (Call Exchange Server)
open Api.Server (memberOrNull withMember)
open Submissions (jobKey Names)

variable {τ α : Type} {settings : Settings τ} {t u : TextKey} {s s' : Server} {c : Call}

/-! ## What is seen -/

/-- The servers look the same to calls about a backup. -/
structure Agree (t : TextKey) (s s' : Server) : Prop where
  clusters : s'.clusters = s.clusters
  backup : s'.backups.find? t.key = s.backups.find? t.key
  job : s'.jobs.find? (jobKey t) = s.jobs.find? (jobKey t)

/-- Backups of the same name have jobs of the same name, but in different namespaces. -/
theorem jobKey_beq (htu : t ≠ u) : (jobKey u == jobKey t) = false := by
  rw [jobKey, jobKey, ObjectKey.ofTexts_beq_ofTexts, Bool.eq_false_iff, Ne, Bool.and_eq_true,
    beq_iff_eq, beq_iff_eq, String.append_right_inj]
  exact fun h => htu (Prod.ext h.1.symm h.2.symm)

theorem key_beq (htu : t ≠ u) : (u.key == t.key) = false := by
  rw [TextKey.key_beq_key, decide_eq_false_iff_not]
  exact htu.symm

/-- What is done for one backup is not seen by calls about another one. -/
theorem Touches.agree (h : Touches u s s') (htu : t ≠ u) : Agree t s s' where
  clusters := h.clusters
  backup := h.backups _ (key_beq htu)
  job := h.jobs _ (jobKey_beq htu)

/-- A call about a backup is answered by what it sees, and changes nothing else. -/
theorem Agree.answer (h : Agree t s s') (hc : IsAbout t c) :
    (s'.answer c).1 = (s.answer c).1 ∧ Agree t (s.answer c).2 (s'.answer c).2 := by
  cases hc with
  | getBackup =>
    rw [Submissions.answer_read, Submissions.answer_read, h.backup]
    exact ⟨rfl, h⟩
  | listClusters =>
    rw [Server.answer_list_of_clusters h.clusters]
    exact ⟨rfl, h⟩
  | readJob =>
    have hstored := Server.stored_congr (Server.keyOf_str t.1 ("xb-" ++ t.2)) h.job
    refine ⟨?_, h⟩
    simp only [Server.answer, hstored]
  | @createJob job hname =>
    have hjob : s'.jobs.find? (.ofTexts t.1 ("xb-" ++ t.2)) =
      s.jobs.find? (.ofTexts t.1 ("xb-" ++ t.2)) := h.job
    rw [Server.answer_createJob hname, Server.answer_createJob hname, hjob]
    cases s.jobs.find? (.ofTexts t.1 ("xb-" ++ t.2)) with
    | some found => exact ⟨rfl, h⟩
    | none =>
      refine ⟨rfl, h.clusters, h.backup, ?_⟩
      dsimp only
      rw [Table.find?_insert, Table.find?_insert, h.job]
  | @replaceStatus update hns hname =>
    have hkey := keyOf_update hns hname
    rw [Server.answer_replaceStatus hkey, Server.answer_replaceStatus hkey, h.backup]
    cases s.backups.find? t.key with
    | none => exact ⟨rfl, h⟩
    | some object =>
      dsimp only
      cases Server.replaced object update with
      | error f => exact ⟨rfl, h⟩
      | ok object' =>
        refine ⟨rfl, h.clusters, ?_, h.job⟩
        dsimp only
        rw [Table.find?_insert, Table.find?_insert, h.backup]

/-- A program whose calls are about a backup does the same on servers that look the same to it. -/
theorem Agree.run (h : Agree t s s') {p : Api.Program τ α}
    (hp : ∀ e ∈ p.exchanges (Server.host τ) s, IsAbout t e.call) :
    p.exchanges (Server.host τ) s' = p.exchanges (Server.host τ) s ∧
      (p.run (Server.host τ) s').1 = (p.run (Server.host τ) s).1 ∧
      Agree t (p.run (Server.host τ) s).2 (p.run (Server.host τ) s').2 := by
  induction p generalizing s s' with
  | done a => exact ⟨rfl, rfl, h⟩
  | call c next ih =>
    rw [Api.Program.exchanges, List.forall_mem_cons] at hp
    obtain ⟨houtcome, hstate⟩ := h.answer hp.1
    have hrest := ih _ hstate hp.2
    show (⟨c, (s'.answer c).1⟩ :: (next (s'.answer c).1).exchanges (Server.host τ)
        (s'.answer c).2 : List Exchange) = ⟨c, (s.answer c).1⟩ ::
          (next (s.answer c).1).exchanges (Server.host τ) (s.answer c).2 ∧
      ((next (s'.answer c).1).run (Server.host τ) (s'.answer c).2).1 =
        ((next (s.answer c).1).run (Server.host τ) (s.answer c).2).1 ∧
      Agree t ((next (s.answer c).1).run (Server.host τ) (s.answer c).2).2
        ((next (s'.answer c).1).run (Server.host τ) (s'.answer c).2).2
    rw [houtcome]
    exact ⟨congrArg _ hrest.1, hrest.2⟩
  | pause seconds next ih => exact ih h hp

/-! ## Either order -/

structure SameObjects (s s' : Server) : Prop where
  backups : ∀ k, s.backups.find? k = s'.backups.find? k
  clusters : s.clusters = s'.clusters
  claims : s.claims = s'.claims
  jobs : ∀ k, s.jobs.find? k = s'.jobs.find? k
  newClaimPhases : s.newClaimPhases = s'.newClaimPhases

/-- Two changes of a table, each at one key, give the same in either order if what is put there is
the same. -/
theorem find?_of_either_order {ν : Type} {x xk xl xkl xlk : Table ObjectKey ν} {k l : ObjectKey}
    (hkl : (l == k) = false)
    (hk : ∀ m, (k == m) = false → xk.find? m = x.find? m)
    (hl : ∀ m, (l == m) = false → xl.find? m = x.find? m)
    (hl' : ∀ m, (l == m) = false → xkl.find? m = xk.find? m)
    (hk' : ∀ m, (k == m) = false → xlk.find? m = xl.find? m)
    (hsame : xlk.find? k = xk.find? k) (hsame' : xkl.find? l = xl.find? l) (m : ObjectKey) :
    xkl.find? m = xlk.find? m := by
  -- A key stands for at most one of the two, since these are not equal.
  cases hkm : k == m with
  | true =>
    have hlm : (l == m) = false := (BEq.congr_right hkm).symm.trans hkl
    calc xkl.find? m = xk.find? m := hl' m hlm
      _ = xk.find? k := (Table.find?_congr hkm).symm
      _ = xlk.find? k := hsame.symm
      _ = xlk.find? m := Table.find?_congr hkm
  | false =>
    cases hlm : l == m with
    | true =>
      calc xkl.find? m = xkl.find? l := (Table.find?_congr hlm).symm
        _ = xl.find? l := hsame'
        _ = xl.find? m := Table.find?_congr hlm
        _ = xlk.find? m := (hk' m hkm).symm
    | false => rw [hl' m hlm, hk m hkm, hk' m hkm, hl m hlm]

variable [NatCast τ]

theorem IsDirect.of_agree (ht : IsDirect s t) (settings : Settings τ) (h : Agree t s s') :
    (reconcileOn settings s' t).1 = (reconcileOn settings s t).1 ∧
      Agree t (reconcileOn settings s t).2 (reconcileOn settings s' t).2 ∧
      Touches t s' (reconcileOn settings s' t).2 := by
  obtain ⟨hexchanges, hresult, hagree⟩ :=
    h.run (p := reconcile settings t.key) fun e he => ht.isAbout he
  refine ⟨hresult, hagree, touches_reconcileOn ?_⟩
  rw [hexchanges]
  exact fun e he => ht.isAbout he

/-- Reconciles of two backups that do not select a filesystem end the same in either order and leave
the same objects; the versions agree as well, since they are counted for each object on its own.
Each of the reconciles touches its job and its record only. -/
theorem reconciles_commute (settings : Settings τ) (htu : t ≠ u) (hs : s.WellTyped)
    (hnames : ∀ v object, s.backups.find? (TextKey.key v) = some object → Names v object)
    (ht : ¬ SelectsFilesystem s t) (hu : ¬ SelectsFilesystem s u) :
    ∃ rt ru st su stu sut,
      reconcileOn settings s t = (rt, st) ∧ reconcileOn settings st u = (ru, stu) ∧
      reconcileOn settings s u = (ru, su) ∧ reconcileOn settings su t = (rt, sut) ∧
      SameObjects stu sut ∧
      Touches t s st ∧ Touches u st stu ∧ Touches u s su ∧ Touches t su sut := by
  have hdirect : IsDirect s t := ⟨hs, hnames t, ht⟩
  have hdirect' : IsDirect s u := ⟨hs, hnames u, hu⟩
  have hst := hdirect.touches settings
  have hsu := hdirect'.touches settings
  obtain ⟨hrt, hagree, hsut⟩ := hdirect.of_agree settings (hsu.agree htu)
  obtain ⟨hru, hagree', hstu⟩ := hdirect'.of_agree settings (hst.agree htu.symm)
  rcases hfirst : reconcileOn settings s t with ⟨rt, st⟩
  rcases hfirst' : reconcileOn settings s u with ⟨ru, su⟩
  rw [hfirst] at hst hrt hagree hru hagree' hstu
  rw [hfirst'] at hsu hrt hagree hru hagree' hsut
  dsimp only at hrt hru
  refine ⟨rt, ru, st, su, _, _, rfl, Prod.ext hru rfl, rfl, Prod.ext hrt rfl, ?_, hst, hstu, hsu,
    hsut⟩
  exact {
    backups := find?_of_either_order (key_beq htu) hst.backups hsu.backups hstu.backups
      hsut.backups hagree.backup hagree'.backup
    jobs := find?_of_either_order (jobKey_beq htu) hst.jobs hsu.jobs hstu.jobs hsut.jobs
      hagree.job hagree'.job
    clusters := by rw [hstu.clusters, hst.clusters, hsut.clusters, hsu.clusters]
    claims := by rw [hstu.claims, hst.claims, hsut.claims, hsu.claims]
    newClaimPhases := by
      rw [hstu.newClaimPhases, hst.newClaimPhases, hsut.newClaimPhases, hsu.newClaimPhases] }

namespace Nightly

def stageNames : TextKey := ("stage", "nightly")

def stageBackup : Json :=
  withMember (backup .null) "metadata"
    (withMember (memberOrNull (backup .null) "metadata") "namespace" (.str "stage"))

def withStage : Server :=
  { Server.empty with
    backups := (Table.empty.insert names.key (backup .null)).insert stageNames.key stageBackup
    clusters := [(.text "apps", cluster), (.text "stage", cluster)] }

theorem find?_withStage {k : ObjectKey} {object : Json}
    (h : withStage.backups.find? k = some object) :
    (stageNames.key == k) = true ∧ object = stageBackup ∨
      (names.key == k) = true ∧ object = backup .null := by
  simp only [withStage, Table.find?_insert] at h
  split at h
  · rename_i hk
    exact .inl ⟨hk, (Option.some.inj h).symm⟩
  · split at h
    · rename_i hk
      exact .inr ⟨hk, (Option.some.inj h).symm⟩
    · cases h

theorem wellTyped_withStage : withStage.WellTyped where
  clusters c hc := by
    rcases List.mem_pair.1 hc with rfl | rfl
    · decide
    · decide
  jobs k job hjob := by cases hjob
  backups k object h := by
    rcases find?_withStage h with ⟨-, rfl⟩ | ⟨-, rfl⟩
    · exact ⟨by decide, _, rfl⟩
    · exact ⟨by decide, _, rfl⟩

theorem names_withStage (v : TextKey) (object : Json)
    (h : withStage.backups.find? v.key = some object) : Names v object := by
  rcases find?_withStage h with ⟨hv, rfl⟩ | ⟨hv, rfl⟩
  · obtain rfl : stageNames = v := by simpa using hv
    exact ⟨rfl, rfl⟩
  · obtain rfl : names = v := by simpa using hv
    exact ⟨rfl, rfl⟩

end Nightly

/-- Two backups of one name in different namespaces both get their jobs, in either order. -/
theorem reconciles_commute_nightly :
    ∃ st su stu sut,
      reconcileOn (.usual : Settings Rat) Nightly.withStage Nightly.names =
        (.ok .settled, st) ∧
      reconcileOn (.usual : Settings Rat) st Nightly.stageNames = (.ok .settled, stu) ∧
      reconcileOn (.usual : Settings Rat) Nightly.withStage Nightly.stageNames =
        (.ok .settled, su) ∧
      reconcileOn (.usual : Settings Rat) su Nightly.names = (.ok .settled, sut) ∧
      SameObjects stu sut ∧ stu.jobs.size = 2 := by
  have hresult : (reconcileOn (.usual : Settings Rat) Nightly.withStage
      Nightly.names).1.toOption = some .settled := by decide +kernel
  have hresult' : (reconcileOn (.usual : Settings Rat) Nightly.withStage
      Nightly.stageNames).1.toOption = some .settled := by decide +kernel
  have hjobs : (reconcileOn (.usual : Settings Rat) (reconcileOn (.usual : Settings Rat)
      Nightly.withStage Nightly.names).2 Nightly.stageNames).2.jobs.size = 2 := by
    decide +kernel
  obtain ⟨rt, ru, st, su, stu, sut, hst, hstu, hsu, hsut, hsame, -⟩ := reconciles_commute
    (.usual : Settings Rat) (by decide : Nightly.names ≠ Nightly.stageNames)
    Nightly.wellTyped_withStage Nightly.names_withStage
    (not_selectsFilesystem (by decide +kernel)) (not_selectsFilesystem (by decide +kernel))
  rw [hst] at hresult hjobs
  rw [hsu] at hresult'
  dsimp only at hjobs
  rw [hstu] at hjobs
  cases rt with
  | error f => cases hresult
  | ok outcome =>
    cases hresult
    cases ru with
    | error f => cases hresult'
    | ok outcome' =>
      cases hresult'
      exact ⟨st, su, stu, sut, hst, hstu, hsu, hsut, hsame, hjobs⟩

end ClusterBackup
