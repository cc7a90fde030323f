import ClusterBackup.Proofs.Fleet.Exchanges
import ClusterBackup.Proofs.Fleet.SharedBackup
import ClusterBackup.Proofs.Reconcile.Course
import ClusterBackup.Proofs.Record.Stages
/-!
# How a record comes to be replaced

Reconciles that share a backup, as before, with what each of them goes by. A record is only replaced
for the backup as it is, by a reconcile that has a plan for it and the counters of its job, and has
found the record open to what follows from both (`Replaces`). Nothing else changes the record
(`moves_of_run`).
-/

namespace ClusterBackup.Stored

open Api (Call Exchange)
open Api.Server (memberOrNull versionOf)
open Fleet (Happened Occurrence)

variable {τ : Type} {key : ObjectKey} {s t : Stored} {object : Json}
  {h before after : List (Occurrence Stored)} {o : Occurrence Stored}

def DueFor (τ : Type) (key : ObjectKey) (es : List Exchange) (c : Call) : Prop :=
  ∃ settings : Settings τ, Due settings key es c

/-- The backup has been in each form in which it was read. -/
structure Remembers (h : List (Occurrence Stored)) (s : Stored) : Prop where
  sound : s.Sound
  saw : ∀ ns name object, Happened h ⟨.getBackup ns name, .ok object⟩ → s.Saw object

theorem remembers_initial (hv : (versionOf object).given = true) :
    Remembers [] (initial object) := by
  refine ⟨sound_initial hv, fun ns name object hread => ?_⟩
  obtain ⟨s, t, hmem⟩ := hread
  cases hmem

theorem Remembers.called {c : Call} {outcome : c.Outcome} (hr : Remembers h s)
    (ha : Answers s c outcome t) : Remembers (h ++ [.called s c outcome t]) t := by
  have hsaw : ∀ ns name object, Happened (h ++ [.called s c outcome t])
      ⟨.getBackup ns name, .ok object⟩ → s.Saw object := by
    intro ns name object hread
    rcases hread.of_concat with hread | heq
    · exact hr.saw ns name object hread
    · cases heq
      cases ha with
      | found => exact hr.sound.saw
      | other _ hget => exact absurd rfl (hget _ _)
  cases ha with
  | found => exact ⟨hr.sound, hsaw⟩
  | failed => exact ⟨hr.sound, hsaw⟩
  | other => exact ⟨hr.sound, hsaw⟩
  | written _ _ hwrite =>
    exact ⟨hwrite.sound, fun ns name object hread => (hsaw ns name object hread).rewritten hwrite⟩

theorem Remembers.changed (hr : Remembers h s) (he : Edited s t) :
    Remembers (h ++ [.changed s t]) t :=
  ⟨he.1.sound, fun ns name object hread => (hr.saw ns name object hread.of_changed).rewritten he.1⟩

/-! ## Replacements -/

/-- How the record is replaced: for the backup as it is, by a plan that was made for it, and by the
counters that were read of its job. The record was open to the new one, which says something
else. -/
structure Replaces (settings : Settings τ) (h : List (Occurrence Stored)) (s : Stored) (b : Backup)
    (p : Plan) (progress : Progress) (u : Api.StatusUpdate) : Prop where
  backup : Backup.ofJson s.object = .ok b
  planned : ∃ listing, Happened h ⟨.listClusters b.ns, .ok listing⟩ ∧
    planFor settings b (.ok listing) = .ok p
  counted : ∃ status, Happened h ⟨.readJob b.ns (.str (Job.nameFor b)), .ok status⟩ ∧
    Progress.ofStatus? status = some progress
  isOpen : Record.isClosedTo b.record (.ofProgress progress p.destination b.profile) = .ok false
  isNew : (Record.ofProgress progress p.destination b.profile).differsFrom b.record = true
  update : u = ⟨b.ns, b.name, b.version, .ofProgress progress p.destination b.profile⟩

theorem Remembers.replaces {u : Api.StatusUpdate} (hr : Remembers h s)
    (hd : Fleet.IsDue (DueFor τ key) h (.replaceStatus u)) (ha : s.Accepts u) :
    ∃ (settings : Settings τ) (b : Backup) (p : Plan) (progress : Progress),
      Replaces settings h s b p progress u := by
  obtain ⟨es, ⟨settings, hdue⟩, hes⟩ := hd
  cases hdue with
  | @replaceStatus es b p status progress hsubmitted hstatus hopen hnew =>
    obtain ⟨object, listing, rest, rfl, hread, hplan⟩ := hsubmitted.hasPlan.eq_cons
    have hsaw : s.Saw object := hr.saw key.ns key.name object (hes _ (by simp))
    have hobject : object = s.object :=
      hsaw.eq_of_accepts ha (Backup.readFrom_of_ofJson hread).version
    subst hobject
    exact ⟨settings, b, p, progress, hread, ⟨listing, hes _ (by simp), hplan⟩,
      ⟨status, hes _ (by simp), hstatus⟩, hopen, hnew, rfl⟩

/-- What an occurrence does to the record: nothing, or it replaces it. -/
inductive Moves (τ : Type) (h : List (Occurrence Stored)) : Occurrence Stored → Prop where
  | quiet {o : Occurrence Stored} (hsame : o.after.status = o.before.status) : Moves τ h o
  | replaced {s t : Stored} {u : Api.StatusUpdate} {outcome : Except Api.Failure Unit}
      {settings : Settings τ} {b : Backup} {p : Plan} {progress : Progress}
      (hreplaces : Replaces settings h s b p progress u) (hstatus : t.status = u.record.toJson) :
      Moves τ h (.called s (.replaceStatus u) outcome t)

theorem Remembers.moves {c : Call} {outcome : c.Outcome} (hr : Remembers h s)
    (hd : Fleet.IsDue (DueFor τ key) h c) (ha : Answers s c outcome t) :
    Moves τ h (.called s c outcome t) := by
  cases ha with
  | found => exact .quiet rfl
  | failed => exact .quiet rfl
  | other => exact .quiet rfl
  | written outcome haccept _ hstatus =>
    obtain ⟨settings, b, p, progress, hreplaces⟩ := hr.replaces hd haccept
    exact .replaced hreplaces hstatus

variable [NatCast τ]

theorem obeys_of_starts {p : Reconciling τ} (hp : (rules τ key).Starts p) :
    p.Obeys (DueFor τ key) (fun _ _ => True) [] := by
  obtain ⟨settings, rfl⟩ := hp
  exact (obeys_reconcile settings key).imp fun _ _ hdue => ⟨settings, hdue⟩

theorem remembers_of_run (hv : (versionOf object).given = true) {last : Fleet τ Stored}
    (hrun : Fleet.Run (rules τ key) ⟨initial object, []⟩ h last) : Remembers h last.state :=
  hrun.invariant_of_due (fun _ => obeys_of_starts) (fun hr _ ha => hr.called ha)
    (fun hr he => hr.changed he) (remembers_initial hv)

/-- Every occurrence of a run leaves the record alone or replaces it. -/
theorem moves_of_run (hv : (versionOf object).given = true) {last : Fleet τ Stored}
    (hrun : Fleet.Run (rules τ key) ⟨initial object, []⟩ (before ++ o :: after) last) :
    Moves τ before o := by
  cases o with
  | called s c outcome t =>
    obtain ⟨middle, hmiddle, hs⟩ := hrun.before rfl
    have hr := remembers_of_run hv hmiddle
    rw [hs] at hr
    obtain ⟨hdue, ha⟩ := hrun.due (fun _ => obeys_of_starts) rfl
    exact hr.moves hdue ha
  | changed s t =>
    have hedited : Edited s t := hrun.changes (by simp)
    exact .quiet hedited.2

theorem moves_of_trans (hv : (versionOf object).given = true) {middle last : Fleet τ Stored}
    (hrun : Fleet.Run (rules τ key) ⟨initial object, []⟩ h middle)
    (hrun' : Fleet.Run (rules τ key) middle (before ++ o :: after) last) :
    Moves τ (h ++ before) o := by
  have hwhole := hrun.trans hrun'
  rw [← List.append_assoc] at hwhole
  exact moves_of_run hv hwhole

/-! ## The nightly backup -/

def Nightly.answersWith (cluster : Json) (status : Api.JobStatus) : (c : Call) → c.Outcome
  | .listClusters .. => .ok (.obj [("items", .arr [cluster])])
  | .readJob .. => .ok (some status)
  | c => ClusterBackup.Nightly.answers c

end ClusterBackup.Stored
