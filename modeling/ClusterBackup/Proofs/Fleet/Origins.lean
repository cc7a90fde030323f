import ClusterBackup.Proofs.Fleet.Exchanges
import ClusterBackup.Proofs.Fleet.Submissions
import ClusterBackup.Proofs.Reconcile.Course
/-!
# Where jobs and records come from

Any number of reconciles of one backup on one server. Others may do to the jobs and the backup what
they like, as long as no job comes from elsewhere and the backup that is there has its names.

Each job of a run is then the one that was there at first, or was made by a plan of the run
(`Traced`). Each record that is written is of a plan of the run too, and of the counters of a job
that was there when they were read; which plan that job was made by is another matter.
-/

namespace ClusterBackup.Origins

open Api (Server Call Exchange)
open Api.Server (memberOrNull)
open Submissions (jobKey Names Answers)

variable {τ : Type} {settings : Settings τ} {key : ObjectKey} {t : TextKey} {b : Backup} {p : Plan}
  {es : List Exchange} {h before after : List (Fleet.Occurrence Server)} {first s u : Server}

/-! ## Plans and jobs -/

/-- A plan that was made in the run: the backup was read and the clusters were listed, as the plan
needs it. -/
def Planned (settings : Settings τ) (t : TextKey) (h : List (Fleet.Occurrence Server)) (b : Backup)
    (p : Plan) : Prop :=
  ∃ es, Opened settings t.key b p es ∧ ∀ e ∈ es, Fleet.Happened h e

theorem Planned.mono (hp : Planned settings t before b p) (hsub : before ⊆ h) :
    Planned settings t h b p := by
  obtain ⟨es, ho, hes⟩ := hp
  exact ⟨es, ho, fun e he => (hes e he).mono hsub⟩

/-- A job is the one that was there at first, or was made by a plan of the run. -/
def Traced (settings : Settings τ) (t : TextKey) (first : Server)
    (h : List (Fleet.Occurrence Server)) (body : Option Job) : Prop :=
  (∃ old, first.jobs.find? (jobKey t) = some old ∧ old.body = body) ∨
    ∃ b p job, Planned settings t h b p ∧ body = some job ∧
      Job.forBackup b p.cluster p.destination settings.jobBackoffLimit = .ok job

theorem Traced.mono {body : Option Job} (hb : Traced settings t first before body)
    (hsub : before ⊆ h) : Traced settings t first h body := by
  refine hb.imp_right ?_
  rintro ⟨b, p, job, hp, hbody, hjob⟩
  exact ⟨b, p, job, hp.mono hsub, hbody, hjob⟩

theorem planned_of_submission {ns : Json} {job : Job}
    (hd : Fleet.IsDue (Due settings t.key) h (.createJob ns job)) :
    ∃ b p, Planned settings t h b p ∧
      Job.forBackup b p.cluster p.destination settings.jobBackoffLimit = .ok job := by
  obtain ⟨es, hdue, hes⟩ := hd
  cases hdue with
  | createJob hready hjob =>
    obtain ⟨opening, hinitial, ho⟩ := hready.hasPlan
    exact ⟨_, _, ⟨opening, ho, fun e he => hes e (hinitial.subset he)⟩, hjob⟩

theorem planned_of_write {update : Api.StatusUpdate}
    (hd : Fleet.IsDue (Due settings t.key) h (.replaceStatus update)) :
    ∃ b p, Planned settings t h b p ∧ ∃ progress,
      update = ⟨b.ns, b.name, b.version, .ofProgress progress p.destination b.profile⟩ := by
  obtain ⟨es, hdue, hes⟩ := hd
  cases hdue with
  | replaceStatus hsubmitted =>
    obtain ⟨opening, hinitial, ho⟩ := hsubmitted.hasPlan
    have hplanned : Planned settings t h _ _ :=
      ⟨opening, ho, fun e he => hes e (List.mem_append_left _ (hinitial.subset he))⟩
    exact ⟨_, _, hplanned, _, rfl⟩

/-! ## Runs -/

/-- What others leave alone: the names of the backup, and what a job was created with. They may
remove both, and bring back the backup. -/
structure KeepsJob (t : TextKey) (s u : Server) : Prop where
  names : ∀ object, u.backups.find? t.key = some object → Names t object
  jobs : ∀ stored, u.jobs.find? (jobKey t) = some stored →
    ∃ old, s.jobs.find? (jobKey t) = some old ∧ old.body = stored.body

/-- The rules for reconciles of one backup under the same settings. -/
def rules [NatCast τ] (settings : Settings τ) (t : TextKey) (Changes : Server → Server → Prop) :
    Fleet.Rules τ Server where
  Starts p := p = reconcile settings t.key
  Answers := Answers
  Changes := Changes

structure Invariant (settings : Settings τ) (t : TextKey) (first : Server)
    (h : List (Fleet.Occurrence Server)) (s : Server) : Prop where
  names : ∀ object, s.backups.find? t.key = some object → Names t object
  jobs : ∀ stored, s.jobs.find? (jobKey t) = some stored →
    Traced settings t first h stored.body

theorem Invariant.called {c : Call} {outcome : c.Outcome} (hi : Invariant settings t first h s)
    (hd : Fleet.IsDue (Due settings t.key) h c) (ha : Answers s c outcome u) :
    Invariant settings t first (h ++ [.called s c outcome u]) u := by
  have hsub : h ⊆ h ++ [.called s c outcome u] := List.subset_append_left h _
  constructor
  · intro object hu
    -- A backup is as it was, or it is the old one with a new record.
    rcases ha.find? hu with hs | ⟨old, update, -, hs, hreplaced⟩
    · exact hi.names object hs
    · exact (hi.names old hs).replaced hreplaced
  · intro stored hu
    rcases ha.job hu with hs | ⟨ns, job, rfl, rfl⟩
    · exact (hi.jobs stored hs).mono hsub
    · obtain ⟨b, p, hp, hjob⟩ := planned_of_submission hd
      exact .inr ⟨b, p, job, hp.mono hsub, rfl, hjob⟩

theorem Invariant.changed (hi : Invariant settings t first h s) (hc : KeepsJob t s u) :
    Invariant settings t first (h ++ [.changed s u]) u := by
  refine ⟨hc.names, fun stored hu => ?_⟩
  obtain ⟨old, hs, hbody⟩ := hc.jobs stored hu
  rw [← hbody]
  exact (hi.jobs old hs).mono (List.subset_append_left h _)

variable [NatCast τ] {Changes : Server → Server → Prop} {last : Fleet τ Server}

theorem due_of_starts {p : Reconciling τ} (hp : (rules settings t Changes).Starts p) :
    p.Obeys (Due settings t.key) (fun _ _ => True) [] := by
  cases hp
  exact obeys_reconcile settings t.key

theorem invariant_of_run (hc : ∀ s u, Changes s u → KeepsJob t s u)
    (hn : ∀ object, first.backups.find? t.key = some object → Names t object)
    (hrun : Fleet.Run (rules settings t Changes) ⟨first, []⟩ h last) :
    Invariant settings t first h last.state := by
  refine hrun.invariant_of_due (fun p => due_of_starts) (fun hi hd ha => hi.called hd ha)
    (fun hi hch => hi.changed (hc _ _ hch)) ⟨hn, fun stored hs => ?_⟩
  exact .inl ⟨stored, hs, rfl⟩

theorem at_call (hc : ∀ s u, Changes s u → KeepsJob t s u)
    (hn : ∀ object, first.backups.find? t.key = some object → Names t object)
    {c : Call} {outcome : c.Outcome}
    (hrun : Fleet.Run (rules settings t Changes) ⟨first, []⟩
      (before ++ .called s c outcome u :: after) last) :
    Invariant settings t first before s ∧ Fleet.IsDue (Due settings t.key) before c ∧
      Answers s c outcome u := by
  obtain ⟨middle, hmiddle, hs⟩ := hrun.before rfl
  have hi := invariant_of_run hc hn hmiddle
  rw [hs] at hi
  obtain ⟨hdue, ha⟩ := hrun.due (fun p => due_of_starts) rfl
  exact ⟨hi, hdue, ha⟩

theorem Planned.names (hc : ∀ s u, Changes s u → KeepsJob t s u)
    (hn : ∀ object, first.backups.find? t.key = some object → Names t object)
    (hrun : Fleet.Run (rules settings t Changes) ⟨first, []⟩ h last)
    (hp : Planned settings t h b p) : b.ns = .str t.1 ∧ b.name = .str t.2 := by
  obtain ⟨es, ho, hes⟩ := hp
  cases ho with
  | intro hread hplan =>
    rename_i object listing
    obtain ⟨s, u, hmem⟩ := hes ⟨.getBackup t.key.ns t.key.name, .ok object⟩ List.mem_cons_self
    obtain ⟨before, after, rfl⟩ := List.append_of_mem hmem
    obtain ⟨hi, -, ha⟩ := at_call hc hn hrun
    have hfind := ha.find?_of_read rfl
    exact Submissions.names_of_readFrom (Backup.readFrom_of_ofJson hread) (hi.names object hfind)

theorem job_of_read {status : Option Api.JobStatus} {ns name : String}
    (ha : Answers s (.readJob (.str ns) (.str name)) (.ok status) u) :
    ∃ stored, s.jobs.find? (.ofTexts ns name) = some stored ∧ stored.status = status := by
  have hanswer : (Server.stored s.jobs (.str ns) (.str name)).map (fun r => r.2.status) =
      .ok status := (ha.eq_of_isOk rfl).1.symm
  unfold Server.stored at hanswer
  rw [Server.keyOf_str] at hanswer
  cases hfind : s.jobs.find? (.ofTexts ns name) with
  | none => simp [hfind, Except.map] at hanswer
  | some stored =>
    simp only [hfind, Except.map, Except.ok.injEq] at hanswer
    exact ⟨stored, rfl, hanswer⟩

/-- Where a written record comes from: a plan of the run, and the counters of a job that was
there. -/
structure Written (settings : Settings τ) (t : TextKey) (first : Server)
    (h : List (Fleet.Occurrence Server)) (update : Api.StatusUpdate) (b : Backup) (p : Plan)
    (stored : Api.StoredJob) : Prop where
  planned : Planned settings t h b p
  update : ∃ progress, Progress.ofStatus? stored.status = some progress ∧
    update = ⟨b.ns, b.name, b.version, .ofProgress progress p.destination b.profile⟩
  read : ∃ s u, s.jobs.find? (jobKey t) = some stored ∧
    .called s (.readJob (.str t.1) (.str ("xb-" ++ t.2))) (.ok stored.status) u ∈ h
  traced : Traced settings t first h stored.body

theorem written_of_run (hc : ∀ s u, Changes s u → KeepsJob t s u)
    (hn : ∀ object, first.backups.find? t.key = some object → Names t object)
    {update : Api.StatusUpdate} {outcome : Except Api.Failure Unit}
    (hrun : Fleet.Run (rules settings t Changes) ⟨first, []⟩
      (before ++ .called s (.replaceStatus update) outcome u :: after) last) :
    ∃ b p stored, Written settings t first before update b p stored := by
  obtain ⟨-, ⟨es, hdue, hes⟩, -⟩ := at_call hc hn hrun
  obtain ⟨middle, hmiddle, -⟩ := hrun.before rfl
  cases hdue with
  | replaceStatus hsubmitted hprogress hopen hnew =>
    rename_i es b p status progress
    obtain ⟨opening, hinitial, ho⟩ := hsubmitted.hasPlan
    have hplanned : Planned settings t before b p :=
      ⟨opening, ho, fun e he => hes e (List.mem_append_left _ (hinitial.subset he))⟩
    obtain ⟨hns, hname⟩ := hplanned.names hc hn hmiddle
    obtain ⟨s', u', hread⟩ := hes _ (List.mem_append_right _ List.mem_cons_self)
    have hjobName : Job.nameFor b = "xb-" ++ t.2 := by
      rw [Job.nameFor, hname]
      rfl
    dsimp only at hread
    rw [hns, hjobName] at hread
    -- The invariant is taken at the read of the job, since the job may be gone by the write.
    obtain ⟨front, back, rfl⟩ := List.append_of_mem hread
    obtain ⟨hi, -, ha⟩ := at_call hc hn hmiddle
    obtain ⟨stored, hfind, rfl⟩ := job_of_read ha
    exact ⟨b, p, stored, hplanned, ⟨progress, hprogress, rfl⟩, ⟨s', u', hfind, hread⟩,
      (hi.jobs stored hfind).mono (List.subset_append_left front _)⟩

theorem run_alone {h : List (Fleet.Occurrence Server)} {back : List (Reconciling τ)}
    (hrun : Fleet.Run (rules settings t Changes) ⟨first, []⟩ h ⟨s, back⟩) :
    ∃ back', Fleet.Run (rules settings t Changes) ⟨first, []⟩
      (h ++ Fleet.happenings (Server.host τ) (reconcile settings t.key) s)
      ⟨((reconcile settings t.key).run (Server.host τ) s).2, back'⟩ :=
  ⟨_, (hrun.start rfl).alone (fun s c => Answers.answered s c) fun _ _ => rfl⟩

theorem Nightly.run_reconciled {Changes : Server → Server → Prop} {first s : Server}
    {h : List (Fleet.Occurrence Server)} {back : List (Reconciling Rat)}
    (hrun : Fleet.Run (rules (.usual : Settings Rat) Nightly.names Changes)
      ⟨first, []⟩ h ⟨s, back⟩) :
    ∃ back', Fleet.Run (rules (.usual : Settings Rat) Nightly.names Changes)
      ⟨first, []⟩ (h ++ Submissions.Nightly.reconciling s)
      ⟨Submissions.Nightly.reconciled s, back'⟩ :=
  run_alone hrun

end ClusterBackup.Origins
