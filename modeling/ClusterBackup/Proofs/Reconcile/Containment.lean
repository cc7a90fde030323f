import ClusterBackup.Proofs.Api.Answers
import ClusterBackup.Proofs.Api.Injected
import ClusterBackup.Proofs.Fleet.Basic
import ClusterBackup.Proofs.Reconcile.Endings
import ClusterBackup.Proofs.Reconcile.WellTyped
import ClusterBackup.Worker.Basic
/-!
# Failures that are contained

A reconcile on objects of their documented types, while any of its calls may fail. No fault comes of
it: what is in the way is reported as an obstacle, and the record of the backup is then as it was.
Which failures are taken for an answer is what `Finished` says: that there is no claim yet or no
bound one so far, that a claim or a job is there already, and that the job is gone.
-/

namespace ClusterBackup

open Api (Call Exchange Server Session)
open Api.Server (memberOrNull)

variable {τ : Type} {settings : Settings τ} {key : ObjectKey} {b : Backup} {p : Plan}
  {es : List Exchange} {stop : Stop} {result : Except Fault Outcome}

/-! ## Well-typed servers -/

/-- The object is a backup by its type, and says when it was created. -/
def IsBackup (object : Json) : Prop :=
  Schema.backup.describes object = true ∧ ∃ t,
    Timestamp.ofJson (memberOrNull (memberOrNull object "metadata") "creationTimestamp") = .ok t

theorem IsBackup.read {object : Json} (h : IsBackup object) :
    ∃ b, Backup.ofJson object = .ok b ∧ b.IsTyped := by
  obtain ⟨hobject, t, ht⟩ := h
  exact Backup.ofJson_of_describes hobject ht

/-- The clusters are of their type, and the times in the status of jobs are in the calendar. -/
structure Api.Server.TypedAround (s : Server) : Prop where
  clusters : ∀ c ∈ s.clusters, Schema.cluster.describes c.2 = true
  jobs : ∀ k job, s.jobs.find? k = some job → (Progress.ofStatus? job.status).isSome = true

structure Api.Server.WellTyped (s : Server) : Prop extends s.TypedAround where
  backups : ∀ k object, s.backups.find? k = some object → IsBackup object

def Api.Exchange.IsTyped : Exchange → Prop
  | ⟨.listClusters _, .ok listing⟩ => Schema.listing.describes listing = true
  | ⟨.readJob _ _, .ok status⟩ => (Progress.ofStatus? status).isSome = true
  | _ => True

theorem Api.Exchange.isTyped_of_error (c : Call) (f : Api.Failure) :
    IsTyped ⟨c, .error f⟩ := by
  cases c <;> trivial

theorem Api.Server.TypedAround.answer {s : Server} (hs : s.TypedAround) (c : Call) :
    (s.answer c).2.TypedAround := by
  refine ⟨?_, fun k job hjob => ?_⟩
  · rw [clusters_answer]
    exact hs.clusters
  · rcases job_of_answer hjob with hold | ⟨ns, body, -, rfl⟩
    · exact hs.jobs k job hold
    · rfl

theorem Api.Server.TypedAround.isTyped {s : Server} (hs : s.TypedAround) (c : Call) :
    Exchange.IsTyped ⟨c, (s.answer c).1⟩ := by
  cases c with
  | listClusters ns =>
    show Exchange.IsTyped ⟨.listClusters ns, s.listing ns⟩
    cases hlisting : s.listing ns with
    | error f => trivial
    | ok listing =>
      obtain ⟨a, -, h⟩ := bind_eq_ok.1 hlisting
      cases h
      refine Schema.describes_listing fun i hi => ?_
      obtain ⟨c, hc, rfl⟩ := List.mem_map.1 hi
      exact hs.clusters c (List.mem_filter.1 hc).1
  | readJob ns name =>
    show Exchange.IsTyped ⟨.readJob ns name, (stored s.jobs ns name).map fun r => r.2.status⟩
    unfold stored
    cases keyOf ns name with
    | error f => trivial
    | ok k =>
      dsimp only
      cases hjob : s.jobs.find? k with
      | none => trivial
      | some job => exact hs.jobs k job hjob
  | _ => trivial

/-! ## No faults -/

theorem backup_of_planFor {outcome : Except Api.Failure Json}
    (h : planFor settings b outcome = .ok p) : ∃ backup, p.cluster.backup = some backup := by
  unfold planFor at h
  obtain ⟨cluster, -, h⟩ := bind_eq_ok.1 h
  split at h
  · cases h
  · rename_i backup hbackup
    obtain ⟨profile, -, h⟩ := bind_eq_ok.1 h
    obtain ⟨destination, -, h⟩ := bind_eq_ok.1 h
    cases h
    exact ⟨backup, hbackup⟩

/-- A job for a cluster with a backup section can only fail to be owned. -/
theorem Job.ownership_of_forBackup {cluster : Cluster} {backup : BackupSection} {d : Destination}
    {limit : Int} {e : JobError} (hbackup : cluster.backup = some backup)
    (h : forBackup b cluster d limit = .error e) : ∃ e', e = .ownership e' := by
  unfold forBackup at h
  rw [hbackup] at h
  obtain ⟨e', -, he⟩ := mapError_eq_error.1 h
  exact ⟨e', he.symm⟩

theorem Record.isClosedTo_of_isAtom {stored : Option Record}
    (h : ∀ r, stored = some r → r.state.isAtom = true) (candidate : Record) :
    ∃ closed, isClosedTo stored candidate = .ok closed := by
  cases stored with
  | none => exact ⟨_, rfl⟩
  | some r =>
    rw [isClosedTo, isFinal, if_pos (h r rfl)]
    exact ⟨_, rfl⟩

/-- What stops a reconcile that follows its plan is an obstacle, as long as all that it goes by is
well-typed. -/
theorem Stopped.obstacle (hn : 0 < settings.bindAttempts)
    (hatom : ∀ r, b.record = some r → r.state.isAtom = true) (ht : ∀ e ∈ es, e.IsTyped)
    (h : Stopped settings key b p es stop) : ∃ o, stop = .obstacle o := by
  cases h with
  | noAttempts _ hle => omega
  | noJob h he =>
    obtain ⟨object, listing, rest, -, -, hplan⟩ := h.hasPlan.eq_cons
    obtain ⟨backup, hbackup⟩ := backup_of_planFor hplan
    obtain ⟨e', rfl⟩ := Job.ownership_of_forBackup hbackup he
    exact ⟨_, rfl⟩
  | @beyondCalendar es status h hstatus =>
    have htyped : (Progress.ofStatus? status).isSome = true :=
      ht _ (List.mem_append_right es List.mem_cons_self)
    rw [hstatus] at htyped
    cases htyped
  | undecided h hstatus he =>
    obtain ⟨closed, hclosed⟩ := Record.isClosedTo_of_isAtom hatom _
    rw [hclosed] at he
    cases he
  | _ => exact ⟨_, rfl⟩

/-- A reconcile that has read a backup by its type, and goes by what is well-typed, has an outcome:
it does not end with a fault. -/
theorem Ended.outcome (hn : 0 < settings.bindAttempts)
    (hread : ∀ object rest, es = ⟨.getBackup key.ns key.name, .ok object⟩ :: rest →
      IsBackup object)
    (ht : ∀ e ∈ es, e.IsTyped) (h : Ended settings key es result) :
    ∃ outcome, result = .ok outcome := by
  have hbackup : ∀ {object rest b}, es = ⟨.getBackup key.ns key.name, .ok object⟩ :: rest →
      Backup.ofJson object = .ok b → b.IsTyped := by
    intro object rest b hes hb
    obtain ⟨b', hb', htyped⟩ := (hread object rest hes).read
    rw [hb] at hb'
    cases hb'
    exact htyped
  cases h with
  | gone => exact ⟨_, rfl⟩
  | unreadable => exact ⟨_, rfl⟩
  | @noBackup object e he =>
    obtain ⟨b, hb, -⟩ := (hread object [] rfl).read
    rw [hb] at he
    cases he
  | @noPlan object b outcome stop hb hplan =>
    obtain ⟨profile, hprofile⟩ := (hbackup rfl hb).profile
    have hlisting : ∀ listing, outcome = .ok listing →
        Schema.listing.describes listing = true := by
      rintro listing rfl
      exact ht _ (List.mem_cons_of_mem _ List.mem_cons_self)
    obtain ⟨o, rfl⟩ := obstacle_of_planFor hprofile hlisting hplan
    exact ⟨_, rfl⟩
  | stopped h =>
    obtain ⟨object, listing, rest, hes, hb, -⟩ := h.hasPlan.eq_cons
    obtain ⟨o, rfl⟩ := h.obstacle hn (hbackup hes hb).state ht
    exact ⟨_, rfl⟩
  | settled => exact ⟨_, rfl⟩

/-! ## Runs -/

def Verdict.delay? : Verdict τ → Option τ
  | gone => none
  | settled after => some after
  | failed after => some after

def Outcome.obstacle? : Outcome → Option Obstacle
  | failed o => some o
  | _ => none

variable [NatCast τ] [Add τ]

/-- On well-typed objects a reconcile has an outcome, whatever calls fail. The backup is not looked
at again exactly if the API did not find it. Something is in the way unless the backup is gone or
the plan was carried out to its end, and then no record was written. -/
theorem reconcile_contains_failures (settings : Settings τ) (key : ObjectKey)
    (hn : 0 < settings.bindAttempts) (s : Session τ) (hs : s.script.OnlyFails)
    (ht : s.server.WellTyped) :
    ∃ outcome after es, s.run (reconcile settings key) = (.ok outcome, after) ∧
      (reconcile settings key).exchanges Session.host s = es ∧
      ((Verdict.ofResult settings.requeueAfter (.ok outcome)).delay? = none ↔
        ∃ f, es = [⟨.getBackup key.ns key.name, .error f⟩] ∧ f.hasStatus 404 = true) ∧
      ((Verdict.ofResult settings.requeueAfter (.ok outcome)).delay? = none ∨
        (Verdict.ofResult settings.requeueAfter (.ok outcome)).delay? =
          some settings.requeueAfter) ∧
      (outcome.obstacle? = none ↔
        (Verdict.ofResult settings.requeueAfter (.ok outcome)).delay? = none ∨
          ∃ b p, Finished settings key b p es) ∧
      (outcome.obstacle? ≠ none → after.server.backups = s.server.backups) := by
  have hended : Ended settings key ((reconcile settings key).exchanges Session.host s)
      (s.run (reconcile settings key)).1 :=
    (obeys_reconcile_ended settings key).result Session.host s
  have htyped := Session.exchanges_of_kept (fun _ c h => h.answer c) (fun _ c h => h.isTyped c)
    (fun c f => Exchange.isTyped_of_error c f) (reconcile settings key) hs ht.toTypedAround
  have hread : ∀ object rest, (reconcile settings key).exchanges Session.host s =
      ⟨.getBackup key.ns key.name, .ok object⟩ :: rest → IsBackup object := by
    intro object rest hes
    rw [reconcile_eq, Api.Program.exchanges] at hes
    have hobject : (s.respond (.getBackup key.ns key.name)).1 = .ok object := by
      injection hes with hfirst
      injection hfirst with _ houtcome
    rcases (Session.respond_of_onlyFails hs _).1 with ⟨hserver, -⟩ | ⟨⟨f, hfailed⟩, -⟩
    · rw [hserver, Server.answer_get] at hobject
      cases hfind : s.server.backups.find? key with
      | none =>
        rw [hfind] at hobject
        cases hobject
      | some found =>
        rw [hfind] at hobject
        cases hobject
        exact ht.backups key object hfind
    · rw [hfailed] at hobject
      cases hobject
  obtain ⟨outcome, houtcome⟩ := hended.outcome hn hread htyped
  rw [houtcome] at hended
  have hgone : (Verdict.ofResult settings.requeueAfter (.ok outcome)).delay? = none ↔
      outcome = .gone := by
    cases outcome <;> simp [Verdict.ofResult, Verdict.delay?]
  refine ⟨outcome, (s.run (reconcile settings key)).2, _, Prod.ext houtcome rfl, rfl,
    ?_, ?_, ?_, ?_⟩
  · rw [hgone, ← hended.gone_iff, Except.ok.injEq]
  · cases outcome <;> simp [Verdict.ofResult, Verdict.delay?]
  · rw [hgone, ← hended.settled_iff]
    cases outcome <;> simp [Outcome.obstacle?]
  · intro hfailed
    cases outcome with
    | failed o => exact Session.backups_run _ hended.unwritten
    | gone => exact absurd rfl hfailed
    | settled => exact absurd rfl hfailed

/-! ## Failures of the nightly backup -/

namespace Nightly

def session (script : Api.Script) : Session Rat where
  now := 0
  server := { Server.empty with
    backups := Table.empty.insert Nightly.key (backup .null)
    clusters := [(.text "apps", cluster)] }
  script

/-- A script under which the job seems to be there and is not found. -/
def conflict : Api.Script where
  createJob := [.failing (.rejected (.int 409) (.str "AlreadyExists"))]

/-- A script under which the job cannot be read, for a reason that is not told. -/
def outage : Api.Script where
  readJob := [.failing (.rejected .null .null)]

theorem onlyFails_conflict : conflict.OnlyFails := by
  constructor <;> simp [conflict, Api.Response.isGiven]

theorem onlyFails_outage : outage.OnlyFails := by
  constructor <;> simp [outage, Api.Response.isGiven]

theorem wellTyped_session (script : Api.Script) : (session script).server.WellTyped where
  clusters c hc := by
    cases List.mem_singleton.1 hc
    decide
  jobs k job hjob := by cases hjob
  backups k object hobject := by
    simp only [session, Table.find?_insert] at hobject
    split at hobject
    · cases hobject
      exact ⟨by decide, _, rfl⟩
    · cases hobject

end Nightly

/-- A conflict at the creation of the job and a job that is not found are no failures. A job that
cannot be read is one, and the record is left alone. -/
theorem reconcile_contains_failures_nightly :
    (∃ b p, Finished (.usual : Settings Rat) Nightly.key b p
      ((reconcile .usual Nightly.key).exchanges Session.host (Nightly.session Nightly.conflict))) ∧
    ∃ outcome after, (Nightly.session Nightly.outage).run
        (reconcile (.usual : Settings Rat) Nightly.key) = (.ok outcome, after) ∧
      outcome.obstacle? ≠ none ∧
      after.server.backups = (Nightly.session Nightly.outage).server.backups := by
  constructor
  · have hsettled : ((Nightly.session Nightly.conflict).run
        (reconcile (.usual : Settings Rat) Nightly.key)).1.toOption = some .settled := by
      decide +kernel
    obtain ⟨outcome, after, es, hrun, rfl, -, -, hfinished, -⟩ :=
      reconcile_contains_failures (.usual : Settings Rat) Nightly.key (by decide)
        (Nightly.session Nightly.conflict) Nightly.onlyFails_conflict (Nightly.wellTyped_session _)
    rw [hrun] at hsettled
    cases hsettled
    rcases hfinished.1 rfl with hgone | hfinished
    · cases hgone
    · exact hfinished
  · have hfailed : (((Nightly.session Nightly.outage).run
        (reconcile (.usual : Settings Rat) Nightly.key)).1.toOption.bind
          Outcome.obstacle?).isSome = true := by
      decide +kernel
    obtain ⟨outcome, after, es, hrun, -, -, -, -, hkept⟩ :=
      reconcile_contains_failures (.usual : Settings Rat) Nightly.key (by decide)
        (Nightly.session Nightly.outage) Nightly.onlyFails_outage (Nightly.wellTyped_session _)
    rw [hrun] at hfailed
    have hobstacle : outcome.obstacle? ≠ none := Option.isSome_iff_ne_none.1 hfailed
    exact ⟨outcome, after, hrun, hobstacle, hkept hobstacle⟩

end ClusterBackup
