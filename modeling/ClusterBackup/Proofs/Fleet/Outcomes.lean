import ClusterBackup.Proofs.Fleet.Destinations
import ClusterBackup.Proofs.Fleet.SoleReconcile
import ClusterBackup.Proofs.Resource.Counters
/-!
# The outcome of a job and what is recorded of it

Any number of reconciles of one backup on one server, while the counters of its job go on by the
limit that the job was created with. What is recorded was seen in counters that were read. A failure
is therefore only recorded of a job whose first pod had failed, which is the outcome of the job if
it is not tried again. With retries the record may be of a failure while the job goes on to succeed,
and the failure of a job after its last try is recorded as starting
(`outcomes_agree_without_retries`).
-/

namespace ClusterBackup.Outcomes

open Api (Server Call Exchange)
open Counters (Reaches Shows)
open Destinations (IsFresh)
open Origins (Traced KeepsJob rules)
open Submissions (jobKey Names Answers)

variable {τ : Type} {settings : Settings τ} {t : TextKey} {n : Nat}
  {h : List (Fleet.Occurrence Server)} {first s u : Server} {object : Json} {c d : Counters}

/-! ## Jobs that go on -/

structure GoesOn (stored stored' : Api.StoredJob) : Prop where
  body : stored'.body = stored.body
  counters : ∀ (n : Nat) (c : Counters), stored.body.bind Job.limit? = some (n : Int) →
    Shows stored.status c → ∃ c', Shows stored'.status c' ∧ Reaches n c c'

/-- What others may change: everything but the names and the record of the backup. They may remove
the backup, but not bring it back. The job that is there goes on, and no other one comes. -/
structure Continues (t : TextKey) (s u : Server) : Prop where
  backup : Submissions.Changes t s u
  job : ∀ stored, s.jobs.find? (jobKey t) = some stored →
    ∃ stored', u.jobs.find? (jobKey t) = some stored' ∧ GoesOn stored stored'
  noJob : s.jobs.find? (jobKey t) = none → u.jobs.find? (jobKey t) = none

theorem Continues.keepsJob (hc : Continues t s u) : KeepsJob t s u where
  names object hu := (hc.backup object hu).1
  jobs stored hu := by
    cases hs : s.jobs.find? (jobKey t) with
    | none =>
      rw [hc.noJob hs] at hu
      cases hu
    | some old =>
      obtain ⟨stored', hu', hgoes⟩ := hc.job old hs
      rw [hu, Option.some.injEq] at hu'
      subst hu'
      exact ⟨old, rfl, hgoes.body.symm⟩

/-- A job that was made by a plan of the run has the limit of the settings. -/
theorem limit_of_traced {body : Option Job} (hlimit : settings.jobBackoffLimit = n)
    (hf : first.jobs.find? (jobKey t) = none) (ht : Traced settings t first h body) :
    body.bind Job.limit? = some (n : Int) := by
  rcases ht with ⟨old, hold, -⟩ | ⟨b, p, job, -, rfl, hjob⟩
  · rw [hf] at hold
    cases hold
  · rw [← hlimit]
    exact Job.limit?_of_forBackup hjob

/-! ## What was read -/

def reading (t : TextKey) (status : Option Api.JobStatus) : Exchange :=
  ⟨.readJob (.str t.1) (.str ("xb-" ++ t.2)), .ok status⟩

def Stands (t : TextKey) (s : Server) (c : Counters) : Prop :=
  ∃ stored, s.jobs.find? (jobKey t) = some stored ∧ Shows stored.status c

def WasRead (t : TextKey) (h : List (Fleet.Occurrence Server)) (c : Counters) : Prop :=
  ∃ status, Fleet.Happened h (reading t status) ∧ Shows status c

theorem WasRead.mono {before : List (Fleet.Occurrence Server)} (hr : WasRead t before c)
    (hsub : before ⊆ h) : WasRead t h c := by
  obtain ⟨status, hread, hshows⟩ := hr
  exact ⟨status, hread.mono hsub, hshows⟩

/-- What holds of the server in every run: the job has come to its counters from the start and from
what was read, and each stage that is recorded was seen in counters that were read. -/
structure Accounted (n : Nat) (t : TextKey) (h : List (Fleet.Occurrence Server)) (s : Server) :
    Prop where
  job : ∀ stored, s.jobs.find? (jobKey t) = some stored →
    ∃ c, Shows stored.status c ∧ Reaches n .zero c
  read : ∀ status, Fleet.Happened h (reading t status) →
    ∃ c d, Shows status c ∧ Reaches n .zero c ∧ Stands t s d ∧ Reaches n c d
  records : ∀ object stage, s.backups.find? t.key = some object →
    stageOf? object = some stage → ∃ c, WasRead t h c ∧ c.stage = stage

theorem accounted_initial (hf : IsFresh t first) : Accounted n t [] first where
  job stored hs := by
    rw [hf.job] at hs
    cases hs
  read status hread := by
    obtain ⟨s, u, hmem⟩ := hread
    cases hmem
  records object stage hs hstage := by
    rw [stageOf?_of_no_status (hf.record object hs)] at hstage
    cases hstage

theorem Accounted.called {c : Call} {outcome : c.Outcome} (hi : Accounted n t h s)
    (hn : ∀ object, s.backups.find? t.key = some object → Names t object)
    (ha : Answers s c outcome u)
    (hwrite : ∀ update, c = .replaceStatus update →
      ∃ d, WasRead t h d ∧ update.record.stage? = some d.stage) :
    Accounted n t (h ++ [.called s c outcome u]) u := by
  have hsub : h ⊆ h ++ [.called s c outcome u] := List.subset_append_left h _
  constructor
  · intro stored hu
    rcases ha.job hu with hs | ⟨ns, job, -, rfl⟩
    · exact hi.job stored hs
    · exact ⟨.zero, Counters.shows_blank, .refl⟩
  · intro status hread
    rcases hread.of_concat with hread | heq
    · obtain ⟨c, d, hshows, hzero, ⟨stored, hs, hstored⟩, hreaches⟩ := hi.read status hread
      exact ⟨c, d, hshows, hzero, ⟨stored, ha.find?_job hs, hstored⟩, hreaches⟩
    · -- The job is read as it is.
      cases heq
      obtain ⟨stored, hs, rfl⟩ := Origins.job_of_read ha
      obtain ⟨c, hshows, hzero⟩ := hi.job stored hs
      exact ⟨c, c, hshows, hzero, ⟨stored, ha.find?_job hs, hshows⟩, .refl⟩
  · intro object stage hu hstage
    rcases ha.find? hu with hs | ⟨old, update, rfl, hs, hreplaced⟩
    · obtain ⟨d, hread, hd⟩ := hi.records object stage hs hstage
      exact ⟨d, hread.mono hsub, hd⟩
    · obtain ⟨d, hread, hd⟩ := hwrite update rfl
      have hrecorded := stageOf?_of_record ((hn old hs).status_of_replaced hreplaced) hd
      rw [hstage, Option.some.injEq] at hrecorded
      exact ⟨d, hread.mono hsub, hrecorded.symm⟩

theorem Accounted.changed (hi : Accounted n t h s) (hc : Continues t s u)
    (hlimit : ∀ stored, s.jobs.find? (jobKey t) = some stored →
      stored.body.bind Job.limit? = some (n : Int)) :
    Accounted n t (h ++ [.changed s u]) u := by
  have hsub : h ⊆ h ++ [.changed s u] := List.subset_append_left h _
  constructor
  · intro stored' hu
    obtain ⟨old, hs, -⟩ := hc.keepsJob.jobs stored' hu
    obtain ⟨new, hu', hgoes⟩ := hc.job old hs
    rw [hu, Option.some.injEq] at hu'
    subst hu'
    obtain ⟨c, hshows, hzero⟩ := hi.job old hs
    obtain ⟨d, hshows', hreaches⟩ := hgoes.counters n c (hlimit old hs) hshows
    exact ⟨d, hshows', hzero.trans hreaches⟩
  · intro status hread
    obtain ⟨c, d, hshows, hzero, ⟨stored, hs, hstored⟩, hreaches⟩ := hi.read status hread.of_changed
    obtain ⟨new, hu, hgoes⟩ := hc.job stored hs
    obtain ⟨e, hshows', hreaches'⟩ := hgoes.counters n d (hlimit stored hs) hstored
    exact ⟨c, e, hshows, hzero, ⟨new, hu, hshows'⟩, hreaches.trans hreaches'⟩
  · intro object stage hu hstage
    obtain ⟨-, old, hs, hstatus⟩ := hc.backup object hu
    have hold : stageOf? old = some stage := by
      rw [← hstage, stageOf?, stageOf?, stateOf, stateOf, hstatus]
    obtain ⟨d, hread, hd⟩ := hi.records old stage hs hold
    exact ⟨d, hread.mono hsub, hd⟩

theorem stage_of_written {update : Api.StatusUpdate} {b : Backup} {p : Plan}
    {stored : Api.StoredJob} (hi : Accounted n t h s)
    (hw : Origins.Written settings t first h update b p stored) :
    ∃ d, WasRead t h d ∧ update.record.stage? = some d.stage := by
  obtain ⟨progress, hprogress, rfl⟩ := hw.update
  obtain ⟨s', u', -, hmem⟩ := hw.read
  have hread : Fleet.Happened h (reading t stored.status) := ⟨s', u', hmem⟩
  obtain ⟨d, -, hshows, -, -, -⟩ := hi.read stored.status hread
  refine ⟨d, ⟨_, hread, hshows⟩, ?_⟩
  obtain ⟨completedAt, hseen⟩ := hshows
  rw [hprogress, Option.some.injEq] at hseen
  rw [hseen, ← Counters.stage_progress d completedAt]
  exact Record.stage?_ofProgress ..

variable [NatCast τ] {last : Fleet τ Server}

theorem invariant_of_run (hf : IsFresh t first)
    (hrun : Fleet.Run (rules settings t (Continues t)) ⟨first, []⟩ h last) :
    Origins.Invariant settings t first h last.state :=
  Origins.invariant_of_run (fun _ _ hc => hc.keepsJob) hf.names hrun

theorem accounted_of_run (hf : IsFresh t first) (hlimit : settings.jobBackoffLimit = n)
    (hrun : Fleet.Run (rules settings t (Continues t)) ⟨first, []⟩ h last) :
    Accounted n t h last.state := by
  refine hrun.induct (Accounted n t) (accounted_initial hf) fun front o back hh hi => ?_
  subst hh
  cases o with
  | called s c outcome u =>
    obtain ⟨hinvariant, -, ha⟩ := Origins.at_call (fun _ _ hc => hc.keepsJob) hf.names hrun
    refine hi.called hinvariant.names ha fun update hc => ?_
    subst hc
    obtain ⟨b, p, stored, hwritten⟩ :=
      Origins.written_of_run (fun _ _ hc => hc.keepsJob) hf.names hrun
    exact stage_of_written hi hwritten
  | changed s u =>
    obtain ⟨middle, hmiddle, hs⟩ := hrun.before rfl
    have hinvariant := invariant_of_run hf hmiddle
    rw [hs] at hinvariant
    exact hi.changed (hrun.changes List.mem_append_cons_self) fun stored hstored =>
      limit_of_traced hlimit hf.job (hinvariant.jobs stored hstored)

theorem Accounted.sound {stored : Api.StoredJob} (hi : Accounted n t h s)
    (hjob : s.jobs.find? (jobKey t) = some stored) (hc : Shows stored.status c) : c.Sound n := by
  obtain ⟨c', hshows, hzero⟩ := hi.job stored hjob
  rw [hc.eq hshows]
  exact (Counters.sound_zero n).reaches hzero

/-- What was read of a job has led to the counters that it stands at. -/
theorem Accounted.reaches_of_read (hi : Accounted n t h s) (hread : WasRead t h c)
    (hs : Stands t s d) : c.Sound n ∧ Reaches n c d := by
  obtain ⟨status, hhappened, hshows⟩ := hread
  obtain ⟨c', d', hshows', hzero, ⟨stored', hs', hstored'⟩, hreaches⟩ := hi.read status hhappened
  obtain ⟨stored, hs, hstored⟩ := hs
  rw [hs, Option.some.injEq] at hs'
  subst hs'
  rw [hshows.eq hshows', hstored.eq hstored']
  exact ⟨(Counters.sound_zero n).reaches hzero, hreaches⟩

theorem Accounted.failedOnce (hi : Accounted n t h s) (hs : s.backups.find? t.key = some object)
    (hstage : stageOf? object = some .failed) :
    ∃ stored d, s.jobs.find? (jobKey t) = some stored ∧ Shows stored.status d ∧
      Reaches n .failedOnce d := by
  obtain ⟨c, ⟨status, hread, hshows⟩, hc⟩ := hi.records object .failed hs hstage
  obtain ⟨c', d, hshows', hzero, ⟨stored, hjob, hstored⟩, hreaches⟩ := hi.read status hread
  rw [hshows'.eq hshows] at hzero hreaches
  rw [((Counters.sound_zero n).reaches hzero).eq_failedOnce hc] at hreaches
  exact ⟨stored, d, hjob, hstored, hreaches⟩

theorem Accounted.succeeded (hi : Accounted n t h s) (hs : s.backups.find? t.key = some object)
    (hstage : stageOf? object = some .succeeded) (hd : Stands t s d) : d.succeeded = 1 := by
  obtain ⟨c, hread, hc⟩ := hi.records object .succeeded hs hstage
  obtain ⟨hsound, hreaches⟩ := hi.reaches_of_read hread hd
  have hsucceeded := Counters.succeeded_of_stage hc
  rw [hsound.eq_of_isDone (.inl hsucceeded) hreaches]
  exact hsucceeded

/-- What a reconcile on its own leaves at the end of a run: the stage that is seen, unless a failure
was recorded before. -/
theorem Accounted.stage_left (hi : Accounted n t h s)
    (hobject : s.backups.find? t.key = some object) (hn : Names t object)
    {stored : Api.StoredJob} (hjob : s.jobs.find? (jobKey t) = some stored)
    (hc : Shows stored.status c)
    (hsettled : ((reconcile settings t.key).run (Server.host τ) s).1 = .ok .settled) :
    ∃ object', ((reconcile settings t.key).run (Server.host τ) s).2.backups.find? t.key =
        some object' ∧
      stageOf? object' = some (if stageOf? object = some .failed then .failed else c.stage) := by
  obtain ⟨b, p, progress, object', hb, -, hprogress, hobject', hleaves⟩ :=
    leaves_of_settled hobject hn hjob hsettled
  refine ⟨object', hobject', ?_⟩
  have hsound := hi.sound hjob hc
  obtain ⟨completedAt, hseen⟩ := hc
  rw [hseen, Option.some.injEq] at hprogress
  rw [hleaves.stage hb, ← hprogress, Counters.stage_progress]
  by_cases hfailed : stageOf? object = some .failed
  · rw [if_pos hfailed, hfailed]
    rfl
  · rw [if_neg hfailed]
    by_cases hsucceeded : stageOf? object = some .succeeded
    · -- A success that is recorded is still seen.
      have hdone := hi.succeeded hobject hsucceeded ⟨stored, hjob, ⟨completedAt, hseen⟩⟩
      rw [hsucceeded, hsound.stage_of_succeeded hdone]
      rfl
    · rw [Stage.next_of_open hfailed hsucceeded]

/-- The record agrees with the outcome of a job that is not tried again. In general a failure is
only recorded of a job whose first pod had failed, and then it stays. Otherwise a reconcile on its
own leaves the success of a job that has succeeded, and a failure after the first pod has failed,
but the start of a job that has failed after retries. -/
theorem outcomes_agree_without_retries (hf : IsFresh t first)
    (hlimit : settings.jobBackoffLimit = n) :
    (∀ (h : List (Fleet.Occurrence Server)) (last : Fleet τ Server) (object : Json),
      Fleet.Run (rules settings t (Continues t)) ⟨first, []⟩ h last →
        last.state.backups.find? t.key = some object → stageOf? object = some .failed →
        ∃ stored c, last.state.jobs.find? (jobKey t) = some stored ∧ Shows stored.status c ∧
          Reaches n .failedOnce c ∧ (n = 0 → c.failed = n + 1)) ∧
    (∀ (h : List (Fleet.Occurrence Server)) (last : Fleet τ Server) (object : Json)
        (stored : Api.StoredJob) (c : Counters),
      Fleet.Run (rules settings t (Continues t)) ⟨first, []⟩ h last →
        last.state.backups.find? t.key = some object →
        last.state.jobs.find? (jobKey t) = some stored → Shows stored.status c →
        ((reconcile settings t.key).run (Server.host τ) last.state).1 = .ok .settled →
        ∃ object', ((reconcile settings t.key).run (Server.host τ) last.state).2.backups.find?
            t.key = some object' ∧
          (c = .failedOnce → stageOf? object' = some .failed) ∧
          (c.failed = n + 1 → stageOf? object' =
            some (if n = 0 ∨ stageOf? object = some .failed then .failed else .starting)) ∧
          (c.succeeded = 1 → stageOf? object' =
            some (if stageOf? object = some .failed then .failed else .succeeded)) ∧
          (c.succeeded = 1 → n = 0 → stageOf? object' = some .succeeded)) := by
  constructor
  · intro h last object hrun hobject hfailed
    obtain ⟨stored, c, hjob, hshows, hreaches⟩ :=
      (accounted_of_run hf hlimit hrun).failedOnce hobject hfailed
    refine ⟨stored, c, hjob, hshows, hreaches, fun hnone => ?_⟩
    subst hnone
    rw [Counters.eq_failedOnce_of_reaches hreaches]
    rfl
  · intro h last object stored c hrun hobject hjob hshows hsettled
    have hi := accounted_of_run hf hlimit hrun
    have hsound := hi.sound hjob hshows
    have hn : Names t object := (invariant_of_run hf hrun).names object hobject
    obtain ⟨object', hobject', hleft⟩ := hi.stage_left hobject hn hjob hshows hsettled
    refine ⟨object', hobject', ?_, ?_, ?_, ?_⟩
    · rintro rfl
      rw [hleft]
      split <;> rfl
    · intro hfailed
      rw [hleft, hsound.stage_of_failed hfailed]
      by_cases hrecorded : stageOf? object = some .failed <;> simp [hrecorded]
    · intro hsucceeded
      rw [hleft, hsound.stage_of_succeeded hsucceeded]
    · rintro hsucceeded rfl
      have hnot : stageOf? object ≠ some .failed := by
        intro hrecorded
        obtain ⟨stored', d, hjob', hshows', hreaches⟩ := hi.failedOnce hobject hrecorded
        rw [hjob, Option.some.injEq] at hjob'
        subst hjob'
        rw [hshows.eq hshows', Counters.eq_failedOnce_of_reaches hreaches] at hsucceeded
        cases hsucceeded
      rw [hleft, if_neg hnot, hsound.stage_of_succeeded hsucceeded]

/-! ## A job that is tried again -/

namespace Nightly

open ClusterBackup.Nightly (names)
open Submissions.Nightly (server)

/-- Settings under which a job is tried again once. -/
def retrying : Settings Rat := { (.usual : Settings Rat) with jobBackoffLimit := 1 }

def reconciled (s : Server) : Server :=
  ((reconcile retrying names.key).run (Server.host Rat) s).2

def reconciling (s : Server) : List (Fleet.Occurrence Server) :=
  Fleet.happenings (Server.host Rat) (reconcile retrying names.key) s

def withStatus (status : Api.JobStatus) (s : Server) : Server :=
  let body := (s.jobs.find? (jobKey names)).bind Api.StoredJob.body
  { s with jobs := s.jobs.insert (jobKey names) ⟨body, some status⟩ }

def failedOnce : Api.JobStatus := ⟨.null, .null, .int 1, .unsaid⟩

def succeededThen : Api.JobStatus := ⟨.null, .int 1, .int 1, .text "2024-01-01T01:00:00+00:00"⟩

def failedTwice : Api.JobStatus := ⟨.null, .null, .int 2, .unsaid⟩

theorem reaches_failedOnce : Reaches 1 .zero .failedOnce := by
  have hstart : Counters.Step 1 .zero ⟨1, 0, 0⟩ :=
    .start rfl (by rintro (h | h) <;> cases h)
  exact .tail (.tail .refl hstart) (.fail rfl)

theorem reaches_retried : Reaches 1 .failedOnce ⟨1, 0, 1⟩ :=
  .tail .refl (.start rfl (by rintro (h | h) <;> cases h))

theorem run_reconciled {s : Server} {h : List (Fleet.Occurrence Server)}
    {back : List (Reconciling Rat)}
    (hrun : Fleet.Run (rules retrying names (Continues names)) ⟨server .null .empty, []⟩ h
      ⟨s, back⟩) :
    ∃ back', Fleet.Run (rules retrying names (Continues names)) ⟨server .null .empty, []⟩
      (h ++ reconciling s) ⟨reconciled s, back'⟩ :=
  Origins.run_alone hrun

theorem find?_withStatus {s : Server} {stored : Api.StoredJob} {status : Api.JobStatus}
    (hjob : s.jobs.find? (jobKey names) = some stored) :
    (withStatus status s).jobs.find? (jobKey names) = some ⟨stored.body, some status⟩ := by
  rw [withStatus, Table.find?_insert, if_pos (BEq.refl _), hjob]
  rfl

theorem run_withStatus {s : Server} {h : List (Fleet.Occurrence Server)}
    {back : List (Reconciling Rat)} {stored : Api.StoredJob} {status : Api.JobStatus}
    (hrun : Fleet.Run (rules retrying names (Continues names)) ⟨server .null .empty, []⟩ h
      ⟨s, back⟩)
    (hjob : s.jobs.find? (jobKey names) = some stored) (hc : Shows stored.status c)
    (hd : Shows (some status) d) (hr : Reaches 1 c d) :
    Fleet.Run (rules retrying names (Continues names)) ⟨server .null .empty, []⟩
      (h ++ [.changed s (withStatus status s)]) ⟨withStatus status s, back⟩ := by
  have hi := invariant_of_run Destinations.Nightly.isFresh_server hrun
  refine hrun.change ⟨fun object hs => ⟨hi.names object hs, object, hs, rfl⟩, ?_, ?_⟩
  · intro old hs
    rw [hjob, Option.some.injEq] at hs
    subst hs
    refine ⟨_, find?_withStatus hjob, rfl, fun k c' hlimit hc' => ⟨d, hd, ?_⟩⟩
    have hone : stored.body.bind Job.limit? = some ((1 : Nat) : Int) :=
      limit_of_traced rfl rfl (hi.jobs stored hjob)
    rw [hlimit, Option.some.injEq, Int.ofNat_inj] at hone
    rw [hone, hc'.eq hc]
    exact hr
  · intro hs
    rw [hjob] at hs
    cases hs

theorem run_created : ∃ h back stored,
    Fleet.Run (rules retrying names (Continues names)) ⟨server .null .empty, []⟩ h
      ⟨reconciled (server .null .empty), back⟩ ∧
    (reconciled (server .null .empty)).jobs.find? (jobKey names) = some stored ∧
    Shows stored.status .zero := by
  obtain ⟨back, hrun⟩ := run_reconciled (.refl : Fleet.Run (rules retrying names
    (Continues names)) ⟨server .null .empty, []⟩ [] ⟨server .null .empty, []⟩)
  have hcreated : ((reconciled (server .null .empty)).jobs.find? (jobKey names)).map
      Api.StoredJob.status = some (some .blank) := by
    decide +kernel
  obtain ⟨stored, hjob, hblank⟩ := Option.map_eq_some_iff.1 hcreated
  refine ⟨_, back, stored, hrun, hjob, ?_⟩
  rw [hblank]
  exact Counters.shows_blank

theorem run_succeededThen : ∃ h s back object stored,
    Fleet.Run (rules retrying names (Continues names)) ⟨server .null .empty, []⟩ h ⟨s, back⟩ ∧
    s.backups.find? names.key = some object ∧ stageOf? object = some .failed ∧
    s.jobs.find? (jobKey names) = some stored ∧ Shows stored.status ⟨0, 1, 1⟩ ∧
    ((reconcile retrying names.key).run (Server.host Rat) s).1 = .ok .settled := by
  obtain ⟨h, back, created, hcreated, hjob, hzero⟩ := run_created
  have hfailed := run_withStatus hcreated hjob hzero
    (⟨.null, rfl⟩ : Shows (some failedOnce) .failedOnce) reaches_failedOnce
  obtain ⟨back', hrecorded⟩ := run_reconciled hfailed
  have hkept : ((reconciled (withStatus failedOnce (reconciled
      (server .null .empty)))).jobs.find? (jobKey names)).map Api.StoredJob.status =
        some (some failedOnce) := by
    decide +kernel
  have hstage : ((reconciled (withStatus failedOnce (reconciled
      (server .null .empty)))).backups.find? names.key).map stageOf? =
        some (some .failed) := by
    decide +kernel
  have hsettled : ((reconcile retrying names.key).run (Server.host Rat) (withStatus succeededThen
      (reconciled (withStatus failedOnce (reconciled (server .null .empty)))))).1 =
        .ok .settled :=
    eq_ok_of_toOption (by decide +kernel)
  -- The server is only known by what was read off it here.
  generalize reconciled (withStatus failedOnce (reconciled (server .null .empty))) = s
    at hrecorded hkept hstage hsettled
  obtain ⟨stored, hstored, hstatus⟩ := Option.map_eq_some_iff.1 hkept
  obtain ⟨object, hobject, hshown⟩ := Option.map_eq_some_iff.1 hstage
  have hread : Shows stored.status .failedOnce := by
    rw [hstatus]
    exact ⟨.null, rfl⟩
  have hsucceeded : Shows (some succeededThen) ⟨0, 1, 1⟩ := ⟨_, rfl⟩
  have hrun := run_withStatus hrecorded hstored hread hsucceeded
    (reaches_retried.tail (.succeed rfl))
  exact ⟨_, _, _, object, _, hrun, hobject, hshown, find?_withStatus hstored, hsucceeded,
    hsettled⟩

theorem run_failedTwice : ∃ h s back object stored,
    Fleet.Run (rules retrying names (Continues names)) ⟨server .null .empty, []⟩ h ⟨s, back⟩ ∧
    s.backups.find? names.key = some object ∧ stageOf? object = some .starting ∧
    s.jobs.find? (jobKey names) = some stored ∧ Shows stored.status ⟨0, 0, 2⟩ ∧
    ((reconcile retrying names.key).run (Server.host Rat) s).1 = .ok .settled := by
  obtain ⟨h, back, created, hcreated, hjob, hzero⟩ := run_created
  have hfailed : Shows (some failedTwice) ⟨0, 0, 2⟩ := ⟨_, rfl⟩
  have hrun := run_withStatus hcreated hjob hzero hfailed
    ((reaches_failedOnce.trans reaches_retried).tail (.fail rfl))
  have hstage : ((withStatus failedTwice (reconciled (server .null .empty))).backups.find?
      names.key).map stageOf? = some (some .starting) := by
    decide +kernel
  have hsettled : ((reconcile retrying names.key).run (Server.host Rat)
      (withStatus failedTwice (reconciled (server .null .empty)))).1 = .ok .settled :=
    eq_ok_of_toOption (by decide +kernel)
  generalize reconciled (server .null .empty) = s at hrun hjob hstage hsettled
  obtain ⟨object, hobject, hshown⟩ := Option.map_eq_some_iff.1 hstage
  exact ⟨_, _, _, object, _, hrun, hobject, hshown, find?_withStatus hjob, hfailed, hsettled⟩

end Nightly

/-- The job succeeds after its first pod has failed, and the failure stays recorded. Where its
second pod has failed as well, it is recorded as starting. -/
theorem outcomes_agree_without_retries_nightly :
    (∃ h last object stored object',
      Fleet.Run (rules Nightly.retrying Nightly.names
        (Continues Nightly.names)) ⟨Submissions.Nightly.server .null .empty, []⟩ h
        last ∧
      last.state.backups.find? Nightly.names.key = some object ∧
      last.state.jobs.find? (jobKey Nightly.names) = some stored ∧
      Shows stored.status ⟨0, 1, 1⟩ ∧ stageOf? object = some .failed ∧
      Reaches 1 .failedOnce ⟨0, 1, 1⟩ ∧
      (Nightly.reconciled last.state).backups.find? Nightly.names.key =
        some object' ∧ stageOf? object' = some .failed) ∧
    (∃ h last stored object',
      Fleet.Run (rules Nightly.retrying Nightly.names
        (Continues Nightly.names)) ⟨Submissions.Nightly.server .null .empty, []⟩ h
        last ∧
      last.state.jobs.find? (jobKey Nightly.names) = some stored ∧
      Shows stored.status ⟨0, 0, 2⟩ ∧
      (Nightly.reconciled last.state).backups.find? Nightly.names.key =
        some object' ∧ stageOf? object' = some .starting) := by
  constructor
  · obtain ⟨h, s, back, object, stored, hrun, hobject, hfailed, hjob, hshows, hsettled⟩ :=
      Nightly.run_succeededThen
    obtain ⟨stored', c, hjob', hshows', hreaches, -⟩ :=
      (outcomes_agree_without_retries Destinations.Nightly.isFresh_server rfl).1 h _ object hrun
        hobject hfailed
    rw [hjob, Option.some.injEq] at hjob'
    rw [← hjob'] at hshows'
    rw [hshows'.eq hshows] at hreaches
    obtain ⟨object', hobject', -, -, hleft, -⟩ :=
      (outcomes_agree_without_retries Destinations.Nightly.isFresh_server rfl).2 h _ object stored
        _ hrun hobject hjob hshows hsettled
    rw [if_pos hfailed] at hleft
    exact ⟨h, _, object, stored, object', hrun, hobject, hjob, hshows, hfailed, hreaches, hobject',
      hleft rfl⟩
  · obtain ⟨h, s, back, object, stored, hrun, hobject, hstarting, hjob, hshows, hsettled⟩ :=
      Nightly.run_failedTwice
    obtain ⟨object', hobject', -, hleft, -, -⟩ :=
      (outcomes_agree_without_retries Destinations.Nightly.isFresh_server rfl).2 h _ object stored
        _ hrun hobject hjob hshows hsettled
    have hleft := hleft rfl
    rw [hstarting] at hleft
    exact ⟨h, _, stored, object', hrun, hjob, hshows, hobject', hleft⟩

end ClusterBackup.Outcomes
