import ClusterBackup.Proofs.Program.Exchanges
import ClusterBackup.Proofs.Reconcile.Calls
import ClusterBackup.Proofs.Reconcile.Plan
import ClusterBackup.Proofs.Reconcile.Submission
/-!
# The course of a reconcile

Which call a reconcile makes next is decided by what it has been answered so far: `Due` lists, for
each call, the exchanges that come before it. What it ends with is decided in the same way: `Ended`
lists the exchanges for each outcome. A reconcile keeps to both whatever the answers are
(`obeys_reconcile_ended`).

On its way it comes to its plan (`Opened`), to a claim that is there (`ClaimThere`), to the point
where its job can be submitted (`Ready`), and past the submission (`Submitted`). It is stopped after
one of these (`Stopped`), or gets to the end (`Finished`).
-/

namespace ClusterBackup

open Api (Call Exchange)

/-- Whether a reconcile goes on after a call with the outcome. -/
def Api.Call.passes : (c : Call) → c.Outcome → Bool
  | .readClaim .., .error f => f.hasStatus 404
  | .createClaim .., .error f => f.hasStatus 409
  | .createJob .., .error f => f.hasStatus 409
  | _, .error _ => false
  | _, .ok _ => true

theorem Api.CallError.isDuplicate_of_creates {c : Call} {f : Api.Failure} (hc : c.creates = true) :
    isDuplicate ⟨c, f⟩ = f.hasStatus 409 := by
  rw [isDuplicate, hc, Bool.and_true]

variable {τ : Type} {settings : Settings τ} {key : ObjectKey} {b : Backup} {p : Plan}
  {es : List Exchange}

/-! ## Stages -/

/-- The backup was read and the clusters were listed, which gives a plan. -/
inductive Opened (settings : Settings τ) (key : ObjectKey) (b : Backup) (p : Plan) :
    List Exchange → Prop where
  | intro {object listing : Json} (hread : Backup.ofJson object = .ok b)
      (hplan : planFor settings b (.ok listing) = .ok p) :
      Opened settings key b p [⟨.getBackup key.ns key.name, .ok object⟩,
        ⟨.listClusters b.ns, .ok listing⟩]

inductive ClaimThere (settings : Settings τ) (key : ObjectKey) (b : Backup) (p : Plan) :
    List Exchange → Prop where
  | found {es : List Exchange} {template : List (String × Json)} {reading : Option Json}
      (h : Opened settings key b p es) (hp : p.profile = .filesystem template) :
      ClaimThere settings key b p (es ++ [⟨.readClaim b.ns (.str settings.claimName), .ok reading⟩])
  | created {es : List Exchange} {template : List (String × Json)} {f : Api.Failure}
      {claim : Claim} {outcome : Except Api.Failure Unit}
      (h : Opened settings key b p es) (hp : p.profile = .filesystem template)
      (hf : f.hasStatus 404 = true)
      (hclaim : Claim.forBackup b template settings.claimName = .ok claim)
      (ho : (Call.createClaim b.ns claim).passes outcome = true) :
      ClaimThere settings key b p (es ++ [⟨.readClaim b.ns (.str settings.claimName), .error f⟩] ++
        [⟨.createClaim b.ns claim, outcome⟩])

inductive Unbound (settings : Settings τ) (b : Backup) : Exchange → Prop where
  | phase {reading : Option Json} (h : (Volume.phaseOf reading).equals Volume.boundPhase = false) :
      Unbound settings b ⟨.readClaim b.ns (.str settings.claimName), .ok reading⟩
  | absent {f : Api.Failure} (h : f.hasStatus 404 = true) :
      Unbound settings b ⟨.readClaim b.ns (.str settings.claimName), .error f⟩

inductive Polled (settings : Settings τ) (key : ObjectKey) (b : Backup) (p : Plan) :
    Nat → List Exchange → Prop where
  | zero {es : List Exchange} (h : ClaimThere settings key b p es) : Polled settings key b p 0 es
  | succ {es : List Exchange} {k : Nat} {e : Exchange} (h : Polled settings key b p k es)
      (he : Unbound settings b e) : Polled settings key b p (k + 1) (es ++ [e])

/-- The job can be submitted: the profile wants no claim, or the claim has just been found
bound. -/
inductive Ready (settings : Settings τ) (key : ObjectKey) (b : Backup) (p : Plan) :
    List Exchange → Prop where
  | direct {es : List Exchange} (h : Opened settings key b p es)
      (hp : ∀ template, p.profile ≠ .filesystem template) : Ready settings key b p es
  | bound {es : List Exchange} {k : Nat} {reading : Option Json}
      (h : Polled settings key b p k es) (hk : k < settings.bindAttempts.toNat)
      (hr : (Volume.phaseOf reading).equals Volume.boundPhase = true) :
      Ready settings key b p (es ++ [⟨.readClaim b.ns (.str settings.claimName), .ok reading⟩])

inductive Submitted (settings : Settings τ) (key : ObjectKey) (b : Backup) (p : Plan) :
    List Exchange → Prop where
  | intro {es : List Exchange} {job : Job} {outcome : Except Api.Failure Unit}
      (h : Ready settings key b p es)
      (hjob : Job.forBackup b p.cluster p.destination settings.jobBackoffLimit = .ok job)
      (ho : (Call.createJob b.ns job).passes outcome = true) :
      Submitted settings key b p (es ++ [⟨.createJob b.ns job, outcome⟩])

def HasPlan (settings : Settings τ) (key : ObjectKey) (b : Backup) (p : Plan)
    (es : List Exchange) : Prop :=
  ∃ opening, opening <+: es ∧ Opened settings key b p opening

theorem HasPlan.mono (h : HasPlan settings key b p es) {es' : List Exchange}
    (he : es <+: es') : HasPlan settings key b p es' := by
  obtain ⟨opening, hinitial, ho⟩ := h
  exact ⟨opening, hinitial.trans he, ho⟩

theorem HasPlan.append (h : HasPlan settings key b p es) (more : List Exchange) :
    HasPlan settings key b p (es ++ more) :=
  h.mono (List.prefix_append es more)

theorem HasPlan.eq_cons (h : HasPlan settings key b p es) : ∃ object listing rest,
    es = ⟨.getBackup key.ns key.name, .ok object⟩ :: ⟨.listClusters b.ns, .ok listing⟩ :: rest ∧
      Backup.ofJson object = .ok b ∧ planFor settings b (.ok listing) = .ok p := by
  obtain ⟨opening, ⟨rest, rfl⟩, ⟨hread, hplan⟩⟩ := h
  exact ⟨_, _, rest, rfl, hread, hplan⟩

theorem Opened.hasPlan (h : Opened settings key b p es) : HasPlan settings key b p es :=
  ⟨es, List.prefix_refl es, h⟩

theorem ClaimThere.hasPlan (h : ClaimThere settings key b p es) :
    HasPlan settings key b p es := by
  cases h with
  | found h => exact h.hasPlan.append _
  | created h => exact (h.hasPlan.append _).append _

theorem Polled.hasPlan {k : Nat} (h : Polled settings key b p k es) :
    HasPlan settings key b p es := by
  induction h with
  | zero h => exact h.hasPlan
  | succ _ _ ih => exact ih.append _

theorem Ready.hasPlan (h : Ready settings key b p es) : HasPlan settings key b p es := by
  cases h with
  | direct h => exact h.hasPlan
  | bound h => exact h.hasPlan.append _

theorem Submitted.hasPlan (h : Submitted settings key b p es) : HasPlan settings key b p es := by
  cases h with
  | intro h => exact h.hasPlan.append _

/-- The exchanges after which a call is made. -/
inductive Due (settings : Settings τ) (key : ObjectKey) : List Exchange → Call → Prop where
  | getBackup : Due settings key [] (.getBackup key.ns key.name)
  | listClusters {object : Json} {b : Backup} (hread : Backup.ofJson object = .ok b) :
      Due settings key [⟨.getBackup key.ns key.name, .ok object⟩] (.listClusters b.ns)
  | lookForClaim {es : List Exchange} {b : Backup} {p : Plan} {template : List (String × Json)}
      (h : Opened settings key b p es) (hp : p.profile = .filesystem template) :
      Due settings key es (.readClaim b.ns (.str settings.claimName))
  | createClaim {es : List Exchange} {b : Backup} {p : Plan} {template : List (String × Json)}
      {f : Api.Failure} {claim : Claim} (h : Opened settings key b p es)
      (hp : p.profile = .filesystem template) (hf : f.hasStatus 404 = true)
      (hclaim : Claim.forBackup b template settings.claimName = .ok claim) :
      Due settings key (es ++ [⟨.readClaim b.ns (.str settings.claimName), .error f⟩])
        (.createClaim b.ns claim)
  | checkClaim {es : List Exchange} {b : Backup} {p : Plan} {k : Nat}
      (h : Polled settings key b p k es) (hk : k < settings.bindAttempts.toNat) :
      Due settings key es (.readClaim b.ns (.str settings.claimName))
  | createJob {es : List Exchange} {b : Backup} {p : Plan} {job : Job}
      (h : Ready settings key b p es)
      (hjob : Job.forBackup b p.cluster p.destination settings.jobBackoffLimit = .ok job) :
      Due settings key es (.createJob b.ns job)
  | readJob {es : List Exchange} {b : Backup} {p : Plan} (h : Submitted settings key b p es) :
      Due settings key es (.readJob b.ns (.str (Job.nameFor b)))
  | replaceStatus {es : List Exchange} {b : Backup} {p : Plan} {status : Option Api.JobStatus}
      {progress : Progress} (h : Submitted settings key b p es)
      (hstatus : Progress.ofStatus? status = some progress)
      (hopen : Record.isClosedTo b.record (.ofProgress progress p.destination b.profile) =
        .ok false)
      (hnew : (Record.ofProgress progress p.destination b.profile).differsFrom b.record = true) :
      Due settings key (es ++ [⟨.readJob b.ns (.str (Job.nameFor b)), .ok status⟩])
        (.replaceStatus ⟨b.ns, b.name, b.version, .ofProgress progress p.destination b.profile⟩)

/-! ## Ends -/

/-- Everything that the plan asks for was done, or was not needed: the job that was submitted is
gone again, the record stands as it is, or it was written. -/
inductive Finished (settings : Settings τ) (key : ObjectKey) (b : Backup) (p : Plan) :
    List Exchange → Prop where
  | jobGone {es : List Exchange} {f : Api.Failure} (h : Submitted settings key b p es)
      (hf : f.hasStatus 404 = true) :
      Finished settings key b p (es ++ [⟨.readJob b.ns (.str (Job.nameFor b)), .error f⟩])
  | standing {es : List Exchange} {status : Option Api.JobStatus} {progress : Progress}
      {closed : Bool} (h : Submitted settings key b p es)
      (hstatus : Progress.ofStatus? status = some progress)
      (hclosed : Record.isClosedTo b.record (.ofProgress progress p.destination b.profile) =
        .ok closed)
      (hstands : closed = true ∨
        (Record.ofProgress progress p.destination b.profile).differsFrom b.record = false) :
      Finished settings key b p (es ++ [⟨.readJob b.ns (.str (Job.nameFor b)), .ok status⟩])
  | written {es : List Exchange} {status : Option Api.JobStatus} {progress : Progress}
      (h : Submitted settings key b p es) (hstatus : Progress.ofStatus? status = some progress)
      (hopen : Record.isClosedTo b.record (.ofProgress progress p.destination b.profile) =
        .ok false)
      (hnew : (Record.ofProgress progress p.destination b.profile).differsFrom b.record = true) :
      Finished settings key b p (es ++ [⟨.readJob b.ns (.str (Job.nameFor b)), .ok status⟩] ++
        [⟨.replaceStatus ⟨b.ns, b.name, b.version, .ofProgress progress p.destination b.profile⟩,
          .ok ()⟩])

/-- What stops a reconcile that follows its plan, and after which exchanges. -/
inductive Stopped (settings : Settings τ) (key : ObjectKey) (b : Backup) (p : Plan) :
    List Exchange → Stop → Prop where
  | claimNotOwned {es : List Exchange} {template : List (String × Json)} {e : OwnershipError}
      (h : Opened settings key b p es) (hp : p.profile = .filesystem template)
      (he : Claim.forBackup b template settings.claimName = .error e) :
      Stopped settings key b p es (.obstacle (.ownership e))
  | claimUnreadable {es : List Exchange} {template : List (String × Json)} {f : Api.Failure}
      (h : Opened settings key b p es) (hp : p.profile = .filesystem template)
      (hf : f.hasStatus 404 = false) :
      Stopped settings key b p (es ++ [⟨.readClaim b.ns (.str settings.claimName), .error f⟩])
        (.obstacle (.claimUnreadable ⟨.readClaim b.ns (.str settings.claimName), f⟩))
  | claimNotCreated {es : List Exchange} {template : List (String × Json)} {f f' : Api.Failure}
      {claim : Claim} (h : Opened settings key b p es) (hp : p.profile = .filesystem template)
      (hf : f.hasStatus 404 = true)
      (hclaim : Claim.forBackup b template settings.claimName = .ok claim)
      (hf' : f'.hasStatus 409 = false) :
      Stopped settings key b p (es ++ [⟨.readClaim b.ns (.str settings.claimName), .error f⟩] ++
        [⟨.createClaim b.ns claim, .error f'⟩])
        (.obstacle (.claimNotCreated ⟨.createClaim b.ns claim, f'⟩))
  | noAttempts {es : List Exchange} (h : ClaimThere settings key b p es)
      (hn : settings.bindAttempts ≤ 0) : Stopped settings key b p es (.fault .noAttempts)
  | phaseUnreadable {es : List Exchange} {k : Nat} {f : Api.Failure}
      (h : Polled settings key b p k es) (hk : k < settings.bindAttempts.toNat)
      (hf : f.hasStatus 404 = false) :
      Stopped settings key b p (es ++ [⟨.readClaim b.ns (.str settings.claimName), .error f⟩])
        (.obstacle (.phaseUnreadable ⟨.readClaim b.ns (.str settings.claimName), f⟩))
  | notBound {es : List Exchange} (phase : Json)
      (h : Polled settings key b p settings.bindAttempts.toNat es) :
      Stopped settings key b p es
        (.obstacle (.claimNotBound settings.claimName phase settings.bindAttempts))
  | noJob {es : List Exchange} {e : JobError} (h : Ready settings key b p es)
      (he : Job.forBackup b p.cluster p.destination settings.jobBackoffLimit = .error e) :
      Stopped settings key b p es (.ofJobError e)
  | jobNotCreated {es : List Exchange} {job : Job} {f : Api.Failure} (h : Ready settings key b p es)
      (hjob : Job.forBackup b p.cluster p.destination settings.jobBackoffLimit = .ok job)
      (hf : f.hasStatus 409 = false) :
      Stopped settings key b p (es ++ [⟨.createJob b.ns job, .error f⟩])
        (.obstacle (.jobNotCreated ⟨.createJob b.ns job, f⟩))
  | jobUnreadable {es : List Exchange} {f : Api.Failure} (h : Submitted settings key b p es)
      (hf : f.hasStatus 404 = false) :
      Stopped settings key b p (es ++ [⟨.readJob b.ns (.str (Job.nameFor b)), .error f⟩])
        (.obstacle (.jobUnreadable ⟨.readJob b.ns (.str (Job.nameFor b)), f⟩))
  | beyondCalendar {es : List Exchange} {status : Option Api.JobStatus}
      (h : Submitted settings key b p es) (hstatus : Progress.ofStatus? status = none) :
      Stopped settings key b p (es ++ [⟨.readJob b.ns (.str (Job.nameFor b)), .ok status⟩])
        (.fault .beyondCalendar)
  | undecided {es : List Exchange} {status : Option Api.JobStatus} {progress : Progress}
      {e : Malformed} (h : Submitted settings key b p es)
      (hstatus : Progress.ofStatus? status = some progress)
      (he : Record.isClosedTo b.record (.ofProgress progress p.destination b.profile) =
        .error e) :
      Stopped settings key b p (es ++ [⟨.readJob b.ns (.str (Job.nameFor b)), .ok status⟩])
        (.fault (.malformed e))
  | notWritten {es : List Exchange} {status : Option Api.JobStatus} {progress : Progress}
      {f : Api.Failure} (h : Submitted settings key b p es)
      (hstatus : Progress.ofStatus? status = some progress)
      (hopen : Record.isClosedTo b.record (.ofProgress progress p.destination b.profile) =
        .ok false)
      (hnew : (Record.ofProgress progress p.destination b.profile).differsFrom b.record = true) :
      Stopped settings key b p (es ++ [⟨.readJob b.ns (.str (Job.nameFor b)), .ok status⟩] ++
        [⟨.replaceStatus ⟨b.ns, b.name, b.version, .ofProgress progress p.destination b.profile⟩,
          .error f⟩])
        (.obstacle (.recordNotWritten ⟨.replaceStatus ⟨b.ns, b.name, b.version,
          .ofProgress progress p.destination b.profile⟩, f⟩))

theorem Finished.hasPlan (h : Finished settings key b p es) : HasPlan settings key b p es := by
  cases h with
  | jobGone h => exact h.hasPlan.append _
  | standing h => exact h.hasPlan.append _
  | written h => exact (h.hasPlan.append _).append _

theorem Stopped.hasPlan {stop : Stop} (h : Stopped settings key b p es stop) :
    HasPlan settings key b p es := by
  cases h with
  | claimNotOwned h => exact h.hasPlan
  | claimUnreadable h => exact h.hasPlan.append _
  | claimNotCreated h => exact (h.hasPlan.append _).append _
  | noAttempts h => exact h.hasPlan
  | phaseUnreadable h => exact h.hasPlan.append _
  | notBound _ h => exact h.hasPlan
  | noJob h => exact h.hasPlan
  | jobNotCreated h => exact h.hasPlan.append _
  | jobUnreadable h => exact h.hasPlan.append _
  | beyondCalendar h => exact h.hasPlan.append _
  | undecided h => exact h.hasPlan.append _
  | notWritten h => exact (h.hasPlan.append _).append _

/-- The exchanges after which a reconcile ends, and what it ends with. -/
inductive Ended (settings : Settings τ) (key : ObjectKey) :
    List Exchange → Except Fault Outcome → Prop where
  | gone {f : Api.Failure} (hf : f.hasStatus 404 = true) :
      Ended settings key [⟨.getBackup key.ns key.name, .error f⟩] (.ok .gone)
  | unreadable {f : Api.Failure} (hf : f.hasStatus 404 = false) :
      Ended settings key [⟨.getBackup key.ns key.name, .error f⟩]
        (.ok (.failed (.backupUnreadable ⟨.getBackup key.ns key.name, f⟩)))
  | noBackup {object : Json} {e : BackupError} (he : Backup.ofJson object = .error e) :
      Ended settings key [⟨.getBackup key.ns key.name, .ok object⟩] (.error (.ofBackupError e))
  | noPlan {object : Json} {b : Backup} {outcome : Except Api.Failure Json} {stop : Stop}
      (hread : Backup.ofJson object = .ok b) (hplan : planFor settings b outcome = .error stop) :
      Ended settings key [⟨.getBackup key.ns key.name, .ok object⟩, ⟨.listClusters b.ns, outcome⟩]
        (Outcome.ofResult (.error stop))
  | stopped {es : List Exchange} {b : Backup} {p : Plan} {stop : Stop}
      (h : Stopped settings key b p es stop) :
      Ended settings key es (Outcome.ofResult (.error stop))
  | settled {es : List Exchange} {b : Backup} {p : Plan} (h : Finished settings key b p es) :
      Ended settings key es (.ok .settled)

/-! ## Steps -/

theorem Volume.obeys_ensureClaim {template : List (String × Json)} {claim : Claim}
    (h : Opened settings key b p es) (hp : p.profile = .filesystem template)
    (hclaim : Claim.forBackup b template settings.claimName = .ok claim) :
    Task.Obeys (Due settings key) (Stopped settings key b p)
      (fun es _ => ClaimThere settings key b p es)
      (ensureClaim b.ns settings.claimName claim : Task τ Unit) es := by
  refine Task.Obeys.ask_bind (.lookForClaim h hp) fun outcome => ?_
  cases outcome with
  | ok reading => exact .pure (.found h hp)
  | error f =>
    dsimp only [Except.mapError]
    split
    · rename_i hunread
      have hf : f.hasStatus 404 = false := by simpa [Api.CallError.isNotFound] using hunread
      exact .fail (.claimUnreadable h hp hf)
    · rename_i hfound
      have hf : f.hasStatus 404 = true := by simpa [Api.CallError.isNotFound] using hfound
      refine Task.Obeys.ask_bind (.createClaim h hp hf hclaim) fun outcome => ?_
      cases outcome with
      | ok => exact .pure (.created h hp hf hclaim rfl)
      | error f' =>
        dsimp only [Except.mapError]
        rw [Api.CallError.isDuplicate_of_creates rfl]
        split
        · rename_i hf'
          exact .pure (.created h hp hf hclaim hf')
        · rename_i hf'
          exact .fail (.claimNotCreated h hp hf hclaim (Bool.not_eq_true _ ▸ hf'))

theorem Volume.obeys_checkBound {k : Nat} (s : Json) (h : Polled settings key b p k es)
    (hk : k < settings.bindAttempts.toNat) :
    Task.Obeys (Due settings key) (Stopped settings key b p)
      (fun es r => if r.1 = true then Ready settings key b p es
        else Polled settings key b p (k + 1) es)
      ((checkBound b.ns settings.claimName : StateT Json (Task τ) Bool).run s) es := by
  -- An absent claim counts as one whose phase is not known, which is not the bound one.
  have hphase : Task.Obeys (Due settings key) (Stopped settings key b p)
      (fun es phase => if phase.equals boundPhase = true then Ready settings key b p es
        else Polled settings key b p (k + 1) es)
      (currentPhase b.ns settings.claimName : Task τ Json) es := by
    refine Task.Obeys.ask_bind (.checkClaim h hk) fun outcome => ?_
    cases outcome with
    | ok reading =>
      refine .pure ?_
      split
      · rename_i hbound
        exact .bound h hk hbound
      · rename_i hunbound
        exact .succ h (.phase (Bool.not_eq_true _ ▸ hunbound))
    | error f =>
      dsimp only [Except.mapError]
      split
      · rename_i hfound
        refine .pure ?_
        rw [if_neg (by simp [undefinedPhase, boundPhase])]
        exact .succ h (.absent hfound)
      · rename_i hunread
        exact .fail (.phaseUnreadable h hk (Bool.not_eq_true _ ▸ hunread))
  have hchecked : (checkBound b.ns settings.claimName : StateT Json (Task τ) Bool).run s =
      currentPhase b.ns settings.claimName >>= fun phase =>
        pure (phase.equals boundPhase, phase) := by
    simp [checkBound]
  rw [hchecked]
  exact hphase.bind fun es phase hcase => .pure hcase

theorem Volume.obeys_awaitBound (delay : Nat → τ) (h : ClaimThere settings key b p es) :
    Task.Obeys (Due settings key) (Stopped settings key b p)
      (fun es _ => Ready settings key b p es)
      (awaitBound settings.bindAttempts delay b.ns settings.claimName) es := by
  unfold awaitBound Polling.poll?
  dsimp only
  split
  · rename_i hpoll
    split at hpoll
    · rename_i hn
      exact .throw (.noAttempts h hn)
    · cases hpoll
  · rename_i polling hpoll
    split at hpoll
    · cases hpoll
    · cases hpoll
      have hpause : ∀ n (s : Json) es, Task.Obeys (Due settings key) (Stopped settings key b p)
          (fun es' _ => es' = es)
          ((liftM (Task.sleep (delay n)) : StateT Json (Task τ) Unit).run s) es :=
        fun n s es => rfl
      refine Task.Obeys.bind (Polling.obeys_pollFrom (Polled settings key b p)
        (fun k n s es hk hpolled => obeys_checkBound s hpolled hk) hpause undefinedPhase
        (Nat.zero_add _) (.zero h)) fun es result hresult => ?_
      obtain ⟨bound, phase⟩ := result
      cases bound with
      | true => exact .pure hresult
      | false => exact .fail (.notBound phase hresult)

theorem obeys_submit {job : Job} (h : Ready settings key b p es)
    (hjob : Job.forBackup b p.cluster p.destination settings.jobBackoffLimit = .ok job) :
    Task.Obeys (Due settings key) (Stopped settings key b p)
      (fun es _ => Submitted settings key b p es) (submit job : Task τ Bool) es := by
  unfold submit
  rw [(Job.metadata_of_forBackup hjob).1]
  refine Task.Obeys.ask_bind (.createJob h hjob) fun outcome => ?_
  cases outcome with
  | ok => exact .pure (.intro h hjob rfl)
  | error f =>
    dsimp only [Except.mapError]
    rw [Api.CallError.isDuplicate_of_creates rfl]
    split
    · rename_i hf
      exact .pure (.intro h hjob hf)
    · rename_i hf
      exact .fail (.jobNotCreated h hjob (Bool.not_eq_true _ ▸ hf))

theorem obeys_recordProgress (h : Submitted settings key b p es) :
    Task.Obeys (Due settings key) (Stopped settings key b p)
      (fun es _ => Finished settings key b p es)
      (recordProgress b (Job.nameFor b) p.destination : Task τ _) es := by
  refine Task.Obeys.ask_bind (.readJob h) fun outcome => ?_
  cases outcome with
  | error f =>
    dsimp only [Except.mapError]
    split
    · rename_i hf
      exact .pure (.jobGone h hf)
    · rename_i hf
      exact .fail (.jobUnreadable h (Bool.not_eq_true _ ▸ hf))
  | ok status =>
    dsimp only [Except.mapError]
    split
    · rename_i hstatus
      exact .throw (.beyondCalendar h hstatus)
    · rename_i progress hstatus
      refine Task.Obeys.require_bind (fun e he => .undecided h hstatus he) fun closed hclosed => ?_
      split
      · rename_i hstands
        exact .pure (.standing h hstatus hclosed (.inl hstands))
      · rename_i hopen
        rw [Bool.not_eq_true] at hopen
        subst hopen
        split
        · rename_i hnew
          refine Task.Obeys.bind (R := fun es _ => Finished settings key b p es) ?_
            fun _ _ hfinished => .pure hfinished
          refine Task.Obeys.ask_bind (.replaceStatus h hstatus hclosed hnew) fun outcome => ?_
          cases outcome with
          | ok => exact .pure (.written h hstatus hclosed hnew)
          | error f => exact .fail (.notWritten h hstatus hclosed hnew)
        · rename_i hsame
          exact .pure (.standing h hstatus hclosed (.inr (Bool.not_eq_true _ ▸ hsame)))

/-! ## The whole -/

variable [NatCast τ]

theorem obeys_provideFor (h : Opened settings key b p es) :
    Task.Obeys (Due settings key) (Stopped settings key b p)
      (fun es _ => Ready settings key b p es) (provideFor settings b p.profile) es := by
  unfold provideFor
  split
  · rename_i template hp
    refine Task.Obeys.require_bind (fun e he => .claimNotOwned h hp he) fun claim hclaim => ?_
    exact (Volume.obeys_ensureClaim h hp hclaim).bind fun es _ hthere =>
      Volume.obeys_awaitBound _ hthere
  · rename_i hp
    exact .pure (.direct h hp)

theorem obeys_prepare (h : Opened settings key b p es) :
    Task.Obeys (Due settings key) (Stopped settings key b p)
      (fun es _ => Submitted settings key b p es) (prepare settings b p) es := by
  refine (obeys_provideFor h).bind fun es _ hready => ?_
  refine Task.Obeys.require_bind (fun e he => .noJob hready he) fun job hjob => ?_
  refine (obeys_submit hready ?_).discard fun _ _ hsubmitted => hsubmitted
  exact hjob

theorem obeys_followPlan (h : Opened settings key b p es) :
    Task.Obeys (Due settings key) (Stopped settings key b p)
      (fun es _ => Finished settings key b p es) (followPlan settings b p) es :=
  (obeys_prepare h).bind fun _ _ hsubmitted =>
    (obeys_recordProgress hsubmitted).discard fun _ _ hfinished => hfinished

/-- A reconcile makes each call when it is due, and ends as its exchanges say, whatever the answers
are. -/
theorem obeys_reconcile_ended (settings : Settings τ) (key : ObjectKey) :
    (reconcile settings key).Obeys (Due settings key) (Ended settings key) [] := by
  rw [reconcile_eq]
  refine ⟨.getBackup, fun outcome => ?_⟩
  cases outcome with
  | error f =>
    unfold afterRead
    dsimp only
    cases hf : f.hasStatus 404 with
    | true =>
      rw [show Api.CallError.isNotFound ⟨.getBackup key.ns key.name, f⟩ = true from hf]
      exact .gone hf
    | false =>
      rw [show Api.CallError.isNotFound ⟨.getBackup key.ns key.name, f⟩ = false from hf]
      exact .unreadable hf
  | ok object =>
    unfold afterRead
    dsimp only
    split
    · rename_i e he
      exact .noBackup he
    · rename_i b hb
      rw [run_carryOut]
      refine ⟨.listClusters hb, fun outcome => ?_⟩
      have hfollow : Api.Program.Obeys (Due settings key)
          (fun es result => Ended settings key es (Outcome.ofResult result))
          (Task.require id (planFor settings b outcome) >>= followPlan settings b : Task τ Unit).run
          [⟨.getBackup key.ns key.name, .ok object⟩, ⟨.listClusters b.ns, outcome⟩] := by
        cases hplan : planFor settings b outcome with
        | error stop => exact .noPlan hb hplan
        | ok p =>
          cases outcome with
          | error f => cases hplan
          | ok listing =>
            refine Api.Program.Obeys.mono (obeys_followPlan (.intro hb hplan)) ?_
            rintro es (stop | ⟨⟩) hend
            · exact .stopped hend
            · exact .settled hend
      exact hfollow.bind fun _ _ hend => hend

/-- A reconcile makes each call when it is due, whatever the answers are. -/
theorem obeys_reconcile (settings : Settings τ) (key : ObjectKey) :
    (reconcile settings key).Obeys (Due settings key) (fun _ _ => True) [] :=
  (obeys_reconcile_ended settings key).mono fun _ _ _ => trivial

end ClusterBackup
