import ClusterBackup.Proofs.Fleet.Basic
import ClusterBackup.Proofs.Reconcile.Course
import Mathlib.Data.List.Chain
/-!
# The order of the calls

The calls of a reconcile go through one course (`course`), as far as they get, and each of them is
made because the one before it went well enough (`Allows`). This holds whatever the API answers
(`calls_in_order`).
-/

namespace ClusterBackup

open Api (Call Exchange)

/-! ## Calls -/

namespace Api.Call

def ns : Call → Json
  | getBackup ns _ => ns
  | listClusters ns => ns
  | readClaim ns _ => ns
  | createClaim ns _ => ns
  | readJob ns _ => ns
  | createJob ns _ => ns
  | replaceStatus update => update.ns

def claimName? : Call → Option Json
  | readClaim _ name => some name
  | createClaim _ body => some (bodyName body)
  | _ => none

def jobName? : Call → Option Json
  | readJob _ name => some name
  | createJob _ body => some (bodyName body)
  | _ => none

def isClaimCreation : Call → Bool
  | createClaim .. => true
  | _ => false

end Api.Call

/-! ## The course -/

/-- The calls for a claim: it is looked for, created if it has to be, and then checked, once at
least and not more often than the limit. -/
inductive ClaimCalls (ns : Json) (name : String) (limit : Int) : List Call → Prop where
  | found {k : Nat} (h1 : 1 ≤ k) (hk : (k : Int) ≤ limit) :
      ClaimCalls ns name limit
        (.readClaim ns (.str name) :: List.replicate k (.readClaim ns (.str name)))
  | created {k : Nat} {claim : Claim} (hname : Api.bodyName claim = .str name) (h1 : 1 ≤ k)
      (hk : (k : Int) ≤ limit) :
      ClaimCalls ns name limit (.readClaim ns (.str name) :: .createClaim ns claim ::
        List.replicate k (.readClaim ns (.str name)))

/-- A profile wants calls for its claim exactly if it is a filesystem. -/
def ForProfile (ns : Json) (name : String) (limit : Int) (calls : List Call) : Profile → Prop
  | .filesystem _ => ClaimCalls ns name limit calls
  | _ => calls = []

def course (key : ObjectKey) (b : Backup) (forClaim : List Call) (job : Job)
    (update : Api.StatusUpdate) : List Call :=
  [.getBackup key.ns key.name, .listClusters b.ns] ++ forClaim ++
    [.createJob b.ns job, .readJob b.ns (.str (Job.nameFor b)), .replaceStatus update]

variable {τ σ : Type} {settings : Settings τ} {key : ObjectKey} {b : Backup} {profile : Profile}
  {p : Plan} {es : List Exchange} {c : Call}

/-- What a call has to be answered for another one to follow it. -/
inductive Allows (settings : Settings τ) (b : Backup) (profile : Profile) :
    Exchange → Call → Prop where
  | read {ns name object : Json} (h : Backup.ofJson object = .ok b) :
      Allows settings b profile ⟨.getBackup ns name, .ok object⟩ (.listClusters b.ns)
  | lookForClaim {listing : Json} {p : Plan} (h : planFor settings b (.ok listing) = .ok p)
      (hp : p.profile = profile) (hfs : ∃ template, profile = .filesystem template) :
      Allows settings b profile ⟨.listClusters b.ns, .ok listing⟩
        (.readClaim b.ns (.str settings.claimName))
  | createClaim {f : Api.Failure} {claim : Claim} (h : f.hasStatus 404 = true) :
      Allows settings b profile ⟨.readClaim b.ns (.str settings.claimName), .error f⟩
        (.createClaim b.ns claim)
  | checkCreated {claim : Claim} {outcome : Except Api.Failure Unit}
      (h : outcome = .ok () ∨ ∃ f, outcome = .error f ∧ f.hasStatus 409 = true) :
      Allows settings b profile ⟨.createClaim b.ns claim, outcome⟩
        (.readClaim b.ns (.str settings.claimName))
  | check {outcome : Except Api.Failure (Option Json)}
      (h : (∃ reading, outcome = .ok reading) ∨ ∃ f, outcome = .error f ∧ f.hasStatus 404 = true) :
      Allows settings b profile ⟨.readClaim b.ns (.str settings.claimName), outcome⟩
        (.readClaim b.ns (.str settings.claimName))
  | submitAtOnce {listing : Json} {p : Plan} {job : Job}
      (h : planFor settings b (.ok listing) = .ok p) (hp : p.profile = profile)
      (hfs : ∀ template, profile ≠ .filesystem template) :
      Allows settings b profile ⟨.listClusters b.ns, .ok listing⟩ (.createJob b.ns job)
  | submitBound {reading : Option Json} {job : Job}
      (hfs : ∃ template, profile = .filesystem template)
      (h : (Volume.phaseOf reading).equals Volume.boundPhase = true) :
      Allows settings b profile ⟨.readClaim b.ns (.str settings.claimName), .ok reading⟩
        (.createJob b.ns job)
  | readJob {job : Job} {outcome : Except Api.Failure Unit}
      (h : outcome = .ok () ∨ ∃ f, outcome = .error f ∧ f.hasStatus 409 = true) :
      Allows settings b profile ⟨.createJob b.ns job, outcome⟩
        (.readJob b.ns (.str (Job.nameFor b)))
  | replaceStatus {status : Option Api.JobStatus} {update : Api.StatusUpdate} :
      Allows settings b profile ⟨.readJob b.ns (.str (Job.nameFor b)), .ok status⟩
        (.replaceStatus update)

/-- The calls of a reconcile of a backup whose profile was selected are in order. -/
structure InOrder (settings : Settings τ) (key : ObjectKey) (b : Backup) (profile : Profile)
    (es : List Exchange) : Prop where
  course : ∃ forClaim job update,
    ForProfile b.ns settings.claimName settings.bindAttempts forClaim profile ∧
      es.map Exchange.call <+: course key b forClaim job update
  allowed : es.IsChain fun e e' => Allows settings b profile e e'.call
  oneClaim : (es.map Exchange.call).countP Call.isClaimCreation ≤ 1
  oneJob : (es.map Exchange.call).countP Call.isSubmission ≤ 1
  oneRecord : (es.map Exchange.call).countP Call.isWrite ≤ 1
  ns : ∀ e ∈ es.tail, e.call.ns = b.ns
  claimName : ∀ e ∈ es, ∀ name, e.call.claimName? = some name → name = .str settings.claimName
  jobName : ∀ e ∈ es, ∀ name, e.call.jobName? = some name → name = .str (Job.nameFor b)

/-! ## Along the course -/

theorem Opened.calls (h : Opened settings key b p es) :
    es.map Exchange.call = [.getBackup key.ns key.name, .listClusters b.ns] := by
  cases h
  rfl

theorem ClaimThere.filesystem (h : ClaimThere settings key b p es) :
    ∃ template, p.profile = .filesystem template := by
  cases h with
  | found h hp => exact ⟨_, hp⟩
  | created h hp => exact ⟨_, hp⟩

theorem Polled.filesystem {k : Nat} (h : Polled settings key b p k es) :
    ∃ template, p.profile = .filesystem template := by
  induction h with
  | zero h => exact h.filesystem
  | succ _ _ ih => exact ih

def Looked (ns : Json) (name : String) (limit : Int) (look : List Call) : Prop :=
  ∀ k : Nat, 1 ≤ k → (k : Int) ≤ limit →
    ClaimCalls ns name limit (look ++ List.replicate k (.readClaim ns (.str name)))

theorem ClaimThere.calls (h : ClaimThere settings key b p es) :
    ∃ look, Looked b.ns settings.claimName settings.bindAttempts look ∧
      es.map Exchange.call = [.getBackup key.ns key.name, .listClusters b.ns] ++ look := by
  cases h with
  | found h =>
    refine ⟨[.readClaim b.ns (.str settings.claimName)], fun k h1 hk => .found h1 hk, ?_⟩
    rw [List.map_append, h.calls]
    rfl
  | @created _ _ _ claim _ h _ _ hclaim =>
    refine ⟨[.readClaim b.ns (.str settings.claimName), .createClaim b.ns claim],
      fun k h1 hk => .created (Claim.bodyName_of_forBackup hclaim) h1 hk, ?_⟩
    rw [List.map_append, List.map_append, h.calls]
    rfl

theorem Unbound.call_eq {e : Exchange} (h : Unbound settings b e) :
    e.call = .readClaim b.ns (.str settings.claimName) := by
  cases h <;> rfl

theorem Polled.calls {k : Nat} (h : Polled settings key b p k es) :
    ∃ look, Looked b.ns settings.claimName settings.bindAttempts look ∧
      es.map Exchange.call = [.getBackup key.ns key.name, .listClusters b.ns] ++
        (look ++ List.replicate k (.readClaim b.ns (.str settings.claimName))) := by
  induction h with
  | zero h =>
    obtain ⟨look, hlook, hcalls⟩ := h.calls
    exact ⟨look, hlook, by rw [hcalls]; simp⟩
  | succ h he ih =>
    obtain ⟨look, hlook, hcalls⟩ := ih
    refine ⟨look, hlook, ?_⟩
    rw [List.map_append, hcalls, List.replicate_succ']
    simp [he.call_eq]

theorem Ready.calls (h : Ready settings key b p es) :
    ∃ forClaim, ForProfile b.ns settings.claimName settings.bindAttempts forClaim p.profile ∧
      es.map Exchange.call = [.getBackup key.ns key.name, .listClusters b.ns] ++ forClaim := by
  cases h with
  | direct h hp =>
    refine ⟨[], ?_, h.calls⟩
    cases hprofile : p.profile with
    | filesystem template => exact absurd hprofile (hp template)
    | bucket => rfl
    | unknown => rfl
  | @bound es k reading h hk hr =>
    obtain ⟨template, hp⟩ := h.filesystem
    obtain ⟨look, hlook, hcalls⟩ := h.calls
    refine ⟨look ++ List.replicate (k + 1) (.readClaim b.ns (.str settings.claimName)), ?_, ?_⟩
    · rw [hp]
      exact hlook (k + 1) (by omega) (by omega)
    · rw [List.map_append, hcalls, List.replicate_succ']
      simp

theorem Submitted.calls (h : Submitted settings key b p es) :
    ∃ forClaim job, ForProfile b.ns settings.claimName settings.bindAttempts forClaim p.profile ∧
      Api.bodyName job = .str (Job.nameFor b) ∧ es.map Exchange.call =
        [.getBackup key.ns key.name, .listClusters b.ns] ++ forClaim ++ [.createJob b.ns job] := by
  cases h with
  | @intro es job outcome h hjob =>
    obtain ⟨forClaim, hclaim, hcalls⟩ := h.calls
    refine ⟨forClaim, job, hclaim, (Job.metadata_of_forBackup hjob).2, ?_⟩
    rw [List.map_append, hcalls]
    rfl

/-- Some calls are the beginning of a course, and the job and the record in it are those of the
backup. -/
def Begins (settings : Settings τ) (key : ObjectKey) (b : Backup) (profile : Profile)
    (calls : List Call) : Prop :=
  ∃ forClaim job update,
    ForProfile b.ns settings.claimName settings.bindAttempts forClaim profile ∧
      Api.bodyName job = .str (Job.nameFor b) ∧ update.ns = b.ns ∧
      calls <+: course key b forClaim job update

def blankUpdate (b : Backup) : Api.StatusUpdate :=
  ⟨b.ns, b.name, b.version, ⟨.null, .null, .null, none, .null⟩⟩

/-- What is to be submitted and recorded does not matter to calls that come before that. -/
theorem Begins.of_start {forClaim calls : List Call}
    (hclaim : ForProfile b.ns settings.claimName settings.bindAttempts forClaim profile)
    (h : calls <+: [.getBackup key.ns key.name, .listClusters b.ns] ++ forClaim) :
    Begins settings key b profile calls := by
  refine ⟨forClaim, ⟨some ⟨.str (Job.nameFor b), b.ns, [], none⟩, none⟩, blankUpdate b, hclaim,
    rfl, rfl, ?_⟩
  exact h.trans (List.prefix_append _ _)

theorem Begins.of_claim {forClaim calls : List Call}
    (hp : ∃ template, p.profile = .filesystem template)
    (hclaim : ClaimCalls b.ns settings.claimName settings.bindAttempts forClaim)
    (h : calls <+: [.getBackup key.ns key.name, .listClusters b.ns] ++ forClaim) :
    Begins settings key b p.profile calls := by
  obtain ⟨template, hp⟩ := hp
  rw [hp]
  exact Begins.of_start hclaim h

theorem isChain_concat {R : Exchange → Exchange → Prop} {e e' : Exchange}
    (h : (es ++ [e]).IsChain R) (he : R e e') : (es ++ [e] ++ [e']).IsChain R := by
  rw [List.append_assoc]
  exact List.isChain_append_cons_cons.2 ⟨h, he, .singleton _⟩

abbrev Chained (settings : Settings τ) (b : Backup) (profile : Profile) (es : List Exchange) :
    Prop := es.IsChain fun e e' => Allows settings b profile e e'.call

theorem passes_create_iff {claim : Claim} {outcome : Except Api.Failure Unit} :
    (Call.createClaim b.ns claim).passes outcome = true ↔
      outcome = .ok () ∨ ∃ f, outcome = .error f ∧ f.hasStatus 409 = true := by
  cases outcome <;> simp [Call.passes]

theorem passes_submit_iff {job : Job} {outcome : Except Api.Failure Unit} :
    (Call.createJob b.ns job).passes outcome = true ↔
      outcome = .ok () ∨ ∃ f, outcome = .error f ∧ f.hasStatus 409 = true := by
  cases outcome <;> simp [Call.passes]

theorem Opened.chained (h : Opened settings key b p es) (outcome : c.Outcome)
    (hc : ∀ listing, planFor settings b (.ok listing) = .ok p →
      Allows settings b p.profile ⟨.listClusters b.ns, .ok listing⟩ c) :
    Chained settings b p.profile (es ++ [⟨c, outcome⟩]) := by
  cases h with
  | @intro object listing hread hplan =>
    have hopened : Chained settings b p.profile ([⟨.getBackup key.ns key.name, .ok object⟩] ++
        [⟨.listClusters b.ns, .ok listing⟩]) := List.isChain_pair.2 (.read hread)
    exact isChain_concat hopened (hc _ hplan)

theorem ClaimThere.chained (h : ClaimThere settings key b p es)
    (outcome : Except Api.Failure (Option Json)) :
    Chained settings b p.profile
      (es ++ [⟨.readClaim b.ns (.str settings.claimName), outcome⟩]) := by
  have hfs := h.filesystem
  cases h with
  | @found es _ reading h =>
    have hlook : Chained settings b p.profile
        (es ++ [⟨.readClaim b.ns (.str settings.claimName), .ok reading⟩]) :=
      h.chained _ fun _ hplan => .lookForClaim hplan rfl hfs
    exact isChain_concat hlook (.check (.inl ⟨reading, rfl⟩))
  | @created es _ f claim made h _ hf _ ho =>
    have hlook : Chained settings b p.profile
        (es ++ [⟨.readClaim b.ns (.str settings.claimName), .error f⟩]) :=
      h.chained _ fun _ hplan => .lookForClaim hplan rfl hfs
    have hmade : Chained settings b p.profile
        (es ++ [⟨.readClaim b.ns (.str settings.claimName), .error f⟩] ++
          [⟨.createClaim b.ns claim, made⟩]) := isChain_concat hlook (.createClaim hf)
    exact isChain_concat hmade (.checkCreated (passes_create_iff.1 ho))

theorem Polled.chained {k : Nat} (h : Polled settings key b p k es)
    (outcome : Except Api.Failure (Option Json)) :
    Chained settings b p.profile
      (es ++ [⟨.readClaim b.ns (.str settings.claimName), outcome⟩]) := by
  induction h generalizing outcome with
  | zero h => exact h.chained outcome
  | succ h he ih =>
    cases he with
    | @phase reading => exact isChain_concat (ih (.ok reading)) (.check (.inl ⟨reading, rfl⟩))
    | @absent f hf => exact isChain_concat (ih (.error f)) (.check (.inr ⟨f, rfl, hf⟩))

theorem Ready.chained (h : Ready settings key b p es) (job : Job)
    (outcome : Except Api.Failure Unit) :
    Chained settings b p.profile (es ++ [⟨.createJob b.ns job, outcome⟩]) := by
  cases h with
  | direct h hp => exact h.chained _ fun _ hplan => .submitAtOnce hplan rfl hp
  | @bound es k reading h hk hr =>
    exact isChain_concat (h.chained (.ok reading)) (.submitBound h.filesystem hr)

theorem Submitted.chained (h : Submitted settings key b p es)
    (outcome : Except Api.Failure (Option Api.JobStatus)) :
    Chained settings b p.profile
      (es ++ [⟨.readJob b.ns (.str (Job.nameFor b)), outcome⟩]) := by
  cases h with
  | @intro es job made h hjob ho =>
    exact isChain_concat (h.chained job made) (.readJob (passes_submit_iff.1 ho))

/-- The call that is due, with those before it, begins a course, and each of them was allowed. -/
theorem Due.onCourse (hn : 0 < settings.bindAttempts) (h : Due settings key es c)
    (outcome : c.Outcome) :
    (∃ read, es ++ [Exchange.mk c outcome] = [⟨.getBackup key.ns key.name, read⟩]) ∨
      ∃ b profile, Begins settings key b profile ((es ++ [Exchange.mk c outcome]).map (·.call)) ∧
        Chained settings b profile (es ++ [⟨c, outcome⟩]) := by
  cases h with
  | getBackup => exact .inl ⟨outcome, rfl⟩
  | @listClusters object b hread =>
    refine .inr ⟨b, .unknown "", ?_, List.isChain_pair.2 (.read hread)⟩
    -- The profile is not known yet: any course will do.
    have hnone : ForProfile b.ns settings.claimName settings.bindAttempts [] (.unknown "") := rfl
    exact .of_start hnone (List.prefix_refl _)
  | @lookForClaim _ b p template h hp =>
    refine .inr ⟨b, p.profile, ?_, h.chained _ fun _ hplan => .lookForClaim hplan rfl ⟨_, hp⟩⟩
    refine .of_claim ⟨_, hp⟩ (.found (k := 1) (Nat.le_refl 1) (by omega)) ?_
    rw [List.map_append, h.calls]
    exact List.prefix_append _ _
  | @createClaim es b p template f claim h hp hf hclaim =>
    refine .inr ⟨b, p.profile, ?_, ?_⟩
    · refine .of_claim ⟨_, hp⟩ (.created (k := 1) (Claim.bodyName_of_forBackup hclaim)
        (Nat.le_refl 1) (by omega)) ?_
      rw [List.map_append, List.map_append, h.calls]
      exact List.prefix_append _ _
    · have hlook : Chained settings b p.profile
          (es ++ [⟨.readClaim b.ns (.str settings.claimName), .error f⟩]) :=
        h.chained _ fun _ hplan => .lookForClaim hplan rfl ⟨_, hp⟩
      exact isChain_concat hlook (.createClaim hf)
  | @checkClaim es b p k h hk =>
    refine .inr ⟨b, p.profile, ?_, h.chained outcome⟩
    obtain ⟨look, hlook, hcalls⟩ := h.calls
    refine .of_claim h.filesystem (hlook (k + 1) (by omega) (by omega)) ?_
    rw [List.map_append, hcalls, List.replicate_succ']
    simp
  | @createJob es b p job h hjob =>
    refine .inr ⟨b, p.profile, ?_, h.chained job outcome⟩
    obtain ⟨forClaim, hclaim, hcalls⟩ := h.calls
    refine ⟨forClaim, job, blankUpdate b, hclaim, (Job.metadata_of_forBackup hjob).2, rfl, ?_⟩
    rw [List.map_append, hcalls]
    exact ⟨[.readJob b.ns (.str (Job.nameFor b)), .replaceStatus (blankUpdate b)],
      by simp [course]⟩
  | @readJob es b p h =>
    refine .inr ⟨b, p.profile, ?_, h.chained outcome⟩
    obtain ⟨forClaim, job, hclaim, hname, hcalls⟩ := h.calls
    refine ⟨forClaim, job, blankUpdate b, hclaim, hname, rfl, ?_⟩
    rw [List.map_append, hcalls]
    exact ⟨[.replaceStatus (blankUpdate b)], by simp [course]⟩
  | @replaceStatus es b p status progress h hstatus hopen hnew =>
    refine .inr ⟨b, p.profile, ?_, isChain_concat (h.chained (.ok status)) .replaceStatus⟩
    obtain ⟨forClaim, job, hclaim, hname, hcalls⟩ := h.calls
    refine ⟨forClaim, job, ⟨b.ns, b.name, b.version, .ofProgress progress p.destination b.profile⟩,
      hclaim, hname, rfl, ?_⟩
    rw [List.map_append, List.map_append, hcalls]
    exact ⟨[], by simp [course]⟩

/-! ## What a course contains -/

theorem ForProfile.mem {ns : Json} {name : String} {limit : Int} {calls : List Call}
    (h : ForProfile ns name limit calls profile) (hc : c ∈ calls) :
    c = .readClaim ns (.str name) ∨
      ∃ claim, c = .createClaim ns claim ∧ Api.bodyName claim = .str name := by
  cases profile with
  | filesystem template =>
    cases h with
    | found =>
      simp only [List.mem_cons, List.mem_replicate] at hc
      rcases hc with rfl | ⟨-, rfl⟩
      · exact .inl rfl
      · exact .inl rfl
    | created hname =>
      simp only [List.mem_cons, List.mem_replicate] at hc
      rcases hc with rfl | rfl | ⟨-, rfl⟩
      · exact .inl rfl
      · exact .inr ⟨_, rfl, hname⟩
      · exact .inl rfl
  | bucket => rw [show calls = [] from h] at hc; cases hc
  | unknown => rw [show calls = [] from h] at hc; cases hc

theorem ForProfile.countP_eq_zero {ns : Json} {name : String} {limit : Int} {calls : List Call}
    (h : ForProfile ns name limit calls profile) {q : Call → Bool}
    (hread : q (.readClaim ns (.str name)) = false)
    (hcreate : ∀ claim, q (.createClaim ns claim) = false) : calls.countP q = 0 := by
  rw [List.countP_eq_zero]
  intro c hc
  rcases h.mem hc with rfl | ⟨claim, rfl, -⟩
  · simp [hread]
  · simp [hcreate]

theorem ForProfile.countP_le_one {ns : Json} {name : String} {limit : Int} {calls : List Call}
    (h : ForProfile ns name limit calls profile) : calls.countP Call.isClaimCreation ≤ 1 := by
  cases profile with
  | filesystem template =>
    cases h with
    | found => simp [List.countP_replicate, Call.isClaimCreation]
    | created => simp [List.countP_cons, List.countP_replicate, Call.isClaimCreation]
  | bucket => rw [show calls = [] from h]; simp
  | unknown => rw [show calls = [] from h]; simp

structure NamesWhatIsMeant (settings : Settings τ) (b : Backup) (c : Call) : Prop where
  ns : c.ns = b.ns
  claimName : ∀ name, c.claimName? = some name → name = .str settings.claimName
  jobName : ∀ name, c.jobName? = some name → name = .str (Job.nameFor b)

theorem namesWhatIsMeant_of_mem {forClaim : List Call} {job : Job} {update : Api.StatusUpdate}
    (hclaim : ForProfile b.ns settings.claimName settings.bindAttempts forClaim profile)
    (hjob : Api.bodyName job = .str (Job.nameFor b)) (hupdate : update.ns = b.ns)
    (hc : c ∈ (course key b forClaim job update).tail) : NamesWhatIsMeant settings b c := by
  simp only [course, List.cons_append, List.nil_append, List.tail_cons, List.mem_cons,
    List.mem_append, List.not_mem_nil, or_false] at hc
  rcases hc with rfl | hc | rfl | rfl | rfl
  · exact ⟨rfl, nofun, nofun⟩
  · rcases hclaim.mem hc with rfl | ⟨claim, rfl, hname⟩
    · exact ⟨rfl, fun name hn => (Option.some.inj hn).symm, nofun⟩
    · exact ⟨rfl, fun name hn => (Option.some.inj hn).symm.trans hname, nofun⟩
  · exact ⟨rfl, nofun, fun name hn => (Option.some.inj hn).symm.trans hjob⟩
  · exact ⟨rfl, nofun, fun name hn => (Option.some.inj hn).symm⟩
  · exact ⟨hupdate, nofun, nofun⟩

theorem Begins.inOrder (h : Begins settings key b profile (es.map Exchange.call))
    (hchained : Chained settings b profile es) : InOrder settings key b profile es := by
  obtain ⟨forClaim, job, update, hclaim, hjob, hupdate, hcourse⟩ := h
  have hcount : ∀ q : Call → Bool,
      (es.map Exchange.call).countP q ≤ (course key b forClaim job update).countP q :=
    fun q => hcourse.sublist.countP_le
  have htail : ∀ e ∈ es.tail, NamesWhatIsMeant settings b e.call := by
    intro e he
    have hmem : e.call ∈ (es.map Exchange.call).tail := by
      rw [← List.map_tail]
      exact List.mem_map_of_mem he
    exact namesWhatIsMeant_of_mem hclaim hjob hupdate (hcourse.sublist.tail.subset hmem)
  have hall : ∀ e ∈ es, e.call = .getBackup key.ns key.name ∨
      NamesWhatIsMeant settings b e.call := by
    intro e he
    have hmem := hcourse.subset (List.mem_map_of_mem he)
    rcases List.mem_cons.1 (show e.call ∈ _ :: (course key b forClaim job update).tail from hmem)
      with hfirst | hlater
    · exact .inl hfirst
    · exact .inr (namesWhatIsMeant_of_mem hclaim hjob hupdate hlater)
  constructor
  · exact ⟨forClaim, job, update, hclaim, hcourse⟩
  · exact hchained
  · refine (hcount _).trans ?_
    simpa [course, List.countP_append, List.countP_cons, Call.isClaimCreation]
      using hclaim.countP_le_one
  · refine (hcount _).trans ?_
    have hnone := hclaim.countP_eq_zero (q := Call.isSubmission) rfl fun _ => rfl
    simp [course, List.countP_append, List.countP_cons, Call.isSubmission, hnone]
  · refine (hcount _).trans ?_
    have hnone := hclaim.countP_eq_zero (q := Call.isWrite) rfl fun _ => rfl
    simp [course, List.countP_append, List.countP_cons, Call.isWrite, hnone]
  · exact fun e he => (htail e he).ns
  · intro e he name hn
    rcases hall e he with hfirst | hnames
    · rw [hfirst] at hn
      cases hn
    · exact hnames.claimName name hn
  · intro e he name hn
    rcases hall e he with hfirst | hnames
    · rw [hfirst] at hn
      cases hn
    · exact hnames.jobName name hn

/-! ## Runs -/

variable [NatCast τ]

/-- A reconcile only reads its backup, or makes its calls in the order of the course, each after one
that allows it, whatever the API answers. -/
theorem calls_in_order (settings : Settings τ) (key : ObjectKey) (hn : 0 < settings.bindAttempts)
    (host : Api.Program.Host τ σ) (s : σ) :
    (∃ outcome, (reconcile settings key).exchanges host s =
        [⟨.getBackup key.ns key.name, outcome⟩]) ∨
      ∃ b profile, InOrder settings key b profile ((reconcile settings key).exchanges host s) := by
  have hobeys := obeys_reconcile settings key
  generalize hes : (reconcile settings key).exchanges host s = es
  have hne : es ≠ [] := by
    rw [← hes, reconcile_eq]
    exact List.cons_ne_nil _ _
  -- The last call was due after all the others, which tells everything about them.
  obtain ⟨before, last, rfl⟩ := List.eq_nil_or_concat es |>.resolve_left hne
  rw [List.concat_eq_append] at hes ⊢
  have hdue := hobeys.of_append host s hes
  rcases hdue.onCourse hn last.outcome with honly | ⟨b, profile, hbegins, hchained⟩
  · exact .inl honly
  · exact .inr ⟨b, profile, hbegins.inOrder hchained⟩

namespace Nightly

/-- The nightly backup on a server where its profile is a filesystem and its claim is not there. -/
def onFilesystem : Api.Server :=
  { Api.Server.empty with
    backups := Table.empty.insert Nightly.key (backup .null)
    clusters := [(.text "apps", .obj [("metadata", .obj [("name", .str "main")]),
      ("spec", .obj [("backup", .obj [("image", .str "xtrabackup"), ("storages", .obj [("s3",
        .obj [("type", .str "filesystem")])])])])])] }

def firstExchanges : List Exchange :=
  (reconcile (.usual : Settings Rat) Nightly.key).exchanges (Api.Server.host Rat) onFilesystem

end Nightly

/-- All calls are made, the creation of the claim among them. -/
theorem calls_in_order_nightly :
    0 < (.usual : Settings Rat).bindAttempts ∧ Nightly.firstExchanges.length = 8 ∧
      ∃ b profile,
        InOrder (.usual : Settings Rat) Nightly.key b profile Nightly.firstExchanges := by
  have hlength : Nightly.firstExchanges.length = 8 := by decide +kernel
  refine ⟨by decide, hlength, ?_⟩
  rcases calls_in_order (.usual : Settings Rat) Nightly.key (by decide) (Api.Server.host Rat)
    Nightly.onFilesystem with ⟨outcome, hread⟩ | horder
  · have hone : Nightly.firstExchanges.length = 1 := congrArg List.length hread
    omega
  · exact horder

end ClusterBackup
