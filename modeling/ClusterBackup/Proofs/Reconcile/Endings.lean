import ClusterBackup.Proofs.Reconcile.Course
/-!
# How a reconcile ends

What the exchanges of a reconcile tell of its outcome. The backup is gone exactly if it was asked
for and not found (`Ended.gone_iff`). All is as wanted exactly if a plan was carried out to its end,
which shows in the last call (`Ended.settled_iff`). Where something is in the way no record was
written (`Ended.unwritten`).
-/

namespace ClusterBackup

open Api (Call Exchange)

variable {τ : Type} {settings : Settings τ} {key : ObjectKey} {b : Backup} {p : Plan}
  {es : List Exchange} {stop : Stop} {result : Except Fault Outcome}

/-! ## Before the job is looked at -/

def Api.Call.isEarly (c : Call) : Bool := !c.isJobRead && !c.isWrite

theorem Opened.early (h : Opened settings key b p es) : ∀ e ∈ es, e.call.isEarly = true := by
  cases h
  simp [Call.isEarly, Call.isJobRead, Call.isWrite]

theorem ClaimThere.early (h : ClaimThere settings key b p es) :
    ∀ e ∈ es, e.call.isEarly = true := by
  cases h with
  | found h => simpa [or_imp, forall_and] using ⟨h.early, rfl⟩
  | created h => simpa [or_imp, forall_and] using ⟨h.early, rfl, rfl⟩

theorem Polled.early {k : Nat} (h : Polled settings key b p k es) :
    ∀ e ∈ es, e.call.isEarly = true := by
  induction h with
  | zero h => exact h.early
  | succ _ he ih =>
    cases he with
    | phase => simpa [or_imp, forall_and] using ⟨ih, rfl⟩
    | absent => simpa [or_imp, forall_and] using ⟨ih, rfl⟩

theorem Ready.early (h : Ready settings key b p es) : ∀ e ∈ es, e.call.isEarly = true := by
  cases h with
  | direct h => exact h.early
  | bound h => simpa [or_imp, forall_and] using ⟨h.early, rfl⟩

theorem Submitted.early (h : Submitted settings key b p es) :
    ∀ e ∈ es, e.call.isEarly = true := by
  cases h with
  | intro h => simpa [or_imp, forall_and] using ⟨h.early, rfl⟩

/-! ## The last call -/

/-- A call with which a reconcile can come to its end: the job is gone, or the record is not to be
written, or was. -/
def Api.Exchange.isLast : Exchange → Bool
  | ⟨.readJob _ _, .ok _⟩ => true
  | ⟨.readJob _ _, .error f⟩ => f.hasStatus 404
  | ⟨.replaceStatus _, .ok _⟩ => true
  | _ => false

theorem Api.Exchange.isLast_of_isEarly {e : Exchange} (h : e.call.isEarly = true) :
    e.isLast = false := by
  obtain ⟨c, outcome⟩ := e
  cases c with
  | readJob => cases h
  | replaceStatus => cases h
  | _ => rfl

theorem Finished.last (h : Finished settings key b p es) :
    ∃ e, es.getLast? = some e ∧ e.isLast = true := by
  cases h with
  | jobGone _ hf => exact ⟨_, List.getLast?_concat, hf⟩
  | standing => exact ⟨_, List.getLast?_concat, rfl⟩
  | written => exact ⟨_, List.getLast?_concat, rfl⟩

theorem getLast?_of_early {e : Exchange} (h : ∀ e ∈ es, e.call.isEarly = true)
    (he : es.getLast? = some e) : e.isLast = false :=
  Exchange.isLast_of_isEarly (h e (List.mem_of_getLast? he))

/-- An obstacle does not come up with the last call of a reconcile that gets to its end. -/
theorem Stopped.last {o : Obstacle} (h : Stopped settings key b p es (.obstacle o)) {e : Exchange}
    (he : es.getLast? = some e) : e.isLast = false := by
  generalize hs : Stop.obstacle o = stop at h
  cases h with
  | claimNotOwned h => exact getLast?_of_early h.early he
  | notBound _ h => exact getLast?_of_early h.early he
  | noJob h => exact getLast?_of_early h.early he
  | noAttempts h => exact getLast?_of_early h.early he
  | beyondCalendar => cases hs
  | undecided => cases hs
  | jobUnreadable _ hf =>
    rw [List.getLast?_concat] at he
    cases he
    exact hf
  | _ =>
    rw [List.getLast?_concat] at he
    cases he
    rfl

/-! ## Records -/

def Unwritten (es : List Exchange) : Prop :=
  ∀ e ∈ es, e.call.isWrite = true → e.outcome.isOk = false

theorem unwritten_of_early (h : ∀ e ∈ es, e.call.isEarly = true) : Unwritten es := by
  intro e he hw
  have hearly := h e he
  simp [Call.isEarly, hw] at hearly

theorem Unwritten.concat {e : Exchange} (h : Unwritten es)
    (he : e.call.isWrite = true → e.outcome.isOk = false) : Unwritten (es ++ [e]) :=
  List.forall_mem_append.2 ⟨h, by simpa using he⟩

theorem Stopped.unwritten (h : Stopped settings key b p es stop) : Unwritten es := by
  cases h with
  | claimNotOwned h => exact unwritten_of_early h.early
  | claimUnreadable h => exact (unwritten_of_early h.early).concat fun _ => rfl
  | claimNotCreated h =>
    exact ((unwritten_of_early h.early).concat fun _ => rfl).concat fun _ => rfl
  | noAttempts h => exact unwritten_of_early h.early
  | phaseUnreadable h => exact (unwritten_of_early h.early).concat fun _ => rfl
  | notBound _ h => exact unwritten_of_early h.early
  | noJob h => exact unwritten_of_early h.early
  | jobNotCreated h => exact (unwritten_of_early h.early).concat fun _ => rfl
  | jobUnreadable h => exact (unwritten_of_early h.early).concat fun _ => rfl
  | beyondCalendar h => exact (unwritten_of_early h.early).concat fun hw => by cases hw
  | undecided h => exact (unwritten_of_early h.early).concat fun hw => by cases hw
  | notWritten h =>
    exact ((unwritten_of_early h.early).concat fun hw => by cases hw).concat fun _ => rfl

/-! ## Outcomes -/

theorem ofResult_error_ne {stop : Stop} {outcome : Outcome} (h : ∀ o, outcome ≠ .failed o) :
    Outcome.ofResult (.error stop) ≠ .ok outcome := by
  cases stop with
  | obstacle o =>
    intro heq
    exact h o (Except.ok.inj heq).symm
  | fault f =>
    intro heq
    cases heq

theorem Ended.gone_iff (h : Ended settings key es result) : result = .ok .gone ↔
    ∃ f, es = [⟨.getBackup key.ns key.name, .error f⟩] ∧ f.hasStatus 404 = true := by
  have hplan : ∀ {b p}, HasPlan settings key b p es →
      ¬∃ f, es = [⟨.getBackup key.ns key.name, .error f⟩] ∧ f.hasStatus 404 = true := by
    rintro b p hp ⟨f, hes, -⟩
    obtain ⟨object, listing, rest, hes', -⟩ := hp.eq_cons
    rw [hes] at hes'
    cases hes'
  cases h with
  | gone hf => exact ⟨fun _ => ⟨_, rfl, hf⟩, fun _ => rfl⟩
  | unreadable hf =>
    refine ⟨fun heq => (by cases heq), ?_⟩
    rintro ⟨f, hes, hf'⟩
    cases hes
    rw [hf] at hf'
    cases hf'
  | noBackup =>
    refine ⟨fun heq => (by cases heq), ?_⟩
    rintro ⟨f, hes, -⟩
    cases hes
  | noPlan =>
    refine ⟨fun heq => absurd heq (ofResult_error_ne (by simp)), ?_⟩
    rintro ⟨f, hes, -⟩
    cases hes
  | stopped h =>
    exact ⟨fun heq => absurd heq (ofResult_error_ne (by simp)),
      fun hf => absurd hf (hplan h.hasPlan)⟩
  | settled h => exact ⟨fun heq => (by cases heq), fun hf => absurd hf (hplan h.hasPlan)⟩

/-- Without a fault, all is as wanted exactly if a plan was carried out to its end. -/
theorem Ended.settled_iff {outcome : Outcome} (h : Ended settings key es (.ok outcome)) :
    outcome = .settled ↔ ∃ b p, Finished settings key b p es := by
  generalize hr : Except.ok outcome = result at h
  constructor
  · rintro rfl
    cases h with
    | gone => cases hr
    | unreadable => cases hr
    | noBackup => cases hr
    | noPlan => exact absurd hr.symm (ofResult_error_ne (by simp))
    | stopped => exact absurd hr.symm (ofResult_error_ne (by simp))
    | settled h => exact ⟨_, _, h⟩
  · rintro ⟨b, p, hf⟩
    obtain ⟨e, he, hlast⟩ := hf.last
    cases h with
    | gone =>
      cases he
      cases hlast
    | unreadable =>
      cases he
      cases hlast
    | noBackup => cases hr
    | noPlan =>
      cases he
      cases hlast
    | @stopped _ _ _ stop h =>
      cases stop with
      | obstacle o =>
        rw [h.last he] at hlast
        cases hlast
      | fault f => cases hr
    | settled => exact Except.ok.inj hr

theorem Ended.unwritten {o : Obstacle} (h : Ended settings key es (.ok (.failed o))) :
    Unwritten es := by
  generalize hr : Except.ok (Outcome.failed o) = result at h
  cases h with
  | gone => cases hr
  | unreadable => simp [Unwritten, Call.isWrite]
  | noBackup => cases hr
  | noPlan => simp [Unwritten, Call.isWrite]
  | stopped h => exact h.unwritten
  | settled => cases hr

end ClusterBackup
