import ClusterBackup.Operator
import ClusterBackup.Proofs.Fleet.Basic
import ClusterBackup.Proofs.Queue.FloatWait
import ClusterBackup.Proofs.Reconcile.Calls
import ClusterBackup.Proofs.Worker.Retry
/-!
# The operator at work

What an operator can come to: events are taken note of, anything may happen to the API and the
clock in between, and keys are taken and dealt with. In all of these states a look at the queue
comes to an end, and a key that was taken is put back in time unless its object is gone. There is
one exception: after 1024 failures in a row the delay before the next try has no number, the look
breaks down, and the key is lost.
-/

namespace ClusterBackup

open Binary64 (IsTime IsFinite InFormat height)

/-! ## The clock of a session -/

namespace Api.Session

variable {τ α : Type} {P : Call → Prop} {D I : τ → Prop}

theorem now_respond (s : Session τ) (c : Call) : (s.respond c).2.now = s.now := by
  unfold respond
  dsimp only
  split <;> rfl

theorem now_run [Add τ] {p : Program τ α} (hp : p.Within P D)
    (hpass : ∀ now seconds, I now → D seconds → I (now + seconds)) (s : Session τ)
    (hnow : I s.now) : I (s.run p).2.now := by
  induction p generalizing s with
  | done result => exact hnow
  | call c next ih =>
    refine ih _ (hp.2 _) (s.respond c).2 ?_
    rw [now_respond]
    exact hnow
  | pause seconds next ih => exact ih hp.2 (s.pass seconds) (hpass _ _ hnow hp.1)

end Api.Session

/-- The keys that an event may name have texts for their parts. -/
def Event.NamesTexts : Event → Prop
  | changed ns name => ∀ k, ObjectKey.of? ns name = some k → k.IsText
  | deleted ns name => ∀ k, ObjectKey.of? ns name = some k → k.IsText
  | nothing => True

namespace Operator

variable {settings : Settings Binary64} {o : Operator Binary64} {timeout : Option Binary64}

/-! ## Reachable states -/

def WaitEnds (o : Operator Binary64) (timeout : Option Binary64) : Prop :=
  o.worker.queue.Ends o.session.now timeout

/-- The states that an operator can come to. -/
inductive Reachable (settings : Settings Binary64) : Operator Binary64 → Prop where
  | start : Reachable settings (.start settings)
  | observe {o : Operator Binary64} (h : Reachable settings o) {event : Event}
    (hevent : event.NamesTexts) : Reachable settings (o.observe event).2
  /-- Time passes, or the API comes to another state. -/
  | elapse {o : Operator Binary64} (h : Reachable settings o) (session : Api.Session Binary64)
    (hnow : IsTime session.now) : Reachable settings { o with session }
  | work {o : Operator Binary64} (h : Reachable settings o) {timeout : Option Binary64}
    (hends : o.WaitEnds timeout) : Reachable settings (o.work timeout).2

structure Sound (settings : Settings Binary64) (o : Operator Binary64) : Prop where
  settings_eq : o.settings = settings
  now : IsTime o.session.now
  linked : o.worker.queue.Linked height IsTime

/-! ## Steps -/

theorem Sound.start (settings : Settings Binary64) : Sound settings (.start settings) :=
  ⟨rfl, Worker.isTime_zero, .empty⟩

theorem Sound.observe (h : Sound settings o) {event : Event} (hevent : event.NamesTexts) :
    Sound settings (o.observe event).2 := by
  refine ⟨h.settings_eq, h.now, ?_⟩
  cases event with
  | nothing => exact h.linked
  | changed ns name =>
    show (o.worker.queue.offer o.session.now (ObjectKey.of? ns name) Seconds.zero).2.Linked _ _
    cases hkey : ObjectKey.of? ns name with
    | none => exact h.linked
    | some k =>
      have hzero := (Worker.height_longer_zero Worker.isTime_zero).1
      exact (h.linked.putBefore Binary64.measured (hevent k hkey) (h.now.add hzero).1).2
  | deleted ns name =>
    show (o.worker.forget ns name).2.queue.Linked _ _
    unfold Worker.forget
    split
    · exact h.linked.discard _
    · exact h.linked

def deadline? (o : Operator Binary64) (k : ObjectKey) : Option Binary64 :=
  o.worker.queue.deadline? k

/-- A look at the queue that ends takes one key out, or none before any is due. -/
theorem Sound.takeKey (h : Sound settings o) (hends : o.WaitEnds timeout) :
    Sound settings (o.takeKey timeout).2 ∧
      ((o.takeKey timeout).1 = .ok none ∧
          (∀ (t : TextKey) due, o.deadline? t.key = some due →
            Seconds.le due (o.takeKey timeout).2.session.now = false) ∧
          (∀ l, (o.takeKey timeout).2.deadline? l = o.deadline? l) ∨
        ∃ t : TextKey, (o.takeKey timeout).1 = .ok (some t.key) ∧
          (o.deadline? t.key).isSome = true ∧
          ∀ l, (o.takeKey timeout).2.deadline? l =
            if t.key == l then none else o.deadline? l) := by
  obtain ⟨hnow, hlinked, hfound⟩ := h.linked.take_cases h.now hends
  refine ⟨⟨h.settings_eq, hnow, hlinked⟩, ?_⟩
  rcases hfound with ⟨hnone, hdeadlines, hearly⟩ | ⟨t, hsome, hthere, hdeadlines⟩
  · exact .inl ⟨hnone, hearly, fun l => congrArg (·.find? l) hdeadlines⟩
  · refine .inr ⟨t, hsome, hthere, fun l => ?_⟩
    show (o.worker.queue.take o.session.now timeout).queue.deadlines.find? l = _
    rw [hdeadlines, Table.find?_erase]
    rfl

theorem Sound.reconcileKey (h : Sound settings o) (k : ObjectKey) :
    Sound settings (o.reconcileKey k).2 := by
  refine ⟨h.settings_eq, ?_, h.linked⟩
  have hwithin : (reconcile o.settings k).Within (fun _ => True)
      fun seconds => ∃ n : Nat, seconds = (n : Binary64) := by
    rw [reconcile_eq]
    refine ⟨trivial, fun outcome => ?_⟩
    exact (within_afterRead (fun n => ⟨n, rfl⟩) _ _ _).mono fun _ _ => trivial
  refine Api.Session.now_run hwithin ?_ o.session h.now
  rintro now seconds hnow ⟨n, rfl⟩
  exact (hnow.add (Binary64.isTime_natCast n).1).1

def verdictOn (o : Operator Binary64) (k : ObjectKey) : Verdict Binary64 :=
  .ofResult o.settings.requeueAfter (o.reconcileKey k).1

/-- A key that was just taken fails again, and its next delay has no number. -/
def Overruns (o : Operator Binary64) (k : ObjectKey) : Prop :=
  (o.verdictOn k).isFailure = true ∧ 1024 ≤ o.worker.failureCount k

/-- The last time at which a key that was dealt with is due again. -/
def latest (o : Operator Binary64) : Binary64 :=
  o.session.now + Seconds.longer Worker.backoffLimit o.settings.requeueAfter

theorem deadline?_work_of_ne {k l : ObjectKey} (hsome : (o.takeKey timeout).1 = .ok (some k))
    (hl : (k == l) = false) :
    (o.work timeout).2.deadline? l = (o.takeKey timeout).2.deadline? l := by
  rw [work_of_some hsome]
  exact Worker.deadline?_finish_of_ne (w := ((o.takeKey timeout).2.reconcileKey k).2.worker) hl _

theorem Sound.conclude (h : Sound settings o) (hformat : InFormat settings.requeueAfter)
    {t : TextKey} (hnew : o.deadline? t.key = none) (result : Except Fault Outcome) :
    Sound settings (o.conclude t.key result).2 := by
  have hformat' : InFormat o.settings.requeueAfter := h.settings_eq ▸ hformat
  exact ⟨h.settings_eq, h.now, (Worker.finish_cases h.linked h.now t.isText_key hnew hformat'
    (Verdict.ofResult_cases _ result)).1⟩

theorem Sound.work (h : Sound settings o) (hformat : InFormat settings.requeueAfter)
    (hends : o.WaitEnds timeout) : Sound settings (o.work timeout).2 := by
  obtain ⟨htaken, ⟨hnone, -⟩ | ⟨t, hsome, -, hdeadlines⟩⟩ := h.takeKey hends
  · rw [work_of_none hnone]
    exact htaken
  · rw [work_of_some hsome]
    refine (htaken.reconcileKey t.key).conclude hformat ?_ _
    exact (hdeadlines t.key).trans (if_pos BEq.rfl)

theorem Reachable.sound (hr : Reachable settings o) (hformat : InFormat settings.requeueAfter) :
    Sound settings o := by
  induction hr with
  | start => exact .start settings
  | observe _ hevent ih => exact ih.observe hevent
  | elapse _ session hnow ih => exact ⟨ih.settings_eq, hnow, ih.linked⟩
  | work _ hends ih => exact ih.work hformat hends

/-! ## Keys are kept -/

/-- What comes of a key that was taken: it is put back in time unless its object is gone, or it
overruns and is lost. -/
theorem Sound.dealtWith (htaken : Sound settings (o.takeKey timeout).2)
    (hformat : InFormat settings.requeueAfter) {t : TextKey}
    (hsome : (o.takeKey timeout).1 = .ok (some t.key))
    (hnew : (o.takeKey timeout).2.deadline? t.key = none) :
    (o.takeKey timeout).2.Overruns t.key ∧ (o.work timeout).1 = .error .beyondRange ∧
        (o.work timeout).2.deadline? t.key = none ∨
      ¬(o.takeKey timeout).2.Overruns t.key ∧ (o.work timeout).1 = .ok true ∧
        ((o.takeKey timeout).2.verdictOn t.key ≠ .gone →
          ∃ due, (o.work timeout).2.deadline? t.key = some due ∧
            Seconds.le due (o.work timeout).2.latest = true) := by
  rw [work_of_some hsome]
  generalize (o.takeKey timeout).2 = taken at htaken hnew
  have hreconciled := htaken.reconcileKey t.key
  have hformat' : InFormat taken.settings.requeueAfter := htaken.settings_eq ▸ hformat
  obtain ⟨-, hcases⟩ := Worker.finish_cases hreconciled.linked hreconciled.now t.isText_key hnew
    hformat' (Verdict.ofResult_cases _ (taken.reconcileKey t.key).1)
  rcases hcases with ⟨hfail, hmany, herror, hlost⟩ | ⟨hover, hok, hback⟩
  · exact .inl ⟨⟨hfail, hmany⟩, congrArg (Except.map _) herror, hlost⟩
  · exact .inr ⟨hover, congrArg (Except.map _) hok, hback⟩

/-- A look at the queue comes to an end, with a key as soon as one is due. A key that was taken is
dealt with, and it is back in the queue in time unless its object is gone; but if it overruns, the
look breaks down and the key is lost. No other key is touched. -/
theorem work_keeps_key_unless_it_overruns (hr : Reachable settings o)
    (hformat : InFormat settings.requeueAfter) (hends : o.WaitEnds timeout) :
    (o.takeKey timeout).1 = .ok none ∧ (o.work timeout).1 = .ok false ∧
        (∀ (t : TextKey) due, o.deadline? t.key = some due →
          Seconds.le due (o.work timeout).2.session.now = false) ∧
        (∀ l, (o.work timeout).2.deadline? l = o.deadline? l) ∨
      ∃ (t : TextKey) (taken : Operator Binary64), o.takeKey timeout = (.ok (some t.key), taken) ∧
        (taken.Overruns t.key ∧ (o.work timeout).1 = .error .beyondRange ∧
            (o.work timeout).2.deadline? t.key = none ∨
          ¬taken.Overruns t.key ∧ (o.work timeout).1 = .ok true ∧
            (taken.verdictOn t.key ≠ .gone →
              ∃ due, (o.work timeout).2.deadline? t.key = some due ∧
                Seconds.le due (o.work timeout).2.latest = true)) ∧
        ∀ l, (t.key == l) = false → (o.work timeout).2.deadline? l = o.deadline? l := by
  obtain ⟨htaken, ⟨hnone, hearly, hdeadlines⟩ | ⟨t, hsome, -, hdeadlines⟩⟩ :=
    (hr.sound hformat).takeKey hends
  · rw [work_of_none hnone]
    exact .inl ⟨hnone, rfl, hearly, hdeadlines⟩
  · have hnew := (hdeadlines t.key).trans (if_pos BEq.rfl)
    refine .inr ⟨t, _, Prod.ext hsome rfl, htaken.dealtWith hformat hsome hnew, fun l hl => ?_⟩
    have hframe := (hdeadlines l).trans (if_neg (Bool.eq_false_iff.1 hl))
    exact (deadline?_work_of_ne hsome hl).trans hframe

end Operator

namespace Nightly

/-- An operator that has been told of the backup, before an API that is out of order. -/
def operator : Operator Binary64 :=
  { ((Operator.start .usual).observe (.changed (.str "apps") (.str "nightly"))).2 with
    session := { now := Seconds.zero, script := { getBackup := [.failing (.broken "no route")] } } }

theorem reachable_operator : Operator.Reachable .usual operator := by
  refine .elapse (.observe .start ?_) _ Worker.isTime_zero
  intro k hk
  obtain rfl : names.key = k := Option.some.inj hk
  exact names.isText_key

theorem waitEnds_operator : operator.WaitEnds (some Operator.runTimeout) := by
  refine ⟨(Binary64.isTime_natCast 1).1.inFormat, ?_⟩
  have hsum : operator.session.now + Operator.runTimeout =
      .finite false 4503599627370496 (-52) := by decide +kernel
  rw [hsum]
  trivial

end Nightly

namespace Operator

theorem work_keeps_key_unless_it_overruns_nightly :
    Reachable .usual Nightly.operator ∧ Nightly.operator.WaitEnds (some runTimeout) ∧
      ∃ due, (Nightly.operator.work (some runTimeout)).2.deadline? Nightly.names.key = some due ∧
        Seconds.le due (Nightly.operator.work (some runTimeout)).2.latest = true := by
  refine ⟨Nightly.reachable_operator, Nightly.waitEnds_operator, ?_⟩
  have hformat : InFormat (Settings.usual : Settings Binary64).requeueAfter :=
    (Binary64.isTime_natCast 5).1.inFormat
  have htaken : (Nightly.operator.takeKey (some runTimeout)).1.toOption.join.any
      (· == Nightly.names.key) = true := by decide +kernel
  have hok : (Nightly.operator.work (some runTimeout)).1.isOk = true := by decide +kernel
  have hverdict :
      (Nightly.operator.takeKey (some runTimeout)).2.verdictOn Nightly.names.key ≠ .gone := by
    decide +kernel
  rcases work_keeps_key_unless_it_overruns Nightly.reachable_operator hformat
      Nightly.waitEnds_operator with ⟨hnone, -⟩ | ⟨t, taken, heq, hcases, -⟩
  · rw [hnone] at htaken
    cases htaken
  · rw [heq] at htaken hverdict
    have hkey : t.key = Nightly.names.key := ObjectKey.eq_key_of_beq htaken
    rcases hcases with ⟨-, herror, -⟩ | ⟨-, -, hback⟩
    · rw [herror] at hok
      cases hok
    · rw [hkey] at hback
      exact hback hverdict

end Operator

end ClusterBackup
