import ClusterBackup.Proofs.Worker.Retry
import ClusterBackup.Proofs.Worker.Shift
/-!
# Events are not lost

An event may come while its key is in the hand of the worker, so that the key is not in the queue,
and what is drawn from the verdict adds the key with a delay of its own. The earlier deadline wins
either way: from the event on the key is due, until it is taken or its object is deleted.

`Timely` is what the comparisons of deadlines rest on: all numbers of the worker are times.
-/

namespace ClusterBackup

open Binary64 (IsTime InFormat height)

def Verdict.InFormat : Verdict Binary64 → Prop
  | gone => True
  | settled after => Binary64.InFormat after
  | failed least => Binary64.InFormat least

/-- The clock shows a time, and the delay of a verdict is a number of the format. -/
def Deed.IsTimely : Deed Binary64 → Prop
  | passed now => IsTime now
  | judged _ _ verdict => verdict.InFormat
  | _ => True

namespace Queue

variable {q : Queue Binary64 ObjectKey} {k l : ObjectKey} {now delay due : Binary64}

def Timely (q : Queue Binary64 ObjectKey) : Prop := ∀ k due, q.deadline? k = some due → IsTime due

/-- The key is due after a number of units at the latest. -/
def DueBy (limit : Nat) (k : ObjectKey) (q : Queue Binary64 ObjectKey) : Prop :=
  ∃ due, q.deadline? k = some due ∧ height due ≤ limit

theorem earliest_spec {current : Option Binary64} (hc : ∀ c, current = some c → IsTime c)
    (hd : IsTime due) :
    IsTime (earliest current due) ∧ height (earliest current due) ≤ height due ∧
      ∀ c, current = some c → height (earliest current due) ≤ height c := by
  cases current with
  | none => exact ⟨hd, le_rfl, fun c hcur => by cases hcur⟩
  | some c =>
    have hle := Binary64.measured.le_eq (hc c rfl) hd
    have hif : earliest (some c) due = if Seconds.le c due then c else due := rfl
    by_cases h : height c ≤ height due
    · rw [decide_eq_true h] at hle
      rw [hif, hle, if_pos rfl]
      refine ⟨hc c rfl, h, fun c' hc' => ?_⟩
      rw [Option.some.inj hc']
    · rw [decide_eq_false h] at hle
      rw [hif, hle, if_neg Bool.false_ne_true]
      refine ⟨hd, le_rfl, fun c' hc' => ?_⟩
      rw [← Option.some.inj hc']
      exact (not_le.1 h).le

variable {limit : Nat}

/-- An addition puts the key under a time, and never makes one due later. -/
theorem Timely.add (hq : q.Timely) (hd : IsTime (now + Seconds.longer Seconds.zero delay)) :
    (q.add now k delay).2.Timely ∧ ∀ limit l, DueBy limit l q →
      DueBy limit l (q.add now k delay).2 := by
  have hadd : ∀ l, (q.add now k delay).2.deadline? l = if k == l
      then some (earliest (q.deadline? k) (now + Seconds.longer Seconds.zero delay))
      else q.deadline? l := fun l => deadline?_add q now k l delay
  refine ⟨fun l due hl => ?_, fun limit l hl => ?_⟩
  · rw [hadd] at hl
    split at hl
    · cases hl
      exact (earliest_spec (hq k) hd).1
    · exact hq l due hl
  · rw [DueBy, hadd]
    obtain ⟨due, hdue, hlimit⟩ := hl
    split
    · rename_i hkl
      refine ⟨_, rfl, ?_⟩
      have hearlier := (earliest_spec (hq k) hd).2.2 due (deadline?_congr hkl ▸ hdue)
      exact hearlier.trans hlimit
    · exact ⟨due, hdue, hlimit⟩

end Queue

namespace Worker

variable {w : Worker Binary64} {k : ObjectKey} {now : Binary64} {verdict : Verdict Binary64}

theorem isTime_now (hnow : IsTime now) :
    IsTime (now + Seconds.longer Seconds.zero Seconds.zero) ∧
      height (now + Seconds.longer Seconds.zero Seconds.zero) ≤ height now := by
  obtain ⟨hzero, hheight⟩ := height_longer_zero isTime_zero
  obtain ⟨hsum, hnearest⟩ := hnow.add hzero
  rw [hheight, height_zero, Nat.add_zero, Binary64.nearest_of_representable hnow.representable]
    at hnearest
  exact ⟨hsum, hnearest ▸ min_le_left _ _⟩

theorem timely_observe (hq : w.queue.Timely) (hnow : IsTime now) (event : Event) :
    (w.observe now event).2.queue.Timely := by
  intro l due hl
  rw [deadline?_observe] at hl
  split at hl
  · cases hl
  · split at hl
    · cases hl
      exact (Queue.earliest_spec (hq l) (isTime_now hnow).1).1
    · exact hq l due hl

/-- No event makes a key due later, unless its object was deleted. -/
theorem dueBy_observe {limit : Nat} {event : Event} (hq : w.queue.Timely) (hnow : IsTime now)
    (hdeletes : event.deletes k = false) (h : w.queue.DueBy limit k) :
    (w.observe now event).2.queue.DueBy limit k := by
  obtain ⟨due, hdue, hlimit⟩ := h
  rw [Queue.DueBy, deadline?_observe, hdeletes, if_neg Bool.false_ne_true]
  split
  · refine ⟨_, rfl, ?_⟩
    exact ((Queue.earliest_spec (hq k) (isTime_now hnow).1).2.2 due hdue).trans hlimit
  · exact ⟨due, hdue, hlimit⟩

/-- After an event that an object changed, its key is due. -/
theorem dueBy_of_changes {event : Event} (hq : w.queue.Timely) (hnow : IsTime now)
    (hchanges : event.changes k = true) (hdeletes : event.deletes k = false) :
    (w.observe now event).2.queue.DueBy (height now) k := by
  rw [Queue.DueBy, deadline?_observe, hdeletes, if_neg Bool.false_ne_true, if_pos hchanges]
  refine ⟨_, rfl, ?_⟩
  exact (Queue.earliest_spec (hq k) (isTime_now hnow).1).2.1.trans (isTime_now hnow).2

/-- The delay that is drawn from a verdict leads to a time. -/
theorem isTime_of_delayAfter? {failures : Nat} {delay : Binary64} (hnow : IsTime now)
    (hv : verdict.InFormat) (h : delayAfter? failures verdict = some delay) :
    IsTime (now + Seconds.longer Seconds.zero delay) := by
  cases verdict with
  | gone => cases h
  | settled after =>
    obtain rfl : after = delay := Option.some.inj h
    exact (hnow.add (height_usual_le hv).1).1
  | failed least => exact (hnow.add (height_retryDelay_le hv h).1).1

/-- What is drawn from a verdict never makes a key due later. -/
theorem timely_finish (hq : w.queue.Timely) (hnow : IsTime now) (hv : verdict.InFormat) :
    (w.finish now k verdict).2.queue.Timely ∧ ∀ limit l, w.queue.DueBy limit l →
      (w.finish now k verdict).2.queue.DueBy limit l := by
  rw [queue_finish]
  split
  · rename_i delay hdelay
    exact hq.add (isTime_of_delayAfter? hnow hv hdelay)
  · exact ⟨hq, fun _ _ h => h⟩

end Worker

namespace Shift

variable {s t : Shift Binary64} {d : Deed Binary64} {h before after : List (Deed Binary64)}
  {k : ObjectKey} {limit : Nat}

structure Timely (s : Shift Binary64) : Prop where
  now : IsTime s.now
  queue : s.worker.queue.Timely
  verdict : ∀ k verdict, s.hand = .judging k verdict → verdict.InFormat

theorem timely_start : Timely (start : Shift Binary64) where
  now := Worker.isTime_zero
  queue k due h := by cases h
  verdict k verdict h := by cases h

/-- Every step keeps the numbers, and leaves a key due that is neither taken nor deleted. -/
theorem Timely.step (hs : s.Timely) (hstep : Step s d t) (hd : d.IsTimely) :
    t.Timely ∧ ∀ limit k, d.takes k = false → d.deletes k = false →
      s.worker.queue.DueBy limit k → t.worker.queue.DueBy limit k := by
  cases hstep with
  | pass now => exact ⟨⟨hd, hs.queue, hs.verdict⟩, fun _ _ _ _ h => h⟩
  | seek giveUp => exact ⟨⟨hs.now, hs.queue, fun k v h => by cases h⟩, fun _ _ _ _ h => h⟩
  | see event =>
    refine ⟨⟨hs.now, Worker.timely_observe hs.queue hs.now event, hs.verdict⟩, ?_⟩
    exact fun _ _ _ hdeletes h => Worker.dueBy_observe hs.queue hs.now hdeletes h
  | look hhand =>
    have hlook := fun l => Step.look_cases (.look hhand) l
    refine ⟨⟨hs.now, fun l due hl => ?_, fun l v h => ?_⟩, fun limit k htakes _ h => ?_⟩
    · rcases hlook l with ⟨-, -, -, hnone⟩ | ⟨-, -, hkept⟩
      · rw [hnone] at hl
        cases hl
      · exact hs.queue l due (hkept ▸ hl)
    · exact (Hand.afterLook_ne_judging _ _ l v h).elim
    · rcases hlook k with ⟨htaken, -⟩ | ⟨-, -, hkept⟩
      · rw [htaken] at htakes
        cases htakes
      · rw [Queue.DueBy, hkept]
        exact h
  | read answer => exact ⟨⟨hs.now, hs.queue, fun k v h => by cases h⟩, fun _ _ _ _ h => h⟩
  | judge verdict =>
    refine ⟨⟨hs.now, hs.queue, fun l v h => ?_⟩, fun _ _ _ _ h => h⟩
    cases h
    exact hd
  | finish hhand =>
    obtain ⟨hqueue, hdue⟩ := Worker.timely_finish hs.queue hs.now (hs.verdict _ _ hhand)
    exact ⟨⟨hs.now, hqueue, fun l v h => by cases h⟩, fun limit k _ _ h => hdue limit k h⟩

theorem Run.timely (hrun : Run s h t) (hs : s.Timely) (hh : ∀ d ∈ h, d.IsTimely) : t.Timely := by
  induction hrun with
  | refl => exact hs
  | step _ hstep ih =>
    have hm := ih fun d hd => hh d (List.mem_append_left _ hd)
    exact (hm.step hstep (hh _ List.mem_append_cons_self)).1

theorem Run.dueBy (hrun : Run s h t) (hs : s.Timely) (hh : ∀ d ∈ h, d.IsTimely)
    (hkept : ∀ d ∈ h, d.takes k = false ∧ d.deletes k = false)
    (hdue : s.worker.queue.DueBy limit k) : t.worker.queue.DueBy limit k := by
  induction hrun with
  | refl => exact hdue
  | step hrun hstep ih =>
    have hm := hrun.timely hs fun d hd => hh d (List.mem_append_left _ hd)
    obtain ⟨htakes, hdeletes⟩ := hkept _ List.mem_append_cons_self
    refine (hm.step hstep (hh _ List.mem_append_cons_self)).2 limit k htakes hdeletes ?_
    exact ih (fun d hd => hh d (List.mem_append_left _ hd))
      fun d hd => hkept d (List.mem_append_left _ hd)

/-- In every run, and for every key of texts: from an event on that the object was added or
modified, the key is in the queue and due at the time of the event, until it is taken or the
object is deleted. What is drawn from a verdict in the meantime, on this key or on another,
neither removes the key nor makes it due later. -/
theorem no_event_is_lost {t : TextKey} {now : Binary64} {result : Except Breakdown Unit}
    (hrun : Run start
      (before ++ .saw now (.changed (.str t.1) (.str t.2)) result :: after) s)
    (htimes : ∀ d ∈ before ++ .saw now (.changed (.str t.1) (.str t.2)) result :: after,
      d.IsTimely)
    (hkept : ∀ d ∈ after, d.takes t.key = false ∧ d.deletes t.key = false) :
    ∃ due, s.worker.queue.deadline? t.key = some due ∧ Seconds.le due now = true ∧
      ∀ k verdict, s.hand = .judging k verdict →
        ∃ due', (s.worker.finish s.now k verdict).2.queue.deadline? t.key = some due' ∧
          Seconds.le due' due = true := by
  obtain ⟨first, hbefore, hrest⟩ := hrun.split rfl
  obtain ⟨second, hevent, hafter⟩ := hrest.cons
  have hfirst := hbefore.timely timely_start fun d hd => htimes d (List.mem_append_left _ hd)
  have hsecond : second.Timely ∧ IsTime now ∧ second.worker.queue.DueBy (height now) t.key := by
    cases hevent with
    | see =>
      have hchanges : (Event.changed (.str t.1) (.str t.2)).changes t.key = true := BEq.rfl
      refine ⟨⟨hfirst.now, Worker.timely_observe hfirst.queue hfirst.now _, hfirst.verdict⟩,
        hfirst.now, ?_⟩
      exact Worker.dueBy_of_changes hfirst.queue hfirst.now hchanges rfl
  have htimes' : ∀ d ∈ after, d.IsTimely := fun d hd =>
    htimes d (List.mem_append_right _ (List.mem_cons_of_mem _ hd))
  have hlast := hafter.timely hsecond.1 htimes'
  obtain ⟨due, hdue, hlimit⟩ := hafter.dueBy hsecond.1 htimes' hkept hsecond.2.2
  have hle : Seconds.le due now = true := by
    rw [Binary64.measured.le_eq (hlast.queue _ _ hdue) hsecond.2.1]
    exact decide_eq_true hlimit
  refine ⟨due, hdue, hle, fun k verdict hhand => ?_⟩
  obtain ⟨hqueue, hkeeps⟩ := Worker.timely_finish hlast.queue hlast.now (hlast.verdict k _ hhand)
  obtain ⟨due', hdue', hlimit'⟩ := hkeeps (height due) t.key ⟨due, hdue, le_rfl⟩
  refine ⟨due', hdue', ?_⟩
  rw [Binary64.measured.le_eq (hqueue _ _ hdue') (hlast.queue _ _ hdue)]
  exact decide_eq_true hlimit'

end Shift

namespace Nightly

open Shift (Run Step)

/-- The backup was changed again while its key is in hand. -/
def changedAgain : Shift Binary64 :=
  let s : Shift Binary64 := taken (.holding key)
  { s with worker := (s.worker.observe s.now change).2 }

def longFailure : Verdict Binary64 := .failed ((300 : Nat) : Binary64)

theorem run_longFailure : Run changedAgain
    [.read key (.error .notFound), .judged key (.error .notFound) longFailure,
      .ended key longFailure (changedAgain.worker.finish changedAgain.now key longFailure).1]
    { changedAgain with
      worker := (changedAgain.worker.finish changedAgain.now key longFailure).2, hand := .free } :=
  ((Step.read _ rfl).run.step (.judge _ rfl)).step (.finish rfl)

end Nightly

namespace Shift

theorem no_event_is_lost_nightly :
    ∃ (h : List (Deed Binary64)) (s : Shift Binary64), Run start h s ∧
      h.any (·.takes Nightly.key) = true ∧
      ∃ due, s.worker.queue.deadline? Nightly.key = some due ∧
        Seconds.le due Seconds.zero = true := by
  have hfound : (Nightly.found (τ := Binary64)).1 = some (.ok (some Nightly.key)) :=
    Nightly.eq_key_of_any (by decide +kernel)
  have hevent : Step (Nightly.taken (.holding Nightly.key)) _ Nightly.changedAgain :=
    .see Nightly.change
  have hrun := (Nightly.run_taken hfound).trans (hevent.run.trans Nightly.run_longFailure)
  have hformat := (Binary64.isTime_natCast 300).1.inFormat
  obtain ⟨due, hdue, hle, -⟩ := no_event_is_lost (t := ("apps", "nightly")) hrun
    (by simpa [Deed.IsTimely, Nightly.longFailure, Verdict.InFormat] using hformat)
    (by simp [Deed.takes, Deed.deletes])
  exact ⟨_, _, hrun, rfl, due, hdue, hle⟩

end Shift

end ClusterBackup
