import ClusterBackup.Operator
import ClusterBackup.Proofs.Worker.Drained
import ClusterBackup.Proofs.Worker.Heeding
/-!
# The steps of an operator

What an operator does is done in the steps of a worker beside its watch: a look at the queue is a
wait, looks, a read, a verdict and its consequences, with nothing in between. An operator tells of
the events, of the keys that it found, and of what it drew from its verdicts; the history of the
steps tells the same (`InTurn.exists_run`). So what holds of all runs of these steps holds of an
operator that takes events, follows streams and looks one after the other, as it does from the start
of the controller to its end (`InTurn.run`).
-/

namespace ClusterBackup

open Shift (Run Step)

variable {τ : Type} [Seconds τ]

namespace Deed

def isOfWait : Deed τ → Bool
  | passed _ => true
  | sought => true
  | looked _ => true
  | _ => false

/-- Whether an operator tells of a deed. The looks that end a wait are told, those within it are
not. -/
def isTold : Deed τ → Bool
  | saw .. => true
  | looked (some _) => true
  | ended .. => true
  | _ => false

end Deed

namespace Queue

theorem run_await (n : Nat) (q : Queue τ ObjectKey) (failures : Table ObjectKey Nat) (now : τ)
    (giveUp : Option τ) (waits : List τ) :
    ∃ h hand, Run ⟨now, ⟨q, failures⟩, .waiting giveUp⟩ h
        ⟨(q.await n now giveUp waits).now, ⟨(q.await n now giveUp waits).queue, failures⟩, hand⟩ ∧
      h.all Deed.isOfWait = true ∧ ((q.await n now giveUp waits).found ≠ .error .idleForEver →
        hand = .afterWait (q.await n now giveUp waits).found ∧
          h.filter Deed.isTold = [.looked (some (q.await n now giveUp waits).found)]) := by
  induction n generalizing q now waits with
  | zero => exact ⟨[], _, .refl, rfl, fun h => absurd rfl h⟩
  | succ n ih =>
    have hlook : Step ⟨now, ⟨q, failures⟩, .waiting giveUp⟩ (.looked (q.look now giveUp).1)
        ⟨now, ⟨(q.look now giveUp).2, failures⟩, .afterLook giveUp (q.look now giveUp).1⟩ :=
      .look rfl
    rw [await_succ]
    generalize q.look now giveUp = looked at hlook
    obtain ⟨found, q'⟩ := looked
    cases found with
    | some found => exact ⟨_, _, hlook.run, rfl, fun _ => ⟨rfl, rfl⟩⟩
    | none =>
      dsimp only at hlook ⊢
      cases waitFor? now q'.heap.top? giveUp with
      | none => exact ⟨_, _, hlook.run, rfl, fun h => absurd rfl h⟩
      | some wait =>
        obtain ⟨h, hand, hrun, hwaits, hend⟩ := ih q' (now + wait) (waits ++ [wait])
        exact ⟨_, hand, (hlook.run.step (.pass (now + wait))).trans hrun, hwaits, hend⟩

end Queue

namespace Operator

variable {o : Operator τ} {settings : Settings τ}

def shift (o : Operator τ) (hand : Hand τ) : Shift τ := ⟨o.session.now, o.worker, hand⟩

theorem step_observe (o : Operator τ) (event : Event) (hand : Hand τ) :
    Step (o.shift hand) (.saw o.session.now event (o.observe event).1)
      ((o.observe event).2.shift hand) :=
  .see event

def sightings (o : Operator τ) (ending : WatchEnd) (stop : Bool) (streams : List Stream) :
    List (Deed τ) :=
  o.worker.sightings o.session.now
    ((o.followStreams ending stop streams).1.deeds.filterMap WatchDeed.heeded?)

theorem eq_saw_of_mem_sightings {ending : WatchEnd} {stop : Bool} {streams : List Stream}
    {d : Deed τ} (hd : d ∈ o.sightings ending stop streams) :
    ∃ seen result, d = .saw o.session.now seen result :=
  Worker.eq_saw_of_mem_sightings hd

theorem filter_isTold_sightings (o : Operator τ) (ending : WatchEnd) (stop : Bool)
    (streams : List Stream) :
    (o.sightings ending stop streams).filter Deed.isTold = o.sightings ending stop streams := by
  rw [List.filter_eq_self]
  intro d hd
  obtain ⟨seen, result, rfl⟩ := eq_saw_of_mem_sightings hd
  rfl

theorem run_followStreams (o : Operator τ) (ending : WatchEnd) (stop : Bool)
    (streams : List Stream) (hand : Hand τ) :
    Run (o.shift hand) (o.sightings ending stop streams)
      ((o.followStreams ending stop streams).2.shift hand) :=
  Watch.run_follow (o.shift hand) ending streams stop

theorem run_takeKey (o : Operator τ) (timeout : Option τ) :
    ∃ h hand, Run (o.shift .free) h ((o.takeKey timeout).2.shift hand) ∧
      h.all Deed.isOfWait = true ∧
      ((o.takeKey timeout).1 ≠ .error .idleForEver → hand = .afterWait (o.takeKey timeout).1) ∧
      ∀ k?, (o.takeKey timeout).1 = .ok k? → h.filter Deed.isTold = [.looked (some (.ok k?))] := by
  have hwait : ∀ giveUp, ∃ h hand,
      let taken := o.worker.queue.await Queue.mostWaits o.session.now giveUp []
      Run (o.shift .free) h ⟨taken.now, ⟨taken.queue, o.worker.failures⟩, hand⟩ ∧
        h.all Deed.isOfWait = true ∧
        (taken.found ≠ .error .idleForEver → hand = .afterWait taken.found) ∧
        ∀ k?, taken.found = .ok k? → h.filter Deed.isTold = [.looked (some (.ok k?))] := by
    intro giveUp
    obtain ⟨h, hand, hrun, hwaits, hend⟩ := Queue.run_await Queue.mostWaits o.worker.queue
      o.worker.failures o.session.now giveUp []
    refine ⟨_, _, (Step.seek giveUp rfl).run.trans hrun, hwaits, fun hfound => (hend hfound).1, ?_⟩
    intro k? hfound
    rw [hfound] at hend
    exact (hend nofun).2
  unfold takeKey Queue.take
  cases timeout with
  | none => exact hwait none
  | some timeout =>
    dsimp only
    cases Seconds.later? o.session.now timeout with
    | none => exact ⟨[], .free, .refl, rfl, fun _ => rfl, nofun⟩
    | some giveUp => exact hwait (some giveUp)

/-- A key in hand is dealt with: its backup is read, a reconcile comes to a verdict, and the
consequences are drawn. -/
theorem run_conclude (o : Operator τ) (k : ObjectKey) :
    ∃ answer, (Verdict.ofResult o.settings.requeueAfter (o.reconcileKey k).1).Follows o.settings k
        answer ∧
      Run (o.shift (.holding k))
        [.read k answer, .passed (o.reconcileKey k).2.session.now,
          .judged k answer (.ofResult o.settings.requeueAfter (o.reconcileKey k).1),
          .ended k (.ofResult o.settings.requeueAfter (o.reconcileKey k).1)
            ((o.reconcileKey k).2.conclude k (o.reconcileKey k).1).1]
        (((o.reconcileKey k).2.conclude k (o.reconcileKey k).1).2.shift .free) := by
  refine ⟨(Api.Session.host.answer o.session (.getBackup k.ns k.name)).1,
    ⟨_, Api.Session.host, o.session, rfl, rfl⟩, ?_⟩
  exact (((Step.read _ rfl).run.step (.pass _)).step (.judge _ rfl)).step (.finish rfl)

/-- What an operator tells of a look at the queue: whether it found a key, and what it then drew
from the verdict on it. -/
def deeds (o : Operator τ) (timeout : Option τ) : List (Deed τ) :=
  let (found, taken) := o.takeKey timeout
  .looked (some found) :: match found with
    | .ok (some k) =>
      let (result, judging) := taken.reconcileKey k
      [.ended k (.ofResult o.settings.requeueAfter result) (judging.conclude k result).1]
    | _ => []

theorem deeds_of_none {timeout : Option τ} (h : (o.takeKey timeout).1 = .ok none) :
    o.deeds timeout = [.looked (some (.ok none))] := by
  unfold deeds
  generalize o.takeKey timeout = taken at h
  obtain ⟨found, o'⟩ := taken
  obtain rfl : found = .ok none := h
  rfl

theorem deeds_of_some {timeout : Option τ} {k : ObjectKey}
    (h : (o.takeKey timeout).1 = .ok (some k)) :
    o.deeds timeout =
      let reconciled := (o.takeKey timeout).2.reconcileKey k
      [.looked (some (.ok (some k))),
        .ended k (.ofResult o.settings.requeueAfter reconciled.1)
          (reconciled.2.conclude k reconciled.1).1] := by
  unfold deeds
  generalize o.takeKey timeout = taken at h
  obtain ⟨found, o'⟩ := taken
  obtain rfl : found = .ok (some k) := h
  rfl

theorem settings_work (o : Operator τ) (timeout : Option τ) :
    (o.work timeout).2.settings = o.settings := by
  match h : (o.takeKey timeout).1 with
  | .error e =>
    rw [work_of_error h]
    rfl
  | .ok none =>
    rw [work_of_none h]
    rfl
  | .ok (some k) =>
    rw [work_of_some h]
    rfl

/-- A look at the queue is done in steps. Unless it waits for ever, the worker is at nothing
afterwards, and if it ends the steps are those that are told of. -/
theorem run_work (o : Operator τ) (timeout : Option τ) :
    ∃ h hand, Run (o.shift .free) h ((o.work timeout).2.shift hand) ∧
      (∀ k answer verdict, .judged k answer verdict ∈ h →
        verdict.Follows o.settings k answer) ∧
      ((o.work timeout).1 ≠ .error .idleForEver → hand = .free) ∧
      ∀ there, (o.work timeout).1 = .ok there → h.filter Deed.isTold = o.deeds timeout := by
  obtain ⟨h, hand, hrun, hwaits, hend, htold⟩ := o.run_takeKey timeout
  have hnot : ∀ k answer verdict, .judged k answer verdict ∉ h := by
    intro k answer verdict hmem
    cases List.all_eq_true.1 hwaits _ hmem
  have hsettings : (o.takeKey timeout).2.settings = o.settings := rfl
  match hfound : (o.takeKey timeout).1 with
  | .error e =>
    rw [work_of_error hfound]
    rw [hfound] at hend
    refine ⟨h, hand, hrun, fun k answer verdict hmem => (hnot _ _ _ hmem).elim, fun hidle => ?_,
      nofun⟩
    exact hend fun heq => hidle (congrArg _ (Except.error.inj heq))
  | .ok none =>
    rw [work_of_none hfound]
    rw [hfound] at hend
    refine ⟨h, hand, hrun, fun k answer verdict hmem => (hnot _ _ _ hmem).elim,
      fun _ => hend nofun, fun _ _ => ?_⟩
    rw [htold _ hfound, deeds_of_none hfound]
  | .ok (some k) =>
    rw [work_of_some hfound]
    rw [hfound] at hend
    obtain rfl : hand = .holding k := hend nofun
    obtain ⟨answer, hfollows, hconclude⟩ := (o.takeKey timeout).2.run_conclude k
    refine ⟨_, .free, hrun.trans hconclude, fun l answer' verdict hmem => ?_, fun _ => rfl,
      fun _ _ => ?_⟩
    · rcases List.mem_append.1 hmem with hmem | hmem
      · exact (hnot _ _ _ hmem).elim
      · obtain ⟨rfl, rfl, rfl⟩ : l = k ∧ answer' = answer ∧
            verdict = .ofResult (o.takeKey timeout).2.settings.requeueAfter
              ((o.takeKey timeout).2.reconcileKey k).1 := by
          simpa using hmem
        exact hsettings ▸ hfollows
    · rw [List.filter_append, htold _ hfound, deeds_of_some hfound]
      rfl

/-- What an operator comes to, and what it tells of, when it takes events, follows streams and
looks one after the other. The API and the clock may come to anything in between. -/
inductive InTurn (first : Operator τ) : List (Deed τ) → Operator τ → Prop where
  | refl : InTurn first [] first
  | elapse {told : List (Deed τ)} {o : Operator τ} (h : InTurn first told o)
    (session : Api.Session τ) : InTurn first told { o with session }
  | observe {told : List (Deed τ)} {o : Operator τ} (h : InTurn first told o) (event : Event) :
    InTurn first (told ++ [.saw o.session.now event (o.observe event).1]) (o.observe event).2
  | follow {told : List (Deed τ)} {o : Operator τ} (h : InTurn first told o) (ending : WatchEnd)
    (stop : Bool) (streams : List Stream) :
    InTurn first (told ++ o.sightings ending stop streams) (o.followStreams ending stop streams).2
  | work {told : List (Deed τ)} {o : Operator τ} (h : InTurn first told o) {timeout : Option τ}
    {there : Bool} (hok : (o.work timeout).1 = .ok there) :
    InTurn first (told ++ o.deeds timeout) (o.work timeout).2

variable {first : Operator τ} {told : List (Deed τ)}

theorem InTurn.settings_eq (ho : InTurn first told o) : o.settings = first.settings := by
  induction ho with
  | refl => rfl
  | elapse _ session ih => exact ih
  | observe _ event ih => exact ih
  | follow _ ending stop streams ih => exact ih
  | work _ hok ih => rw [settings_work, ih]

theorem exists_run_append {o' : Operator τ} {h' : List (Deed τ)}
    (hbefore : ∃ h, Run (first.shift .free) h (o.shift .free) ∧ h.filter Deed.isTold = told ∧
      ∀ k answer verdict, .judged k answer verdict ∈ h → verdict.Follows first.settings k answer)
    (hrun : Run (o.shift .free) h' (o'.shift .free))
    (hjudged : ∀ k answer verdict, .judged k answer verdict ∈ h' →
      verdict.Follows first.settings k answer) :
    ∃ h, Run (first.shift .free) h (o'.shift .free) ∧
      h.filter Deed.isTold = told ++ h'.filter Deed.isTold ∧
      ∀ k answer verdict, .judged k answer verdict ∈ h →
        verdict.Follows first.settings k answer := by
  obtain ⟨h, hfirst, rfl, hfollows⟩ := hbefore
  refine ⟨h ++ h', hfirst.trans hrun, List.filter_append .., fun k answer verdict hmem => ?_⟩
  rcases List.mem_append.1 hmem with hmem | hmem
  · exact hfollows k answer verdict hmem
  · exact hjudged k answer verdict hmem

/-- What an operator comes to is a state of a worker beside its watch, and what it tells of is what
is told in a history that leads there. -/
theorem InTurn.exists_run (ho : InTurn first told o) :
    ∃ h, Run (first.shift .free) h (o.shift .free) ∧ h.filter Deed.isTold = told ∧
      ∀ k answer verdict, .judged k answer verdict ∈ h →
        verdict.Follows first.settings k answer := by
  induction ho with
  | refl => exact ⟨[], .refl, rfl, fun _ _ _ hmem => absurd hmem List.not_mem_nil⟩
  | @elapse told o _ session ih =>
    have hpass : Run (o.shift .free) [.passed session.now]
        (({ o with session } : Operator τ).shift .free) := (Step.pass session.now).run
    obtain ⟨h, hrun, htold, hfollows⟩ := exists_run_append ih hpass (by simp)
    exact ⟨h, hrun, htold.trans (List.append_nil told), hfollows⟩
  | @observe told o _ event ih =>
    exact exists_run_append ih (step_observe o event .free).run (by simp)
  | @follow told o _ ending stop streams ih =>
    rw [← filter_isTold_sightings]
    apply exists_run_append ih (o.run_followStreams ending stop streams .free)
    intro k answer verdict hmem
    obtain ⟨_, _, hsaw⟩ := eq_saw_of_mem_sightings hmem
    cases hsaw
  | @work told o hturn timeout there hok ih =>
    obtain ⟨h, hand, hwork, hjudged, hfree, htold⟩ := o.run_work timeout
    have hends : (o.work timeout).1 ≠ .error .idleForEver := by
      rw [hok]
      nofun
    obtain rfl : hand = .free := hfree hends
    rw [← htold there hok]
    apply exists_run_append ih hwork
    rw [← hturn.settings_eq]
    exact hjudged

def deedsTimes : Nat → Operator τ → List (Deed τ)
  | 0, _ => []
  | n + 1, o => o.deeds (some runTimeout) ++ deedsTimes n (o.work (some runTimeout)).2

theorem workTimes_of_error {n : Nat} {e : Breakdown}
    (h : (o.work (some runTimeout)).1 = .error e) :
    (o.workTimes (n + 1)).1 = .error e := by
  unfold workTimes
  generalize o.work (some runTimeout) = worked at h
  obtain ⟨there, o'⟩ := worked
  obtain rfl : there = .error e := h
  rfl

theorem workTimes_of_ok {n : Nat} {there : Bool} (h : (o.work (some runTimeout)).1 = .ok there) :
    o.workTimes (n + 1) =
      (((o.work (some runTimeout)).2.workTimes n).1.map (there :: ·),
        ((o.work (some runTimeout)).2.workTimes n).2) := by
  rw [workTimes]
  generalize o.work (some runTimeout) = worked at h
  obtain ⟨there', o'⟩ := worked
  obtain rfl : there' = .ok there := h
  rfl

theorem InTurn.workTimes (ho : InTurn first told o) {n : Nat} {processed : List Bool}
    (hok : (o.workTimes n).1 = .ok processed) :
    InTurn first (told ++ o.deedsTimes n) (o.workTimes n).2 := by
  induction n generalizing told o processed with
  | zero =>
    rw [deedsTimes, List.append_nil]
    exact ho
  | succ n ih =>
    rw [deedsTimes, ← List.append_assoc]
    cases hwork : (o.work (some runTimeout)).1 with
    | error e =>
      rw [workTimes_of_error hwork] at hok
      cases hok
    | ok there =>
      rw [workTimes_of_ok hwork] at hok ⊢
      cases hrest : ((o.work (some runTimeout)).2.workTimes n).1 with
      | error e =>
        rw [hrest] at hok
        cases hok
      | ok rest => exact ih (ho.work hwork) hrest

/-- What an operator tells of in a run of the controller: what its watch sees, and then what comes
of the looks. -/
def runDeeds (o : Operator τ) (streams : List Stream) (looks : Nat) (stop : Bool) :
    List (Deed τ) :=
  let (watch, watched) := o.followStreams .parks stop streams
  o.sightings .parks stop streams ++ watched.deedsTimes (if watch.stop then 0 else looks)

/-- A run of the controller that ends is made of a watch and looks, one after the other. -/
theorem InTurn.run {streams : List Stream} {looks : Nat} {stop : Bool} {report : RunReport}
    (hok : (o.run streams looks stop).1 = .ok report) :
    InTurn o (o.runDeeds streams looks stop) (o.run streams looks stop).2 := by
  have hwatch := (InTurn.refl : InTurn o [] o).follow .parks stop streams
  unfold Operator.run at hok ⊢
  unfold runDeeds
  generalize o.followStreams .parks stop streams = followed at hok hwatch ⊢
  obtain ⟨watch, o'⟩ := followed
  dsimp only at hok hwatch ⊢
  generalize (if watch.stop then 0 else looks) = n at hok ⊢
  have hlooks : ∀ processed, (o'.workTimes n).1 = .ok processed →
      InTurn o (o.sightings .parks stop streams ++ o'.deedsTimes n) (o'.workTimes n).2 :=
    fun _ => hwatch.workTimes
  generalize o'.workTimes n = looked at hok hlooks ⊢
  obtain ⟨processed, o''⟩ := looked
  cases processed with
  | error e => cases hok
  | ok processed => exact hlooks processed rfl

end Operator

end ClusterBackup
