import ClusterBackup.Api.Session
import ClusterBackup.Proofs.Reconcile.Calls
import ClusterBackup.Proofs.Worker.Retry
import ClusterBackup.Proofs.Worker.Shift
/-!
# Deleted backups

When a backup is deleted while a reconcile of it is under way, the reconcile puts its key back.
The key is then taken once more, the backup is found to be gone, and nothing is left of it.
`Draining` says how far this has got, together with the number of times that the key was taken.
-/

namespace ClusterBackup

def IsAbsence (answer : Except Api.Failure Json) : Prop :=
  ∃ f, answer = .error f ∧ f.hasStatus 404 = true

/-- A reconcile that is given the answer to its read may come to the verdict. -/
def Verdict.Follows {τ : Type} [Seconds τ] (settings : Settings τ) (k : ObjectKey)
    (answer : Except Api.Failure Json) (verdict : Verdict τ) : Prop :=
  ∃ (σ : Type) (host : Api.Program.Host τ σ) (s : σ),
    (host.answer s (.getBackup k.ns k.name)).1 = answer ∧
      verdict = .ofResult settings.requeueAfter ((reconcile settings k).run host s).1

theorem Verdict.Follows.eq_gone {τ : Type} [Seconds τ] {settings : Settings τ} {k : ObjectKey}
    {answer : Except Api.Failure Json} {verdict : Verdict τ}
    (h : verdict.Follows settings k answer) (ha : IsAbsence answer) : verdict = .gone := by
  obtain ⟨σ, host, s, hanswer, rfl⟩ := h
  obtain ⟨f, rfl, hf⟩ := ha
  have hrun : ((reconcile settings k).run host s).1 = .ok .gone := by
    rw [reconcile_eq]
    show ((afterRead settings k (host.answer s (.getBackup k.ns k.name)).1).run host _).1 = _
    rw [hanswer]
    exact congrArg Except.ok (if_pos hf)
  rw [hrun]
  rfl

theorem Event.deletes_of_concerns {τ : Type} {k : ObjectKey} {now : τ} {event : Event}
    {result : Except Breakdown Unit} (hd : (Deed.saw now event result).concerns k = true)
    (hquiet : (Deed.saw now event result).changes k = false) : event.deletes k = true := by
  have hchanges : event.changes k = false := hquiet
  simpa [Deed.concerns, hchanges] using hd

theorem Deed.takes_of_not_concerns {τ : Type} {k : ObjectKey} {d : Deed τ}
    (hd : d.concerns k = false) : d.takes k = false := by
  cases d with
  | looked found => exact hd
  | _ => rfl

/-- What the worker is at can only end with the backup being gone. -/
def Hand.IsLast {τ : Type} : Hand τ → Prop
  | free => False
  | waiting _ => False
  | holding _ => True
  | reading _ answer => IsAbsence answer
  | judging _ verdict => verdict = .gone

theorem Hand.isLast_afterLook {τ : Type} {giveUp : Option τ} {k : ObjectKey}
    {found : Option (Except Breakdown (Option ObjectKey))}
    (h : (afterLook giveUp found).isOn k = true) : (afterLook giveUp found).IsLast := by
  match found, h with
  | some (.ok (some _)), _ => trivial
  | none, h => cases h
  | some (.ok none), h => cases h
  | some (.error _), h => cases h

namespace Shift

/-! ## Keys that are gone -/

section

variable {τ : Type} [Seconds τ] {k : ObjectKey} {s t : Shift τ} {d : Deed τ}

/-- The key is not taken, and neither in the queue nor among the failures. -/
structure Lacks (k : ObjectKey) (s : Shift τ) : Prop where
  hand : s.hand.isOn k = false
  queue : s.worker.queue.deadline? k = none
  failures : s.worker.failures.find? k = none

/-- A key does not come back by itself. -/
theorem Lacks.step (hs : Lacks k s) (hstep : Step s d t) (hquiet : d.changes k = false) :
    Lacks k t ∧ d.takes k = false := by
  cases hd : d.concerns k with
  | false =>
    have hsame := hstep.sameAt hd
    refine ⟨⟨hsame.isOn.trans hs.hand, hsame.deadline.trans hs.queue,
      hsame.failures.trans hs.failures⟩, Deed.takes_of_not_concerns hd⟩
  | true =>
    have hoff : s.hand.isOn k ≠ true := Bool.eq_false_iff.1 hs.hand
    cases hstep with
    | pass => cases hd
    | seek => cases hd
    | see event =>
      obtain ⟨-, hqueue, hfailures⟩ :=
        (Step.see (s := s) event).deleted (Event.deletes_of_concerns hd hquiet)
      exact ⟨⟨hs.hand, hqueue, hfailures⟩, rfl⟩
    | look hhand =>
      rcases Step.look_cases (.look hhand) k with ⟨-, -, hthere, -⟩ | ⟨htakes, -⟩
      · rw [hs.queue] at hthere
        cases hthere
      · rw [Deed.concerns, htakes] at hd
        cases hd
    | read answer hhand => exact (hoff (by rw [hhand]; exact hd)).elim
    | judge verdict hhand => exact (hoff (by rw [hhand]; exact hd)).elim
    | finish hhand => exact (hoff (by rw [hhand]; exact hd)).elim

theorem Run.lacks {h : List (Deed τ)} (hrun : Run s h t) (hs : Lacks k s)
    (hquiet : ∀ d ∈ h, d.changes k = false) : Lacks k t ∧ h.countP (·.takes k) = 0 := by
  induction hrun with
  | refl => exact ⟨hs, rfl⟩
  | @step h m t d _ hstep ih =>
    obtain ⟨hm, hnone⟩ := ih fun e he => hquiet e (List.mem_append_left _ he)
    obtain ⟨ht, htakes⟩ := hm.step hstep (hquiet d List.mem_append_cons_self)
    refine ⟨ht, ?_⟩
    rw [List.countP_append, hnone, List.countP_singleton, htakes]
    rfl

end

/-! ## Keys that are put back -/

variable {k : ObjectKey} {s t : Shift Binary64} {d : Deed Binary64} {h : List (Deed Binary64)}
  {settings : Settings Binary64} {n : Nat}

/-- How far a deleted backup has drained away, its key having been taken a number of times: a
reconcile is still under way; its key was put back, or will not come back; it was taken for the last
time; nothing is left of it. -/
inductive Draining (k : ObjectKey) : Nat → Shift Binary64 → Prop where
  | inFlight {s : Shift Binary64} (hon : s.hand.isOn k = true)
    (hqueue : s.worker.queue.deadline? k = none) (hfailures : s.worker.failures.find? k = none) :
    Draining k 0 s
  | putBack {s : Shift Binary64} (hoff : s.hand.isOn k = false)
    (hkept : s.worker.failures.find? k = none ∨ (s.worker.queue.deadline? k).isSome = true) :
    Draining k 0 s
  | lastRound {s : Shift Binary64} (hon : s.hand.isOn k = true)
    (hqueue : s.worker.queue.deadline? k = none) (hlast : s.hand.IsLast) : Draining k 1 s
  | drained {n : Nat} {s : Shift Binary64} (hn : n ≤ 1) (hs : Lacks k s) : Draining k n s

theorem Draining.sameAt (hs : Draining k n s) (hsame : SameAt k s t) : Draining k n t := by
  cases hs with
  | inFlight hon hqueue hfailures =>
    exact .inFlight (hsame.isOn.trans hon) (hsame.deadline.trans hqueue)
      (hsame.failures.trans hfailures)
  | putBack hoff hkept =>
    refine .putBack (hsame.isOn.trans hoff) ?_
    rw [hsame.failures, hsame.deadline]
    exact hkept
  | lastRound hon hqueue hlast =>
    refine .lastRound (hsame.isOn.trans hon) (hsame.deadline.trans hqueue) ?_
    rw [hsame.hand hon]
    exact hlast
  | drained hn hs =>
    exact .drained hn ⟨hsame.isOn.trans hs.hand, hsame.deadline.trans hs.queue,
      hsame.failures.trans hs.failures⟩

theorem Draining.deleted (hs : Draining k n s) (hhand : t.hand = s.hand)
    (hqueue : t.worker.queue.deadline? k = none) (hfailures : t.worker.failures.find? k = none) :
    Draining k n t := by
  cases hs with
  | inFlight hon => exact .inFlight (hhand ▸ hon) hqueue hfailures
  | putBack hoff => exact .drained (Nat.zero_le 1) ⟨hhand ▸ hoff, hqueue, hfailures⟩
  | lastRound hon _ hlast => exact .lastRound (hhand ▸ hon) hqueue (hhand ▸ hlast)
  | drained hn hs => exact .drained hn ⟨hhand ▸ hs.hand, hqueue, hfailures⟩

/-- A key that is taken while it drains away is taken for the last time. -/
theorem Draining.taken (hs : Draining k n s) (hoff : s.hand.isOn k = false)
    (hthere : (s.worker.queue.deadline? k).isSome = true) (hon : t.hand.isOn k = true)
    (hqueue : t.worker.queue.deadline? k = none) (hlast : t.hand.IsLast) :
    Draining k (n + 1) t := by
  cases hs with
  | inFlight hon' =>
    rw [hoff] at hon'
    cases hon'
  | putBack => exact .lastRound hon hqueue hlast
  | lastRound hon' =>
    rw [hoff] at hon'
    cases hon'
  | drained _ hs =>
    rw [hs.queue] at hthere
    cases hthere

/-- What is drawn from a verdict on a key that drains away: it is put back, or nothing is left. -/
theorem Draining.ended {l : ObjectKey} {verdict : Verdict Binary64} (hs : Draining k n s)
    (hhand : s.hand = .judging l verdict) (hlk : (l == k) = true) :
    Draining k n { s with worker := (s.worker.finish s.now l verdict).2, hand := .free } := by
  have hfailures := (Step.finish hhand).find?_failures k
  dsimp only at hfailures
  rw [if_pos hlk] at hfailures
  have hon : s.hand.isOn k = true := by
    rw [hhand]
    exact hlk
  cases hs with
  | inFlight _ _ hnone =>
    refine .putBack rfl ?_
    cases hfail : verdict.isFailure with
    | false =>
      rw [hfail] at hfailures
      exact .inl hfailures
    | true =>
      right
      have hfew : s.worker.failureCount l = 0 := by
        rw [Worker.failureCount, Table.find?_congr hlk, hnone]
        rfl
      rw [← Queue.deadline?_congr hlk]
      exact Worker.isSome_deadline?_of_failure hfail (by omega)
  | putBack hoff =>
    rw [hon] at hoff
    cases hoff
  | lastRound _ hqueue hlast =>
    rw [hhand] at hlast
    obtain rfl : verdict = .gone := hlast
    exact .drained le_rfl ⟨rfl, hqueue, hfailures⟩
  | drained _ hs =>
    rw [hs.hand] at hon
    cases hon

theorem Draining.step (hs : Draining k n s) (hstep : Step s d t) (hquiet : d.changes k = false)
    (habsent : ∀ l answer, d = .read l answer → (l == k) = true → IsAbsence answer)
    (hfollows : ∀ l answer verdict, d = .judged l answer verdict → (l == k) = true →
      verdict.Follows settings l answer) :
    Draining k (n + if d.takes k then 1 else 0) t := by
  cases hd : d.concerns k with
  | false =>
    rw [Deed.takes_of_not_concerns hd]
    exact hs.sameAt (hstep.sameAt hd)
  | true =>
    cases hstep with
    | pass => cases hd
    | seek => cases hd
    | see event =>
      obtain ⟨hhand, hqueue, hfailures⟩ :=
        (Step.see (s := s) event).deleted (Event.deletes_of_concerns hd hquiet)
      exact hs.deleted hhand hqueue hfailures
    | look hhand =>
      have htakes : Deed.takes k (.looked _ : Deed Binary64) = true := hd
      rcases Step.look_cases (.look hhand) k with ⟨-, hon, hthere, hqueue⟩ | ⟨hnot, -⟩
      · rw [htakes]
        exact hs.taken (by rw [hhand]; rfl) hthere hon hqueue (Hand.isLast_afterLook hon)
      · rw [htakes] at hnot
        cases hnot
    | @read l answer hhand =>
      have hon : s.hand.isOn k = true := by
        rw [hhand]
        exact hd
      cases hs with
      | inFlight _ hqueue hfailures => exact .inFlight hd hqueue hfailures
      | putBack hoff => exact absurd hon (Bool.eq_false_iff.1 hoff)
      | lastRound _ hqueue => exact .lastRound hd hqueue (habsent l answer rfl hd)
      | drained _ hs => exact absurd hon (Bool.eq_false_iff.1 hs.hand)
    | @judge l answer verdict hhand =>
      have hon : s.hand.isOn k = true := by
        rw [hhand]
        exact hd
      cases hs with
      | inFlight _ hqueue hfailures => exact .inFlight hd hqueue hfailures
      | putBack hoff => exact absurd hon (Bool.eq_false_iff.1 hoff)
      | lastRound _ hqueue hlast =>
        rw [hhand] at hlast
        exact .lastRound hd hqueue ((hfollows l answer verdict rfl hd).eq_gone hlast)
      | drained _ hs => exact absurd hon (Bool.eq_false_iff.1 hs.hand)
    | finish hhand => exact hs.ended hhand hd

theorem Run.draining (hrun : Run s h t) (hs : Draining k n s)
    (hquiet : ∀ d ∈ h, d.changes k = false)
    (habsent : ∀ l answer, .read l answer ∈ h → (l == k) = true → IsAbsence answer)
    (hfollows : ∀ l answer verdict, .judged l answer verdict ∈ h → (l == k) = true →
      verdict.Follows settings l answer) :
    Draining k (n + h.countP (·.takes k)) t := by
  induction hrun with
  | refl => exact hs
  | @step h m t d _ hstep ih =>
    have hm := ih (fun e he => hquiet e (List.mem_append_left _ he))
      (fun l answer he => habsent l answer (List.mem_append_left _ he))
      (fun l answer verdict he => hfollows l answer verdict (List.mem_append_left _ he))
    have hlast : d ∈ h ++ [d] := List.mem_append_cons_self
    rw [List.countP_append, List.countP_singleton, ← Nat.add_assoc]
    have hverdict : ∀ l answer verdict, d = .judged l answer verdict → (l == k) = true →
        verdict.Follows settings l answer :=
      fun l answer verdict hd => hfollows l answer verdict (hd ▸ hlast)
    exact hm.step hstep (hquiet d hlast) (fun l answer hd => habsent l answer (hd ▸ hlast)) hverdict

theorem Draining.le_one (hs : Draining k n s) : n ≤ 1 := by
  cases hs with
  | inFlight => exact Nat.zero_le 1
  | putBack => exact Nat.zero_le 1
  | lastRound => exact le_rfl
  | drained hn => exact hn

theorem Draining.queue (hs : Draining k 1 s) : s.worker.queue.deadline? k = none := by
  cases hs with
  | lastRound _ hqueue => exact hqueue
  | drained _ hs => exact hs.queue

theorem Draining.failures (hs : Draining k n s) (hoff : s.hand.isOn k = false)
    (hqueue : s.worker.queue.deadline? k = none) : s.worker.failures.find? k = none := by
  cases hs with
  | inFlight _ _ hfailures => exact hfailures
  | putBack _ hkept =>
    refine hkept.resolve_right ?_
    rw [hqueue]
    exact Bool.false_ne_true
  | lastRound hon => exact absurd hon (Bool.eq_false_iff.1 hoff)
  | drained _ hs => exact hs.failures

/-! ## Failure counts -/

section

variable {τ : Type} [Seconds τ] {k : ObjectKey} {s t : Shift τ} {d : Deed τ}

/-- If the key has a failure count, it is in the queue or was taken. -/
def Accounted (k : ObjectKey) (s : Shift τ) : Prop :=
  s.worker.failures.find? k = none ∨ (s.worker.queue.deadline? k).isSome = true ∨
    s.hand.isOn k = true

theorem Accounted.step (hs : Accounted k s) (hstep : Step s d t) (hd : d.breaks = false) :
    Accounted k t := by
  have hfailures := hstep.find?_failures k
  cases hstep with
  | pass => exact hs
  | seek giveUp hhand =>
    rw [Accounted, hhand] at hs
    exact hs
  | see event =>
    dsimp only at hfailures
    cases hdeletes : event.deletes k with
    | true =>
      rw [hdeletes] at hfailures
      exact .inl hfailures
    | false =>
      rw [hdeletes] at hfailures
      refine hs.imp hfailures.trans (.imp_left fun hthere => ?_)
      rw [Worker.deadline?_observe, hdeletes, if_neg Bool.false_ne_true]
      split
      · split
        · rfl
        · exact hthere
      · exact hthere
  | look hhand =>
    rcases Step.look_cases (.look hhand) k with ⟨-, hon, -⟩ | ⟨-, -, hkept⟩
    · exact .inr (.inr hon)
    · rw [Accounted, hhand] at hs
      refine hs.imp_right fun hs => .inl ?_
      rw [hkept]
      exact hs.resolve_right Bool.false_ne_true
  | read answer hhand =>
    rw [Accounted, hhand] at hs
    exact hs
  | judge verdict hhand =>
    rw [Accounted, hhand] at hs
    exact hs
  | @finish l verdict hhand =>
    dsimp only at hfailures
    by_cases hlk : (l == k) = true
    · rw [if_pos hlk] at hfailures
      cases hfail : verdict.isFailure with
      | false =>
        rw [hfail] at hfailures
        exact .inl hfailures
      | true =>
        refine .inr (.inl ?_)
        rw [← Queue.deadline?_congr hlk]
        refine Worker.isSome_deadline?_of_ok hfail ?_
        generalize (s.worker.finish s.now l verdict).1 = result at hd
        cases result with
        | ok => rfl
        | error => cases hd
    · rw [if_neg hlk] at hfailures
      rw [Accounted, hhand] at hs
      refine hs.imp hfailures.trans fun hs => .inl ?_
      exact Worker.isSome_deadline?_finish verdict (hs.resolve_right hlk)

theorem Run.accounted {h : List (Deed τ)} (hrun : Run start h s)
    (hd : ∀ d ∈ h, d.breaks = false) (k : ObjectKey) : Accounted k s := by
  induction hrun with
  | refl => exact .inl rfl
  | step _ hstep ih =>
    have hs := ih fun d hmem => hd d (List.mem_append_left _ hmem)
    exact hs.step hstep (hd _ List.mem_append_cons_self)

end

/-! ## Deletions -/

/-- After a backup was deleted, and as long as no event says that it is there again, its key is
taken at most once more, and only if a reconcile of it was under way at the deletion. Once that
is over, neither the queue nor the failure counts hold the key. As long as the worker never breaks
down, every key with a failure count is in the queue or was taken. -/
theorem deleted_backup_drains (settings : Settings Binary64) {now : Binary64} {event : Event}
    {result : Except Breakdown Unit} {s' : Shift Binary64}
    (hseen : Step s (.saw now event result) s')
    (hdeletes : event.deletes k = true) (hrun : Run s' h t)
    (hquiet : ∀ d ∈ h, d.changes k = false)
    (habsent : ∀ l answer, .read l answer ∈ h → (l == k) = true → IsAbsence answer)
    (hfollows : ∀ l answer verdict, .judged l answer verdict ∈ h → (l == k) = true →
      verdict.Follows settings l answer) :
    h.countP (·.takes k) ≤ 1 ∧
      (s.hand.isOn k = false → h.countP (·.takes k) = 0 ∧
        t.worker.queue.deadline? k = none ∧ t.worker.failures.find? k = none) ∧
      (h.countP (·.takes k) = 1 → t.worker.queue.deadline? k = none ∧
        (t.hand.isOn k = false → t.worker.failures.find? k = none)) ∧
      (t.hand.isOn k = false → t.worker.queue.deadline? k = none →
        t.worker.failures.find? k = none) ∧
      ∀ (h : List (Deed Binary64)) (s : Shift Binary64), Run start h s →
        (∀ d ∈ h, d.breaks = false) → ∀ l, s.worker.failures.find? l ≠ none →
          (s.worker.queue.deadline? l).isSome = true ∨ s.hand.isOn l = true := by
  obtain ⟨hhand, hqueue, hfailures⟩ := hseen.deleted hdeletes
  have hdraining : Draining k (h.countP (·.takes k)) t := by
    cases hon : s.hand.isOn k with
    | true =>
      have hstart : Draining k 0 s' := .inFlight (hhand ▸ hon) hqueue hfailures
      have hend := hrun.draining hstart hquiet habsent hfollows
      rwa [Nat.zero_add] at hend
    | false =>
      obtain ⟨hlacks, hnone⟩ := hrun.lacks ⟨hhand ▸ hon, hqueue, hfailures⟩ hquiet
      exact .drained (hnone ▸ Nat.zero_le 1) hlacks
  refine ⟨hdraining.le_one, fun hoff => ?_, fun hone => ?_, hdraining.failures,
    fun h s hrun hd l hl => (hrun.accounted hd l).resolve_left hl⟩
  · obtain ⟨hlacks, hnone⟩ := hrun.lacks ⟨hhand ▸ hoff, hqueue, hfailures⟩ hquiet
    exact ⟨hnone, hlacks.queue, hlacks.failures⟩
  · rw [hone] at hdraining
    exact ⟨hdraining.queue, fun hoff => hdraining.failures hoff hdraining.queue⟩

end Shift

namespace Nightly

open Shift (Run Step)

def deletion : Event := .deleted (.str "apps") (.str "nightly")

def failure : Verdict Binary64 := .failed ((5 : Nat) : Binary64)

/-- The backup was deleted while a reconcile of it was about to fail. -/
def deletedMeanwhile : Shift Binary64 :=
  let s : Shift Binary64 := taken (.judging key failure)
  { s with worker := (s.worker.observe s.now deletion).2 }

def broughtBack : Shift Binary64 where
  now := ((10 : Nat) : Binary64)
  worker := (deletedMeanwhile.worker.finish deletedMeanwhile.now key failure).2
  hand := .waiting none

def foundAgain : Option (Except Breakdown (Option ObjectKey)) × Queue Binary64 ObjectKey :=
  broughtBack.worker.queue.look broughtBack.now none

theorem foundAgain_eq : foundAgain.1 = some (.ok (some key)) :=
  eq_key_of_any (by decide +kernel)

def takenAgain : Shift Binary64 :=
  { broughtBack with
    worker := { broughtBack.worker with queue := foundAgain.2 }, hand := .holding key }

theorem run_broughtBack : Run deletedMeanwhile
    [.ended key failure (deletedMeanwhile.worker.finish deletedMeanwhile.now key failure).1,
      .passed ((10 : Nat) : Binary64), .sought] broughtBack :=
  ((Step.finish rfl).run.step (.pass _)).step (.seek none rfl)

theorem run_takenAgain : Run broughtBack [.looked (some (.ok (some key)))] takenAgain := by
  have hlook : Step broughtBack (.looked foundAgain.1)
    { takenAgain with hand := .afterLook none foundAgain.1 } := .look rfl
  rw [foundAgain_eq] at hlook
  exact hlook.run

theorem follows_gone : (Verdict.gone : Verdict Binary64).Follows .usual key (.error .notFound) :=
  ⟨_, Api.Session.host, { now := Seconds.zero }, rfl, rfl⟩

end Nightly

namespace Shift

theorem deleted_backup_drains_nightly :
    ∃ (h : List (Deed Binary64)) (t : Shift Binary64), Run Nightly.deletedMeanwhile h t ∧
      h.countP (·.takes Nightly.key) = 1 ∧ t.hand.isOn Nightly.key = false ∧
      t.worker.queue.deadline? Nightly.key = none ∧
      t.worker.failures.find? Nightly.key = none := by
  have hseen : Step (Nightly.taken (.judging Nightly.key Nightly.failure)) _
    Nightly.deletedMeanwhile := .see Nightly.deletion
  have hrun := (((Nightly.run_broughtBack.trans Nightly.run_takenAgain).step
    (.read (.error .notFound) rfl)).step (.judge .gone rfl)).step (.finish rfl)
  obtain ⟨-, -, hone, -⟩ := deleted_backup_drains (k := Nightly.key) .usual hseen rfl hrun
    (by simp [Deed.changes])
    (fun l answer hread _ => by
      obtain ⟨-, rfl⟩ : l = Nightly.key ∧ answer = .error .notFound := by simpa using hread
      exact ⟨_, rfl, by decide⟩)
    (fun l answer verdict hjudged _ => by
      obtain ⟨rfl, rfl, rfl⟩ : l = Nightly.key ∧ answer = .error .notFound ∧ verdict = .gone := by
        simpa using hjudged
      exact Nightly.follows_gone)
  exact ⟨_, _, hrun, rfl, rfl, (hone rfl).1, (hone rfl).2 rfl⟩

end Shift

end ClusterBackup
