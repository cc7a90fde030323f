import ClusterBackup.Proofs.Fleet.Basic
import ClusterBackup.Proofs.Worker.Effects
/-!
# A worker beside its watch

A worker deals with a key step by step: it waits, looks at the queue until it has taken a key, has
the backup read, comes to a verdict, and draws the consequences. Events are taken note of between
any two of these steps, and time passes as it likes. `Step` is a single step, labelled with the
`Deed` that is done, and `Run` collects the deeds. The backup may be read with any outcome, and
judged in any way; what a reconcile makes of an outcome is a matter of its own.
-/

namespace ClusterBackup

/-- What the worker is at: nothing; a wait, up to a time if there is one; or a key that it has
taken, before its backup is read, after that, or with a verdict. -/
inductive Hand (τ : Type) where
  | free
  | waiting (giveUp : Option τ)
  | holding (k : ObjectKey)
  | reading (k : ObjectKey) (answer : Except Api.Failure Json)
  | judging (k : ObjectKey) (verdict : Verdict τ)

namespace Hand

variable {τ : Type}

/-- Whether the worker has taken the key and is not done with it. -/
def isOn (k : ObjectKey) : Hand τ → Bool
  | holding l => l == k
  | reading l _ => l == k
  | judging l _ => l == k
  | free => false
  | waiting _ => false

def afterWait : Except Breakdown (Option ObjectKey) → Hand τ
  | .ok (some k) => holding k
  | _ => free

def afterLook (giveUp : Option τ) : Option (Except Breakdown (Option ObjectKey)) → Hand τ
  | none => waiting giveUp
  | some found => afterWait found

theorem isOn_afterLook {giveUp : Option τ} {found : Option (Except Breakdown (Option ObjectKey))}
    (h : ∀ l, found ≠ some (.ok (some l))) (k : ObjectKey) :
    (afterLook giveUp found).isOn k = false := by
  match found, h with
  | none, _ => rfl
  | some (.ok none), _ => rfl
  | some (.ok (some l)), h => exact absurd rfl (h l)
  | some (.error _), _ => rfl

theorem afterLook_ne_judging (giveUp : Option τ)
    (found : Option (Except Breakdown (Option ObjectKey))) (k : ObjectKey) (verdict : Verdict τ) :
    afterLook giveUp found ≠ judging k verdict := by
  match found with
  | none => nofun
  | some (.ok none) => nofun
  | some (.ok (some _)) => nofun
  | some (.error _) => nofun

end Hand

structure Shift (τ : Type) where
  now : τ
  worker : Worker τ
  hand : Hand τ

inductive Deed (τ : Type) where
  | passed (now : τ)
  | saw (now : τ) (event : Event) (result : Except Breakdown Unit)
  | sought
  | looked (found : Option (Except Breakdown (Option ObjectKey)))
  | read (k : ObjectKey) (answer : Except Api.Failure Json)
  | judged (k : ObjectKey) (answer : Except Api.Failure Json) (verdict : Verdict τ)
  | ended (k : ObjectKey) (verdict : Verdict τ) (result : Except Breakdown Unit)

namespace Deed

variable {τ : Type}

def changes (k : ObjectKey) : Deed τ → Bool
  | saw _ event _ => event.changes k
  | _ => false

def deletes (k : ObjectKey) : Deed τ → Bool
  | saw _ event _ => event.deletes k
  | _ => false

def takes (k : ObjectKey) : Deed τ → Bool
  | looked (some (.ok (some l))) => l == k
  | _ => false

def breaks : Deed τ → Bool
  | looked (some (.error _)) => true
  | ended _ _ (.error _) => true
  | _ => false

def concerns (k : ObjectKey) : Deed τ → Bool
  | passed _ => false
  | saw _ event _ => event.changes k || event.deletes k
  | sought => false
  | looked found => (looked found : Deed τ).takes k
  | read l _ => l == k
  | judged l _ _ => l == k
  | ended l _ _ => l == k

theorem takes_looked {found : Option (Except Breakdown (Option ObjectKey))}
    (h : ∀ l, found ≠ some (.ok (some l))) (k : ObjectKey) :
    (looked found : Deed τ).takes k = false := by
  unfold takes
  split
  · rename_i l heq
    cases heq
    exact absurd rfl (h l)
  · rfl

end Deed

namespace Shift

variable {τ : Type} [Seconds τ]

def start : Shift τ := ⟨Seconds.zero, .idle, .free⟩

/-- A single step, and what is done in it. -/
inductive Step : Shift τ → Deed τ → Shift τ → Prop where
  | pass {s : Shift τ} (now : τ) : Step s (.passed now) { s with now }
  | see {s : Shift τ} (event : Event) :
    Step s (.saw s.now event (s.worker.observe s.now event).1)
      { s with worker := (s.worker.observe s.now event).2 }
  | seek {s : Shift τ} (giveUp : Option τ) (hhand : s.hand = .free) :
    Step s .sought { s with hand := .waiting giveUp }
  | look {s : Shift τ} {giveUp : Option τ} (hhand : s.hand = .waiting giveUp) :
    Step s (.looked (s.worker.queue.look s.now giveUp).1)
      { s with
        worker := { s.worker with queue := (s.worker.queue.look s.now giveUp).2 }
        hand := .afterLook giveUp (s.worker.queue.look s.now giveUp).1 }
  | read {s : Shift τ} {k : ObjectKey} (answer : Except Api.Failure Json)
    (hhand : s.hand = .holding k) : Step s (.read k answer) { s with hand := .reading k answer }
  | judge {s : Shift τ} {k : ObjectKey} {answer : Except Api.Failure Json} (verdict : Verdict τ)
    (hhand : s.hand = .reading k answer) :
    Step s (.judged k answer verdict) { s with hand := .judging k verdict }
  | finish {s : Shift τ} {k : ObjectKey} {verdict : Verdict τ}
    (hhand : s.hand = .judging k verdict) :
    Step s (.ended k verdict (s.worker.finish s.now k verdict).1)
      { s with worker := (s.worker.finish s.now k verdict).2, hand := .free }

inductive Run (first : Shift τ) : List (Deed τ) → Shift τ → Prop where
  | refl : Run first [] first
  | step {h : List (Deed τ)} {s t : Shift τ} {d : Deed τ} (hrun : Run first h s)
    (hstep : Step s d t) : Run first (h ++ [d]) t

variable {first s t : Shift τ} {h before after : List (Deed τ)} {d : Deed τ}

theorem Step.run (hstep : Step s d t) : Run s [d] t := .step .refl hstep

theorem Run.trans (hrun : Run first before s) (hrest : Run s after t) :
    Run first (before ++ after) t := by
  induction hrest with
  | refl => rwa [List.append_nil]
  | step _ hstep ih =>
    rw [← List.append_assoc]
    exact .step ih hstep

theorem Run.split (hrun : Run first h t) (hh : h = before ++ after) :
    ∃ middle, Run first before middle ∧ Run middle after t := by
  induction hrun generalizing after with
  | refl =>
    obtain ⟨rfl, rfl⟩ := List.nil_eq_append_iff.1 hh
    exact ⟨_, .refl, .refl⟩
  | @step h s t d hrun hstep ih =>
    rcases List.eq_nil_or_concat after with rfl | ⟨inner, last, rfl⟩
    · rw [List.append_nil] at hh
      subst hh
      exact ⟨_, .step hrun hstep, .refl⟩
    · rw [List.concat_eq_append, ← List.append_assoc] at hh
      obtain ⟨rfl, hlast⟩ := List.append_inj' hh rfl
      obtain rfl := List.singleton_inj.1 hlast
      obtain ⟨middle, hbefore, hinner⟩ := ih rfl
      refine ⟨middle, hbefore, ?_⟩
      rw [List.concat_eq_append]
      exact .step hinner hstep

theorem Run.eq_first (hrun : Run first [] s) : s = first := by
  generalize hh : [] = h at hrun
  cases hrun with
  | refl => rfl
  | step => simp at hh

/-- A run that begins with a deed begins with a step in which it is done. -/
theorem Run.cons (hrun : Run first (d :: after) t) :
    ∃ second, Step first d second ∧ Run second after t := by
  obtain ⟨second, hone, hrest⟩ := hrun.split (show d :: after = [d] ++ after from rfl)
  refine ⟨second, ?_, hrest⟩
  generalize hd : [d] = h at hone
  cases hone with
  | refl => cases hd
  | step hbefore hstep =>
    obtain ⟨rfl, hlast⟩ := List.append_inj' (show [] ++ [d] = _ from hd) rfl
    obtain rfl := List.singleton_inj.1 hlast
    rwa [hbefore.eq_first] at hstep

/-! ## What a step does to a key -/

/-- Failures are only counted and forgiven by events and verdicts on the key itself. -/
theorem Step.find?_failures (hstep : Step s d t) (k : ObjectKey) :
    t.worker.failures.find? k =
      match d with
      | .saw _ event _ => if event.deletes k then none else s.worker.failures.find? k
      | .ended l verdict _ =>
        if l == k then
          if verdict.isFailure then some (s.worker.failureCount k + 1) else none
        else s.worker.failures.find? k
      | _ => s.worker.failures.find? k := by
  cases hstep with
  | see event => exact Worker.find?_failures_observe s.worker s.now event k
  | finish =>
    dsimp only
    rw [Worker.failures_finish, Worker.find?_failures_account]
    split
    · rename_i hl
      rw [Worker.failureCount, Worker.failureCount, Table.find?_congr hl]
    · rfl
  | pass | seek | look | read | judge => rfl

/-- A deletion that is seen takes the key out of the queue and forgives its failures. -/
theorem Step.deleted {now : τ} {event : Event} {result : Except Breakdown Unit} {k : ObjectKey}
    (hstep : Step s (.saw now event result) t) (hdeletes : event.deletes k = true) :
    t.hand = s.hand ∧ t.worker.queue.deadline? k = none ∧ t.worker.failures.find? k = none := by
  have hfailures := hstep.find?_failures k
  cases hstep with
  | see =>
    refine ⟨rfl, ?_, hfailures.trans (if_pos hdeletes)⟩
    rw [Worker.deadline?_observe, hdeletes]
    rfl

/-- A look takes a key out of the queue if it finds it. -/
theorem Step.look_cases {found : Option (Except Breakdown (Option ObjectKey))}
    (hstep : Step s (.looked found) t) (k : ObjectKey) :
    (.looked found : Deed τ).takes k = true ∧ t.hand.isOn k = true ∧
        (s.worker.queue.deadline? k).isSome = true ∧ t.worker.queue.deadline? k = none ∨
      (.looked found : Deed τ).takes k = false ∧ t.hand.isOn k = false ∧
        t.worker.queue.deadline? k = s.worker.queue.deadline? k := by
  cases hstep with
  | @look giveUp hhand =>
    rcases Queue.look_cases s.worker.queue s.now giveUp with ⟨l, hl, hthere, hout⟩ | ⟨hno, hkept⟩
    · dsimp only
      rw [hl, hout]
      by_cases hlk : (l == k) = true
      · rw [if_pos hlk, ← Queue.deadline?_congr hlk]
        exact .inl ⟨hlk, hlk, hthere, rfl⟩
      · rw [if_neg hlk]
        exact .inr ⟨Bool.eq_false_iff.2 hlk, Bool.eq_false_iff.2 hlk, rfl⟩
    · exact .inr ⟨Deed.takes_looked hno k, Hand.isOn_afterLook hno k, hkept k⟩

/-- Two states that do not differ as far as a key goes. -/
structure SameAt (k : ObjectKey) (s t : Shift τ) : Prop where
  deadline : t.worker.queue.deadline? k = s.worker.queue.deadline? k
  failures : t.worker.failures.find? k = s.worker.failures.find? k
  isOn : t.hand.isOn k = s.hand.isOn k
  hand : s.hand.isOn k = true → t.hand = s.hand

omit [Seconds τ] in
theorem SameAt.of_hand {k : ObjectKey} {hand : Hand τ} (hs : s.hand.isOn k = false)
    (ht : hand.isOn k = false) : SameAt k s { s with hand } where
  deadline := rfl
  failures := rfl
  isOn := ht.trans hs.symm
  hand hon := absurd hon (Bool.eq_false_iff.1 hs)

theorem Step.sameAt {k : ObjectKey} (hstep : Step s d t) (hd : d.concerns k = false) :
    SameAt k s t := by
  have hfailures := hstep.find?_failures k
  cases hstep with
  | pass now => exact ⟨rfl, rfl, rfl, fun _ => rfl⟩
  | see event =>
    obtain ⟨hchanges, hdeletes⟩ := Bool.or_eq_false_iff.1 hd
    refine ⟨?_, ?_, rfl, fun _ => rfl⟩
    · rw [Worker.deadline?_observe, hdeletes, hchanges]
      rfl
    · rw [Worker.find?_failures_observe, hdeletes]
      rfl
  | seek giveUp hhand => exact .of_hand (by rw [hhand]; rfl) rfl
  | @look giveUp hhand =>
    rcases Step.look_cases (.look hhand) k with ⟨htakes, -⟩ | ⟨-, hoff, hkept⟩
    · rw [Deed.concerns, htakes] at hd
      cases hd
    · refine ⟨hkept, rfl, ?_, fun hon => ?_⟩
      · rw [hoff, hhand]
        rfl
      · rw [hhand] at hon
        cases hon
  | read answer hhand => exact .of_hand (by rw [hhand]; exact hd) hd
  | judge verdict hhand => exact .of_hand (by rw [hhand]; exact hd) hd
  | @finish l verdict hhand =>
    have hne : (l == k) = false := hd
    refine ⟨Worker.deadline?_finish_of_ne hne verdict, ?_, ?_, fun hon => ?_⟩
    · rw [hfailures]
      dsimp only
      rw [hne]
      rfl
    · rw [hhand]
      exact hne.symm
    · rw [hhand] at hon
      exact absurd hon (Bool.eq_false_iff.1 hne)

end Shift

namespace Nightly

open Shift (Run Step)

variable {τ : Type} [Seconds τ]

def change : Event := .changed (.str "apps") (.str "nightly")

def told : Shift τ where
  now := Seconds.zero
  worker := (Worker.idle.observe Seconds.zero change).2
  hand := .waiting none

def found : Option (Except Breakdown (Option ObjectKey)) × Queue τ ObjectKey :=
  told.worker.queue.look Seconds.zero none

theorem eq_key_of_any {found : Option (Except Breakdown (Option ObjectKey))}
    (h : found.any (·.toOption.join.any (· == key)) = true) : found = some (.ok (some key)) := by
  match found, h with
  | some (.ok (some k)), h =>
    have hk : (k == TextKey.key ("apps", "nightly")) = true := h
    rw [ObjectKey.eq_key_of_beq hk]
    rfl

def taken (hand : Hand τ) : Shift τ :=
  { (told : Shift τ) with worker := { (told : Shift τ).worker with queue := found.2 }, hand }

theorem run_taken (h : (found (τ := τ)).1 = some (.ok (some key))) :
    Run .start [.saw Seconds.zero change (Worker.idle.observe (Seconds.zero : τ) change).1, .sought,
      .looked (some (.ok (some key)))] (taken (.holding key) : Shift τ) := by
  have hlook : Step told (.looked found.1) (taken (.afterLook none found.1) : Shift τ) := .look rfl
  rw [h] at hlook
  exact (((Run.refl.step (.see change)).step (.seek none rfl)).step hlook : Run .start _ _)

end Nightly

end ClusterBackup
