import ClusterBackup.Proofs.Operator.Work
import ClusterBackup.Proofs.Queue.Overtaking
import ClusterBackup.Proofs.Worker.Streaks
/-!
# The turns of keys

What a worker beside its watch does is done to its queue too: each of its runs is a run of the
queue. So a key that is due is not overtaken by those that are put back, which always have a delay,
nor by those that an event is about, if the clock has gone on by then. Times are exact here, and the
clock does not go back.
-/

namespace ClusterBackup

open Queue (KeepsOrder Move Represents turns)

/-! ## What deeds do to the queue -/

namespace Deed

def taken? {τ : Type} : Deed τ → Option ObjectKey
  | looked (some (.ok k?)) => k?
  | _ => none

def clock {τ : Type} (now : τ) : Deed τ → τ
  | passed later => later
  | _ => now

def NamesTexts {τ : Type} : Deed τ → Prop
  | saw _ event _ => event.NamesTexts
  | _ => True

/-- What is added to the queue is not due at a time: it has a delay, or it is added later. -/
def AddsAfter (time : Rat) : Deed Rat → Prop
  | saw now (.changed _ _) _ => time < now
  | ended _ (.settled delay) _ => 0 < delay
  | _ => True

end Deed

def Hand.key? {τ : Type} : Hand τ → Option ObjectKey
  | holding k => some k
  | reading k _ => some k
  | judging k _ => some k
  | _ => none

namespace Shift

/-- The clock, which shows a time at first, never goes back. -/
def Forward (now : Rat) : List (Deed Rat) → Prop
  | [] => True
  | d :: h => now ≤ d.clock now ∧ Forward (d.clock now) h

def takings {τ : Type} (h : List (Deed τ)) : List ObjectKey := h.filterMap Deed.taken?

structure OfTexts (s : Shift Rat) : Prop where
  queue : ∃ a, Represents s.worker.queue a
  hand : ∀ k, s.hand.key? = some k → k.IsText

theorem OfTexts.start : OfTexts start := ⟨⟨∅, .empty⟩, nofun⟩

/-- Moves of a queue that come to the same for it as some deeds. -/
structure Mirrors (moves : List Move) (h : List (Deed Rat)) : Prop where
  turns : turns moves = takings h
  discarded : ∀ k, .discarded k ∈ moves → ∃ d ∈ h, d.deletes k.key = true
  added : ∀ time, (∀ d ∈ h, d.AddsAfter time) →
    ∀ now k delay, .added now k delay ∈ moves → 0 < delay ∨ time < now

theorem Mirrors.nil : Mirrors [] [] := ⟨rfl, nofun, nofun⟩

theorem Mirrors.append {first rest : List Move} {before after : List (Deed Rat)}
    (hfirst : Mirrors first before) (hrest : Mirrors rest after) :
    Mirrors (first ++ rest) (before ++ after) where
  turns := by
    unfold Queue.turns takings
    rw [List.filterMap_append, List.filterMap_append]
    exact congrArg₂ (· ++ ·) hfirst.turns hrest.turns
  discarded k hk := by
    rcases List.mem_append.1 hk with hk | hk
    · obtain ⟨d, hd, hdeletes⟩ := hfirst.discarded k hk
      exact ⟨d, List.mem_append_left _ hd, hdeletes⟩
    · obtain ⟨d, hd, hdeletes⟩ := hrest.discarded k hk
      exact ⟨d, List.mem_append_right _ hd, hdeletes⟩
  added time htime now k delay hk := by
    rcases List.mem_append.1 hk with hk | hk
    · exact hfirst.added time (fun d hd => htime d (List.mem_append_left _ hd)) now k delay hk
    · exact hrest.added time (fun d hd => htime d (List.mem_append_right _ hd)) now k delay hk

theorem Mirrors.idle {d : Deed Rat} (hd : d.taken? = none) : Mirrors [] [d] where
  turns := by simp [takings, Queue.turns, hd]
  discarded := nofun
  added := nofun

theorem Mirrors.look (found : Option (Except Breakdown (Option ObjectKey))) :
    Mirrors [.looked found] [.looked found] where
  turns := by
    have hsame : (Move.looked found).given? = (Deed.looked found : Deed Rat).taken? := by
      match found with
      | none => rfl
      | some (.ok _) => rfl
      | some (.error _) => rfl
    simp only [takings, Queue.turns, List.filterMap_cons, hsame, List.filterMap_nil]
  discarded := by simp
  added := by simp

theorem Mirrors.add {d : Deed Rat} {now delay : Rat} {k : TextKey} (hd : d.taken? = none)
    (hnew : ∀ time, d.AddsAfter time → 0 < delay ∨ time < now) :
    Mirrors [.added now k delay] [d] where
  turns := by simp [takings, Queue.turns, hd, Move.given?]
  discarded := by simp
  added time htime now' k' delay' hk := by
    obtain ⟨rfl, rfl, rfl⟩ : now' = now ∧ k' = k ∧ delay' = delay := by simpa using hk
    exact hnew time (htime d List.mem_cons_self)

variable {s t : Shift Rat} {d : Deed Rat} {h : List (Deed Rat)}

theorem Step.now_eq (hstep : Step s d t) : t.now = d.clock s.now := by
  cases hstep <;> rfl

theorem Run.forward {before after : List (Deed Rat)} (hrun : Run s before t)
    (hclock : Forward s.now (before ++ after)) : Forward s.now before ∧ Forward t.now after := by
  induction before generalizing s with
  | nil =>
    obtain rfl := hrun.eq_first
    exact ⟨trivial, hclock⟩
  | cons d before ih =>
    obtain ⟨r, hstep, hrest⟩ := hrun.cons
    rw [List.cons_append, Forward, ← hstep.now_eq] at hclock
    obtain ⟨hbefore, hafter⟩ := ih hrest hclock.2
    rw [Forward, ← hstep.now_eq]
    exact ⟨⟨hclock.1, hbefore⟩, hafter⟩

def clocked (s : Shift Rat) : Queue.Clocked := ⟨s.now, s.worker.queue⟩

theorem retryAfter_pos (r : Rat) (n : Nat) : 0 < retryAfter r n := by
  unfold retryAfter
  apply lt_max_of_lt_right
  positivity

/-- An event is dealt with by one move of the queue, or by none. -/
theorem exists_mirrors_observe (s : Shift Rat) {event : Event} (hkeys : event.NamesTexts)
    (result : Except Breakdown Unit) :
    ∃ moves, Queue.Clocked.Run s.clocked moves ⟨s.now, (s.worker.observe s.now event).2.queue⟩ ∧
      Mirrors moves [.saw s.now event result] := by
  cases event with
  | nothing => exact ⟨[], .refl, .idle rfl⟩
  | changed ns name =>
    cases hof : ObjectKey.of? ns name with
    | none =>
      refine ⟨[], ?_, .idle rfl⟩
      have hsame : (s.worker.observe s.now (.changed ns name)).2.queue = s.worker.queue := by
        simp [Worker.observe, Queue.offer, hof]
      rw [hsame]
      exact .refl
    | some l =>
      obtain ⟨k, rfl⟩ := hkeys l hof
      refine ⟨[.added s.now k 0], ?_, .add rfl fun time htime => .inr htime⟩
      have hadd : (s.worker.observe s.now (.changed ns name)).2.queue =
          (s.worker.queue.add s.now k.key 0).2 := by
        simp [Worker.observe, Queue.add, hof]
      rw [hadd]
      exact .step (.add (s := s.clocked) k 0) .refl
  | deleted ns name =>
    cases hof : ObjectKey.of? ns name with
    | none =>
      refine ⟨[], ?_, .idle rfl⟩
      have hsame : (s.worker.observe s.now (.deleted ns name)).2.queue = s.worker.queue := by
        simp [Worker.observe, Worker.forget, hof]
      rw [hsame]
      exact .refl
    | some l =>
      obtain ⟨k, rfl⟩ := hkeys l hof
      refine ⟨[.discarded k], ?_, ⟨rfl, fun k' hk' => ?_, ?_⟩⟩
      · have hdiscard : (s.worker.observe s.now (.deleted ns name)).2.queue =
            s.worker.queue.discard k.key := by
          simp [Worker.observe, Worker.forget, Worker.forgive, hof]
        rw [hdiscard]
        exact .step (.discard (s := s.clocked) k) .refl
      · obtain rfl : k' = k := by simpa using hk'
        exact ⟨_, List.mem_singleton_self _, by simp [Deed.deletes, Event.deletes, hof]⟩
      · intro _ _ _ _ _ hadded
        cases List.mem_singleton.1 hadded

/-- The consequences of a verdict come to one addition, or none. -/
theorem exists_mirrors_finish (s : Shift Rat) {k : TextKey} (verdict : Verdict Rat)
    (result : Except Breakdown Unit) :
    ∃ moves, Queue.Clocked.Run s.clocked moves
        ⟨s.now, (s.worker.finish s.now k.key verdict).2.queue⟩ ∧
      Mirrors moves [.ended k.key verdict result] := by
  have hadd : ∀ delay, Queue.Clocked.Run s.clocked [.added s.now k delay]
      ⟨s.now, (s.worker.queue.add s.now k.key delay).2⟩ := fun delay =>
    .step (.add (s := s.clocked) k delay) .refl
  rw [Worker.queue_finish]
  cases verdict with
  | gone => exact ⟨[], .refl, .idle rfl⟩
  | settled delay => exact ⟨_, hadd delay, .add rfl fun _ hdelay => .inl hdelay⟩
  | failed least =>
    rw [Worker.delayAfter?, retryDelay?_rat]
    exact ⟨_, hadd _, .add rfl fun _ _ => .inl (retryAfter_pos _ _)⟩

theorem Step.exists_mirrors (hstep : Step s d t) (hs : s.OfTexts) (hnow : s.now ≤ t.now)
    (hd : d.NamesTexts) :
    ∃ moves, Queue.Clocked.Run s.clocked moves t.clocked ∧ Mirrors moves [d] := by
  cases hstep with
  | pass now => exact ⟨[.passed], .step (.pass (s := s.clocked) hnow) .refl, rfl, by simp, by simp⟩
  | see event => exact s.exists_mirrors_observe hd _
  | seek giveUp hhand => exact ⟨[], .refl, .idle rfl⟩
  | look hhand => exact ⟨[.looked _], .step (.look (s := s.clocked) _) .refl, .look _⟩
  | read answer hhand => exact ⟨[], .refl, .idle rfl⟩
  | judge verdict hhand => exact ⟨[], .refl, .idle rfl⟩
  | @finish k verdict hhand =>
    obtain ⟨k, rfl⟩ := hs.hand k (by rw [hhand]; rfl)
    exact s.exists_mirrors_finish verdict _

/-- A key that is taken is one of texts, and so is one that is dealt with. -/
theorem Step.isText_hand (hstep : Step s d t) (hs : s.OfTexts) {k : ObjectKey}
    (hk : t.hand.key? = some k) : k.IsText := by
  cases hstep with
  | pass now => exact hs.hand k hk
  | see event => exact hs.hand k hk
  | seek giveUp hhand => cases hk
  | @look giveUp hhand =>
    obtain ⟨a, ha⟩ := hs.queue
    dsimp only at hk
    rcases ha.look s.now giveUp with ⟨d, l, -, -, hfound, -⟩ | ⟨-, hfound, -⟩
    · rw [hfound] at hk
      obtain rfl : l.key = k := Option.some.inj hk
      exact l.isText_key
    · rw [hfound] at hk
      split at hk <;> cases hk
  | read answer hhand => exact hs.hand k (by rw [hhand]; exact hk)
  | judge verdict hhand => exact hs.hand k (by rw [hhand]; exact hk)
  | finish hhand => cases hk

/-- Every run of a worker is one of its queue. -/
theorem Run.exists_mirrors (hrun : Run s h t) (hs : s.OfTexts) (hclock : Forward s.now h)
    (hkeys : ∀ d ∈ h, d.NamesTexts) :
    t.OfTexts ∧ ∃ moves, Queue.Clocked.Run s.clocked moves t.clocked ∧ Mirrors moves h := by
  induction h generalizing s with
  | nil =>
    obtain rfl := hrun.eq_first
    exact ⟨hs, [], .refl, .nil⟩
  | cons d h ih =>
    obtain ⟨r, hstep, hrest⟩ := hrun.cons
    rw [Forward, ← hstep.now_eq] at hclock
    obtain ⟨moves, hmoves, hmirrors⟩ :=
      hstep.exists_mirrors hs hclock.1 (hkeys d List.mem_cons_self)
    -- What holds of the keys before the next step: the queue's are those of an agenda again.
    obtain ⟨a, ha⟩ := hs.queue
    have hr : r.OfTexts := ⟨hmoves.represents ha, fun k hk => hstep.isText_hand hs hk⟩
    obtain ⟨ht, rest, hrestRun, hrestMirrors⟩ :=
      ih hrest hr hclock.2 fun e he => hkeys e (List.mem_cons_of_mem _ he)
    exact ⟨ht, moves ++ rest, hmoves.trans hrestRun, hmirrors.append hrestMirrors⟩

/-! ## No overtaking -/

/-- A worker takes the keys that come before one that is due, each of them once, and no others until
that one is taken or its object is deleted. -/
theorem Run.keepsOrder {before after : List (Deed Rat)} {u : Shift Rat}
    (hbefore : Run start before s) (hafter : Run s after u)
    (hclock : Forward 0 (before ++ after))
    (hkeys : ∀ d ∈ before ++ after, d.NamesTexts) {j : TextKey} {due : Rat}
    (hj : s.worker.queue.deadline? j.key = some due) (hdue : due ≤ s.now)
    (htaken : j.key ∉ takings after) (hdeleted : ∀ d ∈ after, d.deletes j.key = false)
    (hadds : ∀ d ∈ after, d.AddsAfter s.now) :
    KeepsOrder s.worker.queue due j (takings after) := by
  obtain ⟨hfirst, hrest⟩ := hbefore.forward hclock
  obtain ⟨hs, earlier, hearlier, -⟩ := hbefore.exists_mirrors .start hfirst
    fun d hd => hkeys d (List.mem_append_left _ hd)
  obtain ⟨-, moves, hmoves, hmirrors⟩ := hafter.exists_mirrors hs hrest
    fun d hd => hkeys d (List.mem_append_right _ hd)
  rw [← hmirrors.turns] at htaken ⊢
  refine (hearlier.keepsOrder hmoves hj hdue htaken (fun hmem => ?_) (hmirrors.added _ hadds)).1
  obtain ⟨d, hd, hdeletes⟩ := hmirrors.discarded j hmem
  rw [hdeleted d hd] at hdeletes
  cases hdeletes

end Shift

/-- A key that is due is not overtaken. In every run of a queue, from any moment at which a key is
due until it is given or discarded, the keys that are given are distinct, and each was queued at
that moment and came before the one that is due; who asks for a key is given one, and fewer are
given than there were keys. What is added in the meantime must have a delay or be added later than
that moment. The same order holds of the keys that a worker takes, who puts keys back after a
delay. -/
theorem due_keys_are_not_overtaken :
    (∀ {start : Rat} {s u : Queue.Clocked} {before after : List Move} {j : TextKey} {due : Rat},
      Queue.Clocked.Run ⟨start, .empty⟩ before s → Queue.Clocked.Run s after u →
      s.queue.deadline? j.key = some due → due ≤ s.now →
      j.key ∉ turns after → .discarded j ∉ after →
      (∀ now k delay, .added now k delay ∈ after → 0 < delay ∨ s.now < now) →
      KeepsOrder s.queue due j (turns after) ∧
        (∀ m ∈ after, m.asks = true → m.given?.isSome = true) ∧
        (turns after).length < s.queue.size) ∧
    (∀ {s u : Shift Rat} {before after : List (Deed Rat)} {j : TextKey} {due : Rat},
      Shift.Run .start before s → Shift.Run s after u → Shift.Forward 0 (before ++ after) →
      (∀ d ∈ before ++ after, d.NamesTexts) →
      s.worker.queue.deadline? j.key = some due → due ≤ s.now →
      j.key ∉ Shift.takings after → (∀ d ∈ after, d.deletes j.key = false) →
      (∀ d ∈ after, d.AddsAfter s.now) →
      KeepsOrder s.worker.queue due j (Shift.takings after)) :=
  ⟨fun hbefore hafter hj hdue => hbefore.keepsOrder hafter hj hdue,
    fun hbefore hafter hclock hkeys hj hdue => hbefore.keepsOrder hafter hclock hkeys hj hdue⟩

namespace Nightly

def weekly : TextKey := ("apps", "weekly")

def weeklyChange : Event := .changed (.str "apps") (.str "weekly")

def toldOfBoth : Shift Rat where
  now := 0
  worker := ((Worker.idle.observe (0 : Rat) change).2.observe 0 weeklyChange).2
  hand := .waiting none

def lookedAt (hand : Hand Rat) : Shift Rat :=
  { toldOfBoth with
    worker := { toldOfBoth.worker with queue := (toldOfBoth.worker.queue.look 0 none).2 }, hand }

theorem run_toldOfBoth :
    Shift.Run .start [.saw 0 change (Worker.idle.observe (0 : Rat) change).1,
      .saw 0 weeklyChange ((Worker.idle.observe (0 : Rat) change).2.observe 0 weeklyChange).1,
      .sought] toldOfBoth :=
  ((Shift.Run.refl.step (.see change)).step (.see weeklyChange)).step (.seek none rfl)

end Nightly

theorem due_keys_are_not_overtaken_nightly :
    (∃ (s u : Queue.Clocked) (before after : List Move),
      Queue.Clocked.Run ⟨0, .empty⟩ before s ∧ Queue.Clocked.Run s after u ∧
        turns after = [Nightly.key] ∧
        KeepsOrder s.queue 0 Nightly.weekly (turns after)) ∧
    ∃ (s u : Shift Rat) (before after : List (Deed Rat)),
      Shift.Run .start before s ∧ Shift.Run s after u ∧ Shift.takings after = [Nightly.key] ∧
        KeepsOrder s.worker.queue 0 Nightly.weekly (Shift.takings after) := by
  have hfound : (Nightly.toldOfBoth.worker.queue.look 0 none).1 = some (.ok (some Nightly.key)) :=
    Nightly.eq_key_of_any (by decide +kernel)
  have hweekly : Nightly.toldOfBoth.worker.queue.deadline? Nightly.weekly.key = some 0 := by
    decide +kernel
  have hne : Nightly.weekly.key ≠ Nightly.key := by
    change Nightly.weekly.key ≠ TextKey.key ("apps", "nightly")
    rw [Ne, TextKey.key_inj]
    decide
  constructor
  · have hbefore : Queue.Clocked.Run ⟨0, .empty⟩
        [.added 0 ("apps", "nightly") 0, .added 0 Nightly.weekly 0]
        ⟨0, Nightly.toldOfBoth.worker.queue⟩ :=
      .step (.add ("apps", "nightly") 0) (.step (.add Nightly.weekly 0) .refl)
    have hlook : Queue.Clocked.Step ⟨0, Nightly.toldOfBoth.worker.queue⟩
        (.looked (Nightly.toldOfBoth.worker.queue.look 0 none).1) _ := .look none
    rw [hfound] at hlook
    have hafter := Queue.Clocked.Run.step hlook .refl
    refine ⟨_, _, _, _, hbefore, hafter, rfl, ?_⟩
    exact (due_keys_are_not_overtaken.1 hbefore hafter hweekly le_rfl
      (by simpa [turns, Move.given?] using hne) (by simp) (by simp)).1
  · have hlook : Shift.Step Nightly.toldOfBoth
        (.looked (Nightly.toldOfBoth.worker.queue.look 0 none).1)
        (Nightly.lookedAt (.afterLook none (Nightly.toldOfBoth.worker.queue.look 0 none).1)) :=
      .look rfl
    rw [hfound] at hlook
    have hafter := ((hlook.run.step (.read (.error .notFound) rfl)).step
      (.judge (.failed 0) rfl)).step (.finish rfl)
    refine ⟨_, _, _, _, Nightly.run_toldOfBoth, hafter, rfl, ?_⟩
    refine due_keys_are_not_overtaken.2 Nightly.run_toldOfBoth hafter ?_ ?_ hweekly le_rfl ?_ ?_ ?_
    · simp [Shift.Forward, Deed.clock]
    · simp [Deed.NamesTexts, Event.NamesTexts, Nightly.change, Nightly.weeklyChange]
      exact ⟨TextKey.isText_key ("apps", "nightly"), Nightly.weekly.isText_key⟩
    · simpa [Shift.takings, Deed.taken?] using hne
    · simp [Deed.deletes]
    · simp [Deed.AddsAfter]

end ClusterBackup
