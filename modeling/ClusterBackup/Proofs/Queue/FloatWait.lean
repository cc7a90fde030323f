import ClusterBackup.Proofs.Clock.FloatTime
import ClusterBackup.Proofs.Queue.Waiting
/-!
# Waits in binary64 numbers

A wait ends when the time has come that it is made for: the deadline on top of the heap or the time
to give up. The time left is rounded, and so is the time after a round, so one round may end too
early. The first round leads at least halfway there and the second one right there, so that three
rounds are enough, whatever the numbers.
-/

namespace ClusterBackup.Queue

open Binary64 (IsTime IsFinite InFormat height range nearest)

variable {q : Queue Binary64 ObjectKey} {e : Entry Binary64 ObjectKey} {T n : Nat}
variable {now limit : Binary64} {giveUp : Option Binary64} {waits : List Binary64}

/-! ## What a wait is made for -/

/-- The first of the deadline on top and the time to give up comes after a number of units. -/
inductive AwaitsUntil (T : Nat) : Option (Entry Binary64 ObjectKey) → Option Binary64 → Prop where
  | due {e : Entry Binary64 ObjectKey} (he : IsTime e.due) (hT : T = height e.due) :
    AwaitsUntil T (some e) none
  | limit {limit : Binary64} (hl : IsTime limit) (hfin : IsFinite limit) (hT : T = height limit) :
    AwaitsUntil T none (some limit)
  | either {e : Entry Binary64 ObjectKey} {limit : Binary64} (he : IsTime e.due)
    (hl : IsTime limit) (hfin : IsFinite limit) (hT : T = min (height e.due) (height limit)) :
    AwaitsUntil T (some e) (some limit)

/-- How a wait ends: with the key on top, or without any before that one is due. -/
inductive EndsWith (q : Queue Binary64 ObjectKey) : Taken Binary64 ObjectKey → Prop where
  | nothing {now : Binary64} (hnow : IsTime now) (waits : List Binary64)
    (hearly : ∀ e, q.heap.top? = some e → height now < height e.due) :
    EndsWith q ⟨.ok none, q, now, waits⟩
  | key {e : Entry Binary64 ObjectKey} {now : Binary64} (he : q.heap.top? = some e)
    (hnow : IsTime now) (waits : List Binary64) :
    EndsWith q ⟨(q.takeTop e.key).1, (q.takeTop e.key).2, now, waits⟩

theorem le_eq_height (h : IsTime limit) (hnow : IsTime now) :
    Seconds.le limit now = decide (height limit ≤ height now) := by
  rw [Binary64.measured.le_eq h hnow, decide_eq_decide]

theorem isOver_eq (hl : IsTime limit) (hfin : IsFinite limit) (hnow : IsTime now) :
    isOver now (some limit) = decide (height limit ≤ height now) := by
  rw [← le_eq_height hl hnow]
  exact Binary64.le_sub_zero hl.inFormat hfin hnow

/-! ## One round -/

theorem endsWith_of_due (hs : q.Settled) (hnow : IsTime now) (he : q.heap.top? = some e)
    (hdue : IsTime e.due) (hle : height e.due ≤ height now) :
    EndsWith q (q.await (n + 1) now giveUp waits) := by
  have hkey : q.dueKey? now = some e.key := by
    rw [dueKey?_of_top he, le_eq_height hdue hnow, decide_eq_true hle, if_pos rfl]
  rw [hs.await_of_due hkey]
  exact .key he hnow waits

theorem dueKey?_of_lt (hnow : IsTime now) (he : q.heap.top? = some e) (hdue : IsTime e.due)
    (hlt : height now < height e.due) : q.dueKey? now = none := by
  rw [dueKey?_of_top he, le_eq_height hdue hnow, decide_eq_false hlt.not_ge,
    if_neg Bool.false_ne_true]

theorem endsWith_of_over (hs : q.Settled) (hnow : IsTime now)
    (hdue : ∀ e, q.heap.top? = some e → IsTime e.due) (hover : isOver now giveUp = true) :
    EndsWith q (q.await (n + 1) now giveUp waits) := by
  cases htop : q.heap.top? with
  | none =>
    rw [hs.await_of_over (dueKey?_of_empty htop) hover]
    exact .nothing hnow waits fun e he => by rw [htop] at he; cases he
  | some e =>
    by_cases hle : height e.due ≤ height now
    · exact endsWith_of_due hs hnow htop (hdue e htop) hle
    · have hlt := Nat.not_le.1 hle
      rw [hs.await_of_over (dueKey?_of_lt hnow htop (hdue e htop) hlt) hover]
      refine .nothing hnow waits fun f hf => ?_
      obtain rfl : e = f := Option.some.inj (htop.symm.trans hf)
      exact hlt

theorem AwaitsUntil.endsWith (h : AwaitsUntil T q.heap.top? giveUp) (hs : q.Settled)
    (hnow : IsTime now) (hle : T ≤ height now) :
    EndsWith q (q.await (n + 1) now giveUp waits) := by
  cases htop : q.heap.top? with
  | none =>
    rw [htop] at h
    cases h with
    | limit hl hfin hT =>
      have hover := isOver_eq hl hfin hnow
      rw [decide_eq_true (hT ▸ hle)] at hover
      exact endsWith_of_over hs hnow (fun e he => by rw [htop] at he; cases he) hover
  | some e =>
    rw [htop] at h
    cases h with
    | due he hT => exact endsWith_of_due hs hnow htop he (hT ▸ hle)
    | either he hl hfin hT =>
      by_cases hdue : height e.due ≤ height now
      · exact endsWith_of_due hs hnow htop he hdue
      · have hover := isOver_eq hl hfin hnow
        rw [decide_eq_true (by omega)] at hover
        refine endsWith_of_over hs hnow (fun f hf => ?_) hover
        obtain rfl : e = f := Option.some.inj (htop.symm.trans hf)
        exact he

theorem sub_of_not_isFinite {due : Binary64} (hdue : IsTime due) (hinf : ¬IsFinite due)
    (hnow : IsTime now) (hfin : IsFinite now) :
    IsTime (due - now) ∧ height (due - now) = range := by
  cases due with
  | nan => exact hdue.elim
  | infinite s =>
    cases now with
    | nan => exact hnow.elim
    | infinite => exact hfin.elim
    | finite => exact ⟨hdue, rfl⟩
  | finite => exact absurd trivial hinf

/-- The lesser of the times left before two times is the time left before the lesser one, rounded.
Only the first may be infinite. -/
theorem min_height_sub {due : Binary64} (he : IsTime due) (hl : IsTime limit)
    (hfin : IsFinite limit) (hnow : IsTime now) (hfinite : IsFinite now)
    (hlt : height now < min (height due) (height limit)) :
    IsTime (due - now) ∧ IsTime (limit - now) ∧
      min (height (due - now)) (height (limit - now)) =
        nearest (min (height due) (height limit) - height now) := by
  obtain ⟨hltime, hlheight⟩ := hl.sub hfin hnow (by omega)
  by_cases hefin : IsFinite due
  · obtain ⟨hetime, heheight⟩ := he.sub hefin hnow (by omega)
    have hsub : min (height due) (height limit) - height now =
        min (height due - height now) (height limit - height now) := by omega
    refine ⟨hetime, hltime, ?_⟩
    rw [heheight, hlheight, hsub]
    exact (Monotone.map_min fun _ _ => Binary64.nearest_mono).symm
  · obtain ⟨hetime, heheight⟩ := sub_of_not_isFinite he hefin hnow hfinite
    have hinf : range ≤ height due := Nat.not_lt.1 fun hlt => hefin (he.isFinite_iff.2 hlt)
    have hmin : min (height due) (height limit) = height limit :=
      min_eq_right (hl.height_le.trans hinf)
    refine ⟨hetime, hltime, ?_⟩
    rw [heheight, min_eq_right hltime.height_le, hlheight, hmin]

theorem AwaitsUntil.await_eq (h : AwaitsUntil T q.heap.top? giveUp) (hs : q.Settled)
    (hnow : IsTime now) (hT : T < range) (hlt : height now < T) (n : Nat)
    (waits : List Binary64) :
    ∃ wait, IsTime wait ∧ height wait = nearest (T - height now) ∧
      q.await (n + 1) now giveUp waits = q.await n (now + wait) giveUp (waits ++ [wait]) := by
  have hfinite : IsFinite now := hnow.isFinite_iff.2 (hlt.trans hT)
  cases htop : q.heap.top? with
  | none =>
    rw [htop] at h
    cases h with
    | @limit limit hl hfin hT' =>
      obtain ⟨htime, hheight⟩ := hl.sub hfin hnow (by omega)
      have hover := isOver_eq hl hfin hnow
      rw [decide_eq_false (by omega)] at hover
      refine ⟨limit - now, htime, by rw [hheight, hT'], ?_⟩
      exact hs.await_of_wait (dueKey?_of_empty htop) hover (by rw [htop]; rfl)
  | some e =>
    rw [htop] at h
    cases h with
    | due he hT' =>
      have hfin : IsFinite e.due := he.isFinite_iff.2 (by omega)
      obtain ⟨htime, hheight⟩ := he.sub hfin hnow (by omega)
      refine ⟨e.due - now, htime, by rw [hheight, hT'], ?_⟩
      exact hs.await_of_wait (dueKey?_of_lt hnow htop he (by omega)) rfl (by rw [htop]; rfl)
    | @either _ limit he hl hfin hT' =>
      have hover := isOver_eq hl hfin hnow
      rw [decide_eq_false (by omega)] at hover
      obtain ⟨hetime, hltime, hmin⟩ := min_height_sub he hl hfin hnow hfinite (hT' ▸ hlt)
      obtain ⟨htime, hheight⟩ := Binary64.measured.shorter hetime hltime
      rw [hmin, ← hT'] at hheight
      refine ⟨Seconds.shorter (e.due - now) (limit - now), htime, hheight, ?_⟩
      exact hs.await_of_wait (dueKey?_of_lt hnow htop he (by omega)) hover (by rw [htop]; rfl)

/-! ## All rounds -/

theorem AwaitsUntil.representable {top : Option (Entry Binary64 ObjectKey)}
    (h : AwaitsUntil T top giveUp) : Binary64.Representable T := by
  cases h with
  | due he hT => exact hT ▸ he.representable
  | limit hl _ hT => exact hT ▸ hl.representable
  | either he hl _ hT =>
    rcases min_choice (height _) (height _) with hmin | hmin
    · exact hT.trans hmin ▸ he.representable
    · exact hT.trans hmin ▸ hl.representable

/-- A wait that has come halfway takes one more round before it ends. -/
theorem AwaitsUntil.endsWith_of_halfway (h : AwaitsUntil T q.heap.top? giveUp) (hs : q.Settled)
    (hnow : IsTime now) (hT : T < range) (hhalf : T ≤ 2 * height now) :
    EndsWith q (q.await (n + 2) now giveUp waits) := by
  by_cases hle : T ≤ height now
  · exact h.endsWith hs hnow hle
  · have hlt := Nat.not_le.1 hle
    obtain ⟨wait, hwait, hheight, hnext⟩ := h.await_eq hs hnow hT hlt (n + 1) waits
    obtain ⟨hnow', hsum⟩ := hnow.add hwait
    have hreached : height (now + wait) = T := by
      rw [hsum, hheight, Binary64.nearest_add_nearest_sub hnow.representable h.representable hlt
        hhalf, min_eq_left hT.le]
    rw [hnext]
    exact h.endsWith hs hnow' hreached.ge

/-- Three rounds are enough for a wait. -/
theorem AwaitsUntil.endsWith_await (h : AwaitsUntil T q.heap.top? giveUp) (hs : q.Settled)
    (hnow : IsTime now) (hT : T < range) :
    EndsWith q (q.await (n + 3) now giveUp waits) := by
  by_cases hle : T ≤ height now
  · exact h.endsWith hs hnow hle
  · have hlt := Nat.not_le.1 hle
    obtain ⟨wait, hwait, hheight, hnext⟩ := h.await_eq hs hnow hT hlt (n + 2) waits
    obtain ⟨hnow', hsum⟩ := hnow.add hwait
    have hhalf : T ≤ 2 * height (now + wait) := by
      have hround := Binary64.le_two_mul_nearest hlt
      rw [hsum, hheight]
      omega
    rw [hnext]
    exact h.endsWith_of_halfway hs hnow' hT hhalf

/-! ## Taking a key -/

/-- A wait ends: a limit puts the time to give up in reach, and without one there is a key that
will be due. -/
def Ends (q : Queue Binary64 ObjectKey) (now : Binary64) : (timeout : Option Binary64) → Prop
  | some timeout => InFormat timeout ∧ IsFinite (now + timeout)
  | none => ∃ (t : TextKey) (due : Binary64), q.deadline? t.key = some due ∧ IsFinite due

theorem Linked.due_isTime (hl : Linked height IsTime q) (he : q.heap.top? = some e) :
    IsTime e.due := (hl.plain e ((mem_dropTop he).2 (.inl rfl))).time

/-- Where a key has a deadline there is an entry on top, and it is due no later. -/
theorem Linked.exists_top (hl : Linked height IsTime q) (hs : q.Settled) {t : TextKey}
    {due : Binary64} (hdue : q.deadline? t.key = some due) :
    ∃ e, q.heap.top? = some e ∧ height e.due ≤ height due := by
  cases htop : q.heap.top? with
  | none =>
    rw [hl.deadline?_eq_none htop] at hdue
    cases hdue
  | some e =>
    obtain ⟨u, top, -, -, hval, hleast⟩ := hl.top_least Binary64.measured hs htop
    have hle : height top ≤ height due := Prod.Lex.monotone_fst _ _ (hleast t due hdue)
    exact ⟨e, rfl, hval ▸ hle⟩

theorem Linked.endsWith_of_settled (hl : Linked height IsTime q) (hs : q.Settled)
    (hnow : IsTime now) {timeout : Option Binary64} (hends : q.Ends now timeout) :
    EndsWith q (q.await mostWaits now (timeout.map (now + ·)) []) := by
  cases timeout with
  | none =>
    obtain ⟨t, due, hdue, hfin⟩ := hends
    obtain ⟨e, htop, hle⟩ := hl.exists_top hs hdue
    have hlt := (hl.time _ _ hdue).isFinite_iff.1 hfin
    have huntil : AwaitsUntil (height e.due) q.heap.top? none :=
      htop ▸ .due (hl.due_isTime htop) rfl
    exact huntil.endsWith_await hs hnow (hle.trans_lt hlt)
  | some timeout =>
    obtain ⟨hformat, hfin⟩ := hends
    have hlimit : InFormat (now + timeout) := hnow.inFormat.add hformat
    by_cases htime : IsTime (now + timeout)
    · have hlt := htime.isFinite_iff.1 hfin
      cases htop : q.heap.top? with
      | none =>
        have huntil : AwaitsUntil (height (now + timeout)) q.heap.top? (some (now + timeout)) :=
          htop ▸ .limit htime hfin rfl
        exact huntil.endsWith_await hs hnow hlt
      | some e =>
        have huntil : AwaitsUntil (min (height e.due) (height (now + timeout))) q.heap.top?
            (some (now + timeout)) := htop ▸ .either (hl.due_isTime htop) htime hfin rfl
        exact huntil.endsWith_await hs hnow ((min_le_right _ _).trans_lt hlt)
    · -- A time to give up before all times is over at once.
      have hover : isOver now (some (now + timeout)) = true :=
        (Binary64.le_sub_zero hlimit hfin hnow).trans
          (Binary64.le_of_not_isTime hlimit hfin htime hnow)
      exact endsWith_of_over hs hnow (fun e he => hl.due_isTime he) hover

theorem Linked.take_eq (hl : Linked height IsTime q) (timeout : Option Binary64) :
    q.take now timeout = q.clean.2.await mostWaits now (timeout.map (now + ·)) [] := by
  cases timeout with
  | none => exact hl.await_clean Binary64.measured
  | some timeout => exact hl.await_clean Binary64.measured

/-- A wait that ends takes one key out of the queue, or none before any is due. -/
theorem Linked.take_cases (hl : Linked height IsTime q) (hnow : IsTime now)
    {timeout : Option Binary64} (hends : q.Ends now timeout) :
    IsTime (q.take now timeout).now ∧ Linked height IsTime (q.take now timeout).queue ∧
      ((q.take now timeout).found = .ok none ∧
          (q.take now timeout).queue.deadlines = q.deadlines ∧
          (∀ (t : TextKey) due, q.deadline? t.key = some due →
            Seconds.le due (q.take now timeout).now = false) ∨
        ∃ t : TextKey, (q.take now timeout).found = .ok (some t.key) ∧
          (q.deadline? t.key).isSome = true ∧
          (q.take now timeout).queue.deadlines = q.deadlines.erase t.key) := by
  obtain ⟨-, hlc, hsc, hdc⟩ := hl.clean Binary64.measured
  have hendsc : q.clean.2.Ends now timeout := by
    cases timeout with
    | none =>
      obtain ⟨t, due, hdue, hfin⟩ := hends
      exact ⟨t, due, by rwa [deadline?, hdc], hfin⟩
    | some timeout => exact hends
  have hsame : ∀ k, q.clean.2.deadline? k = q.deadline? k := fun k => congrArg (·.find? k) hdc
  have hend := hlc.endsWith_of_settled hsc hnow hendsc
  rw [← hl.take_eq] at hend
  generalize q.take now timeout = taken at hend
  cases hend with
  | nothing hnow' _ hearly =>
    refine ⟨hnow', hlc, .inl ⟨rfl, hdc, fun t due hdue => ?_⟩⟩
    rw [← hsame] at hdue
    obtain ⟨e, htop, hle⟩ := hlc.exists_top hsc hdue
    have hlt := hearly e htop
    rw [le_eq_height (hlc.time _ _ hdue) hnow']
    exact decide_eq_false (by omega)
  | key he hnow' =>
    obtain ⟨hfound, hlinked, hdeadlines⟩ := hlc.takeTop Binary64.measured he
    obtain ⟨t, due, ht, hdue, -⟩ := hlc.top_least Binary64.measured hsc he
    rw [hdc] at hdeadlines
    rw [hsame] at hdue
    exact ⟨hnow', hlinked, .inr ⟨t, ht ▸ hfound, by rw [hdue]; rfl, ht ▸ hdeadlines⟩⟩

theorem Linked.now_take_of_due (hl : Linked height IsTime q) (hnow : IsTime now) {t : TextKey}
    {due : Binary64} (hdue : q.deadline? t.key = some due) (hle : Seconds.le due now = true)
    (timeout : Option Binary64) : (q.take now timeout).now = now := by
  obtain ⟨-, hlc, hsc, hdc⟩ := hl.clean Binary64.measured
  have hduec : q.clean.2.deadline? t.key = some due := by rwa [deadline?, hdc]
  rw [hl.take_eq timeout]
  obtain ⟨e, htop, htople⟩ := hlc.exists_top hsc hduec
  rw [le_eq_height (hl.time _ _ hdue) hnow, decide_eq_true_iff] at hle
  have hkey : q.clean.2.dueKey? now = some e.key := by
    rw [dueKey?_of_top htop, le_eq_height (hlc.due_isTime htop) hnow,
      decide_eq_true (by omega), if_pos rfl]
  rw [mostWaits, hsc.await_of_due hkey]

end ClusterBackup.Queue
