import ClusterBackup.Proofs.Clock.FloatTime
import ClusterBackup.Proofs.Worker.Effects
/-!
# The next look at a key

After a reconcile its key is put back, and is due no later than after the usual delay or the limit
of the growing ones, whichever is longer. The delay after a failure is five milliseconds times a
power of two, which has to be a binary64 number itself: after 1024 failures in a row it is none,
and the key is not put back.
-/

namespace ClusterBackup

open Binary64 (IsTime InFormat height)

namespace Worker

variable {w : Worker Binary64} {k : ObjectKey} {now least delay : Binary64} {n : Nat}

/-! ## Delays -/

theorem isTime_zero : IsTime (Seconds.zero : Binary64) := (Binary64.isTime_natCast 0).1

theorem isTime_backoffLimit : IsTime (backoffLimit : Binary64) := (Binary64.isTime_natCast 300).1

theorem height_zero : height (Seconds.zero : Binary64) = 0 := by
  rw [Binary64.zero_eq]
  exact Binary64.units_eq_zero.2 rfl

/-- A delay that is added to a time is the delay itself or none at all. -/
theorem height_longer_zero (h : IsTime delay) :
    IsTime (Seconds.longer Seconds.zero delay) ∧
      height (Seconds.longer Seconds.zero delay) = height delay := by
  have hlonger := Binary64.measured.longer isTime_zero h
  rw [height_zero, Nat.max_eq_right (Nat.zero_le _)] at hlonger
  exact hlonger

theorem longer_of_not_isTime {x : Binary64} (h : InFormat least) (hnot : ¬IsTime least)
    (hx : IsTime x) : Seconds.longer x least = x := by
  rw [Seconds.longer, Binary64.not_lt_of_not_isTime h hnot hx, if_neg Bool.false_ne_true]

/-- The longest delay before the next look is a time, whatever the usual one is. -/
theorem height_backoffLimit_le (h : InFormat least) :
    IsTime (Seconds.longer backoffLimit least) ∧
      height (backoffLimit : Binary64) ≤ height (Seconds.longer backoffLimit least) := by
  by_cases htime : IsTime least
  · obtain ⟨hl, hheight⟩ := Binary64.measured.longer isTime_backoffLimit htime
    refine ⟨hl, ?_⟩
    rw [hheight]
    exact le_max_left _ _
  · rw [longer_of_not_isTime h htime isTime_backoffLimit]
    exact ⟨isTime_backoffLimit, le_rfl⟩

theorem height_usual_le (h : InFormat least) :
    IsTime (Seconds.longer Seconds.zero least) ∧
      height (Seconds.longer Seconds.zero least) ≤ height (Seconds.longer backoffLimit least) := by
  by_cases htime : IsTime least
  · obtain ⟨hz, hheight⟩ := height_longer_zero htime
    refine ⟨hz, ?_⟩
    rw [hheight, (Binary64.measured.longer isTime_backoffLimit htime).2]
    exact le_max_right _ _
  · rw [longer_of_not_isTime h htime isTime_zero, height_zero]
    exact ⟨isTime_zero, Nat.zero_le _⟩

theorem retryDelay?_eq_none_iff :
    retryDelay? (n + 1) least = none ↔ 1024 ≤ n := by
  have hbackoff : (Seconds.backoff? n : Option Binary64) = none ↔ 1024 ≤ n := by
    change (if n < 1024 then some _ else none) = none ↔ _
    split <;> simp <;> omega
  rw [retryDelay?, Option.map_eq_none_iff, Nat.add_sub_cancel, hbackoff]

theorem height_retryDelay_le (h : InFormat least) (hd : retryDelay? n least = some delay) :
    IsTime (Seconds.longer Seconds.zero delay) ∧
      height (Seconds.longer Seconds.zero delay) ≤ height (Seconds.longer backoffLimit least) := by
  obtain ⟨b, hb, rfl⟩ := Option.map_eq_some_iff.1 hd
  obtain ⟨hs, hsheight⟩ :=
    Binary64.measured.shorter (Binary64.isTime_backoff hb) isTime_backoffLimit
  rw [Seconds.longer.eq_1 least]
  split
  · obtain ⟨hz, hzheight⟩ := height_longer_zero hs
    refine ⟨hz, ?_⟩
    rw [hzheight, hsheight]
    exact (min_le_right _ _).trans (height_backoffLimit_le h).2
  · exact height_usual_le h

/-! ## Putting a key back -/

/-- A key that failed is in the queue afterwards, unless its failures are so many that the next
delay has no number. -/
theorem isSome_deadline?_of_failure {verdict : Verdict Binary64}
    (hfail : verdict.isFailure = true) (hfew : w.failureCount k < 1024) :
    ((w.finish now k verdict).2.queue.deadline? k).isSome = true := by
  cases verdict with
  | failed least =>
    rw [queue_finish, delayAfter?]
    cases hdelay : retryDelay? (w.failureCount k + 1) least with
    | none =>
      have hmany := retryDelay?_eq_none_iff.1 hdelay
      omega
    | some delay =>
      rw [Queue.deadline?_add]
      show Option.isSome (if (k == k) = true then _ else _) = true
      rw [if_pos BEq.rfl]
      rfl
  | _ => cases hfail

theorem schedule_of_new (hl : w.queue.Linked height IsTime) (hnow : IsTime now) (hk : k.IsText)
    (hnew : w.queue.deadline? k = none) (hd : IsTime (Seconds.longer Seconds.zero delay)) :
    (w.schedule now k delay).1 = .ok () ∧
      (w.schedule now k delay).2.queue.Linked height IsTime ∧
      (w.schedule now k delay).2.queue.deadline? k =
        some (now + Seconds.longer Seconds.zero delay) := by
  have hput : w.queue.putBefore k (now + Seconds.longer Seconds.zero delay) =
      w.queue.put k (now + Seconds.longer Seconds.zero delay) := by
    unfold Queue.putBefore
    rw [hnew]
  have hadd : w.schedule now k delay =
      ((w.queue.put k (now + Seconds.longer Seconds.zero delay)).1,
        { w with queue := (w.queue.put k (now + Seconds.longer Seconds.zero delay)).2 }) := by
    rw [← hput]
    rfl
  obtain ⟨hok, hlinked⟩ := hl.put Binary64.measured hk (hnow.add hd).1
  rw [hadd]
  exact ⟨hok, hlinked, by simp⟩

theorem schedule_in_time (hl : w.queue.Linked height IsTime) (hnow : IsTime now)
    (hk : k.IsText) (hnew : w.queue.deadline? k = none) (hleast : InFormat least)
    (hd : IsTime (Seconds.longer Seconds.zero delay) ∧
      height (Seconds.longer Seconds.zero delay) ≤ height (Seconds.longer backoffLimit least)) :
    (w.schedule now k delay).1 = .ok () ∧
      (w.schedule now k delay).2.queue.Linked height IsTime ∧
      ∃ due, (w.schedule now k delay).2.queue.deadline? k = some due ∧
        Seconds.le due (now + Seconds.longer backoffLimit least) = true := by
  obtain ⟨hok, hlinked, hdue⟩ := schedule_of_new hl hnow hk hnew hd.1
  refine ⟨hok, hlinked, _, hdue, ?_⟩
  obtain ⟨hsum, hheight⟩ := hnow.add hd.1
  obtain ⟨hlast, hlastheight⟩ := hnow.add (height_backoffLimit_le hleast).1
  rw [Binary64.measured.le_eq hsum hlast, decide_eq_true_iff, hheight, hlastheight]
  exact min_le_min_right _ (Binary64.nearest_mono (Nat.add_le_add_left hd.2 _))

/-- What is drawn from a verdict keeps the link. A key that was taken is put back in time, unless
it is gone, or failed so often that its delay has no number. -/
theorem finish_cases (hl : w.queue.Linked height IsTime) (hnow : IsTime now) (hk : k.IsText)
    (hnew : w.queue.deadline? k = none) (hleast : InFormat least)
    {verdict : Verdict Binary64}
    (hv : verdict = .gone ∨ verdict = .settled least ∨ verdict = .failed least) :
    (w.finish now k verdict).2.queue.Linked height IsTime ∧
      (verdict.isFailure = true ∧ 1024 ≤ w.failureCount k ∧
          (w.finish now k verdict).1 = .error .beyondRange ∧
          (w.finish now k verdict).2.queue.deadline? k = none ∨
        ¬(verdict.isFailure = true ∧ 1024 ≤ w.failureCount k) ∧
          (w.finish now k verdict).1 = .ok () ∧
          (verdict ≠ .gone → ∃ due, (w.finish now k verdict).2.queue.deadline? k = some due ∧
            Seconds.le due (now + Seconds.longer backoffLimit least) = true)) := by
  rcases hv with rfl | rfl | rfl
  · refine ⟨hl, .inr ⟨fun h => ?_, rfl, fun h => absurd rfl h⟩⟩
    cases h.1
  · obtain ⟨hok, hlinked, hdue⟩ := schedule_in_time (w := w.forgive k) hl hnow hk hnew hleast
      (height_usual_le hleast)
    refine ⟨hlinked, .inr ⟨fun h => ?_, hok, fun _ => hdue⟩⟩
    cases h.1
  · cases hdelay : retryDelay? (w.failureCount k + 1) least with
    | none =>
      have hfinish : w.finish now k (.failed least) = (.error .beyondRange, w.blame k) := by
        simp [finish, fail, hdelay]
      rw [hfinish]
      exact ⟨hl, .inl ⟨rfl, retryDelay?_eq_none_iff.1 hdelay, rfl, hnew⟩⟩
    | some delay =>
      have hfinish : w.finish now k (.failed least) = (w.blame k).schedule now k delay := by
        simp [finish, fail, hdelay]
      have hfew : ¬1024 ≤ w.failureCount k := by
        intro hmany
        rw [retryDelay?_eq_none_iff.2 hmany] at hdelay
        cases hdelay
      obtain ⟨hok, hlinked, hdue⟩ := schedule_in_time (w := w.blame k) hl hnow hk hnew hleast
        (height_retryDelay_le hleast hdelay)
      rw [hfinish]
      exact ⟨hlinked, .inr ⟨fun h => hfew h.2, hok, fun _ => hdue⟩⟩

end Worker

end ClusterBackup
