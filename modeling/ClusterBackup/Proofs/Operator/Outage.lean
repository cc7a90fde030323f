import ClusterBackup.Proofs.Clock.WholeSeconds
import ClusterBackup.Proofs.Operator.Work
/-!
# An outage of the API

While the API is out of order every look at a key that is due fails, and the failures of the key
add up. The looks are made 400 seconds apart, when the key is due again. The first 1024 of them put
the key back. The next one breaks down and loses it, so that the exception that is made for such
keys is one that the operator comes to.
-/

namespace ClusterBackup

open Binary64 (IsTime IsFinite InFormat Fits height units range nearest)

namespace Operator

variable {o : Operator Binary64} {t : TextKey} {n : Nat}

/-! ## One look -/

def lookTime (n : Nat) : Binary64 := ((400 * n : Nat) : Binary64)

def noRoute : Api.Script := { getBackup := [.failing (.broken "no route to host")] }

def outage (o : Operator Binary64) (n : Nat) : Operator Binary64 :=
  { o with session := { now := lookTime n, script := noRoute } }

/-- After a number of failures in a row the key is the only one in the queue, and is due at the
time of the next look. -/
structure Failing (t : TextKey) (n : Nat) (o : Operator Binary64) : Prop where
  reachable : Reachable .usual o
  failures : o.worker.failureCount t.key = n
  due : ∃ due, o.deadline? t.key = some due ∧ Seconds.le due (lookTime n) = true
  alone : ∀ l, (t.key == l) = false → o.deadline? l = none

theorem isTime_lookTime (n : Nat) : IsTime (lookTime n) := (Binary64.isTime_natCast _).1

theorem inFormat_usual : InFormat (Settings.usual : Settings Binary64).requeueAfter :=
  (Binary64.isTime_natCast 5).1.inFormat

theorem Failing.outage (h : Failing t n o) : Failing t n (o.outage n) :=
  ⟨.elapse h.reachable _ (isTime_lookTime n), h.failures, h.due, h.alone⟩

theorem waitEnds_outage (hn : n ≤ 1024) : (o.outage n).WaitEnds (some runTimeout) := by
  refine ⟨(Binary64.isTime_natCast 1).1.inFormat, ?_⟩
  have hsum := (isTime_lookTime n).add (Binary64.isTime_natCast 1).1
  have hlt : 400 * n + 1 < 2 ^ 53 := by omega
  refine hsum.1.isFinite_iff.2 ?_
  rw [lookTime, Binary64.height_natCast_add hlt]
  exact (Binary64.fits_of_lt hlt).units_lt

theorem reconcileKey_of_noRoute (h : o.session.script = noRoute) (k : ObjectKey) :
    (∃ obstacle, (o.reconcileKey k).1 = .ok (.failed obstacle)) ∧
      (o.reconcileKey k).2.session.now = o.session.now := by
  obtain ⟨⟨now, server, script, patience, calls, pauses⟩, settings, worker, waits⟩ := o
  obtain rfl : script = noRoute := h
  unfold reconcileKey perform
  rw [reconcile_eq]
  exact ⟨⟨_, rfl⟩, rfl⟩

theorem Failing.takeKey (h : Failing t n o) (hn : n ≤ 1024) :
    ((o.outage n).takeKey (some runTimeout)).1 = .ok (some t.key) ∧
      ((o.outage n).takeKey (some runTimeout)).2.session = (o.outage n).session ∧
      ((o.outage n).takeKey (some runTimeout)).2.worker.failureCount t.key = n ∧
      ∀ l, ((o.outage n).takeKey (some runTimeout)).2.deadline? l = none := by
  have hsound := h.outage.reachable.sound inFormat_usual
  obtain ⟨due, hdue, hle⟩ := h.outage.due
  have hnow : ((o.outage n).takeKey (some runTimeout)).2.session.now = lookTime n :=
    hsound.linked.now_take_of_due hsound.now hdue hle _
  have hsession : ((o.outage n).takeKey (some runTimeout)).2.session = (o.outage n).session :=
    congrArg (fun now => { (o.outage n).session with now }) hnow
  obtain ⟨-, ⟨-, hearly, -⟩ | ⟨u, hsome, hthere, hdeadlines⟩⟩ :=
    hsound.takeKey (waitEnds_outage hn)
  · rw [hnow] at hearly
    exact absurd hle (Bool.eq_false_iff.1 (hearly t due hdue))
  · have hkey : t = u := by
      by_contra hne
      have hbeq : (t.key == u.key) = false := by simpa using hne
      rw [h.outage.alone u.key hbeq] at hthere
      cases hthere
    subst hkey
    refine ⟨hsome, hsession, h.outage.failures, fun l => ?_⟩
    rw [hdeadlines]
    split
    · rfl
    · rename_i hne
      exact h.outage.alone l (Bool.eq_false_iff.2 hne)

theorem Failing.verdict (h : Failing t n o) (hn : n ≤ 1024) :
    (((o.outage n).takeKey (some runTimeout)).2.verdictOn t.key).isFailure = true ∧
      ((o.outage n).work (some runTimeout)).2.session.now = lookTime n ∧
      ((o.outage n).work (some runTimeout)).2.worker.failureCount t.key = n + 1 := by
  obtain ⟨hsome, hsession, hcount, -⟩ := h.takeKey hn
  rw [work_of_some hsome]
  generalize ((o.outage n).takeKey (some runTimeout)).2 = taken at hsession hcount
  obtain ⟨⟨obstacle, hfailed⟩, hnow⟩ :=
    reconcileKey_of_noRoute (o := taken) (by rw [hsession]; rfl) t.key
  refine ⟨?_, hnow.trans (by rw [hsession]; rfl), ?_⟩
  · rw [verdictOn, hfailed]
    rfl
  · rw [← hcount]
    show ((taken.reconcileKey t.key).2.conclude t.key
      (taken.reconcileKey t.key).1).2.worker.failureCount t.key = _
    rw [hfailed]
    exact Worker.failureCount_finish_failed _ _ _ _

/-- The longest delay in an outage is over before the next look. -/
theorem le_lookTime_succ (hn : n < 1024) {worked : Operator Binary64}
    (hs : Sound .usual worked) (hnow : worked.session.now = lookTime n) {due : Binary64}
    (hdue : IsTime due) (hle : Seconds.le due worked.latest = true) :
    Seconds.le due (lookTime (n + 1)) = true := by
  have hlonger : Seconds.longer Worker.backoffLimit
      (Settings.usual : Settings Binary64).requeueAfter = ((300 : Nat) : Binary64) := by
    decide +kernel
  have hlatest : worked.latest = lookTime n + ((300 : Nat) : Binary64) := by
    rw [latest, hnow, hs.settings_eq, hlonger]
  have htime := (isTime_lookTime n).add (Binary64.isTime_natCast 300).1
  rw [hlatest, Binary64.measured.le_eq hdue htime.1, decide_eq_true_iff, lookTime,
    Binary64.height_natCast_add (by omega)] at hle
  rw [Binary64.measured.le_eq hdue (isTime_lookTime _), decide_eq_true_iff, lookTime,
    Binary64.height_natCast (by omega)]
  exact hle.trans (Binary64.units_mono (by omega) le_rfl)

theorem Failing.work (h : Failing t n o) (hn : n < 1024) :
    Failing t (n + 1) ((o.outage n).work (some runTimeout)).2 := by
  have hends := waitEnds_outage (o := o) hn.le
  have hsound := h.outage.reachable.sound inFormat_usual
  obtain ⟨hsome, -, hcount, hempty⟩ := h.takeKey hn.le
  obtain ⟨hfail, hnow, hcount'⟩ := h.verdict hn.le
  have hworked := hsound.work inFormat_usual hends
  refine ⟨.work h.outage.reachable hends, hcount', ?_, fun l hl => ?_⟩
  · rcases (hsound.takeKey hends).1.dealtWith inFormat_usual hsome (hempty t.key) with
      ⟨⟨-, hmany⟩, -⟩ | ⟨-, -, hback⟩
    · rw [hcount] at hmany
      omega
    · obtain ⟨due, hdue, hle⟩ := hback fun hgone => by rw [hgone] at hfail; cases hfail
      exact ⟨due, hdue, le_lookTime_succ hn hworked hnow (hworked.linked.time _ _ hdue) hle⟩
  · exact (deadline?_work_of_ne hsome hl).trans (hempty l)

/-! ## All looks -/

theorem Failing.start (ns name : String) :
    Failing (ns, name) 0 ((Operator.start .usual).observe (.changed (.str ns) (.str name))).2 := by
  have hdeadline : ∀ l,
      ((Operator.start .usual).observe (.changed (.str ns) (.str name))).2.deadline? l =
      if TextKey.key (ns, name) == l
        then some (Seconds.zero + Seconds.longer Seconds.zero Seconds.zero) else none :=
    fun l => Queue.deadline?_put (q := .empty) _ l
  refine ⟨.observe .start ?_, rfl, ⟨_, (hdeadline _).trans (if_pos BEq.rfl), by decide +kernel⟩, ?_⟩
  · intro k hk
    obtain rfl : TextKey.key (ns, name) = k := Option.some.inj hk
    exact TextKey.isText_key _
  · intro l hl
    exact (hdeadline l).trans (if_neg (Bool.eq_false_iff.1 hl))

theorem exists_failing (t : TextKey) (hn : n ≤ 1024) : ∃ o, Failing t n o := by
  induction n with
  | zero => exact ⟨_, .start t.1 t.2⟩
  | succ n ih =>
    obtain ⟨o, h⟩ := ih (by omega)
    exact ⟨_, h.work hn⟩

/-- An outage comes to a look that breaks down and loses a key. -/
theorem outage_loses_key (t : TextKey) :
    ∃ o : Operator Binary64, Reachable .usual o ∧ o.WaitEnds (some runTimeout) ∧
      (o.deadline? t.key).isSome = true ∧
      (o.work (some runTimeout)).1 = .error .beyondRange ∧
      (o.work (some runTimeout)).2.deadline? t.key = none := by
  obtain ⟨o, h⟩ := exists_failing t (le_refl 1024)
  have hends := waitEnds_outage (o := o) (le_refl 1024)
  have hsound := h.outage.reachable.sound inFormat_usual
  obtain ⟨hsome, -, hcount, hempty⟩ := h.takeKey le_rfl
  obtain ⟨due, hdue, -⟩ := h.outage.due
  refine ⟨o.outage 1024, h.outage.reachable, hends, by rw [hdue]; rfl, ?_⟩
  rcases (hsound.takeKey hends).1.dealtWith inFormat_usual hsome (hempty t.key) with
    ⟨-, herror, hlost⟩ | ⟨hover, -⟩
  · exact ⟨herror, hlost⟩
  · exact absurd ⟨(h.verdict le_rfl).1, hcount.ge⟩ hover

end Operator

end ClusterBackup
