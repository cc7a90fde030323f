import ClusterBackup.Proofs.Record.Reading
import ClusterBackup.Proofs.Worker.Retry
import ClusterBackup.Settings.Validity
/-!
# Delays under valid settings

With valid settings a key is put back after a positive delay, and after a failure not before the
delay that the failures alone lead to. There is one exception: the check that the usual delay is
positive lets a NaN pass, and a NaN comes through every further comparison until the queue takes it
for no delay at all.
-/

namespace ClusterBackup

open Binary64 (IsTime height range units nearest)

/-! ## Comparisons -/

namespace Binary64

variable {x y : Binary64}

theorem same_comm (x y : Binary64) : Seconds.same x y = Seconds.same y x := by
  cases x with
  | nan => cases y <;> rfl
  | infinite s =>
    cases y with
    | infinite t => exact BEq.comm (a := s) (b := t)
    | _ => rfl
  | finite s m e =>
    cases y with
    | finite t n f =>
      exact BEq.comm (a := signed s m * twoTo (e - f)) (b := signed t n * twoTo (f - e))
    | _ => rfl

/-- Unless one of them is a NaN, two numbers are in order one way or the other. -/
theorem le_of_not_lt (hx : x ≠ nan) (hy : y ≠ nan) (h : Seconds.lt x y = false) :
    Seconds.le y x = true := by
  cases x with
  | nan => exact absurd rfl hx
  | infinite s =>
    cases y with
    | nan => exact absurd rfl hy
    | infinite t => cases s <;> cases t <;> first | rfl | cases h
    | finite t n f =>
      cases s with
      | false => rfl
      | true => cases h
  | finite s m e =>
    cases y with
    | nan => exact absurd rfl hy
    | infinite t =>
      cases t with
      | false => cases h
      | true => rfl
    | finite t n f =>
      have hlt : ¬signed s m * twoTo (e - f) < signed t n * twoTo (f - e) := of_decide_eq_false h
      show (decide (signed t n * twoTo (f - e) < signed s m * twoTo (e - f)) ||
        signed t n * twoTo (f - e) == signed s m * twoTo (e - f)) = true
      simp only [Bool.or_eq_true, decide_eq_true_eq, beq_iff_eq]
      omega

theorem lt_of_not_le (hx : x ≠ nan) (hy : y ≠ nan) (h : Seconds.le x y = false) :
    Seconds.lt y x = true := by
  obtain ⟨hlt, hsame⟩ := Bool.or_eq_false_iff.1 h
  have hle := le_of_not_lt hx hy hlt
  rw [Seconds.le, same_comm, hsame, Bool.or_false] at hle
  exact hle

/-! ## Delays after failures -/

theorem IsTime.ne_nan (h : IsTime x) : x ≠ nan := by
  rintro rfl
  exact h

theorem lt_zero_iff (h : IsTime x) : Seconds.lt Seconds.zero x = true ↔ 0 < height x := by
  rw [measured.lt_eq Worker.isTime_zero h, Worker.height_zero, decide_eq_true_iff]

theorem min_nearest_pos {n : Nat} (h : 0 < n) : 0 < min (nearest n) range :=
  lt_min (nearest_pos h) range_pos

theorem units_pos {m : Nat} {e : Int} (h : 0 < m) : 0 < units m e :=
  Nat.pos_of_ne_zero fun hzero => h.ne' (units_eq_zero.1 hzero)

theorem height_natCast_pos {n : Nat} (h : 0 < n) : 0 < height (n : Binary64) := by
  rw [(isTime_natCast n).2]
  exact min_nearest_pos (units_pos h)

theorem height_mul_pos {m n : Nat} {e f : Int} (he : -1074 ≤ e + f) (hm : 0 < m) (hn : 0 < n) :
    0 < height (finite false m e * finite false n f) := by
  have hr := isRounded_ofScaled (false != false) (signed false m * signed false n) he
  have hpos : (0 : Int) < signed false m * signed false n :=
    Int.mul_pos (Int.natCast_pos.2 hm) (Int.natCast_pos.2 hn)
  have hheight := (hr.isTime fun hneg => absurd hneg (by simp [hpos.ne', hpos.not_gt])).2
  have hgoal : 0 < min (nearest (units (signed false m * signed false n).natAbs (e + f))) range :=
    min_nearest_pos (units_pos (Int.natAbs_pos.2 hpos.ne'))
  rw [← hheight] at hgoal
  exact hgoal

theorem height_backoff_pos {d : Nat} {b : Binary64} (h : Seconds.backoff? d = some b) :
    0 < height b := by
  have hpow := height_natCast_pos (Nat.two_pow_pos d)
  rw [backoff_eq h]
  -- A finite power of two is far from the smallest numbers, so that the product does not vanish.
  rcases natCast_two_pow d with hinf | ⟨m, e, heq, he⟩
  · rw [hinf]
    exact range_pos
  · rw [heq] at hpow ⊢
    refine height_mul_pos (by omega) (by decide) (Nat.pos_of_ne_zero fun hm => ?_)
    rw [hm] at hpow
    exact hpow.ne' (units_eq_zero.2 rfl)

end Binary64

namespace Worker

variable {x b delay : Binary64} {n : Nat} {verdict : Verdict Binary64}

theorem shorter_backoff (hb : Seconds.backoff? n = some b) :
    IsTime (Seconds.shorter b backoffLimit) ∧
      Seconds.lt Seconds.zero (Seconds.shorter b backoffLimit) = true := by
  obtain ⟨htime, hheight⟩ :=
    Binary64.measured.shorter (Binary64.isTime_backoff hb) isTime_backoffLimit
  refine ⟨htime, (Binary64.lt_zero_iff htime).2 ?_⟩
  rw [hheight]
  exact lt_min (Binary64.height_backoff_pos hb) (Binary64.height_natCast_pos (by decide))

/-- After a failure a key waits for as long as the failures alone lead to, and is not due at
once. -/
theorem retryDelay?_bounds (hx : x ≠ .nan) (hpos : Seconds.lt Seconds.zero x = true)
    (hd : retryDelay? (n + 1) x = some delay) :
    Seconds.lt Seconds.zero delay = true ∧
      ∀ b, Seconds.backoff? n = some b →
        Seconds.le (Seconds.shorter b backoffLimit) delay = true := by
  obtain ⟨b, hb, rfl⟩ := Option.map_eq_some_iff.1 hd
  rw [Nat.add_sub_cancel] at hb
  obtain ⟨htime, hshorter⟩ := shorter_backoff hb
  unfold Seconds.longer
  cases hlt : Seconds.lt x (Seconds.shorter b backoffLimit) with
  | true =>
    refine ⟨hshorter, fun c hc => ?_⟩
    obtain rfl : b = c := Option.some.inj (hb.symm.trans hc)
    rw [if_pos rfl, Binary64.measured.le_eq htime htime]
    exact decide_eq_true le_rfl
  | false =>
    refine ⟨hpos, fun c hc => ?_⟩
    obtain rfl : b = c := Option.some.inj (hb.symm.trans hc)
    exact Binary64.le_of_not_lt hx htime.ne_nan hlt

/-- A NaN stays what it is, whatever the failures lead to. -/
theorem retryDelay?_nan (hd : retryDelay? n .nan = some delay) : delay = .nan := by
  obtain ⟨b, -, rfl⟩ := Option.map_eq_some_iff.1 hd
  cases Seconds.shorter b (backoffLimit : Binary64) <;> rfl

end Worker

namespace Settings

variable {env : String → Option String} {s : Settings Binary64}

/-! ## What valid settings may be -/

def SetsNaN (env : String → Option String) : Prop :=
  ∃ text, env VariableName.requeueAfter = some text ∧ Numeral.readReal text = .ok .nan

theorem requeueAfter_of_ofEnvironment (hread : ofEnvironment env = .ok s) :
    realOr ((5 : Nat) : Binary64) (env VariableName.requeueAfter) = .ok s.requeueAfter := by
  obtain ⟨delay, hdelay, hread⟩ := bind_eq_ok.1 hread
  obtain ⟨attempts, -, hread⟩ := bind_eq_ok.1 hread
  obtain ⟨limit, -, hread⟩ := bind_eq_ok.1 hread
  obtain ⟨watch, -, hread⟩ := bind_eq_ok.1 hread
  rw [← Except.ok.inj hread]
  exact hdelay

theorem requeueAfter_eq_nan_iff (hread : ofEnvironment env = .ok s) :
    s.requeueAfter = .nan ↔ SetsNaN env := by
  have hdelay := requeueAfter_of_ofEnvironment hread
  unfold SetsNaN
  cases htext : env VariableName.requeueAfter with
  | none =>
    rw [htext] at hdelay
    have hfive : ((5 : Nat) : Binary64) ≠ .nan := by decide
    constructor
    · intro hnan
      rw [hnan] at hdelay
      exact absurd (Except.ok.inj hdelay) hfive
    · rintro ⟨text, hsome, -⟩
      cases hsome
  | some text =>
    rw [htext] at hdelay
    constructor
    · intro hnan
      exact ⟨text, rfl, hnan ▸ hdelay⟩
    · rintro ⟨text', hsome, hnan⟩
      obtain rfl := Option.some.inj hsome
      exact Except.ok.inj (hdelay.symm.trans hnan)

/-- The usual delay of valid settings is positive, unless it is a NaN. -/
theorem lt_requeueAfter (hvalid : s.error? = none) (hnan : s.requeueAfter ≠ .nan) :
    Seconds.lt Seconds.zero s.requeueAfter = true := by
  refine Binary64.lt_of_not_le hnan (by decide) (Bool.eq_false_iff.2 fun hle => ?_)
  unfold error? at hvalid
  rw [if_pos hle] at hvalid
  cases hvalid

end Settings

namespace Worker

variable {env : String → Option String} {s : Settings Binary64}

theorem ofResult_of_stays {result : Except Fault Outcome} (x : Binary64)
    (hstays : result ≠ .ok .gone) :
    Verdict.ofResult x result = .settled x ∨ Verdict.ofResult x result = .failed x := by
  rcases Verdict.ofResult_cases x result with hgone | hstays
  · match result, hgone with
    | .ok .gone, _ => exact absurd rfl hstays
  · exact hstays

/-- With valid settings, and for every outcome of a reconcile after which a key is put back, which
it is after up to 1024 failures in a row: the delay is positive, and after a failure at least the
one that the failures alone lead to. There is one exception, and only one: if the usual delay is
set to a NaN, the delay is a NaN, and the key is put back as if there were none. -/
theorem requeues_later_unless_nan (hread : Settings.ofEnvironment env = .ok s)
    (hvalid : s.error? = none) (w : Worker Binary64) (now : Binary64) (k : ObjectKey)
    {result : Except Fault Outcome} (hstays : result ≠ .ok .gone)
    (hfew : (Verdict.ofResult s.requeueAfter result).isFailure = true →
      w.failureCount k < 1024) :
    ∃ delay, w.finish now k (.ofResult s.requeueAfter result) =
        (w.account k (.ofResult s.requeueAfter result)).schedule now k delay ∧
      (¬Settings.SetsNaN env →
        Seconds.lt Seconds.zero delay = true ∧
        Seconds.lt Seconds.zero (Seconds.longer Seconds.zero delay) = true ∧
        ((Verdict.ofResult s.requeueAfter result).isFailure = true →
          ∃ b, Seconds.backoff? (w.failureCount k) = some b ∧
            Seconds.le (Seconds.shorter b backoffLimit) delay = true)) ∧
      (Settings.SetsNaN env →
        delay = .nan ∧ w.finish now k (.ofResult s.requeueAfter result) =
          (w.account k (.ofResult s.requeueAfter result)).schedule now k Seconds.zero) := by
  have hnan := Settings.requeueAfter_eq_nan_iff hread
  have hpos : ¬Settings.SetsNaN env → s.requeueAfter ≠ .nan ∧
      Seconds.lt Seconds.zero s.requeueAfter = true := by
    rw [← hnan]
    exact fun hnot => ⟨hnot, s.lt_requeueAfter hvalid hnot⟩
  have hclamped : ∀ {delay : Binary64}, Seconds.lt Seconds.zero delay = true →
      Seconds.lt Seconds.zero (Seconds.longer Seconds.zero delay) = true := by
    intro delay hlt
    rw [Seconds.longer, if_pos hlt, hlt]
  rw [finish_eq]
  rcases ofResult_of_stays s.requeueAfter hstays with hv | hv
  · rw [hv, delayAfter?]
    refine ⟨_, rfl, fun hnot => ?_, fun hset => ?_⟩
    · exact ⟨(hpos hnot).2, hclamped (hpos hnot).2, fun hfails => by cases hfails⟩
    · rw [hnan.2 hset]
      exact ⟨rfl, rfl⟩
  · rw [hv] at hfew ⊢
    rw [delayAfter?]
    cases hd : retryDelay? (w.failureCount k + 1) s.requeueAfter with
    | none =>
      have hmany := retryDelay?_eq_none_iff.1 hd
      have := hfew rfl
      omega
    | some delay =>
      refine ⟨delay, rfl, fun hnot => ?_, fun hset => ?_⟩
      · obtain ⟨hx, hlt⟩ := hpos hnot
        obtain ⟨hdelay, hleast⟩ := retryDelay?_bounds hx hlt hd
        obtain ⟨b, hb, -⟩ := Option.map_eq_some_iff.1 hd
        exact ⟨hdelay, hclamped hdelay, fun _ => ⟨b, hb, hleast b hb⟩⟩
      · rw [hnan.2 hset] at hd
        obtain rfl := retryDelay?_nan hd
        exact ⟨rfl, rfl⟩

namespace Nightly

def nanEnvironment (name : String) : Option String :=
  if name = Settings.VariableName.requeueAfter then some "nan" else none

def nanSettings : Settings Binary64 :=
  { (Settings.usual : Settings Binary64) with requeueAfter := .nan }

def finished (after : Binary64) : Except Breakdown Unit × Worker Binary64 :=
  Worker.idle.finish .zero (.ofTexts "apps" "nightly") (.settled after)

def scheduled (delay : Binary64) : Except Breakdown Unit × Worker Binary64 :=
  (Worker.idle.forgive (.ofTexts "apps" "nightly")).schedule .zero (.ofTexts "apps" "nightly") delay

end Nightly

theorem requeues_later_unless_nan_nightly :
    (∃ delay, Nightly.finished (.ofNat 5) = Nightly.scheduled delay ∧
      Seconds.lt Seconds.zero delay = true) ∧
    Settings.ofEnvironment Nightly.nanEnvironment = .ok Nightly.nanSettings ∧
      Nightly.nanSettings.error? = none ∧
      Nightly.finished Nightly.nanSettings.requeueAfter = Nightly.scheduled Seconds.zero := by
  have hstays : (.ok .settled : Except Fault Outcome) ≠ .ok .gone := by decide
  constructor
  · have hread : Settings.ofEnvironment (fun _ => none) = .ok Settings.usual := rfl
    have hvalid : (Settings.usual : Settings Binary64).error? = none := by decide +kernel
    have hnot : ¬Settings.SetsNaN fun _ => none := by
      rintro ⟨text, hsome, -⟩
      cases hsome
    obtain ⟨delay, hfinish, hlater, -⟩ := requeues_later_unless_nan hread hvalid .idle .zero
      (.ofTexts "apps" "nightly") hstays nofun
    exact ⟨delay, hfinish, (hlater hnot).1⟩
  · have hset : Settings.SetsNaN Nightly.nanEnvironment :=
      ⟨"nan", by decide, by decide +kernel⟩
    have hread : Settings.ofEnvironment Nightly.nanEnvironment = .ok Nightly.nanSettings := by
      decide +kernel
    have hvalid : Nightly.nanSettings.error? = none := by decide +kernel
    obtain ⟨delay, -, -, hnan⟩ := requeues_later_unless_nan hread hvalid .idle .zero
      (.ofTexts "apps" "nightly") hstays nofun
    exact ⟨hread, hvalid, (hnan hset).2⟩

end Worker

end ClusterBackup
