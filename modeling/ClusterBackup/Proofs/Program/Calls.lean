import ClusterBackup.Reconcile.Task
import ClusterBackup.Polling
/-!
# The calls and pauses of programs

What a program may do, whatever the answers are. `Within` says that every call and every pause in
the tree of a program has a property; it goes through the steps that programs and tasks are put
together from.
-/

namespace ClusterBackup

variable {τ α β ε : Type} {P Q : Api.Call → Prop} {D : τ → Prop}

/-! ## Programs -/

namespace Api.Program

/-- Every call that a program may make has a property, and so has every pause. -/
def Within (P : Call → Prop) (D : τ → Prop) : Program τ α → Prop
  | done _ => True
  | call c next => P c ∧ ∀ outcome, (next outcome).Within P D
  | pause seconds next => D seconds ∧ next.Within P D

theorem Within.bind {p : Program τ α} {f : α → Program τ β} (hp : p.Within P D)
    (hf : ∀ a, (f a).Within P D) : (p >>= f).Within P D := by
  induction p with
  | done a => exact hf a
  | call c next ih => exact ⟨hp.1, fun outcome => ih outcome (hp.2 outcome)⟩
  | pause seconds next ih => exact ⟨hp.1, ih hp.2⟩

theorem Within.mono {p : Program τ α} (hp : p.Within P D) (h : ∀ c, P c → Q c) :
    p.Within Q D := by
  induction p with
  | done a => trivial
  | call c next ih => exact ⟨h c hp.1, fun outcome => ih outcome (hp.2 outcome)⟩
  | pause seconds next ih => exact ⟨hp.1, ih hp.2⟩

/-- Until a call is answered in a certain way every call that a program may make has a property. -/
def CallsUntil (G : (c : Call) → c.Outcome → Prop) (P : Call → Prop) : Program τ α → Prop
  | done _ => True
  | call c next => P c ∧ ∀ outcome, G c outcome ∨ (next outcome).CallsUntil G P
  | pause _ next => next.CallsUntil G P

variable {G : (c : Call) → c.Outcome → Prop}

theorem Within.callsUntil {p : Program τ α} (hp : p.Within P D) : p.CallsUntil G P := by
  induction p with
  | done a => trivial
  | call c next ih => exact ⟨hp.1, fun outcome => .inr (ih outcome (hp.2 outcome))⟩
  | pause seconds next ih => exact ih hp.2

theorem CallsUntil.bind {p : Program τ α} {f : α → Program τ β} (hp : p.CallsUntil G P)
    (hf : ∀ a, (f a).CallsUntil G P) : (p >>= f).CallsUntil G P := by
  induction p with
  | done a => exact hf a
  | call c next ih => exact ⟨hp.1, fun outcome => (hp.2 outcome).imp_right (ih outcome)⟩
  | pause seconds next ih => exact ih hp

end Api.Program

/-! ## Tasks -/

namespace Task

def Within (P : Api.Call → Prop) (D : τ → Prop) (t : Task τ α) : Prop := t.run.Within P D

theorem Within.mono {t : Task τ α} (ht : t.Within P D) (h : ∀ c, P c → Q c) : t.Within Q D :=
  Api.Program.Within.mono ht h

theorem Within.pure (a : α) : Within P D (pure a : Task τ α) := trivial

theorem Within.throw (stop : Stop) : Within P D (throw stop : Task τ α) := trivial

theorem Within.fail (o : Obstacle) : Within P D (Task.fail o : Task τ α) := trivial

theorem Within.ask {c : Api.Call} (h : P c) : Within P D (Task.ask c : Task τ _) :=
  ⟨h, fun _ => trivial⟩

theorem Within.sleep {seconds : τ} (h : D seconds) : Within P D (Task.sleep seconds) := ⟨h, trivial⟩

theorem Within.bind {t : Task τ α} {f : α → Task τ β} (ht : t.Within P D)
    (hf : ∀ a, (f a).Within P D) : Within P D (t >>= f) := by
  apply Api.Program.Within.bind ht
  intro result
  cases result with
  | ok a => exact hf a
  | error stop => trivial

theorem Within.map {t : Task τ α} (f : α → β) (ht : t.Within P D) : Within P D (f <$> t) := by
  rw [map_eq_pure_bind]
  exact ht.bind fun a => .pure (f a)

theorem Within.discard {t : Task τ α} (ht : t.Within P D) :
    Within P D (Functor.discard t) := ht.map _

theorem Within.require (stop : ε → Stop) (result : Except ε α) :
    Within P D (Task.require stop result : Task τ α) := by
  cases result with
  | ok a => exact .pure a
  | error e => exact .throw (stop e)

/-- What a task goes on with after a requirement is only made where the requirement holds. -/
theorem Within.require_bind {stop : ε → Stop} {result : Except ε α} {f : α → Task τ β}
    (h : ∀ a, result = .ok a → (f a).Within P D) :
    Within P D (Task.require stop result >>= f) := by
  cases result with
  | ok a => exact h a rfl
  | error e => exact .throw (stop e)

def CallsUntil (G : (c : Api.Call) → c.Outcome → Prop) (P : Api.Call → Prop) (t : Task τ α) :
    Prop := t.run.CallsUntil G P

variable {G : (c : Api.Call) → c.Outcome → Prop}

theorem Within.callsUntil {t : Task τ α} (ht : t.Within P D) : t.CallsUntil G P :=
  Api.Program.Within.callsUntil ht

theorem CallsUntil.bind {t : Task τ α} {f : α → Task τ β} (ht : t.CallsUntil G P)
    (hf : ∀ a, (f a).CallsUntil G P) : CallsUntil G P (t >>= f) := by
  apply Api.Program.CallsUntil.bind ht
  intro result
  cases result with
  | ok a => exact hf a
  | error stop => trivial

theorem CallsUntil.ask_bind {c : Api.Call} {f : Except Api.CallError c.Answer → Task τ α}
    (hc : P c) (hf : ∀ outcome : c.Outcome, G c outcome ∨
      (f (outcome.mapError fun failure => ⟨c, failure⟩)).CallsUntil G P) :
    CallsUntil G P (Task.ask c >>= f) := ⟨hc, hf⟩

end Task

/-! ## Polling -/

/-- A polling with a state does no more than its checks and pauses. -/
theorem Polling.within_pollFrom {σ : Type} {check : Nat → StateT σ (Task τ) Bool}
    {pause : Nat → StateT σ (Task τ) Unit}
    (hc : ∀ n s, Task.Within P D ((check n).run s))
    (hp : ∀ n s, Task.Within P D ((pause n).run s)) (left attempt : Nat) (s : σ) :
    Task.Within P D ((Polling.pollFrom check pause left attempt).run s) := by
  induction left generalizing attempt s with
  | zero => exact .pure _
  | succ left ih =>
    unfold Polling.pollFrom
    rw [StateT.run_bind]
    refine (hc attempt s).bind fun checked => ?_
    split
    · exact .pure _
    · split
      · exact .pure _
      · rw [StateT.run_bind]
        exact (hp attempt checked.2).bind fun paused => ih (attempt + 1) paused.2

end ClusterBackup
