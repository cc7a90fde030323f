import ClusterBackup.Reconcile.Task
import ClusterBackup.Polling
/-!
# Programs and what has been answered

What a program may call next, and what it may end with, given the calls that it has made and their
outcomes. `Obeys` follows a program through all answers that it can be given, with the exchanges so
far; it goes through the steps that programs, tasks and pollings are put together from.
`Obeys.of_append` and `Obeys.result` read it off a run.
-/

namespace ClusterBackup

namespace Api

structure Exchange where
  call : Call
  outcome : call.Outcome

end Api

open Api (Call Exchange)

variable {τ α β ε σ : Type} {Q : List Exchange → Call → Prop} {es : List Exchange}

/-! ## Programs -/

namespace Api.Program

variable {R : List Exchange → α → Prop} {S : List Exchange → β → Prop}

/-- Whatever is answered, every call suits the exchanges before it, and so does the result. -/
def Obeys (Q : List Exchange → Call → Prop) (R : List Exchange → α → Prop) :
    Program τ α → List Exchange → Prop
  | done a, es => R es a
  | call c next, es => Q es c ∧ ∀ outcome, (next outcome).Obeys Q R (es ++ [⟨c, outcome⟩])
  | pause _ next, es => next.Obeys Q R es

theorem Obeys.bind {p : Program τ α} {f : α → Program τ β} (hp : p.Obeys Q R es)
    (hf : ∀ es a, R es a → (f a).Obeys Q S es) : (p >>= f).Obeys Q S es := by
  induction p generalizing es with
  | done a => exact hf es a hp
  | call c next ih => exact ⟨hp.1, fun outcome => ih outcome (hp.2 outcome)⟩
  | pause seconds next ih => exact ih hp

theorem Obeys.mono {R' : List Exchange → α → Prop} {p : Program τ α} (hp : p.Obeys Q R es)
    (h : ∀ es a, R es a → R' es a) : p.Obeys Q R' es := by
  induction p generalizing es with
  | done a => exact h es a hp
  | call c next ih => exact ⟨hp.1, fun outcome => ih outcome (hp.2 outcome)⟩
  | pause seconds next ih => exact ih hp

theorem Obeys.imp {Q' : List Exchange → Call → Prop} {p : Program τ α} (hp : p.Obeys Q R es)
    (h : ∀ es c, Q es c → Q' es c) : p.Obeys Q' R es := by
  induction p generalizing es with
  | done a => exact hp
  | call c next ih => exact ⟨h es c hp.1, fun outcome => ih outcome (hp.2 outcome)⟩
  | pause seconds next ih => exact ih hp

def exchanges (host : Host τ σ) : Program τ α → σ → List Exchange
  | done _, _ => []
  | call c next, s =>
    ⟨c, (host.answer s c).1⟩ :: (next (host.answer s c).1).exchanges host (host.answer s c).2
  | pause seconds next, s => next.exchanges host (host.pass s seconds)

/-- The state that a run comes to is the one that its calls lead to, one after the other. -/
theorem run_eq_foldl {host : Host τ σ} (hpass : ∀ s seconds, host.pass s seconds = s)
    (p : Program τ α) (s : σ) :
    (p.run host s).2 = (p.exchanges host s).foldl (fun s e => (host.answer s e.call).2) s := by
  induction p generalizing s with
  | done a => rfl
  | call c next ih => exact ih _ _
  | pause seconds next ih =>
    rw [run, exchanges, hpass]
    exact ih s

/-- In a run every call is answered by the host in the state that the calls before it lead to. -/
theorem outcome_of_append {host : Host τ σ} (hpass : ∀ s seconds, host.pass s seconds = s)
    {p : Program τ α} {s : σ} (before : List Exchange) {after : List Exchange} {e : Exchange}
    (h : p.exchanges host s = before ++ e :: after) :
    e.outcome = (host.answer (before.foldl (fun s e => (host.answer s e.call).2) s) e.call).1 := by
  induction p generalizing s before with
  | done a => simp [exchanges] at h
  | call c next ih =>
    rw [exchanges] at h
    cases before with
    | nil =>
      obtain ⟨rfl, -⟩ := List.cons.inj h
      rfl
    | cons first before =>
      obtain ⟨rfl, hrest⟩ := List.cons.inj h
      exact ih _ before hrest
  | pause seconds next ih =>
    rw [exchanges, hpass] at h
    exact ih before h

theorem Obeys.of_append {p : Program τ α} (hp : p.Obeys Q R es) (host : Host τ σ) (s : σ)
    {before after : List Exchange} {e : Exchange}
    (h : p.exchanges host s = before ++ e :: after) : Q (es ++ before) e.call := by
  -- The first exchange of the run is the one at `before = []`; any other is one of the rest, which
  -- is reached with that first exchange among those that were made.
  induction p generalizing es s before with
  | done a => simp [exchanges] at h
  | call c next ih =>
    rw [exchanges] at h
    cases before with
    | nil =>
      obtain ⟨rfl, -⟩ := List.cons.inj h
      rw [List.append_nil]
      exact hp.1
    | cons first before =>
      obtain ⟨rfl, hrest⟩ := List.cons.inj h
      have hlater := ih _ (hp.2 _) _ hrest
      rwa [List.append_assoc] at hlater
  | pause seconds next ih => exact ih hp _ h

theorem Obeys.result {p : Program τ α} (hp : p.Obeys Q R es) (host : Host τ σ) (s : σ) :
    R (es ++ p.exchanges host s) (p.run host s).1 := by
  induction p generalizing es s with
  | done a =>
    rw [exchanges, List.append_nil]
    exact hp
  | call c next ih =>
    have hrest := ih _ (hp.2 (host.answer s c).1) (host.answer s c).2
    rw [List.append_assoc] at hrest
    exact hrest
  | pause seconds next ih => exact ih hp _

end Api.Program

/-! ## Tasks -/

namespace Task

variable {E : List Exchange → Stop → Prop} {R : List Exchange → α → Prop}
  {S : List Exchange → β → Prop}

def Ends (E : List Exchange → Stop → Prop) (R : List Exchange → α → Prop) (es : List Exchange) :
    Except Stop α → Prop
  | .ok a => R es a
  | .error stop => E es stop

def Obeys (Q : List Exchange → Call → Prop) (E : List Exchange → Stop → Prop)
    (R : List Exchange → α → Prop) (t : Task τ α) (es : List Exchange) : Prop :=
  t.run.Obeys Q (Ends E R) es

theorem Obeys.pure {a : α} (h : R es a) : Obeys Q E R (pure a : Task τ α) es := h

theorem Obeys.throw {stop : Stop} (h : E es stop) : Obeys Q E R (throw stop : Task τ α) es := h

theorem Obeys.fail {o : Obstacle} (h : E es (.obstacle o)) :
    Obeys Q E R (Task.fail o : Task τ α) es := h

theorem Obeys.bind {t : Task τ α} {f : α → Task τ β} (ht : t.Obeys Q E R es)
    (hf : ∀ es a, R es a → (f a).Obeys Q E S es) : Obeys Q E S (t >>= f) es := by
  apply Api.Program.Obeys.bind ht
  intro es result hresult
  cases result with
  | ok a => exact hf es a hresult
  | error stop => exact hresult

theorem Obeys.ask_bind {c : Call} {f : Except Api.CallError c.Answer → Task τ α} (hc : Q es c)
    (hf : ∀ outcome : c.Outcome,
      (f (outcome.mapError fun failure => ⟨c, failure⟩)).Obeys Q E R (es ++ [⟨c, outcome⟩])) :
    Obeys Q E R (Task.ask c >>= f) es := ⟨hc, hf⟩

theorem Obeys.require_bind {stop : ε → Stop} {result : Except ε α} {f : α → Task τ β}
    (he : ∀ e, result = .error e → E es (stop e))
    (h : ∀ a, result = .ok a → (f a).Obeys Q E S es) :
    Obeys Q E S (Task.require stop result >>= f) es := by
  cases result with
  | ok a => exact h a rfl
  | error e => exact .throw (he e rfl)

theorem Obeys.discard {t : Task τ α} {R' : List Exchange → Unit → Prop} (ht : t.Obeys Q E R es)
    (h : ∀ es a, R es a → R' es ()) : Obeys Q E R' (Functor.discard t) es := by
  show Obeys Q E R' ((fun _ => ()) <$> t) es
  rw [map_eq_pure_bind]
  exact ht.bind fun es a ha => .pure (h es a ha)

end Task

/-! ## Polling -/

/-- A polling that succeeds does so with its last check, and one that does not has made all checks
in vain. `Unmet k` is what holds after `k` checks that have failed. -/
theorem Polling.obeys_pollFrom {check : Nat → StateT σ (Task τ) Bool}
    {pause : Nat → StateT σ (Task τ) Unit} {E : List Exchange → Stop → Prop}
    (Unmet : Nat → List Exchange → Prop) {Met : List Exchange → Prop} {attempts : Nat}
    (hc : ∀ k n s es, k < attempts → Unmet k es → Task.Obeys Q E
      (fun es r => if r.1 = true then Met es else Unmet (k + 1) es) ((check n).run s) es)
    (hp : ∀ n s es, Task.Obeys Q E (fun es' _ => es' = es) ((pause n).run s) es)
    {left attempt k : Nat} (s : σ) (hk : k + left = attempts) (h : Unmet k es) :
    Task.Obeys Q E (fun es r => if r.1 = true then Met es else Unmet attempts es)
      ((Polling.pollFrom check pause left attempt).run s) es := by
  -- The checks that are left and those that have failed add up to the attempts.
  induction left generalizing attempt k s es with
  | zero =>
    subst hk
    exact .pure h
  | succ left ih =>
    unfold Polling.pollFrom
    rw [StateT.run_bind]
    refine (hc k attempt s es (by omega) h).bind fun es' checked hchecked => ?_
    split at hchecked
    · rename_i htrue
      rw [if_pos htrue]
      exact .pure hchecked
    · rename_i hfalse
      rw [if_neg hfalse]
      split
      · rename_i hleft
        subst hk hleft
        exact .pure hchecked
      · rw [StateT.run_bind]
        refine (hp attempt checked.2 es').bind fun es'' paused hpaused => ?_
        subst hpaused
        exact ih paused.2 (by omega) hchecked

end ClusterBackup
