import ClusterBackup.Proofs.Program.Exchanges
/-!
# What a program does on a host

A run of a program is told by its result, the state that the host comes to, the exchanges and the
pauses. `Runs` states all four at once, and goes through the steps that programs and tasks are put
together from.
-/

namespace ClusterBackup

open Api (Call Exchange)

variable {τ α β σ : Type}

namespace Api.Program

variable {host : Host τ σ} {s s' s'' : σ} {a : α} {b : β} {es es' : List Exchange}
  {ds ds' : List τ}

def pauses (host : Host τ σ) : Program τ α → σ → List τ
  | done _, _ => []
  | call c next, s => (next (host.answer s c).1).pauses host (host.answer s c).2
  | pause seconds next, s => seconds :: next.pauses host (host.pass s seconds)

/-- Run on the host, the program gives the result, with the exchanges and pauses, and leaves the
host in a state. -/
structure Runs (host : Host τ σ) (p : Program τ α) (s : σ) (a : α) (s' : σ) (es : List Exchange)
    (ds : List τ) : Prop where
  run : p.run host s = (a, s')
  exchanges : p.exchanges host s = es
  pauses : p.pauses host s = ds

theorem Runs.done (host : Host τ σ) (a : α) (s : σ) : Runs host (done a) s a s [] [] :=
  ⟨rfl, rfl, rfl⟩

theorem Runs.call {c : Call} {next : c.Outcome → Program τ α} {outcome : c.Outcome}
    (hc : host.answer s c = (outcome, s')) (h : (next outcome).Runs host s' a s'' es ds) :
    (call c next).Runs host s a s'' (⟨c, outcome⟩ :: es) ds := by
  constructor
  · rw [Program.run, hc]
    exact h.run
  · rw [Program.exchanges, hc, ← h.exchanges]
  · rw [Program.pauses, hc]
    exact h.pauses

theorem Runs.pause {seconds : τ} {next : Program τ α}
    (h : next.Runs host (host.pass s seconds) a s' es ds) :
    (pause seconds next).Runs host s a s' es (seconds :: ds) :=
  ⟨h.run, h.exchanges, by rw [Program.pauses, h.pauses]⟩

theorem Runs.bind {p : Program τ α} {f : α → Program τ β} (hp : p.Runs host s a s' es ds)
    (hf : (f a).Runs host s' b s'' es' ds') :
    (p >>= f).Runs host s b s'' (es ++ es') (ds ++ ds') := by
  obtain ⟨hrun, rfl, rfl⟩ := hp
  induction p generalizing s with
  | done a =>
    cases hrun
    exact hf
  | call c next ih => exact .call rfl (ih _ hrun)
  | pause seconds next ih => exact .pause (ih hrun)

end Api.Program

namespace Task

variable {host : Api.Program.Host τ σ} {s s' s'' : σ} {es es' : List Exchange}
  {ds ds' : List τ} {a : α} {result : Except Stop β}

def Runs (host : Api.Program.Host τ σ) (t : Task τ α) (s : σ) (result : Except Stop α) (s' : σ)
    (es : List Exchange) (ds : List τ) : Prop :=
  t.run.Runs host s result s' es ds

variable {t : Task τ α} {f : α → Task τ β}

theorem Runs.pure (host : Api.Program.Host τ σ) (a : α) (s : σ) :
    Runs host (pure a) s (.ok a) s [] [] := .done ..

theorem Runs.fail (host : Api.Program.Host τ σ) (o : Obstacle) (s : σ) :
    Runs host (fail o : Task τ α) s (.error (.obstacle o)) s [] [] := .done ..

theorem Runs.bind (ht : t.Runs host s (.ok a) s' es ds)
    (hf : (f a).Runs host s' result s'' es' ds') :
    Runs host (t >>= f) s result s'' (es ++ es') (ds ++ ds') :=
  Api.Program.Runs.bind ht hf

theorem Runs.bind_error {stop : Stop} (ht : t.Runs host s (.error stop) s' es ds) :
    Runs host (t >>= f) s (.error stop) s' es ds := by
  have hstopped : (ExceptT.bindCont f (.error stop)).Runs host s' (.error stop) s' [] [] :=
    .done host (.error stop : Except Stop β) s'
  have h := Api.Program.Runs.bind ht hstopped
  rwa [List.append_nil, List.append_nil] at h

theorem Runs.ask_bind {c : Call} {outcome : c.Outcome}
    {f : Except Api.CallError c.Answer → Task τ β} (hc : host.answer s c = (outcome, s'))
    (hf : (f (outcome.mapError fun failure => ⟨c, failure⟩)).Runs host s' result s'' es ds) :
    Runs host (ask c >>= f) s result s'' (⟨c, outcome⟩ :: es) ds :=
  .call hc hf

end Task

end ClusterBackup
