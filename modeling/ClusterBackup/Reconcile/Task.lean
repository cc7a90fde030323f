import ClusterBackup.Api.Program
import ClusterBackup.Reconcile.Obstacle
/-!
# Tasks

A task is a program that may be stopped. A call that fails does not stop it: what a failed call
means is for the task to say.
-/

namespace ClusterBackup

/-- A program that may be stopped. -/
abbrev Task (τ : Type) := ExceptT Stop (Api.Program τ)

namespace Task

variable {τ α ε : Type}

def ask (c : Api.Call) : Task τ (Except Api.CallError c.Answer) :=
  ExceptT.mk (Api.Program.call c fun outcome =>
    .done (.ok (outcome.mapError fun failure => ⟨c, failure⟩)))

def sleep (seconds : τ) : Task τ Unit :=
  ExceptT.mk (Api.Program.pause seconds (.done (.ok ())))

def fail (o : Obstacle) : Task τ α := throw (.obstacle o)

def require (stop : ε → Stop) : Except ε α → Task τ α
  | .ok a => pure a
  | .error e => throw (stop e)

@[simp] theorem require_ok (stop : ε → Stop) (a : α) :
    (require stop (.ok a) : Task τ α) = pure a := rfl

end Task

end ClusterBackup
