import ClusterBackup.Api.Call
/-!
# Programs

A program makes calls one after the other, may pause between them, and ends with a result. It is
given as a tree, so that it can be run against any API, and interleaved with anything else call by
call. `Program.run` runs one to its end.
-/

namespace ClusterBackup.Api

/-- A program with pauses in `τ` and a result in `α`. -/
inductive Program (τ α : Type) where
  | done (result : α)
  | call (c : Call) (next : c.Outcome → Program τ α)
  | pause (seconds : τ) (next : Program τ α)

namespace Program

variable {τ α β σ : Type}

def bind : Program τ α → (α → Program τ β) → Program τ β
  | done result, f => f result
  | call c next, f => call c fun outcome => (next outcome).bind f
  | pause seconds next, f => pause seconds (next.bind f)

instance : Monad (Program τ) where
  pure := done
  bind := bind

@[simp] theorem done_bind (a : α) (f : α → Program τ β) : done a >>= f = f a := rfl

@[simp] theorem call_bind (c : Call) (next : c.Outcome → Program τ α) (f : α → Program τ β) :
    call c next >>= f = call c fun outcome => next outcome >>= f := rfl

@[simp] theorem pause_bind (seconds : τ) (next : Program τ α) (f : α → Program τ β) :
    pause seconds next >>= f = pause seconds (next >>= f) := rfl

theorem bind_done (p : Program τ α) : p >>= done = p := by
  induction p with
  | done => rfl
  | call c next ih => simp only [call_bind, ih]
  | pause seconds next ih => simp only [pause_bind, ih]

theorem bind_bind {γ : Type} (p : Program τ α) (f : α → Program τ β) (g : β → Program τ γ) :
    p >>= f >>= g = p >>= fun a => f a >>= g := by
  induction p with
  | done => rfl
  | call c next ih => simp only [call_bind, ih]
  | pause seconds next ih => simp only [pause_bind, ih]

instance : LawfulMonad (Program τ) :=
  LawfulMonad.mk' (Program τ) (fun p => bind_done p) (fun _ _ => rfl) (fun p f g => bind_bind p f g)

def ask (c : Call) : Program τ c.Outcome := call c done

def sleep (seconds : τ) : Program τ Unit := pause seconds (done ())

/-- What answers the calls of programs, and what their pauses do. -/
structure Host (τ σ : Type) where
  answer : σ → (c : Call) → c.Outcome × σ
  pass : σ → τ → σ

def run (host : Host τ σ) : Program τ α → σ → α × σ
  | done result, s => (result, s)
  | call c next, s =>
    let (outcome, s) := host.answer s c
    (next outcome).run host s
  | pause seconds next, s => next.run host (host.pass s seconds)

@[simp] theorem run_bind (host : Host τ σ) (p : Program τ α) (f : α → Program τ β) (s : σ) :
    (p >>= f).run host s = (f (p.run host s).1).run host (p.run host s).2 := by
  induction p generalizing s with
  | done => rfl
  | call c next ih => exact ih (host.answer s c).1 (host.answer s c).2
  | pause seconds next ih => exact ih (host.pass s seconds)

end Program

end ClusterBackup.Api
