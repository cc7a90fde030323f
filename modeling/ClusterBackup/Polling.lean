/-!
# Polling

A check is made up to a number of times until it answers true, with a pause after each attempt but
the last. Attempts are counted from one.
-/

namespace ClusterBackup.Polling

variable {m : Type → Type} [Monad m]

/-- Polls with a number of attempts left, the next one being of the given number. -/
def pollFrom (check : Nat → m Bool) (pause : Nat → m Unit) : (left : Nat) → (attempt : Nat) → m Bool
  | 0, _ => pure false
  | left + 1, attempt => do
    if ← check attempt then pure true
    else if left = 0 then pure false
    else
      pause attempt
      pollFrom check pause left (attempt + 1)

def poll? (attempts : Int) (check : Nat → m Bool) (pause : Nat → m Unit) : Option (m Bool) :=
  if attempts ≤ 0 then none else some (pollFrom check pause attempts.toNat 1)

def noAttempts : String := "attempts must be positive"

inductive Deed (τ : Type) where
  | attempt (n : Nat)
  | pause (delay : τ)
deriving DecidableEq

structure Transcript (τ : Type) where
  deeds : List (Deed τ) := []
deriving DecidableEq

namespace Transcript

variable {τ : Type}

def note (t : Transcript τ) (d : Deed τ) : Transcript τ := ⟨t.deeds ++ [d]⟩

def checks (t : Transcript τ) : List Nat :=
  t.deeds.filterMap fun
    | .attempt n => some n
    | .pause _ => none

def pauses (t : Transcript τ) : List τ :=
  t.deeds.filterMap fun
    | .attempt _ => none
    | .pause delay => some delay

end Transcript

/-- Polling that writes down what it does, and that an error ends. -/
abbrev Recorded (ε τ : Type) := ExceptT ε (StateM (Transcript τ))

namespace Recorded

variable {ε τ : Type}

def check (answer : Nat → Except ε Bool) (n : Nat) : Recorded ε τ Bool := do
  modify (·.note (.attempt n))
  answer n

def pause (delay : Nat → τ) (n : Nat) : Recorded ε τ Unit := modify (·.note (.pause (delay n)))

end Recorded

/-- Polls against answers that are known beforehand, and writes down what is done. -/
def replay? {τ ε : Type} (attempts : Int) (answer : Nat → Except ε Bool) (delay : Nat → τ) :
    Option (Except ε Bool × Transcript τ) :=
  (poll? attempts (Recorded.check answer) (Recorded.pause delay)).map fun polling =>
    polling.run.run {}

end ClusterBackup.Polling
