import ClusterBackup.Proofs.Api.ServerFrame
import ClusterBackup.Proofs.Fleet.Basic
/-!
# Programs at rest

A program is at rest on a server if, run there, it adds nothing: no record is written, nothing is
created with success, and every call leaves the server as it is. It then leaves the server as it
was, with the result it rests at.
-/

namespace ClusterBackup

open Api (Server Call Program)

variable {τ α β ε : Type} {s s' : Server} {P : Call → Prop} {D : τ → Prop}

namespace Api

/-- Whether a call with the outcome writes a record or creates an object. -/
def Call.adds (c : Call) (outcome : c.Outcome) : Bool := c.isWrite || c.creates && outcome.isOk

namespace Program

def Rests (s : Server) : Program τ α → α → Prop
  | done a, result => a = result
  | call c next, result => (s.answer c).2 = s ∧ c.adds (s.answer c).1 = false ∧
    (next (s.answer c).1).Rests s result
  | pause _ next, result => next.Rests s result

variable {p : Program τ α} {a : α}

theorem Rests.bind {f : α → Program τ β} {b : β} (hp : p.Rests s a) (hf : (f a).Rests s b) :
    (p >>= f).Rests s b := by
  induction p with
  | done a' =>
    cases hp
    exact hf
  | call c next ih => exact ⟨hp.1, hp.2.1, ih _ hp.2.2⟩
  | pause seconds next ih => exact ih hp

theorem Rests.run_eq (hp : p.Rests s a) : p.run (Server.host τ) s = (a, s) := by
  induction p with
  | done a' =>
    cases hp
    rfl
  | call c next ih =>
    show (next (s.answer c).1).run (Server.host τ) (s.answer c).2 = (a, s)
    rw [hp.1]
    exact ih _ hp.2.2
  | pause seconds next ih => exact ih hp

theorem Rests.happenings (hp : p.Rests s a) :
    ∀ o ∈ Fleet.happenings (Server.host τ) p s,
      ∃ c outcome, o = .called s c outcome s ∧ c.adds outcome = false := by
  induction p with
  | done a' =>
    intro o ho
    cases ho
  | call c next ih =>
    obtain ⟨hstate, hadds, hnext⟩ := hp
    have hhost : (Server.host τ).answer s c = s.answer c := rfl
    rw [Fleet.happenings, hhost, hstate]
    intro o ho
    rcases List.mem_cons.1 ho with rfl | ho
    · exact ⟨c, _, rfl, hadds⟩
    · exact ih _ hnext o ho
  | pause seconds next ih => exact ih hp

/-- A program whose calls all leave the server as it is is at rest. -/
theorem Within.rests (hp : p.Within P D)
    (h : ∀ c, P c → (s.answer c).2 = s ∧ c.adds (s.answer c).1 = false) :
    p.Rests s (p.run (Server.host τ) s).1 := by
  induction p with
  | done a' => rfl
  | call c next ih =>
    obtain ⟨hstate, hadds⟩ := h c hp.1
    refine ⟨hstate, hadds, ?_⟩
    have hrest := ih (s.answer c).1 (hp.2 _)
    -- The rest is run on the server after the call, which is the server before it.
    show (next (s.answer c).1).Rests s ((next (s.answer c).1).run (Server.host τ)
      (s.answer c).2).1
    rwa [hstate]
  | pause seconds next ih => exact ih hp.2

/-- Where its calls are answered alike, a program at rest is at rest with the same result. -/
theorem Rests.elsewhere (hp : p.Rests s a) (hw : p.Within P D)
    (h : ∀ c, P c → s'.answer c = ((s.answer c).1, s')) : p.Rests s' a := by
  induction p with
  | done a' => exact hp
  | call c next ih =>
    have hanswer := h c hw.1
    refine ⟨by rw [hanswer], ?_, ?_⟩
    · rw [hanswer]
      exact hp.2.1
    · rw [hanswer]
      exact ih _ hp.2.2 (hw.2 _)
  | pause seconds next ih => exact ih hp hw.2

end Program

end Api

/-! ## Tasks -/

namespace Task

theorem run_ask_bind (c : Call) (f : Except Api.CallError c.Answer → Task τ α) (s : Server) :
    (Task.ask c >>= f).run.run (Server.host τ) s =
      (f ((s.answer c).1.mapError fun failure => ⟨c, failure⟩)).run.run (Server.host τ)
        (s.answer c).2 := rfl

theorem run_bind_ok {t : Task τ α} {a : α} (f : α → Task τ β)
    (h : t.run.run (Server.host τ) s = (.ok a, s')) :
    (t >>= f).run.run (Server.host τ) s = (f a).run.run (Server.host τ) s' := by
  rw [ExceptT.run_bind, Program.run_bind, h]

theorem run_bind_error {t : Task τ α} {stop : Stop} (f : α → Task τ β)
    (h : t.run.run (Server.host τ) s = (.error stop, s')) :
    (t >>= f).run.run (Server.host τ) s = (.error stop, s') := by
  rw [ExceptT.run_bind, Program.run_bind, h]
  rfl

theorem run_discard {t : Task τ α} {result : Except Stop α}
    (h : t.run.run (Server.host τ) s = (result, s')) :
    (Functor.discard t).run.run (Server.host τ) s = (result.map fun _ => (), s') := by
  show (((fun _ => ()) <$> t : Task τ Unit)).run.run _ s = _
  rw [map_eq_pure_bind]
  cases result with
  | ok a => exact run_bind_ok _ h
  | error stop => exact run_bind_error _ h

def Rests (s : Server) (t : Task τ α) (result : Except Stop α) : Prop := t.run.Rests s result

variable {t : Task τ α} {f : α → Task τ β}

theorem Rests.bind {a : α} {result : Except Stop β} (ht : t.Rests s (.ok a))
    (hf : (f a).Rests s result) : Rests s (t >>= f) result :=
  Api.Program.Rests.bind ht hf

theorem Rests.bind_error {stop : Stop} (ht : t.Rests s (.error stop)) :
    Rests s (t >>= f) (.error stop) :=
  Api.Program.Rests.bind ht rfl

theorem Rests.discard {result : Except Stop α} (ht : t.Rests s result) :
    Rests s (Functor.discard t) (result.map fun _ => ()) := by
  show Rests s ((fun _ => ()) <$> t) _
  rw [map_eq_pure_bind]
  cases result with
  | ok a => exact ht.bind rfl
  | error stop => exact ht.bind_error

theorem Rests.ask_bind {c : Call} {g : Except Api.CallError c.Answer → Task τ α}
    {result : Except Stop α} (hstate : (s.answer c).2 = s) (hadds : c.adds (s.answer c).1 = false)
    (hg : (g ((s.answer c).1.mapError fun failure => ⟨c, failure⟩)).Rests s result) :
    Rests s (Task.ask c >>= g) result :=
  ⟨hstate, hadds, hg⟩

end Task

end ClusterBackup
