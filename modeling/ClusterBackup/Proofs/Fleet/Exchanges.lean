import ClusterBackup.Proofs.Fleet.Basic
import ClusterBackup.Proofs.Program.Exchanges
/-!
# What has happened before a call

In a run of a fleet every reconcile goes by exchanges that happened in the run. So each call suits
some exchanges that happened before it (`Run.due`), which invariants of the API can go by
(`Run.invariant_of_due`).
-/

namespace ClusterBackup.Fleet

open Api (Call Exchange)

variable {τ σ : Type} {w : Rules τ σ} {first last : Fleet τ σ}
  {h before after : List (Occurrence σ)}
  {Q : List Exchange → Call → Prop} {R : List Exchange → Except Fault Outcome → Prop}

def Happened (h : List (Occurrence σ)) (e : Exchange) : Prop :=
  ∃ s t, .called s e.call e.outcome t ∈ h

theorem Happened.mono {e : Exchange} (he : Happened before e) (hsub : before ⊆ h) :
    Happened h e := by
  obtain ⟨s, t, hmem⟩ := he
  exact ⟨s, t, hsub hmem⟩

theorem Happened.of_concat {e : Exchange} {s t : σ} {c : Call} {outcome : c.Outcome}
    (he : Happened (h ++ [.called s c outcome t]) e) : Happened h e ∨ e = ⟨c, outcome⟩ := by
  obtain ⟨s', t', hmem⟩ := he
  rcases List.mem_append.1 hmem with hmem | hmem
  · exact .inl ⟨s', t', hmem⟩
  · cases List.mem_singleton.1 hmem
    exact .inr rfl

theorem Happened.of_changed {e : Exchange} {s t : σ} (he : Happened (h ++ [.changed s t]) e) :
    Happened h e := by
  obtain ⟨s', t', hmem⟩ := he
  rcases List.mem_append.1 hmem with hmem | hmem
  · exact ⟨s', t', hmem⟩
  · cases List.mem_singleton.1 hmem

def IsDue (Q : List Exchange → Call → Prop) (h : List (Occurrence σ)) (c : Call) : Prop :=
  ∃ es, Q es c ∧ ∀ e ∈ es, Happened h e

/-- A reconcile under way that goes by exchanges that have happened. -/
def GoesBy (Q : List Exchange → Call → Prop) (R : List Exchange → Except Fault Outcome → Prop)
    (h : List (Occurrence σ)) (p : Reconciling τ) : Prop :=
  ∃ es, p.Obeys Q R es ∧ ∀ e ∈ es, Happened h e

theorem GoesBy.mono {p : Reconciling τ} (hp : GoesBy Q R before p) (hsub : before ⊆ h) :
    GoesBy Q R h p := by
  obtain ⟨es, hobeys, hes⟩ := hp
  exact ⟨es, hobeys, fun e he => (hes e he).mono hsub⟩

theorem GoesBy.answered {c : Call} {next : c.Outcome → Reconciling τ} {s t : σ}
    (hp : GoesBy Q R h (.call c next)) (outcome : c.Outcome) :
    GoesBy Q R (h ++ [.called s c outcome t]) (next outcome) := by
  obtain ⟨es, hobeys, hes⟩ := hp
  refine ⟨es ++ [⟨c, outcome⟩], hobeys.2 outcome, fun e he => ?_⟩
  rcases List.mem_append.1 he with he | he
  · exact (hes e he).mono (List.subset_append_left h _)
  · cases List.mem_singleton.1 he
    exact ⟨s, t, List.mem_append_right h List.mem_cons_self⟩

/-- What due calls and changes keep of the API holds after every run. -/
theorem Run.invariant_of_due {I : List (Occurrence σ) → σ → Prop}
    (hstart : ∀ p, w.Starts p → p.Obeys Q R [])
    (hcall : ∀ {h s c outcome t}, I h s → IsDue Q h c → w.Answers s c outcome t →
      I (h ++ [.called s c outcome t]) t)
    (hchange : ∀ {h s t}, I h s → w.Changes s t → I (h ++ [.changed s t]) t)
    {s : σ} (hrun : Run w ⟨s, []⟩ h last) (hi : I [] s) : I h last.state := by
  -- What a reconcile goes by has happened once and for all, so that steps of others do not matter.
  have hkept : Kept w I fun h _ p => GoesBy Q R h p := by
    constructor
    · intro h s p _ hp
      exact ⟨[], hstart p hp, by simp⟩
    · rintro h s seconds p ⟨es, hobeys, hes⟩
      exact ⟨es, hobeys, hes⟩
    · intro h s c next outcome t hs hp ha
      have hdue : IsDue Q h c := by
        obtain ⟨es, hobeys, hes⟩ := hp
        exact ⟨es, hobeys.1, hes⟩
      exact ⟨hcall hs hdue ha, hp.answered outcome,
        fun p hp => hp.mono (List.subset_append_left h _)⟩
    · intro h s t hs hc
      exact ⟨hchange hs hc, fun p hp => hp.mono (List.subset_append_left h _)⟩
  exact (hrun.invariant hkept hi (by simp)).1

/-- Each call of a run was due, and was answered by the rules. -/
theorem Run.due (hstart : ∀ p, w.Starts p → p.Obeys Q R []) {s s' t : σ} {c : Call}
    {outcome : c.Outcome} (hrun : Run w ⟨s, []⟩ h last)
    (hh : h = before ++ .called s' c outcome t :: after) :
    IsDue Q before c ∧ w.Answers s' c outcome t := by
  have hall : ∀ before s' c outcome t after, h = before ++ .called s' c outcome t :: after →
      IsDue Q before c ∧ w.Answers s' c outcome t := by
    refine hrun.invariant_of_due (I := fun h _ => ∀ before s' c outcome t after,
      h = before ++ .called s' c outcome t :: after → IsDue Q before c ∧ w.Answers s' c outcome t)
      hstart ?_ ?_ (by simp)
    · intro h s c outcome t hi hdue ha before s' c' outcome' t' after heq
      rcases last_or_after heq with ⟨rfl, ho⟩ | ⟨inner, hinner⟩
      · cases ho
        exact ⟨hdue, ha⟩
      · exact hi before s' c' outcome' t' inner hinner
    · intro h s t hi _ before s' c' outcome' t' after heq
      rcases last_or_after heq with ⟨rfl, ho⟩ | ⟨inner, hinner⟩
      · cases ho
      · exact hi before s' c' outcome' t' inner hinner
  exact hall before s' c outcome t after hh

end ClusterBackup.Fleet
