import ClusterBackup.Proofs.Api.TextKey
import ClusterBackup.Reconcile.Basic
/-!
# Fleets of reconciles

Any number of reconciles that run side by side against one API, each making its calls one at a
time, while others change what the API holds. `Rules` say which reconciles may start, how calls may
be answered and which changes may come from outside; `Run` collects what happens to the API.

`Run.invariant` is the way to prove something of all runs: a property of the API and one of each
reconcile under way, kept by every call and every change.
-/

namespace ClusterBackup

open Api (Program)

abbrev Reconciling (τ : Type) := Program τ (Except Fault Outcome)

structure Fleet (τ σ : Type) where
  state : σ
  running : List (Reconciling τ)

namespace Fleet

variable {τ σ : Type}

/-- The reconciles that may start, the answers that a call may be given with the state after it,
and the changes that may come from outside. -/
structure Rules (τ σ : Type) where
  Starts : Reconciling τ → Prop
  Answers : σ → (c : Api.Call) → c.Outcome → σ → Prop
  Changes : σ → σ → Prop

inductive Occurrence (σ : Type) where
  | called (before : σ) (c : Api.Call) (outcome : c.Outcome) (after : σ)
  | changed (before after : σ)

def Occurrence.before : Occurrence σ → σ
  | .called before _ _ _ => before
  | .changed before _ => before

def Occurrence.after : Occurrence σ → σ
  | .called _ _ _ after => after
  | .changed _ after => after

/-- A run from one fleet to another, with what happens to the API on the way. -/
inductive Run (w : Rules τ σ) (first : Fleet τ σ) : List (Occurrence σ) → Fleet τ σ → Prop where
  | refl : Run w first [] first
  | start {h s running p} : Run w first h ⟨s, running⟩ → w.Starts p →
      Run w first h ⟨s, p :: running⟩
  | pause {h s front seconds p back} : Run w first h ⟨s, front ++ .pause seconds p :: back⟩ →
      Run w first h ⟨s, front ++ p :: back⟩
  | call {h s front c next back outcome t} : Run w first h ⟨s, front ++ .call c next :: back⟩ →
      w.Answers s c outcome t →
      Run w first (h ++ [.called s c outcome t]) ⟨t, front ++ next outcome :: back⟩
  | change {h s running t} : Run w first h ⟨s, running⟩ → w.Changes s t →
      Run w first (h ++ [.changed s t]) ⟨t, running⟩

theorem mem_replaced {p q : Reconciling τ} {front back : List (Reconciling τ)}
    (h : q ∈ front ++ p :: back) : q = p ∨ ∀ p', q ∈ front ++ p' :: back := by
  simp only [List.mem_append, List.mem_cons] at h ⊢
  rcases h with h | h | h
  · exact .inr fun _ => .inl h
  · exact .inl h
  · exact .inr fun _ => .inr (.inr h)

/-- What every step keeps of the API, given what has happened so far, and of each reconcile under
way. -/
structure Kept (w : Rules τ σ) (I : List (Occurrence σ) → σ → Prop)
    (J : List (Occurrence σ) → σ → Reconciling τ → Prop) : Prop where
  start : ∀ {h s p}, I h s → w.Starts p → J h s p
  pause : ∀ {h s seconds p}, J h s (.pause seconds p) → J h s p
  call : ∀ {h s c next outcome t}, I h s → J h s (.call c next) → w.Answers s c outcome t →
    I (h ++ [.called s c outcome t]) t ∧ J (h ++ [.called s c outcome t]) t (next outcome) ∧
      ∀ p, J h s p → J (h ++ [.called s c outcome t]) t p
  change : ∀ {h s t}, I h s → w.Changes s t →
    I (h ++ [.changed s t]) t ∧ ∀ p, J h s p → J (h ++ [.changed s t]) t p

/-- What every step keeps holds after every run. -/
theorem Run.invariant {w : Rules τ σ} {I : List (Occurrence σ) → σ → Prop}
    {J : List (Occurrence σ) → σ → Reconciling τ → Prop} (hk : Kept w I J)
    {first last : Fleet τ σ} {h : List (Occurrence σ)} (hrun : Run w first h last)
    (hi : I [] first.state) (hj : ∀ p ∈ first.running, J [] first.state p) :
    I h last.state ∧ ∀ p ∈ last.running, J h last.state p := by
  induction hrun with
  | refl => exact ⟨hi, hj⟩
  | start _ hp ih =>
    refine ⟨ih.1, fun q hq => ?_⟩
    rcases List.mem_cons.1 hq with rfl | hq
    · exact hk.start ih.1 hp
    · exact ih.2 q hq
  | @pause h s front seconds p back _ ih =>
    refine ⟨ih.1, fun q hq => ?_⟩
    rcases mem_replaced hq with rfl | hq
    · exact hk.pause (ih.2 _ List.mem_append_cons_self)
    · exact ih.2 q (hq _)
  | @call h s front c next back outcome t _ ha ih =>
    obtain ⟨hi', hown, hothers⟩ := hk.call ih.1 (ih.2 _ List.mem_append_cons_self) ha
    refine ⟨hi', fun q hq => ?_⟩
    rcases mem_replaced hq with rfl | hq
    · exact hown
    · exact hothers q (ih.2 q (hq _))
  | change _ hc ih =>
    obtain ⟨hi', hothers⟩ := hk.change ih.1 hc
    exact ⟨hi', fun q hq => hothers q (ih.2 q hq)⟩

/-- The last of some occurrences is the one singled out, or comes after it. -/
theorem last_or_after {h before after : List (Occurrence σ)} {o last : Occurrence σ}
    (heq : h ++ [last] = before ++ o :: after) :
    h = before ∧ last = o ∨ ∃ inner, h = before ++ o :: inner := by
  rcases List.eq_nil_or_concat after with rfl | ⟨inner, final, rfl⟩
  · obtain ⟨rfl, ho⟩ := List.append_inj' heq rfl
    exact .inl ⟨rfl, List.singleton_inj.1 ho⟩
  · rw [List.concat_eq_append, ← List.cons_append, ← List.append_assoc] at heq
    exact .inr ⟨inner, List.append_inj_left' heq rfl⟩

theorem Run.before {w : Rules τ σ} {first last : Fleet τ σ} {h before after : List (Occurrence σ)}
    {o : Occurrence σ} (hrun : Run w first h last) (hh : h = before ++ o :: after) :
    ∃ middle, Run w first before middle ∧ middle.state = o.before := by
  induction hrun generalizing after with
  | refl => simp at hh
  | start _ _ ih => exact ih hh
  | pause _ ih => exact ih hh
  | call hrun ha ih =>
    rcases last_or_after hh with ⟨rfl, rfl⟩ | ⟨inner, hinner⟩
    · exact ⟨_, hrun, rfl⟩
    · exact ih hinner
  | change hrun hc ih =>
    rcases last_or_after hh with ⟨rfl, rfl⟩ | ⟨inner, hinner⟩
    · exact ⟨_, hrun, rfl⟩
    · exact ih hinner

theorem Run.changes {w : Rules τ σ} {first last : Fleet τ σ} {h : List (Occurrence σ)} {s t : σ}
    (hrun : Run w first h last) (hmem : .changed s t ∈ h) : w.Changes s t := by
  induction hrun with
  | refl => cases hmem
  | start _ _ ih => exact ih hmem
  | pause _ ih => exact ih hmem
  | call _ _ ih =>
    rcases List.mem_append.1 hmem with hmem | hmem
    · exact ih hmem
    · cases List.mem_singleton.1 hmem
  | change _ hc ih =>
    rcases List.mem_append.1 hmem with hmem | hmem
    · exact ih hmem
    · cases List.mem_singleton.1 hmem
      exact hc

theorem Run.trans {w : Rules τ σ} {first middle last : Fleet τ σ} {h h' : List (Occurrence σ)}
    (hrun : Run w first h middle) (hrun' : Run w middle h' last) : Run w first (h ++ h') last := by
  induction hrun' with
  | refl =>
    rw [List.append_nil]
    exact hrun
  | start _ hp ih => exact .start ih hp
  | pause _ ih => exact .pause ih
  | call _ ha ih =>
    rw [← List.append_assoc]
    exact .call ih ha
  | change _ hc ih =>
    rw [← List.append_assoc]
    exact .change ih hc

/-- What each occurrence of a run keeps, given what has happened in it before, the run keeps. -/
theorem Run.induct {w : Rules τ σ} (P : List (Occurrence σ) → σ → Prop) {first last : Fleet τ σ}
    {h : List (Occurrence σ)} (hrun : Run w first h last) (hfirst : P [] first.state)
    (hstep : ∀ front o back, h = front ++ o :: back → P front o.before →
      P (front ++ [o]) o.after) : P h last.state := by
  induction hrun with
  | refl => exact hfirst
  | start _ _ ih => exact ih hstep
  | pause _ ih => exact ih hstep
  | @call h s _ c _ _ outcome t _ _ ih =>
    refine hstep h (.called s c outcome t) [] rfl (ih fun front o back hh => ?_)
    refine hstep front o (back ++ [.called s c outcome t]) ?_
    rw [hh, List.append_assoc, List.cons_append]
  | @change h s _ t _ _ ih =>
    refine hstep h (.changed s t) [] rfl (ih fun front o back hh => ?_)
    refine hstep front o (back ++ [.changed s t]) ?_
    rw [hh, List.append_assoc, List.cons_append]

/-! ## Reconciles on their own -/

def happenings {α : Type} (host : Program.Host τ σ) : Program τ α → σ → List (Occurrence σ)
  | .done _, _ => []
  | .call c next, s =>
    .called s c (host.answer s c).1 (host.answer s c).2 ::
      happenings host (next (host.answer s c).1) (host.answer s c).2
  | .pause seconds next, s => happenings host next (host.pass s seconds)

/-- A reconcile that runs on its own is a run of the fleet, if its calls are answered by the rules
and time changes nothing. -/
theorem Run.alone {w : Rules τ σ} {host : Program.Host τ σ}
    (ha : ∀ s c, w.Answers s c (host.answer s c).1 (host.answer s c).2)
    (hp : ∀ s seconds, host.pass s seconds = s) {first : Fleet τ σ} {h : List (Occurrence σ)}
    {s : σ} {p : Reconciling τ} {back : List (Reconciling τ)}
    (hrun : Run w first h ⟨s, p :: back⟩) :
    Run w first (h ++ happenings host p s) ⟨(p.run host s).2, .done (p.run host s).1 :: back⟩ := by
  induction p generalizing h s with
  | done result =>
    rw [happenings, List.append_nil]
    exact hrun
  | call c next ih =>
    have hfront : Run w first h ⟨s, [] ++ .call c next :: back⟩ := hrun
    have hrest := ih _ (hfront.call (ha s c))
    rw [List.append_assoc] at hrest
    exact hrest
  | pause seconds next ih =>
    have hfront : Run w first h ⟨s, [] ++ .pause seconds next :: back⟩ := hrun
    have hrest := ih hfront.pause
    rw [happenings, Program.run, hp]
    exact hrest

end Fleet

/-! ## An example -/

namespace Nightly

def backup (status : Json) : Json :=
  .obj [("metadata", .obj [("namespace", .str "apps"), ("name", .str "nightly"),
      ("uid", .str "u1"), ("creationTimestamp", .str "2024-01-01T00:00:00Z"),
      ("resourceVersion", .str "1")]),
    ("spec", .obj [("targetCluster", .str "main"), ("storageProfile", .str "s3")]),
    ("status", status)]

def cluster : Json :=
  .obj [("metadata", .obj [("name", .str "main")]),
    ("spec", .obj [("backup", .obj [("image", .str "xtrabackup"), ("storages", .obj [("s3",
      .obj [("type", .str "s3"), ("s3", .obj [("bucket", .str "dumps")])])])])])]

def names : TextKey := ("apps", "nightly")

def key : ObjectKey := names.key

def succeeded : Api.JobStatus := ⟨.null, .int 1, .null, .text "2024-01-01T01:00:00+00:00"⟩

def answers : (c : Api.Call) → c.Outcome
  | .getBackup .. => .ok (backup .null)
  | .listClusters .. => .ok (.obj [("items", .arr [cluster])])
  | .readClaim .. => .ok none
  | .createClaim .. => .ok ()
  | .readJob .. => .ok (some succeeded)
  | .createJob .. => .ok ()
  | .replaceStatus .. => .ok ()

end Nightly

end ClusterBackup
