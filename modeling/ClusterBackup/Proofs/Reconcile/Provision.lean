import ClusterBackup.Proofs.Program.Runs
import ClusterBackup.Proofs.Reconcile.Phases
/-!
# Providing a claim, call by call

What is called and how long is paused when a claim is provided, for an API that may answer anything
at any time. The claim is created where the first read does not find it; it is then polled up to
the first reading that decides, or as often as there are attempts, with a pause after every poll but
the last (`provide_makes_these_calls`).
-/

namespace ClusterBackup

open Api (Call Exchange PhaseReading)
open Api.Program (Host)

namespace Volume

variable {τ σ : Type}

/-! ## Readings -/

/-- The reading ends a polling: the claim is bound, or the read fails in another way than that there
is no claim. -/
def Decides (reading : PhaseReading) : Prop :=
  reading = .ok (some boundPhase) ∨ ∃ f, reading = .error f ∧ f.hasStatus 404 = false

/-- The state of the API before a call that is repeated, so many calls and pauses after it was first
made. -/
def stateAt (host : Host τ σ) (c : Call) (delay : Nat → τ) (s : σ) : Nat → σ
  | 0 => s
  | n + 1 => host.pass (host.answer (stateAt host c delay s n) c).2 (delay n)

theorem stateAt_succ (host : Host τ σ) (c : Call) (delay : Nat → τ) (s : σ) (n : Nat) :
    stateAt host c delay s (n + 1) =
      stateAt host c (fun i => delay (i + 1)) (host.pass (host.answer s c).2 (delay 0)) n := by
  induction n with
  | zero => rfl
  | succ n ih => rw [stateAt, ih, stateAt]

theorem map_range_succ {α : Type} (f : Nat → α) (n : Nat) :
    (List.range (n + 1)).map f = f 0 :: (List.range n).map fun i => f (i + 1) := by
  rw [List.range_succ_eq_map, List.map_cons, List.map_map]
  rfl

/-- The reading that the polling of a claim is given, so many polls and pauses after the first. -/
def readingAt (host : Host τ σ) (ns : Json) (name : String) (delay : Nat → τ) (s : σ) (n : Nat) :
    PhaseReading :=
  (host.answer (stateAt host (.readClaim ns (.str name)) delay s n) (.readClaim ns (.str name))).1

theorem readingAt_succ (host : Host τ σ) (ns : Json) (name : String) (delay : Nat → τ) (s : σ)
    (n : Nat) :
    readingAt host ns name delay s (n + 1) = readingAt host ns name (fun i => delay (i + 1))
      (host.pass (host.answer s (.readClaim ns (.str name))).2 (delay 0)) n := by
  rw [readingAt, stateAt_succ, readingAt]

def seen (ns : Json) (name : String) : PhaseReading → Except Stop (Bool × Json)
  | .ok reading => .ok ((phaseOf reading).equals boundPhase, phaseOf reading)
  | .error f =>
    if f.hasStatus 404 then .ok (false, undefinedPhase)
    else .error (.obstacle (.phaseUnreadable ⟨.readClaim ns (.str name), f⟩))

theorem phaseOf_eq_boundPhase {reading : Option Json} :
    phaseOf reading = boundPhase ↔ reading = some boundPhase := by
  cases reading with
  | none => simp [phaseOf, undefinedPhase, boundPhase]
  | some phase =>
    rw [phaseOf, Option.some.injEq, Json.orElse]
    split
    · rfl
    · rename_i hgiven
      constructor
      · intro h
        exact absurd h (by decide)
      · rintro rfl
        exact absurd (by decide) hgiven

variable {host : Host τ σ} {s s' : σ} {ns : Json} {name : String} {reading : PhaseReading}
  {delay : Nat → τ}

/-- A reading that decides ends the polling, well or not. -/
theorem seen_of_decides (ns : Json) (name : String) (h : Decides reading) :
    seen ns name reading = .ok (true, boundPhase) ∨ ∃ stop, seen ns name reading = .error stop := by
  rcases h with rfl | ⟨f, rfl, hf⟩
  · exact .inl rfl
  · refine .inr ⟨.obstacle (.phaseUnreadable ⟨.readClaim ns (.str name), f⟩), ?_⟩
    rw [seen, if_neg (by rw [hf]; decide)]

/-- A reading that does not decide has the polling go on, with its phase. -/
theorem seen_of_not_decides (h : ¬ Decides reading) :
    seen ns name reading = .ok (false, phaseIn reading) := by
  cases reading with
  | ok reading =>
    have hphase : phaseOf reading ≠ boundPhase := by
      intro hbound
      rw [phaseOf_eq_boundPhase] at hbound
      exact h (.inl (by rw [hbound]))
    rw [seen, Bool.eq_false_iff.2 (mt equals_boundPhase_iff.1 hphase)]
    rfl
  | error f =>
    have hfound : f.hasStatus 404 = true := by
      cases hstatus : f.hasStatus 404 with
      | true => rfl
      | false => exact absurd (.inr ⟨f, rfl, hstatus⟩) h
    rw [seen, if_pos hfound]
    rfl

/-! ## Polling -/

theorem runs_checkBound (h : host.answer s (.readClaim ns (.str name)) = (reading, s'))
    (last : Json) :
    Task.Runs host ((checkBound ns name : StateT Json (Task τ) Bool).run last) s
      (seen ns name reading) s' [⟨.readClaim ns (.str name), reading⟩] [] := by
  have hchecked : (checkBound ns name : StateT Json (Task τ) Bool).run last =
      currentPhase ns name >>= fun phase => pure (phase.equals boundPhase, phase) := by
    simp [checkBound]
  rw [hchecked, currentPhase, bind_assoc]
  refine Task.Runs.ask_bind h ?_
  cases reading with
  | ok reading => exact .pure host _ s'
  | error f =>
    show Task.Runs host ((if f.hasStatus 404 then _ else _) >>= _) s' _ s' [] []
    rw [seen]
    split
    · exact .pure host _ s'
    · exact .bind_error (.fail host _ s')

abbrev polling (delay : Nat → τ) (ns : Json) (name : String) (left attempt : Nat) :
    StateT Json (Task τ) Bool :=
  Polling.pollFrom (fun _ => checkBound ns name) (pauseFor delay) left attempt

/-- A polling ends with a reading that decides, and with the last one that it may make. -/
theorem runs_polling_last (last : Json) {left : Nat} (attempt : Nat)
    (h : host.answer s (.readClaim ns (.str name)) = (reading, s'))
    (hlast : Decides reading ∨ left = 0) :
    Task.Runs host ((polling delay ns name (left + 1) attempt).run last) s (seen ns name reading) s'
      [⟨.readClaim ns (.str name), reading⟩] [] := by
  have hcheck := runs_checkBound h last
  unfold polling Polling.pollFrom
  rw [StateT.run_bind]
  by_cases hdecides : Decides reading
  · rcases seen_of_decides ns name hdecides with hbound | ⟨stop, hstop⟩
    · rw [hbound] at hcheck ⊢
      exact hcheck.bind (.pure host _ s')
    · rw [hstop] at hcheck ⊢
      exact hcheck.bind_error
  · rw [seen_of_not_decides hdecides] at hcheck ⊢
    refine hcheck.bind ?_
    rw [if_neg Bool.false_ne_true, if_pos (hlast.resolve_left hdecides)]
    exact .pure host _ s'

theorem runs_polling_next (last : Json) {left attempt : Nat}
    {result : Except Stop (Bool × Json)} {s'' : σ} {es : List Exchange} {ds : List τ}
    (h : host.answer s (.readClaim ns (.str name)) = (reading, s')) (hnot : ¬ Decides reading)
    (hrest : Task.Runs host ((polling delay ns name (left + 1) (attempt + 1)).run (phaseIn reading))
      (host.pass s' (delay attempt)) result s'' es ds) :
    Task.Runs host ((polling delay ns name (left + 2) attempt).run last) s result s''
      (⟨.readClaim ns (.str name), reading⟩ :: es) (delay attempt :: ds) := by
  have hcheck := runs_checkBound h last
  rw [seen_of_not_decides hnot] at hcheck
  unfold polling Polling.pollFrom
  rw [StateT.run_bind]
  refine hcheck.bind ?_
  rw [if_neg Bool.false_ne_true, if_neg (Nat.succ_ne_zero left), StateT.run_bind]
  exact Api.Program.Runs.pause hrest

/-- A polling makes polls up to the first reading that decides, or as many as it may, and ends with
what was seen last. -/
theorem runs_polling (host : Host τ σ) (delay : Nat → τ) (ns : Json) (name : String)
    (left attempt : Nat) (s : σ) (last : Json) :
    let reading := readingAt host ns name (fun i => delay (attempt + i)) s
    ∃ k ≤ left, ∃ s', (∀ i < k, ¬ Decides (reading i)) ∧ (Decides (reading k) ∨ k = left) ∧
      Task.Runs host ((polling delay ns name (left + 1) attempt).run last) s
        (seen ns name (reading k)) s'
        ((List.range (k + 1)).map fun i => ⟨.readClaim ns (.str name), reading i⟩)
        ((List.range k).map fun i => delay (attempt + i)) := by
  intro reading
  induction left generalizing attempt s last with
  | zero =>
    exact ⟨0, Nat.le_refl 0, _, fun i hi => absurd hi (Nat.not_lt_zero i), .inr rfl,
      runs_polling_last last attempt rfl (.inr rfl)⟩
  | succ left ih =>
    by_cases hdecides : Decides (reading 0)
    · exact ⟨0, Nat.zero_le _, _, fun i hi => absurd hi (Nat.not_lt_zero i), .inl hdecides,
        runs_polling_last last attempt rfl (.inl hdecides)⟩
    · -- The polls that are left are those after the pause, counted from there.
      obtain ⟨k, hk, s', hbefore, hlast, hrest⟩ := ih (attempt + 1)
        (host.pass (host.answer s (.readClaim ns (.str name))).2 (delay attempt))
        (phaseIn (reading 0))
      have hdelay : (fun i => delay (attempt + 1 + i)) = fun i => delay (attempt + (i + 1)) :=
        funext fun i => congrArg delay (by omega)
      have hshift : readingAt host ns name (fun i => delay (attempt + (i + 1)))
          (host.pass (host.answer s (.readClaim ns (.str name))).2 (delay attempt)) =
            fun i => reading (i + 1) :=
        funext fun i => (readingAt_succ host ns name (fun i => delay (attempt + i)) s i).symm
      rw [hdelay, hshift] at hbefore hlast hrest
      refine ⟨k + 1, Nat.succ_le_succ hk, s', ?_, ?_, ?_⟩
      · intro i hi
        cases i with
        | zero => exact hdecides
        | succ i => exact hbefore i (Nat.lt_of_succ_lt_succ hi)
      · exact hlast.imp_right (congrArg Nat.succ)
      · have hnext := runs_polling_next last rfl hdecides hrest
        rw [map_range_succ _ (k + 1), map_range_succ (fun i => delay (attempt + i)) k]
        exact hnext

/-! ## Waiting -/

/-- What the wait for a claim comes to by what was seen last. -/
def concluded (name : String) (attempts : Int) : Except Stop (Bool × Json) → Except Stop Unit
  | .ok (true, _) => .ok ()
  | .ok (false, phase) => .error (.obstacle (.claimNotBound name phase attempts))
  | .error stop => .error stop

/-- A claim is waited for up to the first reading that decides, or for all attempts. -/
theorem runs_awaitBound {attempts : Int} (hn : 0 < attempts) (delay : Nat → τ) (ns : Json)
    (name : String) (s : σ) :
    let reading := readingAt host ns name (fun i => delay (i + 1)) s
    ∃ k < attempts.toNat, ∃ s', (∀ i < k, ¬ Decides (reading i)) ∧
      (Decides (reading k) ∨ k + 1 = attempts.toNat) ∧
      Task.Runs host (awaitBound attempts delay ns name) s
        (concluded name attempts (seen ns name (reading k))) s'
        ((List.range (k + 1)).map fun i => ⟨.readClaim ns (.str name), reading i⟩)
        ((List.range k).map fun i => delay (i + 1)) := by
  intro reading
  obtain ⟨left, hleft⟩ : ∃ left, attempts.toNat = left + 1 :=
    Nat.exists_eq_succ_of_ne_zero (by omega)
  have hpoll : Polling.poll? attempts (fun _ => checkBound ns name) (pauseFor delay) =
      some (polling delay ns name (left + 1) 1) := by
    rw [Polling.poll?, if_neg (by omega), hleft]
  obtain ⟨k, hk, s', hbefore, hlast, hrun⟩ :=
    runs_polling host delay ns name left 1 s undefinedPhase
  simp only [Nat.add_comm 1] at hbefore hlast hrun
  refine ⟨k, by omega, s', hbefore, hlast.imp_right (by omega), ?_⟩
  have hawait : (awaitBound attempts delay ns name : Task τ Unit) =
      (polling delay ns name (left + 1) 1).run undefinedPhase >>= fun polled =>
        (unless polled.1 do Task.fail (.claimNotBound name polled.2 attempts)) := by
    unfold awaitBound
    dsimp only
    rw [hpoll]
  rw [hawait]
  cases hseen : seen ns name (reading k) with
  | error stop =>
    rw [hseen] at hrun
    exact hrun.bind_error
  | ok checked =>
    obtain ⟨bound, phase⟩ := checked
    rw [hseen] at hrun
    have hrest : Task.Runs host ((unless bound do Task.fail (.claimNotBound name phase attempts) :
        Task τ Unit)) s' (concluded name attempts (.ok (bound, phase))) s' [] [] := by
      cases bound with
      | true => exact .pure host () s'
      | false => exact .fail host _ s'
    have hdone := hrun.bind (f := fun polled : Bool × Json =>
      unless polled.1 do Task.fail (.claimNotBound name polled.2 attempts)) hrest
    rwa [List.append_nil, List.append_nil] at hdone

/-! ## Finding or creating -/

/-- The claim is there after these exchanges, in this state: it is found, or it is created after it
was not found, where it may also have come to be there in the meantime. -/
inductive ClaimReady (host : Host τ σ) (s : σ) (ns : Json) (name : String) (claim : Claim) :
    List Exchange → σ → Prop where
  | found {reading : Option Json} {s' : σ}
      (hread : host.answer s (.readClaim ns (.str name)) = (.ok reading, s')) :
      ClaimReady host s ns name claim [⟨.readClaim ns (.str name), .ok reading⟩] s'
  | created {f : Api.Failure} {s' s'' : σ} {outcome : Except Api.Failure Unit}
      (hread : host.answer s (.readClaim ns (.str name)) = (.error f, s'))
      (hmissing : f.hasStatus 404 = true)
      (hcreate : host.answer s' (.createClaim ns claim) = (outcome, s''))
      (hthere : ∀ f', outcome = .error f' → f'.hasStatus 409 = true) :
      ClaimReady host s ns name claim
        [⟨.readClaim ns (.str name), .error f⟩, ⟨.createClaim ns claim, outcome⟩] s''

variable {claim : Claim} {f f' : Api.Failure} {s'' : σ} {es : List Exchange}

theorem runs_ensureClaim (h : ClaimReady host s ns name claim es s') :
    Task.Runs host (ensureClaim ns name claim : Task τ Unit) s (.ok ()) s' es [] := by
  cases h with
  | found hread => exact .ask_bind hread (.pure host () _)
  | @created f _ _ outcome hread hmissing hcreate hthere =>
    refine .ask_bind hread ?_
    show Task.Runs host (if !f.hasStatus 404 then _ else _) _ _ _ _ _
    rw [hmissing, Bool.not_true, if_neg Bool.false_ne_true]
    refine .ask_bind hcreate ?_
    cases outcome with
    | ok _ => exact .pure host () _
    | error f' =>
      show Task.Runs host (if f'.hasStatus 409 && true then _ else _) _ _ _ _ _
      rw [hthere f' rfl, Bool.and_true, if_pos rfl]
      exact .pure host () _

/-- A claim that is ready was created exactly if it was not found. -/
theorem ClaimReady.creates_iff {ns' : Json} {body : Claim}
    (h : ClaimReady host s ns name claim es s') :
    Call.createClaim ns' body ∈ es.map Exchange.call ↔ ns' = ns ∧ body = claim ∧
      ∃ f, (host.answer s (.readClaim ns (.str name))).1 = .error f ∧ f.hasStatus 404 = true := by
  cases h with
  | found hread => simp [hread]
  | created hread hmissing => simp [hread, hmissing]

/-- The claim gets ready, or the first read fails, or the creation does. -/
theorem claimReady_or (host : Host τ σ) (s : σ) (ns : Json) (name : String) (claim : Claim) :
    (∃ es s', ClaimReady host s ns name claim es s') ∨
      (∃ f s', host.answer s (.readClaim ns (.str name)) = (.error f, s') ∧
        f.hasStatus 404 = false) ∨
      ∃ f s' f' s'', host.answer s (.readClaim ns (.str name)) = (.error f, s') ∧
        f.hasStatus 404 = true ∧ host.answer s' (.createClaim ns claim) = (.error f', s'') ∧
        f'.hasStatus 409 = false := by
  match hread : host.answer s (.readClaim ns (.str name)) with
  | (.ok reading, s') => exact .inl ⟨_, s', .found hread⟩
  | (.error f, s') =>
    cases hf : f.hasStatus 404 with
    | false => exact .inr (.inl ⟨f, s', rfl, hf⟩)
    | true =>
      match hcreate : host.answer s' (.createClaim ns claim) with
      | (.ok _, s'') =>
        exact .inl ⟨_, s'', .created hread hf hcreate fun f' h => by cases h⟩
      | (.error f', s'') =>
        cases hf' : f'.hasStatus 409 with
        | false => exact .inr (.inr ⟨f, s', f', s'', rfl, hf, hcreate, hf'⟩)
        | true =>
          refine .inl ⟨_, s'', .created hread hf hcreate ?_⟩
          rintro _ ⟨⟩
          exact hf'

theorem runs_ensureClaim_unreadable
    (hread : host.answer s (.readClaim ns (.str name)) = (.error f, s'))
    (hf : f.hasStatus 404 = false) :
    Task.Runs host (ensureClaim ns name claim : Task τ Unit) s
      (.error (.obstacle (.claimUnreadable ⟨.readClaim ns (.str name), f⟩))) s'
      [⟨.readClaim ns (.str name), .error f⟩] [] := by
  refine .ask_bind hread ?_
  show Task.Runs host (if !f.hasStatus 404 then _ else _) _ _ _ _ _
  rw [hf, Bool.not_false, if_pos rfl]
  exact .fail host _ s'

theorem runs_ensureClaim_notCreated
    (hread : host.answer s (.readClaim ns (.str name)) = (.error f, s'))
    (hmissing : f.hasStatus 404 = true)
    (hcreate : host.answer s' (.createClaim ns claim) = (.error f', s''))
    (hf' : f'.hasStatus 409 = false) :
    Task.Runs host (ensureClaim ns name claim : Task τ Unit) s
      (.error (.obstacle (.claimNotCreated ⟨.createClaim ns claim, f'⟩))) s''
      [⟨.readClaim ns (.str name), .error f⟩, ⟨.createClaim ns claim, .error f'⟩] [] := by
  refine .ask_bind hread ?_
  show Task.Runs host (if !f.hasStatus 404 then _ else _) _ _ _ _ _
  rw [hmissing, Bool.not_true, if_neg Bool.false_ne_true]
  refine .ask_bind hcreate ?_
  show Task.Runs host (if f'.hasStatus 409 && true then _ else _) _ _ _ _ _
  rw [hf', Bool.false_and, if_neg Bool.false_ne_true]
  exact .fail host _ s''

/-! ## Providing -/

def decided (ns : Json) (name : String) : PhaseReading → Except Stop Unit
  | .ok _ => .ok ()
  | .error f => .error (.obstacle (.phaseUnreadable ⟨.readClaim ns (.str name), f⟩))

theorem concluded_of_decides {attempts : Int} (h : Decides reading) :
    concluded name attempts (seen ns name reading) = decided ns name reading := by
  rcases h with rfl | ⟨f, rfl, hf⟩
  · rfl
  · rw [seen, if_neg (by rw [hf]; decide)]
    rfl

theorem concluded_of_not_decides {attempts : Int} (h : ¬ Decides reading) :
    concluded name attempts (seen ns name reading) =
      .error (.obstacle (.claimNotBound name (phaseIn reading) attempts)) := by
  rw [seen_of_not_decides h]
  rfl

section Provide

variable {b : Backup} {template : List (String × Json)} {attempts : Int}

theorem provide_eq (hclaim : Claim.forBackup b template name = .ok claim) :
    (provide attempts delay b template name : Task τ Unit) =
      ensureClaim b.ns name claim >>= fun _ => awaitBound attempts delay b.ns name := by
  unfold provide
  rw [hclaim, Task.require_ok, pure_bind]

theorem runs_provide (hn : 0 < attempts) (delay : Nat → τ)
    (hclaim : Claim.forBackup b template name = .ok claim)
    (hready : ClaimReady host s b.ns name claim es s') :
    let reading := readingAt host b.ns name (fun i => delay (i + 1)) s'
    ∃ k < attempts.toNat, ∃ after, (∀ i < k, ¬ Decides (reading i)) ∧
      (Decides (reading k) ∨ k + 1 = attempts.toNat) ∧
      Task.Runs host (provide attempts delay b template name) s
        (concluded name attempts (seen b.ns name (reading k))) after
        (es ++ (List.range (k + 1)).map fun i => ⟨.readClaim b.ns (.str name), reading i⟩)
        ((List.range k).map fun i => delay (i + 1)) := by
  intro reading
  obtain ⟨k, hk, after, hbefore, hlast, hawait⟩ := runs_awaitBound hn delay b.ns name s'
  rw [provide_eq hclaim]
  exact ⟨k, hk, after, hbefore, hlast, (runs_ensureClaim hready).bind hawait⟩

/-- The claim is created exactly if the first read does not find it. Where that read fails
otherwise, or the creation fails for another reason than that the claim is there, nothing else is
called and there is no pause. Else the claim is polled: up to the first reading that decides, if
there is one among the attempts, or with all attempts in vain. There is a pause after each poll but
the last, and the last phase is reported. -/
theorem provide_makes_these_calls (host : Host τ σ) (s : σ) (hn : 0 < attempts)
    (delay : Nat → τ) {text : String} (hns : b.ns = .str text) (huid : b.uid.given = true)
    (template : List (String × Json)) (name : String) :
    let task : Task τ Unit := provide attempts delay b template name
    let read := Call.readClaim b.ns (.str name)
    ∃ claim, Claim.forBackup b template name = .ok claim ∧
      (∀ ns body, Call.createClaim ns body ∈ (task.run.exchanges host s).map Exchange.call ↔
        ns = b.ns ∧ body = claim ∧
          ∃ f, (host.answer s read).1 = .error f ∧ f.hasStatus 404 = true) ∧
      (∀ f s', host.answer s read = (.error f, s') → f.hasStatus 404 = false →
        task.Runs host s (.error (.obstacle (.claimUnreadable ⟨read, f⟩))) s'
          [⟨read, .error f⟩] []) ∧
      (∀ f s' f' s'', host.answer s read = (.error f, s') → f.hasStatus 404 = true →
        host.answer s' (.createClaim b.ns claim) = (.error f', s'') → f'.hasStatus 409 = false →
        task.Runs host s (.error (.obstacle (.claimNotCreated ⟨.createClaim b.ns claim, f'⟩))) s''
          [⟨read, .error f⟩, ⟨.createClaim b.ns claim, .error f'⟩] []) ∧
      ∀ es s', ClaimReady host s b.ns name claim es s' →
        let reading := readingAt host b.ns name (fun i => delay (i + 1)) s'
        let polls := fun k => (List.range k).map fun i => (⟨read, reading i⟩ : Exchange)
        let pauses := fun k => (List.range k).map fun i => delay (i + 1)
        (∀ k < attempts.toNat, Decides (reading k) → (∀ i < k, ¬ Decides (reading i)) →
          ∃ after, task.Runs host s (decided b.ns name (reading k)) after (es ++ polls (k + 1))
            (pauses k)) ∧
        ((∀ i < attempts.toNat, ¬ Decides (reading i)) →
          ∃ after, task.Runs host s (.error (.obstacle (.claimNotBound name
            (phaseIn (reading (attempts.toNat - 1))) attempts))) after
            (es ++ polls attempts.toNat) (pauses (attempts.toNat - 1))) := by
  intro task read
  obtain ⟨claim, hclaim⟩ := (Claim.forBackup_eq hns template name).1 huid
  have htask : task = _ := provide_eq hclaim
  have hunreadable : ∀ f s', host.answer s read = (.error f, s') → f.hasStatus 404 = false →
      task.Runs host s (.error (.obstacle (.claimUnreadable ⟨read, f⟩))) s'
        [⟨read, .error f⟩] [] := by
    intro f s' hread hf
    rw [htask]
    exact (runs_ensureClaim_unreadable hread hf).bind_error
  have hnotCreated : ∀ f s' f' s'', host.answer s read = (.error f, s') →
      f.hasStatus 404 = true → host.answer s' (.createClaim b.ns claim) = (.error f', s'') →
      f'.hasStatus 409 = false →
      task.Runs host s (.error (.obstacle (.claimNotCreated ⟨.createClaim b.ns claim, f'⟩))) s''
        [⟨read, .error f⟩, ⟨.createClaim b.ns claim, .error f'⟩] [] := by
    intro f s' f' s'' hread hf hcreate hf'
    rw [htask]
    exact (runs_ensureClaim_notCreated hread hf hcreate hf').bind_error
  refine ⟨claim, hclaim, ?_, hunreadable, hnotCreated, ?_⟩
  · intro ns body
    rcases claimReady_or host s b.ns name claim with
      ⟨es, s', hready⟩ | ⟨f, s', hread, hf⟩ | ⟨f, s', f', s'', hread, hf, hcreate, hf'⟩
    · obtain ⟨k, -, after, -, -, hrun⟩ := runs_provide hn delay hclaim hready
      rw [hrun.exchanges, List.map_append, List.mem_append, hready.creates_iff]
      simp [read]
    · rw [(hunreadable f s' hread hf).exchanges]
      simp [read, hread, hf]
    · rw [(hnotCreated f s' f' s'' hread hf hcreate hf').exchanges]
      simp [read, hread, hf]
  · intro es s' hready reading polls pauses
    obtain ⟨k, hk, after, hbefore, hlast, hrun⟩ := runs_provide hn delay hclaim hready
    constructor
    · intro j hj hdecides hfirst
      -- The first reading that decides is the last one that is made.
      have hkj : k = j := by
        rcases Nat.lt_trichotomy k j with hlt | heq | hgt
        · have hall := hlast.resolve_left (hfirst k hlt)
          omega
        · exact heq
        · exact absurd hdecides (hbefore j hgt)
      subst hkj
      rw [concluded_of_decides hdecides] at hrun
      exact ⟨after, hrun⟩
    · intro hnever
      have hall := hlast.resolve_left (hnever k hk)
      rw [concluded_of_not_decides (hnever k hk)] at hrun
      rw [show attempts.toNat - 1 = k by omega, ← hall]
      exact ⟨after, hrun⟩

end Provide

end Volume

/-! ## A claim that others create -/

namespace Nightly

/-- An API on which the claim is not found and comes to be there before it is created. It is pending
then, is not found once more, and gets bound. The number of reads is the state. -/
def flaky : Host Nat Nat where
  answer reads
    | .readClaim .. =>
      (match reads with
        | 0 => .error .notFound
        | 1 => .ok (some (.str "Pending"))
        | 2 => .error .notFound
        | _ => .ok (some (.str "Bound")), reads + 1)
    | .createClaim .. => (.error .alreadyExists, reads)
    | .getBackup .. => (.error .notFound, reads)
    | .listClusters .. => (.error .notFound, reads)
    | .readJob .. => (.error .notFound, reads)
    | .createJob .. => (.error .alreadyExists, reads)
    | .replaceStatus .. => (.error .conflict, reads)
  pass reads _ := reads

end Nightly

/-- The claim is created in vain, and polled three times with two pauses. -/
theorem provide_makes_these_calls_nightly :
    ∃ (b : Backup) (claim : Claim) (after : Nat),
      Claim.forBackup b [] "nightly-xb" = .ok claim ∧
      Task.Runs Nightly.flaky (Volume.provide 5 id b [] "nightly-xb") 0 (.ok ()) after
        [⟨.readClaim b.ns (.str "nightly-xb"), .error .notFound⟩,
          ⟨.createClaim b.ns claim, .error .alreadyExists⟩,
          ⟨.readClaim b.ns (.str "nightly-xb"), .ok (some (.str "Pending"))⟩,
          ⟨.readClaim b.ns (.str "nightly-xb"), .error .notFound⟩,
          ⟨.readClaim b.ns (.str "nightly-xb"), .ok (some (.str "Bound"))⟩] [1, 2] := by
  obtain ⟨b, hb⟩ : ∃ b, Backup.ofJson (Nightly.backup .null) = .ok b := ⟨_, rfl⟩
  have hread := Backup.readFrom_of_ofJson hb
  have hns : b.ns = .str "apps" := hread.ns
  have huid : b.uid.given = true := by
    rw [hread.uid]
    decide
  obtain ⟨claim, hclaim, -, -, -, hpolls⟩ := Volume.provide_makes_these_calls Nightly.flaky 0
    (show (0 : Int) < 5 by decide) id hns huid [] "nightly-xb"
  have hready : Volume.ClaimReady Nightly.flaky 0 b.ns "nightly-xb" claim
      [⟨.readClaim b.ns (.str "nightly-xb"), .error .notFound⟩,
        ⟨.createClaim b.ns claim, .error .alreadyExists⟩] 1 :=
    .created rfl (by decide) rfl (by rintro _ ⟨⟩; decide)
  obtain ⟨after, hrun⟩ := (hpolls _ 1 hready).1 2 (by decide) (.inl rfl) (by
    intro i hi
    match i, hi with
    | 0, _ =>
      rintro (h | ⟨f, h, -⟩)
      · exact absurd (Option.some.inj (Except.ok.inj h)) (by decide)
      · cases h
    | 1, _ =>
      rintro (h | ⟨f, h, hf⟩)
      · cases h
      · cases h
        exact absurd hf (by decide))
  exact ⟨b, claim, after, hclaim, hrun⟩

end ClusterBackup
