import ClusterBackup.Proofs.Reconcile.Settling
/-!
# Phases of a claim

Each read of a claim shows the next of its phases, and the last one for ever. So the phases that a
polling sees are known beforehand: it ends well if the claim is bound in one of the first of them,
as many as there are attempts, and else with the last phase seen.
-/

namespace ClusterBackup

open Api (Server StoredClaim PhaseReading)
open Api.Server (keyOf readPhase)

namespace Volume

variable {τ : Type} {s : Server} {c : StoredClaim} {k : ObjectKey} {ns : Json} {name : String}
  {claims : Table ObjectKey StoredClaim} {readings : List PhaseReading}

/-! ## Reads -/

def phaseIn : PhaseReading → Json
  | .ok reading => phaseOf reading
  | .error _ => undefinedPhase

/-- The phase that a read shows, the number of reads before it being given. -/
def phaseAt : List PhaseReading → Nat → Json
  | [], _ => undefinedPhase
  | [reading], _ => phaseIn reading
  | reading :: _ :: _, 0 => phaseIn reading
  | _ :: reading :: readings, n + 1 => phaseAt (reading :: readings) n

def IsBoundWithin (readings : List PhaseReading) (n : Nat) : Prop :=
  ∃ i < n, phaseAt readings i = boundPhase

def AllRead (readings : List PhaseReading) : Prop := ∀ r ∈ readings, ∃ reading, r = .ok reading

theorem phaseAt_succ (c : StoredClaim) (n : Nat) :
    phaseAt c.phases (n + 1) = phaseAt (readPhase c).2.phases n := by
  obtain ⟨body, phases⟩ := c
  match phases with
  | [] => rfl
  | [_] => rfl
  | _ :: _ :: _ => rfl

theorem isBoundWithin_succ (c : StoredClaim) (n : Nat) :
    IsBoundWithin c.phases (n + 1) ↔
      phaseAt c.phases 0 = boundPhase ∨ IsBoundWithin (readPhase c).2.phases n := by
  unfold IsBoundWithin
  rw [Nat.exists_lt_succ_left]
  simp only [phaseAt_succ]

@[simp] theorem not_isBoundWithin_zero (readings : List PhaseReading) :
    ¬ IsBoundWithin readings 0 := by
  rintro ⟨i, hi, -⟩
  omega

theorem equals_boundPhase_iff {phase : Json} :
    phase.equals boundPhase = true ↔ phase = boundPhase :=
  Json.equals_str_iff

theorem body_readPhase (c : StoredClaim) : (readPhase c).2.body = c.body := by
  unfold Server.readPhase
  split <;> rfl

theorem AllRead.readPhase (h : AllRead c.phases) :
    (∃ reading, (readPhase c).1 = .ok reading ∧ phaseOf reading = phaseAt c.phases 0) ∧
      AllRead (Server.readPhase c).2.phases := by
  obtain ⟨body, phases⟩ := c
  match phases, h with
  | [], h => exact ⟨⟨none, rfl, rfl⟩, h⟩
  | [r], h =>
    obtain ⟨reading, rfl⟩ := h r List.mem_cons_self
    exact ⟨⟨reading, rfl, rfl⟩, h⟩
  | r :: r' :: rest, h =>
    obtain ⟨reading, rfl⟩ := h r List.mem_cons_self
    exact ⟨⟨reading, rfl, rfl⟩, fun r hr => h r (List.mem_cons_of_mem _ hr)⟩

theorem answer_readClaim (hk : keyOf ns (.str name) = .ok k) (hc : s.claims.find? k = some c) :
    s.answer (.readClaim ns (.str name)) =
      ((readPhase c).1, { s with claims := s.claims.insert k (readPhase c).2 }) := by
  simp only [Server.answer, Server.stored_of_find? hk hc]

/-- There is a claim of the given body under the key, and all others are as they were. -/
structure ClaimedAt (k : ObjectKey) (body : Option Claim)
    (before after : Table ObjectKey StoredClaim) : Prop where
  there : (after.find? k).map StoredClaim.body = some body
  others : ∀ l, (k == l) = false → after.find? l = before.find? l

theorem ClaimedAt.insert (claims : Table ObjectKey StoredClaim) (k : ObjectKey)
    (c : StoredClaim) : ClaimedAt k c.body claims (claims.insert k c) where
  there := by rw [Table.find?_insert, if_pos BEq.rfl]; rfl
  others l hl := by rw [Table.find?_insert, if_neg (Bool.eq_false_iff.1 hl)]

theorem ClaimedAt.read (claims : Table ObjectKey StoredClaim) (k : ObjectKey) (c : StoredClaim) :
    ClaimedAt k c.body claims (claims.insert k (readPhase c).2) := by
  rw [← body_readPhase c]
  exact .insert claims k (readPhase c).2

theorem ClaimedAt.trans {body body' : Option Claim} {before between after :
    Table ObjectKey StoredClaim} (h : ClaimedAt k body before between)
    (h' : ClaimedAt k body' between after) : ClaimedAt k body' before after where
  there := h'.there
  others l hl := (h'.others l hl).trans (h.others l hl)

/-! ## Polling -/

theorem run_checkBound (hk : keyOf ns (.str name) = .ok k) (hc : s.claims.find? k = some c)
    (hread : AllRead c.phases) (last : Json) :
    ((checkBound ns name : StateT Json (Task τ) Bool).run last).run.run (Server.host τ) s =
      (.ok ((phaseAt c.phases 0).equals boundPhase, phaseAt c.phases 0),
        { s with claims := s.claims.insert k (readPhase c).2 }) := by
  obtain ⟨⟨reading, hreading, hphase⟩, -⟩ := hread.readPhase
  have hcurrent : (currentPhase ns name : Task τ Json).run.run (Server.host τ) s =
      (.ok (phaseAt c.phases 0), { s with claims := s.claims.insert k (readPhase c).2 }) := by
    unfold currentPhase
    rw [Task.run_ask_bind, answer_readClaim hk hc, hreading, ← hphase]
    rfl
  have hchecked : (checkBound ns name : StateT Json (Task τ) Bool).run last =
      currentPhase ns name >>= fun phase => pure (phase.equals boundPhase, phase) := by
    simp [checkBound]
  rw [hchecked, Task.run_bind_ok _ hcurrent]
  rfl

abbrev pauseFor (delay : Nat → τ) (n : Nat) : StateT Json (Task τ) Unit :=
  (Task.sleep (delay n) : Task τ Unit)

/-- A polling ends with the first check that finds the claim bound, or after as many checks as are
left, with the phase seen last. -/
theorem run_pollFrom (delay : Nat → τ) (hk : keyOf ns (.str name) = .ok k)
    (hc : s.claims.find? k = some c) (hread : AllRead c.phases) (left attempt : Nat)
    (last : Json) :
    ∃ bound phase claims,
      ((Polling.pollFrom (fun _ => checkBound ns name) (pauseFor delay) (left + 1)
        attempt).run last).run.run (Server.host τ) s = (.ok (bound, phase), { s with claims }) ∧
      (bound = true ↔ IsBoundWithin c.phases (left + 1)) ∧
      (bound = false → phase = phaseAt c.phases left) ∧ ClaimedAt k c.body s.claims claims := by
  induction left generalizing attempt c s last with
  | zero =>
    refine ⟨(phaseAt c.phases 0).equals boundPhase, phaseAt c.phases 0, _, ?_, ?_, fun _ => rfl,
      .read s.claims k c⟩
    · unfold Polling.pollFrom
      rw [StateT.run_bind, Task.run_bind_ok _ (run_checkBound hk hc hread last)]
      cases (phaseAt c.phases 0).equals boundPhase <;> rfl
    · rw [equals_boundPhase_iff, isBoundWithin_succ, or_iff_left (not_isBoundWithin_zero _)]
  | succ left ih =>
    have hread' := ClaimedAt.read s.claims k c
    unfold Polling.pollFrom
    rw [StateT.run_bind, Task.run_bind_ok _ (run_checkBound hk hc hread last), isBoundWithin_succ]
    dsimp only
    by_cases hfirst : phaseAt c.phases 0 = boundPhase
    · rw [if_pos (equals_boundPhase_iff.2 hfirst)]
      refine ⟨true, _, _, rfl, iff_of_true rfl (.inl hfirst), ?_, hread'⟩
      intro hfalse
      cases hfalse
    · rw [if_neg (mt equals_boundPhase_iff.1 hfirst), if_neg (Nat.succ_ne_zero left)]
      -- After the pause the claim is polled as it is after the read.
      have hthere : (s.claims.insert k (readPhase c).2).find? k = some (readPhase c).2 := by
        rw [Table.find?_insert, if_pos BEq.rfl]
      obtain ⟨bound, phase, claims, hrun, hbound, hphase, hclaims⟩ :=
        ih (s := { s with claims := s.claims.insert k (readPhase c).2 }) hthere
          hread.readPhase.2 (attempt + 1) (phaseAt c.phases 0)
      rw [body_readPhase] at hclaims
      refine ⟨bound, phase, claims, hrun, ?_, ?_, hread'.trans hclaims⟩
      · rw [hbound, or_iff_right hfirst]
      · rw [phaseAt_succ]
        exact hphase

/-- A claim that is awaited is there and bound within the attempts, or the phase seen last is
reported. -/
theorem run_awaitBound {attempts : Int} (delay : Nat → τ) (hn : 0 < attempts)
    (hk : keyOf ns (.str name) = .ok k) (hc : s.claims.find? k = some c)
    (hread : AllRead c.phases) :
    ∃ claims, ClaimedAt k c.body s.claims claims ∧
      (IsBoundWithin c.phases attempts.toNat →
        (awaitBound attempts delay ns name).run.run (Server.host τ) s =
          (.ok (), { s with claims })) ∧
      (¬ IsBoundWithin c.phases attempts.toNat →
        (awaitBound attempts delay ns name).run.run (Server.host τ) s =
          (.error (.obstacle (.claimNotBound name (phaseAt c.phases (attempts.toNat - 1))
            attempts)), { s with claims })) := by
  obtain ⟨left, hleft⟩ : ∃ left, attempts.toNat = left + 1 :=
    Nat.exists_eq_succ_of_ne_zero (by omega)
  obtain ⟨bound, phase, claims, hrun, hbound, hphase, hclaims⟩ :=
    run_pollFrom delay hk hc hread left 1 undefinedPhase
  have hpoll : Polling.poll? attempts (fun _ => checkBound ns name) (pauseFor delay) =
      some (Polling.pollFrom (fun _ => checkBound ns name) (pauseFor delay) (left + 1) 1) := by
    rw [Polling.poll?, if_neg (by omega), hleft]
  have hawait : (awaitBound attempts delay ns name).run.run (Server.host τ) s =
      ((do unless bound do Task.fail (.claimNotBound name phase attempts)) : Task τ Unit).run.run
        (Server.host τ) { s with claims } := by
    unfold awaitBound
    dsimp only
    rw [hpoll]
    exact Task.run_bind_ok _ hrun
  rw [hawait, hleft]
  refine ⟨claims, hclaims, fun hwithin => ?_, fun hnot => ?_⟩
  · rw [hbound.2 hwithin]
    rfl
  · have hfalse : bound = false := Bool.eq_false_iff.2 (mt hbound.1 hnot)
    rw [hphase hfalse, hfalse]
    rfl

/-! ## Providing -/

/-- What the polling of a claim is shown: the readings after the one that finds it, or those of a
claim that is created. -/
def polled (s : Server) (k : ObjectKey) : List PhaseReading :=
  match s.claims.find? k with
  | some c => (readPhase c).2.phases
  | none => s.newClaimPhases

def bodyOr (s : Server) (k : ObjectKey) (claim : Claim) : Option Claim :=
  match s.claims.find? k with
  | some c => c.body
  | none => some claim

/-- No read of a claim fails, be it there or yet to be created. -/
structure AllReadOn (s : Server) : Prop where
  claims : ∀ k c, s.claims.find? k = some c → AllRead c.phases
  newClaims : AllRead s.newClaimPhases

theorem AllReadOn.polled (h : AllReadOn s) (k : ObjectKey) : AllRead (polled s k) := by
  unfold Volume.polled
  split
  · rename_i c hc
    exact (h.claims k c hc).readPhase.2
  · exact h.newClaims

/-- Found or created, the claim is there when it is waited for. -/
theorem run_ensureClaim_healthy {claim : Claim} (hname : Api.bodyName claim = .str name)
    (hk : keyOf ns (.str name) = .ok k) (hread : AllReadOn s) :
    (ensureClaim ns name claim : Task τ Unit).run.run (Server.host τ) s =
      (.ok (), { s with claims := s.claims.insert k ⟨bodyOr s k claim, polled s k⟩ }) := by
  unfold bodyOr polled
  cases hc : s.claims.find? k with
  | none => exact run_ensureClaim hname hk hc
  | some c =>
    obtain ⟨⟨reading, hreading, -⟩, -⟩ := (hread.claims k c hc).readPhase
    dsimp only
    unfold ensureClaim
    rw [Task.run_ask_bind, answer_readClaim hk hc, hreading, ← body_readPhase c]
    rfl

/-- A claim that can be owned is provided if one of the phases that are polled is the bound one. It
is there afterwards in any case. -/
theorem run_provide {b : Backup} {attempts : Int} (delay : Nat → τ)
    {template : List (String × Json)} {claim : Claim} (hn : 0 < attempts)
    (hk : keyOf b.ns (.str name) = .ok k)
    (hclaim : Claim.forBackup b template name = .ok claim) (hread : AllReadOn s) :
    ∃ claims, ClaimedAt k (bodyOr s k claim) s.claims claims ∧
      (IsBoundWithin (polled s k) attempts.toNat →
        (provide attempts delay b template name).run.run (Server.host τ) s =
          (.ok (), { s with claims })) ∧
      (¬ IsBoundWithin (polled s k) attempts.toNat →
        (provide attempts delay b template name).run.run (Server.host τ) s =
          (.error (.obstacle (.claimNotBound name (phaseAt (polled s k) (attempts.toNat - 1))
            attempts)), { s with claims })) := by
  have hensure := run_ensureClaim_healthy (τ := τ) (Claim.bodyName_of_forBackup hclaim) hk hread
  have hthere : (s.claims.insert k ⟨bodyOr s k claim, polled s k⟩).find? k =
      some ⟨bodyOr s k claim, polled s k⟩ := by
    rw [Table.find?_insert, if_pos BEq.rfl]
  obtain ⟨claims, hclaims, hwithin, hnot⟩ := run_awaitBound
    (s := { s with claims := s.claims.insert k ⟨bodyOr s k claim, polled s k⟩ }) delay hn hk
    hthere (hread.polled k)
  have hprovide : (provide attempts delay b template name).run.run (Server.host τ) s =
      (awaitBound attempts delay b.ns name).run.run (Server.host τ)
        { s with claims := s.claims.insert k ⟨bodyOr s k claim, polled s k⟩ } := by
    unfold provide
    rw [hclaim, Task.require_ok]
    exact Task.run_bind_ok _ hensure
  rw [hprovide]
  exact ⟨claims, (ClaimedAt.insert s.claims k _).trans hclaims, hwithin, hnot⟩

end Volume

end ClusterBackup
