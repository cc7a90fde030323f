import ClusterBackup.Api.Session
import ClusterBackup.Proofs.Api.ServerFrame
import ClusterBackup.Proofs.Program.Exchanges
/-!
# Sessions with injected failures

In a session whose script has failures but no answers, a call is answered by the server or fails
without any effect. What every call keeps of the server then holds at each call of a run, wherever
the failures are (`exchanges_of_kept`).
-/

namespace ClusterBackup.Api

/-- Whether a response is an answer that the server did not give. -/
def Response.isGiven {α : Type} : Response α → Bool
  | .giving _ => true
  | _ => false

/-- The script has failures, and no answers. -/
structure Script.OnlyFails (s : Script) : Prop where
  getBackup : ∀ r ∈ s.getBackup, r.isGiven = false
  listClusters : ∀ r ∈ s.listClusters, r.isGiven = false
  readClaim : ∀ r ∈ s.readClaim, r.isGiven = false
  createClaim : ∀ r ∈ s.createClaim, r.isGiven = false
  readJob : ∀ r ∈ s.readJob, r.isGiven = false
  createJob : ∀ r ∈ s.createJob, r.isGiven = false
  replaceStatus : ∀ r ∈ s.replaceStatus, r.isGiven = false

namespace Script

theorem isGiven_next {α : Type} {rs : List (Response α)} (h : ∀ r ∈ rs, r.isGiven = false) :
    (next rs).1.isGiven = false ∧ ∀ r ∈ (next rs).2, r.isGiven = false := by
  cases rs with
  | nil => exact ⟨rfl, by simp [next]⟩
  | cons r rs => exact List.forall_mem_cons.1 h

theorem OnlyFails.take {s : Script} (hs : s.OnlyFails) (c : Call) :
    (s.take c).1.isGiven = false ∧ (s.take c).2.OnlyFails := by
  cases c with
  | getBackup =>
    obtain ⟨hr, hrest⟩ := isGiven_next hs.getBackup
    exact ⟨hr, { hs with getBackup := hrest }⟩
  | listClusters =>
    obtain ⟨hr, hrest⟩ := isGiven_next hs.listClusters
    exact ⟨hr, { hs with listClusters := hrest }⟩
  | readClaim =>
    obtain ⟨hr, hrest⟩ := isGiven_next hs.readClaim
    exact ⟨hr, { hs with readClaim := hrest }⟩
  | createClaim =>
    obtain ⟨hr, hrest⟩ := isGiven_next hs.createClaim
    exact ⟨hr, { hs with createClaim := hrest }⟩
  | readJob =>
    obtain ⟨hr, hrest⟩ := isGiven_next hs.readJob
    exact ⟨hr, { hs with readJob := hrest }⟩
  | createJob =>
    obtain ⟨hr, hrest⟩ := isGiven_next hs.createJob
    exact ⟨hr, { hs with createJob := hrest }⟩
  | replaceStatus =>
    obtain ⟨hr, hrest⟩ := isGiven_next hs.replaceStatus
    exact ⟨hr, { hs with replaceStatus := hrest }⟩

end Script

theorem Server.backups_answer_of_error {s : Server} {c : Call}
    (h : (s.answer c).1.isOk = false) : (s.answer c).2.backups = s.backups := by
  cases hc : c.isWrite with
  | false => exact backups_answer s hc
  | true =>
    cases c with
    | replaceStatus u =>
      unfold answer at h ⊢
      dsimp only at h ⊢
      cases hstored : stored s.backups u.ns u.name with
      | error f => rfl
      | ok found =>
        obtain ⟨key, object⟩ := found
        rw [hstored] at h
        dsimp only at h ⊢
        cases hreplaced : replaced object u with
        | error f => rfl
        | ok object' =>
          rw [hreplaced] at h
          cases h
    | _ => cases hc

namespace Session

variable {τ α : Type} {s : Session τ}

theorem respond_of_onlyFails (hs : s.script.OnlyFails) (c : Call) :
    ((s.respond c).1 = (s.server.answer c).1 ∧
        (s.respond c).2.server = (s.server.answer c).2 ∨
      (∃ f, (s.respond c).1 = .error f) ∧ (s.respond c).2.server = s.server) ∧
    (s.respond c).2.script.OnlyFails := by
  obtain ⟨hgiven, hrest⟩ := hs.take c
  unfold respond
  cases hr : (s.script.take c).1 with
  | natural =>
    simp only [hr]
    exact ⟨.inl ⟨trivial, trivial⟩, hrest⟩
  | failing f =>
    simp only [hr]
    exact ⟨.inr ⟨⟨f, rfl⟩, trivial⟩, hrest⟩
  | giving answer =>
    rw [hr] at hgiven
    cases hgiven

theorem backups_respond {c : Call}
    (hc : c.isWrite = true → (s.respond c).1.isOk = false) :
    (s.respond c).2.server.backups = s.server.backups := by
  unfold respond at hc ⊢
  cases hr : (s.script.take c).1 with
  | natural =>
    simp only [hr] at hc ⊢
    cases hw : c.isWrite with
    | false => exact Server.backups_answer s.server hw
    | true => exact Server.backups_answer_of_error (hc hw)
  | failing f =>
    simp only [hr]
  | giving answer =>
    simp only [hr]

variable [Add τ]

/-- What holds of the server at first and is kept by every call holds at each call of a run. -/
theorem exchanges_of_kept {I : Server → Prop} {X : Exchange → Prop}
    (hkept : ∀ s c, I s → I (s.answer c).2) (hnatural : ∀ s c, I s → X ⟨c, (s.answer c).1⟩)
    (hfailed : ∀ c f, X ⟨c, .error f⟩) (p : Program τ α) (hs : s.script.OnlyFails)
    (hi : I s.server) : ∀ e ∈ p.exchanges host s, X e := by
  induction p generalizing s with
  | done a => simp [Program.exchanges]
  | call c next ih =>
    obtain ⟨hcases, hrest⟩ := respond_of_onlyFails hs c
    rw [Program.exchanges, List.forall_mem_cons]
    show X ⟨c, (s.respond c).1⟩ ∧
      ∀ e ∈ (next (s.respond c).1).exchanges host (s.respond c).2, X e
    rcases hcases with ⟨houtcome, hserver⟩ | ⟨⟨f, houtcome⟩, hserver⟩
    · refine ⟨?_, ih _ hrest ?_⟩
      · rw [houtcome]
        exact hnatural s.server c hi
      · rw [hserver]
        exact hkept s.server c hi
    · refine ⟨?_, ih _ hrest ?_⟩
      · rw [houtcome]
        exact hfailed c f
      · rw [hserver]
        exact hi
  | pause seconds next ih => exact ih (s := s.pass seconds) hs hi

/-- The backups are left alone by a run in which no record was written with success. -/
theorem backups_run (p : Program τ α)
    (h : ∀ e ∈ p.exchanges host s, e.call.isWrite = true → e.outcome.isOk = false) :
    (s.run p).2.server.backups = s.server.backups := by
  induction p generalizing s with
  | done a => rfl
  | call c next ih =>
    rw [Program.exchanges, List.forall_mem_cons] at h
    exact (ih _ h.2).trans (backups_respond h.1)
  | pause seconds next ih => exact ih (s := s.pass seconds) h

end Session

end ClusterBackup.Api
