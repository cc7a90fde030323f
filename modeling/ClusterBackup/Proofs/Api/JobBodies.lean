import ClusterBackup.Proofs.Api.ServerFrame
/-!
# What jobs were created with

No call answers with what a job was created with. So a program does the same on two servers that
differ in nothing else.
-/

namespace ClusterBackup.Api.Server

variable {τ α : Type} {s s' : Server}

/-- The servers differ only in what their jobs were created with. -/
structure SameButBodies (s s' : Server) : Prop where
  backups : s.backups = s'.backups
  clusters : s.clusters = s'.clusters
  claims : s.claims = s'.claims
  newClaimPhases : s.newClaimPhases = s'.newClaimPhases
  statuses : ∀ k, (s.jobs.find? k).map StoredJob.status = (s'.jobs.find? k).map StoredJob.status

theorem sameButBodies_insert {k : ObjectKey} {stored : StoredJob} (body : Option Job)
    (h : s.jobs.find? k = some stored) :
    s.SameButBodies { s with jobs := s.jobs.insert k { stored with body } } where
  backups := rfl
  clusters := rfl
  claims := rfl
  newClaimPhases := rfl
  statuses l := by
    rw [Table.find?_insert]
    split
    · rename_i hl
      have hfind : s.jobs.find? l = some stored := by
        rw [← h, Table.find?_congr hl]
      rw [hfind]
      rfl
    · rfl

theorem SameButBodies.stored (h : s.SameButBodies s') (ns name : Json) :
    (stored s.jobs ns name).map (fun r => r.2.status) =
      (stored s'.jobs ns name).map fun r => r.2.status := by
  unfold Server.stored
  cases keyOf ns name with
  | error f => rfl
  | ok k =>
    have hk := h.statuses k
    dsimp only
    -- Statuses that agree leave no case where only one of the servers has the job.
    cases hs : s.jobs.find? k <;> cases hs' : s'.jobs.find? k <;>
      simp [hs, hs', Except.map] at hk ⊢
    exact hk

theorem SameButBodies.free (h : s.SameButBodies s') (ns name : Json) :
    free s.jobs ns name = free s'.jobs ns name := by
  unfold Server.free
  cases keyOf ns name with
  | error f => rfl
  | ok k =>
    have hk := h.statuses k
    dsimp only
    cases hs : s.jobs.find? k <;> cases hs' : s'.jobs.find? k <;> simp [hs, hs'] at hk ⊢

/-- Servers that differ only in the bodies are one server with other jobs. -/
theorem SameButBodies.exists_jobs (h : s.SameButBodies s') : ∃ jobs, s' = { s with jobs } := by
  obtain ⟨hbackups, hclusters, hclaims, hphases, -⟩ := h
  exact ⟨s'.jobs, by rw [hbackups, hclusters, hclaims, hphases]⟩

theorem SameButBodies.answer (h : s.SameButBodies s') (c : Call) :
    (s.answer c).1 = (s'.answer c).1 ∧ (s.answer c).2.SameButBodies (s'.answer c).2 := by
  -- Only reads and submissions of jobs look at the jobs at all.
  have hfree := h.free
  have hstored := h.stored
  have hstatuses := h.statuses
  obtain ⟨jobs, rfl⟩ := h.exists_jobs
  cases c with
  | getBackup ns name => exact ⟨rfl, h⟩
  | listClusters ns => exact ⟨rfl, h⟩
  | readJob ns name => exact ⟨hstored ns name, h⟩
  | readClaim ns name =>
    unfold Server.answer
    dsimp only
    cases Server.stored s.claims ns name with
    | error f => exact ⟨rfl, h⟩
    | ok found => exact ⟨rfl, ⟨rfl, rfl, rfl, rfl, hstatuses⟩⟩
  | createClaim ns body =>
    unfold Server.answer
    dsimp only
    cases Server.free s.claims ns (bodyName body) with
    | error f => exact ⟨rfl, h⟩
    | ok k => exact ⟨rfl, ⟨rfl, rfl, rfl, rfl, hstatuses⟩⟩
  | createJob ns body =>
    unfold Server.answer
    dsimp only
    rw [hfree]
    cases Server.free jobs ns (bodyName body) with
    | error f => exact ⟨rfl, h⟩
    | ok k =>
      refine ⟨rfl, ⟨rfl, rfl, rfl, rfl, fun l => ?_⟩⟩
      dsimp only
      rw [Table.find?_insert, Table.find?_insert]
      split
      · rfl
      · exact hstatuses l
  | replaceStatus update =>
    unfold Server.answer
    dsimp only
    cases Server.stored s.backups update.ns update.name with
    | error f => exact ⟨rfl, h⟩
    | ok found =>
      obtain ⟨k, object⟩ := found
      dsimp only
      cases Server.replaced object update with
      | error f => exact ⟨rfl, h⟩
      | ok object => exact ⟨rfl, ⟨rfl, rfl, rfl, rfl, hstatuses⟩⟩

theorem SameButBodies.run (h : s.SameButBodies s') (p : Program τ α) :
    (p.run (host τ) s).1 = (p.run (host τ) s').1 ∧
      (p.run (host τ) s).2.SameButBodies (p.run (host τ) s').2 := by
  induction p generalizing s s' with
  | done a => exact ⟨rfl, h⟩
  | call c next ih =>
    obtain ⟨houtcome, hstate⟩ := h.answer c
    show ((next (s.answer c).1).run (host τ) (s.answer c).2).1 =
        ((next (s'.answer c).1).run (host τ) (s'.answer c).2).1 ∧
      ((next (s.answer c).1).run (host τ) (s.answer c).2).2.SameButBodies
        ((next (s'.answer c).1).run (host τ) (s'.answer c).2).2
    rw [← houtcome]
    exact ih _ hstate
  | pause seconds next ih => exact ih h

end ClusterBackup.Api.Server
