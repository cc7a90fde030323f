import ClusterBackup.Api.Server
import ClusterBackup.Proofs.Program.Calls
/-!
# What calls leave alone

A call is answered from one kind of objects and changes at most that kind: `answer_withBackups`
says that most calls neither see nor change the backups, and `jobs_answer` that only one kind of
call changes the jobs. Both carry over to whole programs. Jobs only come by calls; none goes.
-/

namespace ClusterBackup.Api

def Call.isForBackup : Call → Bool
  | getBackup .. => true
  | replaceStatus .. => true
  | _ => false

def Call.isWrite : Call → Bool
  | replaceStatus .. => true
  | _ => false

def Call.isJobRead : Call → Bool
  | readJob .. => true
  | _ => false

def Call.isSubmission : Call → Bool
  | createJob .. => true
  | _ => false

namespace Server

variable {τ α : Type} {s t : Server} {c : Call}

/-- The server as a host of programs, on which nothing else happens. -/
def host (τ : Type) : Program.Host τ Server := ⟨answer, fun s _ => s⟩

/-! ## Backups -/

theorem answer_withBackups (s : Server) (x : Table ObjectKey Json) (hc : c.isForBackup = false) :
    ({ s with backups := x } : Server).answer c =
      ((s.answer c).1, { (s.answer c).2 with backups := x }) := by
  cases c with
  | getBackup => cases hc
  | replaceStatus => cases hc
  | listClusters ns => rfl
  | readJob ns name => rfl
  | readClaim ns name =>
    unfold answer
    dsimp only
    cases stored s.claims ns name <;> rfl
  | createClaim ns body =>
    unfold answer
    dsimp only
    cases free s.claims ns (bodyName body) <;> rfl
  | createJob ns body =>
    unfold answer
    dsimp only
    cases free s.jobs ns (bodyName body) <;> rfl

theorem backups_answer (s : Server) (hc : c.isWrite = false) :
    (s.answer c).2.backups = s.backups := by
  cases c with
  | replaceStatus => cases hc
  | getBackup => rfl
  | listClusters => rfl
  | readJob => rfl
  | readClaim ns name =>
    unfold answer
    dsimp only
    cases stored s.claims ns name <;> rfl
  | createClaim ns body =>
    unfold answer
    dsimp only
    cases free s.claims ns (bodyName body) <;> rfl
  | createJob ns body =>
    unfold answer
    dsimp only
    cases free s.jobs ns (bodyName body) <;> rfl

theorem clusters_answer (s : Server) (c : Call) : (s.answer c).2.clusters = s.clusters := by
  cases c with
  | getBackup => rfl
  | listClusters => rfl
  | readJob => rfl
  | readClaim ns name =>
    unfold answer
    dsimp only
    cases stored s.claims ns name <;> rfl
  | createClaim ns body =>
    unfold answer
    dsimp only
    cases free s.claims ns (bodyName body) <;> rfl
  | createJob ns body =>
    unfold answer
    dsimp only
    cases free s.jobs ns (bodyName body) <;> rfl
  | replaceStatus u =>
    unfold answer
    dsimp only
    split
    · rfl
    · split <;> rfl

theorem keyOf_str (ns name : String) :
    keyOf (.str ns) (.str name) = .ok (.ofTexts ns name) := rfl

theorem answer_getBackup (s : Server) (ns name : String) :
    s.answer (.getBackup (.str ns) (.str name)) =
      (match s.backups.find? (.ofTexts ns name) with
        | some object => .ok object
        | none => .error .notFound, s) := by
  unfold answer stored
  dsimp only
  rw [keyOf_str]
  dsimp only
  cases s.backups.find? (.ofTexts ns name) <;> rfl

theorem run_withBackups {p : Program τ α} {D : τ → Prop}
    (hp : p.Within (fun c => c.isForBackup = false) D) (s : Server) (x : Table ObjectKey Json) :
    p.run (host τ) { s with backups := x } =
      ((p.run (host τ) s).1, { (p.run (host τ) s).2 with backups := x }) := by
  induction p generalizing s with
  | done result => rfl
  | call c next ih =>
    have hanswer := answer_withBackups s x hp.1
    show (next (({ s with backups := x } : Server).answer c).1).run (host τ)
      (({ s with backups := x } : Server).answer c).2 = _
    rw [hanswer]
    exact ih _ (hp.2 _) _
  | pause seconds next ih => exact ih hp.2 s

/-! ## Jobs -/

theorem jobs_answer (s : Server) (hc : c.isSubmission = false) :
    (s.answer c).2.jobs = s.jobs := by
  cases c with
  | createJob => cases hc
  | getBackup => rfl
  | listClusters => rfl
  | readJob => rfl
  | readClaim ns name =>
    unfold answer
    dsimp only
    cases stored s.claims ns name <;> rfl
  | createClaim ns body =>
    unfold answer
    dsimp only
    cases free s.claims ns (bodyName body) <;> rfl
  | replaceStatus u =>
    unfold answer
    dsimp only
    split
    · rfl
    · split <;> rfl

theorem jobs_run {p : Program τ α} {D : τ → Prop}
    (hp : p.Within (fun c => c.isSubmission = false) D) (s : Server) :
    (p.run (host τ) s).2.jobs = s.jobs := by
  induction p generalizing s with
  | done result => rfl
  | call c next ih =>
    have hrest := ih _ (hp.2 (s.answer c).1) (s.answer c).2
    rw [jobs_answer s hp.1] at hrest
    exact hrest
  | pause seconds next ih => exact ih hp.2 s

/-- A submission succeeds where there is no job of the name, and puts it there. -/
theorem answer_createJob {ns name : String} {body : Job} (hname : bodyName body = .str name) :
    s.answer (.createJob (.str ns) body) =
      match s.jobs.find? (.ofTexts ns name) with
      | some _ => (.error .alreadyExists, s)
      | none =>
        (.ok (), { s with jobs := s.jobs.insert (.ofTexts ns name) ⟨some body, some .blank⟩ }) := by
  unfold answer free
  dsimp only
  rw [hname, keyOf_str]
  dsimp only
  cases s.jobs.find? (.ofTexts ns name) <;> rfl

theorem find?_job_answer {k : ObjectKey} {job : StoredJob} (h : s.jobs.find? k = some job)
    (c : Call) : (s.answer c).2.jobs.find? k = some job := by
  cases hc : c.isSubmission with
  | false => rwa [jobs_answer s hc]
  | true =>
    cases c with
    | createJob ns body =>
      unfold answer free
      dsimp only
      cases keyOf ns (bodyName body) with
      | error f => exact h
      | ok key =>
        dsimp only
        cases hfind : s.jobs.find? key with
        | some found => exact h
        | none =>
          dsimp only
          rw [Table.find?_insert]
          split
          · rename_i hkey
            rw [Table.find?_congr hkey, h] at hfind
            cases hfind
          · exact h
    | _ => cases hc

theorem isSome_job_answer {k : ObjectKey} (h : (s.jobs.find? k).isSome = true) (c : Call) :
    ((s.answer c).2.jobs.find? k).isSome = true := by
  obtain ⟨job, hjob⟩ := Option.isSome_iff_exists.1 h
  rw [find?_job_answer hjob c]
  rfl

/-- A job that is there after a call was there before, or was created by the call. -/
theorem job_of_answer {k : ObjectKey} {job : StoredJob}
    (h : (s.answer c).2.jobs.find? k = some job) :
    s.jobs.find? k = some job ∨
      ∃ ns body, c = .createJob ns body ∧ job = ⟨some body, some .blank⟩ := by
  cases hc : c.isSubmission with
  | false =>
    rw [jobs_answer s hc] at h
    exact .inl h
  | true =>
    cases c with
    | createJob ns body =>
      unfold answer at h
      dsimp only at h
      split at h
      · exact .inl h
      · rw [Table.find?_insert] at h
        split at h
        · cases h
          exact .inr ⟨ns, body, rfl, rfl⟩
        · exact .inl h
    | _ => cases hc

theorem isSome_job_of_read {ns name : String} {status : Option JobStatus}
    (h : (s.answer (.readJob (.str ns) (.str name))).1 = .ok status) :
    (s.jobs.find? (.ofTexts ns name)).isSome = true := by
  have hstored : (stored s.jobs (.str ns) (.str name)).map (fun r => r.2.status) = .ok status := h
  unfold stored at hstored
  rw [keyOf_str] at hstored
  cases hfind : s.jobs.find? (.ofTexts ns name) with
  | some job => rfl
  | none => simp [hfind, Except.map] at hstored

end Server

end ClusterBackup.Api
