import ClusterBackup.Progress
/-!
# Closed records

Which records are closed to which candidates: a failure to all of them, a success with a time of
completion to all of them, and a success without one to all that are not successes.
-/

namespace ClusterBackup

theorem Stage.eq_name_of_ofName? {stage : Stage} {name : String} (h : ofName? name = some stage) :
    name = stage.name := by
  unfold ofName? at h
  split at h <;> cases h <;> rfl

namespace Record

variable {r c : Record}

@[simp] theorem stage?_ofProgress (p : Progress) (d : Destination) (profile : Json) :
    (ofProgress p d profile).stage? = some p.stage :=
  Stage.ofName?_name p.stage

theorem state_of_stage? {stage : Stage} (h : r.stage? = some stage) :
    r.state = .str stage.name := by
  unfold stage? at h
  split at h
  · rename_i name hname
    rw [hname, Stage.eq_name_of_ofName? h]
  · cases h

theorem stage?_of_state {stage : Stage} (h : r.state = .str stage.name) :
    r.stage? = some stage := by
  unfold stage?
  rw [h]
  exact Stage.ofName?_name stage

theorem isFinal_of_stage? {stage : Stage} (h : r.stage? = some stage) :
    r.isFinal = .ok stage.isFinal := by
  unfold isFinal
  rw [state_of_stage? h, h]
  rfl

theorem stage_of_completed {p : Progress} {d : Destination} {profile : Json}
    (h : (ofProgress p d profile).completedAt.isNull = false) : p.stage = .succeeded := by
  by_cases hs : p.stage = .succeeded
  · exact hs
  · simp [ofProgress, hs, Json.isNull] at h

theorem isClosedTo_of_failed (h : r.stage? = some .failed) :
    isClosedTo (some r) c = .ok true := by
  simp [isClosedTo, isFinal_of_stage? h, completes, h, Stage.isFinal, Except.map]

theorem isClosedTo_of_completed (h : r.stage? = some .succeeded)
    (hc : r.completedAt.isNull = false) : isClosedTo (some r) c = .ok true := by
  simp [isClosedTo, isFinal_of_stage? h, completes, h, hc, Stage.isFinal, Except.map]

theorem completes_of_open (h : r.stage? = some .succeeded)
    (ho : isClosedTo (some r) c = .ok false) : c.completes r = true := by
  cases hc : c.completes r with
  | true => rfl
  | false => simp [isClosedTo, isFinal_of_stage? h, hc, Stage.isFinal, Except.map] at ho

theorem stage?_of_open (h : r.stage? = some .succeeded)
    (ho : isClosedTo (some r) c = .ok false) : c.stage? = some .succeeded := by
  have hc := completes_of_open h ho
  simp only [completes, Bool.and_eq_true, decide_eq_true_eq] at hc
  exact hc.1.2

theorem isClosedTo_of_completes (h : c.completes r = true) :
    isClosedTo (some r) c = .ok false ∧ c.differsFrom (some r) = true := by
  have hc := h
  simp only [completes, Bool.and_eq_true, decide_eq_true_eq, Bool.not_eq_true'] at hc
  obtain ⟨⟨⟨hstage, hlacks⟩, -⟩, hcompleted⟩ := hc
  constructor
  · simp [isClosedTo, isFinal_of_stage? hstage, h, Except.map]
  · have hnull : r.completedAt = .null := by
      cases hr : r.completedAt with
      | null => rfl
      | _ =>
        rw [hr] at hlacks
        cases hlacks
    simp [differsFrom, same, hnull, hcompleted]

theorem completed_of_completes {p : Progress} {d : Destination} {profile : Json}
    (h : (ofProgress p d profile).completes r = true) :
    p.stage = .succeeded ∧ p.completedAt.isNull = false := by
  simp only [completes, Bool.and_eq_true, decide_eq_true_eq, Bool.not_eq_true',
    stage?_ofProgress, Option.some.injEq] at h
  obtain ⟨⟨-, hstage⟩, hcompleted⟩ := h
  simp only [ofProgress, hstage, if_true] at hcompleted
  exact ⟨hstage, hcompleted⟩

end Record

end ClusterBackup
