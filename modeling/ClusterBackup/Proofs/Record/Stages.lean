import ClusterBackup.Proofs.Record.Closing
import ClusterBackup.Proofs.Record.Reading
/-!
# Recorded stages

The stage that is recorded on an object, how far it is from the start, and what becomes of it when
another stage is seen: a final stage stays, and any other gives way (`Stage.next`). So a stage is
only followed by a lower one when a backup that was running is seen starting
(`Stage.rank_le_next`).
-/

namespace ClusterBackup

open Api.Server (memberOrNull)

namespace Stage

def rank : Option Stage → Nat
  | none => 0
  | some starting => 1
  | some running => 2
  | some succeeded => 3
  | some failed => 3

/-- The stage that is recorded when one was recorded and another one is seen. -/
def next : Option Stage → Stage → Stage
  | some recorded, seen => if recorded.isFinal then recorded else seen
  | none, seen => seen

theorem next_of_open {recorded : Option Stage} {seen : Stage} (hf : recorded ≠ some failed)
    (hs : recorded ≠ some succeeded) : next recorded seen = seen := by
  rcases recorded with _ | recorded
  · rfl
  · cases recorded with
    | starting => rfl
    | running => rfl
    | succeeded => exact absurd rfl hs
    | failed => exact absurd rfl hf

theorem rank_le_next (recorded : Option Stage) (seen : Stage) :
    rank recorded ≤ rank (some (next recorded seen)) ∨
      recorded = some running ∧ next recorded seen = starting := by
  rcases recorded with _ | recorded
  · exact .inl (Nat.zero_le _)
  · cases recorded <;> cases seen <;> decide

end Stage

def stageOf? (object : Json) : Option Stage :=
  match stateOf object with
  | .str name => Stage.ofName? name
  | _ => none

theorem stageOf?_of_state {object : Json} {stage : Stage} (h : stateOf object = .str stage.name) :
    stageOf? object = some stage := by
  unfold stageOf?
  rw [h]
  exact Stage.ofName?_name stage

theorem stageOf?_of_record {object : Json} {r : Record} {stage : Stage}
    (h : memberOrNull object "status" = r.toJson) (hr : r.stage? = some stage) :
    stageOf? object = some stage := by
  refine stageOf?_of_state ?_
  rw [stateOf, h, memberOrNull_state_toJson, Record.state_of_stage? hr]

theorem state_of_stageOf? {object : Json} {stage : Stage} (h : stageOf? object = some stage) :
    stateOf object = .str stage.name := by
  unfold stageOf? at h
  split at h
  · rename_i name hname
    rw [hname, Stage.eq_name_of_ofName? h]
  · cases h

theorem stageOf?_of_no_status {object : Json}
    (h : (memberOrNull object "status").given = false) : stageOf? object = none := by
  rw [stageOf?, stateOf, memberOrNull_of_not_given h]

theorem Record.ofJson_of_not_given {raw : Json} {record : Option Record}
    (h : Record.ofJson raw = .ok record) (hs : (memberOrNull raw "state").given = false) :
    record = none := by
  unfold Record.ofJson at h
  by_cases hraw : raw.given = true
  · simp only [hraw, Bool.not_true, Bool.false_eq_true, if_false, bind_eq_ok] at h
    obtain ⟨state, hstate, h⟩ := h
    rw [memberOrNull_of_member hstate] at hs
    simp only [hs, Bool.not_false, if_true] at h
    cases h
    rfl
  · simp only [hraw, Bool.not_false, if_true] at h
    cases h
    rfl

/-- The record of a backup names the stage that its object shows. -/
theorem Backup.ReadFrom.stage? {b : Backup} {object : Json} (h : b.ReadFrom object) :
    b.record.bind Record.stage? = stageOf? object := by
  cases hs : (stateOf object).given with
  | true =>
    obtain ⟨r, hr, hstate, -⟩ := Record.ofJson_of_given h.record hs
    rw [hr, Option.bind_some, Record.stage?, hstate]
    rfl
  | false =>
    rw [Record.ofJson_of_not_given h.record hs, Option.bind_none, stageOf?]
    split
    · rename_i name hname
      rw [hname] at hs
      have hblank : name = "" := by simpa using hs
      rw [hblank]
      rfl
    · rfl

namespace Record

variable {stored : Option Record} {p : Progress} {d : Destination} {profile : Json}

theorem next_of_open (h : isClosedTo stored (ofProgress p d profile) = .ok false) :
    Stage.next (stored.bind stage?) p.stage = p.stage := by
  rcases hs : stored.bind stage? with _ | stage
  · rfl
  · obtain ⟨r, rfl, hr⟩ := Option.bind_eq_some_iff.1 hs
    cases stage with
    | starting => rfl
    | running => rfl
    | succeeded =>
      have hseen := stage?_of_open hr h
      rw [stage?_ofProgress, Option.some.injEq] at hseen
      rw [hseen]
      rfl
    | failed =>
      rw [isClosedTo_of_failed hr] at h
      cases h

theorem next_of_closed {c : Record} {seen : Stage} (h : isClosedTo stored c = .ok true) :
    stored.bind stage? = some (Stage.next (stored.bind stage?) seen) := by
  cases stored with
  | none => cases h
  | some r =>
    rw [Option.bind_some]
    cases hr : r.stage? with
    | none =>
      unfold isClosedTo isFinal at h
      dsimp only at h
      rw [hr] at h
      split at h <;> cases h
    | some stage =>
      cases hfinal : stage.isFinal with
      | true => rw [Stage.next, if_pos hfinal]
      | false =>
        rw [isClosedTo, isFinal_of_stage? hr, hfinal] at h
        cases h

/-- A record that says the same as another one names the same stage. -/
theorem stage?_of_same {r c : Record} {stage : Stage} (h : r.same c = true)
    (hc : c.stage? = some stage) : r.stage? = some stage := by
  have hstate : r.state.same c.state = true := by
    simp only [same, Bool.and_eq_true] at h
    exact h.1.1.1.1
  rw [state_of_stage? hc] at hstate
  refine stage?_of_state ?_
  cases hr : r.state with
  | str name =>
    rw [hr, Json.same_str, beq_iff_eq] at hstate
    rw [hstate]
  | _ =>
    rw [hr] at hstate
    simp [Json.same, Json.sameNumber, Json.quantity?, Json.number?] at hstate

end Record

end ClusterBackup
