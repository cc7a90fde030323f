import ClusterBackup.Proofs.Api.ServerFrame
import ClusterBackup.Proofs.Record.Reading
/-!
# Answers by key

What is answered to a call is decided by the key that its namespace and name give: whether there is
something under it, and what. A claim is steady if reads of it always show the same; they leave the
server as it is.
-/

namespace ClusterBackup.Api

variable {s s' : Server} {k : ObjectKey} {ns name : Json}

/-- Reads of the claim always show the same. -/
def StoredClaim.IsSteady (c : StoredClaim) : Prop :=
  ∃ reading, Server.readPhase c = (.ok reading, c)

namespace Server

variable {ν : Type} {t : Table ObjectKey ν} {v : ν}

theorem keyOf_toJson (a b : Atom) : keyOf a.toJson b.toJson = .ok ⟨a, b⟩ := by
  simp [keyOf, atomOf, pure, Except.pure, bind, Except.bind]

theorem atomOf_of_keyOf (hk : keyOf ns name = .ok k) : atomOf ns = .ok k.ns := by
  unfold keyOf at hk
  obtain ⟨a, ha, hk⟩ := bind_eq_ok.1 hk
  obtain ⟨a', -, hk⟩ := bind_eq_ok.1 hk
  cases hk
  exact ha

theorem stored_of_find? (hk : keyOf ns name = .ok k) (h : t.find? k = some v) :
    stored t ns name = .ok (k, v) := by
  simp only [stored, hk, h]

theorem stored_of_none (hk : keyOf ns name = .ok k) (h : t.find? k = none) :
    stored t ns name = .error .notFound := by
  simp only [stored, hk, h]

theorem stored_congr {t' : Table ObjectKey ν} (hk : keyOf ns name = .ok k)
    (h : t'.find? k = t.find? k) : stored t' ns name = stored t ns name := by
  simp only [stored, hk, h]

theorem free_of_find? (hk : keyOf ns name = .ok k) (h : t.find? k = some v) :
    free t ns name = .error .alreadyExists := by
  simp only [free, hk, h]

theorem free_of_none (hk : keyOf ns name = .ok k) (h : t.find? k = none) :
    free t ns name = .ok k := by
  simp only [free, hk, h]

theorem free_eq_ok (h : free t ns name = .ok k) : keyOf ns name = .ok k ∧ t.find? k = none := by
  unfold free at h
  split at h
  · cases h
  · rename_i l hl
    split at h
    · cases h
    · rename_i hnone
      cases h
      exact ⟨hl, hnone⟩

theorem answer_get (s : Server) (key : ObjectKey) : s.answer (.getBackup key.ns key.name) =
    (match s.backups.find? key with
      | some object => .ok object
      | none => .error .notFound, s) := by
  have hk : keyOf key.ns key.name = .ok key := keyOf_toJson key.ns key.name
  unfold answer
  simp only [stored, hk]
  cases s.backups.find? key <;> rfl

theorem answer_replaceStatus {u : StatusUpdate} (hk : keyOf u.ns u.name = .ok k) (s : Server) :
    s.answer (.replaceStatus u) =
      match s.backups.find? k with
      | none => (.error .notFound, s)
      | some object =>
        match replaced object u with
        | .error f => (.error f, s)
        | .ok object => (.ok (), { s with backups := s.backups.insert k object }) := by
  unfold answer
  simp only [stored, hk]
  cases s.backups.find? k <;> rfl

theorem answer_readClaim_steady {c : StoredClaim} {reading : Option Json}
    (hk : keyOf ns name = .ok k) (hc : s.claims.find? k = some c)
    (hr : readPhase c = (.ok reading, c)) : s.answer (.readClaim ns name) = (.ok reading, s) := by
  unfold answer
  simp only [stored_of_find? hk hc, hr, Table.insert_of_find? hc]

theorem find?_of_readClaim {reading : Option Json}
    (h : s.answer (.readClaim ns name) = (.ok reading, s')) :
    ∃ k c, keyOf ns name = .ok k ∧ s.claims.find? k = some c := by
  unfold answer at h
  simp only [stored] at h
  cases hk : keyOf ns name with
  | error f =>
    rw [hk] at h
    cases h
  | ok k =>
    cases hfind : s.claims.find? k with
    | none =>
      rw [hk] at h
      simp only [hfind] at h
      cases h
    | some c => exact ⟨k, c, rfl, hfind⟩

theorem answer_readJob_of_jobs (h : s'.jobs = s.jobs) (ns name : Json) :
    s'.answer (.readJob ns name) = ((s.answer (.readJob ns name)).1, s') := by
  unfold answer
  simp only [h]

theorem answer_list_of_clusters (h : s'.clusters = s.clusters) (ns : Json) :
    s'.answer (.listClusters ns) = ((s.answer (.listClusters ns)).1, s') := by
  unfold answer
  simp only [listing, h]

end Server

end ClusterBackup.Api
