import ClusterBackup.Table
/-!
# The size of a table

A table grows by one with a new key, and shrinks by one with a key that was in it.
-/

namespace ClusterBackup.Table

variable {κ ν : Type} [BEq κ]

theorem length_putIn (k : κ) (v : ν) (es : List (κ × ν)) :
    (putIn k v es).length = if (valueIn k es).isSome then es.length else es.length + 1 := by
  induction es with
  | nil => rfl
  | cons e es ih =>
    obtain ⟨l, w⟩ := e
    by_cases hl : l == k
    · simp [putIn, valueIn, hl]
    · rw [putIn, if_neg hl, valueIn, if_neg hl, List.length_cons, ih]
      split <;> rfl

theorem size_insert (t : Table κ ν) (k : κ) (v : ν) :
    (t.insert k v).size = if (t.find? k).isSome then t.size else t.size + 1 :=
  length_putIn k v t.entries

theorem isSome_valueIn_iff {k : κ} {es : List (κ × ν)} :
    (valueIn k es).isSome = true ↔ ∃ e ∈ es, (e.1 == k) = true := by
  induction es with
  | nil => simp [valueIn]
  | cons e es ih =>
    obtain ⟨l, w⟩ := e
    by_cases hl : l == k <;> simp [valueIn, hl, ih]

variable [EquivBEq κ]

theorem length_filter_not {k : κ} {es : List (κ × ν)}
    (hd : (es.map Prod.fst).Pairwise fun k l => (k == l) = false) :
    (es.filter fun e => !(e.1 == k)).length =
      if (valueIn k es).isSome then es.length - 1 else es.length := by
  induction es with
  | nil => rfl
  | cons e es ih =>
    obtain ⟨l, w⟩ := e
    rw [List.map_cons, List.pairwise_cons] at hd
    by_cases hl : l == k
    · -- No other key counts as equal to the one found, so nothing else is filtered out.
      have hrest : es.filter (fun e => !(e.1 == k)) = es := by
        rw [List.filter_eq_self]
        intro e he
        have hne := hd.1 e.1 (List.mem_map_of_mem he)
        rw [BEq.congr_left hl, BEq.comm] at hne
        simp [hne]
      simp [valueIn, hl, hrest]
    · have hfilter : ((l, w) :: es).filter (fun e => !(e.1 == k)) =
          (l, w) :: es.filter fun e => !(e.1 == k) := by simp [hl]
      rw [hfilter, List.length_cons, ih hd.2, valueIn, if_neg hl, List.length_cons]
      split
      · rename_i hsome
        obtain ⟨f, hf, -⟩ := isSome_valueIn_iff.1 hsome
        have hpos := List.length_pos_of_mem hf
        omega
      · rfl

theorem size_erase (t : Table κ ν) (k : κ) :
    (t.erase k).size = if (t.find? k).isSome then t.size - 1 else t.size :=
  length_filter_not t.distinct

end ClusterBackup.Table
