/-!
# Tables

A finite map as a list of entries in the order in which their keys came. No two of the keys count
as equal, and a key that counts as equal to one in the table stands for it. `find?` is the view:
`find?_insert` and `find?_erase` say what the operations do to it.
-/

namespace ClusterBackup

structure Table (κ ν : Type) [BEq κ] where
  entries : List (κ × ν)
  distinct : (entries.map Prod.fst).Pairwise fun k l => (k == l) = false

namespace Table

variable {κ ν : Type} [BEq κ]

def empty : Table κ ν := ⟨[], .nil⟩

instance : Inhabited (Table κ ν) := ⟨empty⟩

/-- The keys, in the order in which they came. -/
def keys (t : Table κ ν) : List κ := t.entries.map Prod.fst

def size (t : Table κ ν) : Nat := t.entries.length

def valueIn (k : κ) : List (κ × ν) → Option ν
  | [] => none
  | (l, v) :: es => if l == k then some v else valueIn k es

/-- Puts a value under a key of a list of entries: in the old place and under the old key if an
equal one is there, else at the end. -/
def putIn (k : κ) (v : ν) : List (κ × ν) → List (κ × ν)
  | [] => [(k, v)]
  | (l, w) :: es => if l == k then (l, v) :: es else (l, w) :: putIn k v es

theorem mem_keys_of_mem_putIn {k x : κ} {v : ν} {es : List (κ × ν)}
    (h : x ∈ (putIn k v es).map Prod.fst) : x = k ∨ x ∈ es.map Prod.fst := by
  induction es with
  | nil => simpa [putIn] using h
  | cons e es ih =>
    obtain ⟨l, w⟩ := e
    by_cases hl : l == k
    · rw [putIn, if_pos hl] at h
      exact .inr h
    · rw [putIn, if_neg hl, List.map_cons, List.mem_cons] at h
      rcases h with rfl | h
      · exact .inr (List.mem_cons_self ..)
      · exact (ih h).imp_right (List.mem_cons_of_mem _)

theorem distinct_putIn {k : κ} {v : ν} {es : List (κ × ν)}
    (h : (es.map Prod.fst).Pairwise fun k l => (k == l) = false) :
    ((putIn k v es).map Prod.fst).Pairwise fun k l => (k == l) = false := by
  induction es with
  | nil => simp [putIn]
  | cons e es ih =>
    obtain ⟨l, w⟩ := e
    rw [List.map_cons, List.pairwise_cons] at h
    by_cases hl : l == k
    · rw [putIn, if_pos hl, List.map_cons, List.pairwise_cons]
      exact h
    · rw [putIn, if_neg hl, List.map_cons, List.pairwise_cons]
      refine ⟨fun x hx => ?_, ih h.2⟩
      rcases mem_keys_of_mem_putIn hx with rfl | hx
      · simpa using hl
      · exact h.1 x hx

def find? (t : Table κ ν) (k : κ) : Option ν := valueIn k t.entries

def insert (t : Table κ ν) (k : κ) (v : ν) : Table κ ν :=
  ⟨putIn k v t.entries, distinct_putIn t.distinct⟩

def erase (t : Table κ ν) (k : κ) : Table κ ν where
  entries := t.entries.filter fun e => !(e.1 == k)
  distinct := t.distinct.sublist (List.filter_sublist.map _)

@[simp] theorem find?_empty (k : κ) : (empty : Table κ ν).find? k = none := rfl

theorem putIn_of_valueIn {k : κ} {v : ν} {es : List (κ × ν)} (h : valueIn k es = some v) :
    putIn k v es = es := by
  induction es with
  | nil => cases h
  | cons e es ih =>
    obtain ⟨l, w⟩ := e
    rw [valueIn] at h
    by_cases hl : l == k
    · rw [if_pos hl] at h
      rw [putIn, if_pos hl, Option.some.inj h]
    · rw [if_neg hl] at h
      rw [putIn, if_neg hl, ih h]

theorem insert_of_find? {t : Table κ ν} {k : κ} {v : ν} (h : t.find? k = some v) :
    t.insert k v = t := by
  unfold insert
  congr 1
  exact putIn_of_valueIn h

variable [EquivBEq κ]

theorem valueIn_congr {k l : κ} (h : (k == l) = true) (es : List (κ × ν)) :
    valueIn k es = valueIn l es := by
  induction es with
  | nil => rfl
  | cons e es ih =>
    obtain ⟨m, w⟩ := e
    rw [valueIn, valueIn, BEq.congr_right h, ih]

theorem find?_congr {t : Table κ ν} {k l : κ} (h : (k == l) = true) : t.find? k = t.find? l :=
  valueIn_congr h t.entries

theorem valueIn_putIn (k l : κ) (v : ν) (es : List (κ × ν)) :
    valueIn l (putIn k v es) = if k == l then some v else valueIn l es := by
  induction es with
  | nil => rfl
  | cons e es ih =>
    obtain ⟨m, w⟩ := e
    by_cases hm : m == k
    · rw [putIn, if_pos hm, valueIn, valueIn, BEq.congr_left hm]
      split <;> rfl
    · rw [putIn, if_neg hm, valueIn, valueIn, ih]
      by_cases hl : m == l
      · have hk : ¬(k == l) = true := fun hk => hm (BEq.trans hl (BEq.symm hk))
        rw [if_pos hl, if_neg hk, if_pos hl]
      · rw [if_neg hl, if_neg hl]

theorem valueIn_filter_not (k l : κ) (es : List (κ × ν)) :
    valueIn l (es.filter fun e => !(e.1 == k)) = if k == l then none else valueIn l es := by
  induction es with
  | nil => simp [valueIn]
  | cons e es ih =>
    obtain ⟨m, w⟩ := e
    by_cases hm : m == k
    · rw [List.filter_cons_of_neg (by simp [hm]), ih, valueIn, BEq.congr_left hm]
      split <;> rfl
    · rw [List.filter_cons_of_pos (by simp [hm]), valueIn, valueIn, ih]
      by_cases hl : m == l
      · have hk : ¬(k == l) = true := fun hk => hm (BEq.trans hl (BEq.symm hk))
        rw [if_pos hl, if_neg hk, if_pos hl]
      · rw [if_neg hl, if_neg hl]

@[simp] theorem find?_insert (t : Table κ ν) (k l : κ) (v : ν) :
    (t.insert k v).find? l = if k == l then some v else t.find? l :=
  valueIn_putIn k l v t.entries

@[simp] theorem find?_erase (t : Table κ ν) (k l : κ) :
    (t.erase k).find? l = if k == l then none else t.find? l :=
  valueIn_filter_not k l t.entries

end Table

end ClusterBackup
