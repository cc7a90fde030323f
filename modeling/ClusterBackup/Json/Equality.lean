import ClusterBackup.Json.Basic
/-!
# Equality of values

`a = b` compares two values as trees. `a.same b` compares what they stand for: numbers by value,
where true counts as one and false as zero, and objects without regard to the order of their
members. `a.equals b` is the comparison of two values on their own, in which a NaN equals nothing;
inside of containers and records it is the same as itself.
-/

namespace ClusterBackup.Json

mutual

def eqTree : Json → Json → Bool
  | null, null => true
  | bool a, bool b => a == b
  | int m, int n => m == n
  | float x, float y => x == y
  | str s, str t => s == t
  | arr as, arr bs => eqItems as bs
  | obj as, obj bs => eqMembers as bs
  | _, _ => false

def eqItems : List Json → List Json → Bool
  | [], [] => true
  | a :: as, b :: bs => eqTree a b && eqItems as bs
  | _, _ => false

def eqMembers : List (String × Json) → List (String × Json) → Bool
  | [], [] => true
  | (k, a) :: as, (l, b) :: bs => k == l && eqTree a b && eqMembers as bs
  | _, _ => false

end

mutual

theorem eq_of_eqTree : ∀ {a b : Json}, eqTree a b = true → a = b
  | null, b, h => by cases b <;> simp_all [eqTree]
  | bool _, b, h => by cases b <;> simp_all [eqTree]
  | int _, b, h => by cases b <;> simp_all [eqTree]
  | float _, b, h => by cases b <;> simp_all [eqTree]
  | str _, b, h => by cases b <;> simp_all [eqTree]
  | arr as, b, h => by
    cases b <;> simp [eqTree] at h
    rw [eq_of_eqItems h]
  | obj as, b, h => by
    cases b <;> simp [eqTree] at h
    rw [eq_of_eqMembers h]

theorem eq_of_eqItems : ∀ {as bs : List Json}, eqItems as bs = true → as = bs
  | [], [], _ => rfl
  | [], _ :: _, h => by simp [eqItems] at h
  | _ :: _, [], h => by simp [eqItems] at h
  | a :: as, b :: bs, h => by
    simp only [eqItems, Bool.and_eq_true] at h
    rw [eq_of_eqTree h.1, eq_of_eqItems h.2]

theorem eq_of_eqMembers : ∀ {as bs : List (String × Json)}, eqMembers as bs = true → as = bs
  | [], [], _ => rfl
  | [], _ :: _, h => by simp [eqMembers] at h
  | _ :: _, [], h => by simp [eqMembers] at h
  | (k, a) :: as, (l, b) :: bs, h => by
    simp only [eqMembers, Bool.and_eq_true, beq_iff_eq] at h
    rw [h.1.1, eq_of_eqTree h.1.2, eq_of_eqMembers h.2]

end

mutual

theorem eqTree_self : ∀ a : Json, eqTree a a = true
  | null => rfl
  | bool b => by simp [eqTree]
  | int n => by simp [eqTree]
  | float x => by simp [eqTree]
  | str s => by simp [eqTree]
  | arr as => by simpa [eqTree] using eqItems_self as
  | obj as => by simpa [eqTree] using eqMembers_self as

theorem eqItems_self : ∀ as : List Json, eqItems as as = true
  | [] => rfl
  | a :: as => by simp [eqItems, eqTree_self a, eqItems_self as]

theorem eqMembers_self : ∀ as : List (String × Json), eqMembers as as = true
  | [] => rfl
  | (k, a) :: as => by simp [eqMembers, eqTree_self a, eqMembers_self as]

end

instance : DecidableEq Json := fun a b =>
  decidable_of_iff (eqTree a b = true) ⟨eq_of_eqTree, fun h => h ▸ eqTree_self a⟩

def quantity? (j : Json) : Option Quantity := j.number?.map Number.quantity

def sameNumber (a b : Json) : Bool :=
  match a.quantity?, b.quantity? with
  | some p, some q => p == q
  | _, _ => false

mutual

/-- Whether two values stand for the same thing. -/
def same : Json → Json → Bool
  | null, null => true
  | str s, str t => s == t
  | arr as, arr bs => sameItems as bs
  | obj as, obj bs => as.length == bs.length && sameMembers as bs
  | a, b => sameNumber a b

def sameItems : List Json → List Json → Bool
  | [], [] => true
  | a :: as, b :: bs => same a b && sameItems as bs
  | _, _ => false

/-- Whether each member has a counterpart of the same name and value. -/
def sameMembers : List (String × Json) → List (String × Json) → Bool
  | [], _ => true
  | (k, a) :: as, bs =>
    (match bs.lookup k with
      | some b => same a b
      | none => false) && sameMembers as bs

end

def isNaN : Json → Bool
  | float .nan => true
  | _ => false

/-- Whether two values compare as equal: they stand for the same thing, and it is no NaN. -/
def equals (a b : Json) : Bool := a.same b && !a.isNaN

@[simp] theorem same_str (s t : String) : (str s).same (str t) = (s == t) := by
  simp [same]

@[simp] theorem same_null_left (a : Json) : null.same a = a.isNull := by
  cases a <;> simp [same, sameNumber, quantity?, number?, isNull]

@[simp] theorem same_null_right (a : Json) : a.same null = a.isNull := by
  cases a <;> simp [same, sameNumber, quantity?, number?, isNull]

@[simp] theorem equals_str (s t : String) : (str s).equals (str t) = (s == t) := by
  simp [equals, isNaN]

@[simp] theorem equals_int (a b : Int) : (int a).equals (int b) = decide (a = b) := by
  have hquantity : ((Number.whole a).quantity == (Number.whole b).quantity) = decide (a = b) := by
    rw [Bool.eq_iff_iff, beq_iff_eq, decide_eq_true_eq, Number.quantity, Number.quantity,
      Quantity.finite.injEq, Rat.intCast_inj]
  simp [equals, same, sameNumber, quantity?, number?, isNaN, hquantity]

end ClusterBackup.Json
