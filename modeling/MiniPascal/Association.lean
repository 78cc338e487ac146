/-!
# Association lists

A list of keys with values, in the order in which the keys were first set. Setting a key
changes what is looked up at that key and nowhere else (`lookup_set`).
-/

namespace MiniPascal.Association

/-- The list with the value of a key set: in the key's place if it has one, else at the
    end. -/
def set {Key Value : Type} [DecidableEq Key] (key : Key) (value : Value) :
    List (Key × Value) → List (Key × Value)
  | [] => [(key, value)]
  | (k, v) :: entries =>
    if k = key then (key, value) :: entries else (k, v) :: set key value entries

/-- The first entry decides about its key. -/
theorem lookup_cons_eq_ite {Key Value : Type} [BEq Key] [LawfulBEq Key] [DecidableEq Key]
    (key k : Key) (value : Value) (entries : List (Key × Value)) :
    ((key, value) :: entries).lookup k = if k = key then some value else entries.lookup k := by
  rw [List.lookup_cons]
  by_cases h : k = key
  · rw [if_pos h, beq_iff_eq.2 h]
  · rw [if_neg h, beq_eq_false_iff_ne.2 h]

/-- A key just set has the value it was set to, and any other the one it had. -/
theorem lookup_set {Key Value : Type} [BEq Key] [LawfulBEq Key] [DecidableEq Key]
    (key k : Key) (value : Value) (entries : List (Key × Value)) :
    (set key value entries).lookup k = if k = key then some value else entries.lookup k := by
  induction entries with
  | nil => exact lookup_cons_eq_ite key k value []
  | cons entry entries ih =>
    obtain ⟨first, v⟩ := entry
    simp only [set]
    split
    · subst first
      simp only [lookup_cons_eq_ite]
      split <;> rfl
    · next hfirst =>
      simp only [lookup_cons_eq_ite, ih]
      by_cases h : k = first
      · subst h
        simp only [if_neg hfirst, if_true]
      · simp only [if_neg h]

/-- A key that is not there yet is set at the end. -/
theorem set_of_lookup_eq_none {Key Value : Type} [BEq Key] [LawfulBEq Key] [DecidableEq Key]
    {key : Key} {entries : List (Key × Value)} (value : Value) (h : entries.lookup key = none) :
    set key value entries = entries ++ [(key, value)] := by
  induction entries with
  | nil => rfl
  | cons entry entries ih =>
    obtain ⟨first, v⟩ := entry
    rw [lookup_cons_eq_ite] at h
    split at h
    · cases h
    · next hfirst =>
      rw [set, if_neg (Ne.symm hfirst), ih h, List.cons_append]

end MiniPascal.Association
