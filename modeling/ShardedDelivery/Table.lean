/-! # Finite tables

A table gives every key a value: the one set last, or the default where none was set. -/

namespace ShardedDelivery

/-- A map with finitely many keys set. -/
structure Table (κ ν : Type) where
  entries : List (κ × ν) := []

namespace Table

variable {κ ν : Type} [DecidableEq κ]

instance : Inhabited (Table κ ν) := ⟨{}⟩

/-- The value under a key in a list of entries. -/
def lookup? : List (κ × ν) → κ → Option ν
  | [], _ => none
  | (k, v) :: rest, key => if k = key then some v else lookup? rest key

/-- Puts a value in place of the one under its key, or at the end. -/
def put : List (κ × ν) → κ → ν → List (κ × ν)
  | [], key, value => [(key, value)]
  | (k, v) :: rest, key, value =>
      if k = key then (key, value) :: rest else (k, v) :: put rest key value

/-- The value under a key. -/
def get [Inhabited ν] (t : Table κ ν) (key : κ) : ν := (lookup? t.entries key).getD default

/-- Sets the value under a key. -/
def set (t : Table κ ν) (key : κ) (value : ν) : Table κ ν := ⟨put t.entries key value⟩

/-- Changes the value under a key. -/
def modify [Inhabited ν] (t : Table κ ν) (key : κ) (f : ν → ν) : Table κ ν :=
  t.set key (f (t.get key))

theorem lookup?_put (entries : List (κ × ν)) (key k : κ) (value : ν) :
    lookup? (put entries key value) k = if key = k then some value else lookup? entries k := by
  induction entries with
  | nil => simp [put, lookup?]
  | cons e rest ih =>
      obtain ⟨a, v⟩ := e
      by_cases ha : a = key
      · subst ha
        by_cases hk : a = k <;> simp [put, lookup?, hk]
      · by_cases hk : a = k
        · subst hk
          simp [put, lookup?, ha, Ne.symm ha]
        · simp [put, lookup?, ha, hk, ih]

@[simp] theorem get_empty [Inhabited ν] (k : κ) : ({} : Table κ ν).get k = default := rfl

theorem get_set [Inhabited ν] (t : Table κ ν) (key k : κ) (value : ν) :
    (t.set key value).get k = if key = k then value else t.get k := by
  simp only [get, set, lookup?_put]
  split <;> rfl

@[simp] theorem get_set_self [Inhabited ν] (t : Table κ ν) (key : κ) (value : ν) :
    (t.set key value).get key = value := by simp [get_set]

@[simp] theorem get_set_of_ne [Inhabited ν] (t : Table κ ν) {key k : κ} (h : key ≠ k) (value : ν) :
    (t.set key value).get k = t.get k := by simp [get_set, h]

theorem get_modify [Inhabited ν] (t : Table κ ν) (key k : κ) (f : ν → ν) :
    (t.modify key f).get k = if key = k then f (t.get k) else t.get k := by
  unfold modify
  rw [get_set]
  split
  · next h => rw [h]
  · rfl

end Table

end ShardedDelivery
