/-!
# Tables

A `Table` holds a value for each of its keys, in the order in which the keys were first put. What a
table holds is read through `Table.get?`, and `get?_put` says what putting a value does to every
key; no key has two rows (`nodup_keys`).
-/

namespace ImageLabeling

variable {K V : Type} [DecidableEq K]

/-- The rows with a value put for a key, in the place of its old one or after all others. -/
def putRow (key : K) (value : V) : List (K × V) → List (K × V)
  | [] => [(key, value)]
  | row :: rows => if row.1 = key then (key, value) :: rows else row :: putRow key value rows

/-- A key that has no row yet gets one after all others. -/
theorem keys_putRow (key : K) (value : V) (rows : List (K × V)) :
    (putRow key value rows).map Prod.fst =
      if key ∈ rows.map Prod.fst then rows.map Prod.fst else rows.map Prod.fst ++ [key] := by
  induction rows with
  | nil => simp [putRow]
  | cons row rows ih =>
    by_cases h : row.1 = key
    · simp [putRow, h]
    · simp only [putRow, h, if_false, List.map_cons, ih, List.mem_cons, Ne.symm h, false_or]
      split <;> rfl

theorem nodup_keys_putRow (key : K) (value : V) {rows : List (K × V)}
    (h : (rows.map Prod.fst).Nodup) : ((putRow key value rows).map Prod.fst).Nodup := by
  rw [keys_putRow]
  split
  · exact h
  · rename_i hkey
    refine List.nodup_append.2 ⟨h, by simp, ?_⟩
    intro a ha b hb hab
    obtain rfl := List.mem_singleton.1 hb
    exact hkey (hab ▸ ha)

theorem lookup_putRow (key other : K) (value : V) (rows : List (K × V)) :
    (putRow key value rows).lookup other =
      if other = key then some value else rows.lookup other := by
  induction rows with
  | nil =>
    by_cases h : other = key
    · simp [putRow, h]
    · have hb : (other == key) = false := by simpa using h
      simp [putRow, List.lookup_cons, hb, h]
  | cons row rows ih =>
    obtain ⟨first, held⟩ := row
    by_cases hkey : first = key
    · subst hkey
      by_cases h : other = first
      · simp [putRow, h]
      · have hb : (other == first) = false := by simpa using h
        simp [putRow, List.lookup_cons, hb, h]
    · by_cases h : other = first
      · subst h
        simp [putRow, hkey]
      · have hb : (other == first) = false := by simpa using h
        simp only [putRow, hkey, if_false, List.lookup_cons, hb, ih]

theorem lookup_of_mem {key : K} {value : V} {rows : List (K × V)}
    (hnodup : (rows.map Prod.fst).Nodup) (h : (key, value) ∈ rows) :
    rows.lookup key = some value := by
  induction rows with
  | nil => cases h
  | cons row rows ih =>
    obtain ⟨first, held⟩ := row
    rw [List.map_cons, List.nodup_cons] at hnodup
    rcases List.mem_cons.1 h with hrow | hrows
    · cases hrow
      simp
    · have hne : (key == first) = false := by
        rw [beq_eq_false_iff_ne]
        rintro rfl
        exact hnodup.1 (List.mem_map.2 ⟨_, hrows, rfl⟩)
      rw [List.lookup_cons, hne]
      exact ih hnodup.2 hrows

/-- Values by key, in the order in which the keys were first put. -/
structure Table (K V : Type) where
  rows : List (K × V)
  nodup_keys : (rows.map Prod.fst).Nodup
  deriving DecidableEq, Repr

namespace Table

/-- A table without keys. -/
def empty : Table K V := ⟨[], by simp⟩

/-- The value of a key. -/
def get? (t : Table K V) (key : K) : Option V :=
  t.rows.lookup key

/-- Puts a value for a key, in the place of its old one or after all others. -/
def put (t : Table K V) (key : K) (value : V) : Table K V where
  rows := putRow key value t.rows
  nodup_keys := nodup_keys_putRow key value t.nodup_keys

theorem mem_of_get?_eq_some {t : Table K V} {key : K} {value : V} (h : t.get? key = some value) :
    (key, value) ∈ t.rows := by
  obtain ⟨before, after, hrows, -⟩ := List.lookup_eq_some_iff.1 h
  rw [hrows]
  simp

/-- A table holds its rows and nothing else. -/
theorem get?_eq_some_iff {t : Table K V} {key : K} {value : V} :
    t.get? key = some value ↔ (key, value) ∈ t.rows :=
  ⟨mem_of_get?_eq_some, lookup_of_mem t.nodup_keys⟩

/-- A key that was put has its new value, and every other key the value it had. -/
theorem get?_put (t : Table K V) (key other : K) (value : V) :
    (t.put key value).get? other = if other = key then some value else t.get? other :=
  lookup_putRow key other value t.rows

end Table

end ImageLabeling
