import Mathlib.Data.List.Nodup

/-!
Finite tables with unique keys, as a hash map holds them: lookup by key,
insertion of an absent key, an update of one value and a sweep over all of them.
The uniqueness of the keys is part of the type. Only lookups are observable; the
order of the entries is the order of insertion and stands for the unspecified
order a sweep visits them in.
-/

structure KeyedTable (κ : Type*) (ν : Type*) where
  entries : List (κ × ν)
  unique : (entries.map Prod.fst).Nodup

namespace KeyedTable

variable {κ ν : Type*} [DecidableEq κ]

def empty : KeyedTable κ ν := ⟨[], List.nodup_nil⟩

def lookup : List (κ × ν) → κ → Option ν
  | [], _ => none
  | (k, v) :: rest, key => if k = key then some v else lookup rest key

def find? (table : KeyedTable κ ν) (key : κ) : Option ν := lookup table.entries key

def contains (table : KeyedTable κ ν) (key : κ) : Bool := (table.find? key).isSome

theorem lookup_eq_none_iff (entries : List (κ × ν)) (key : κ) :
    lookup entries key = none ↔ key ∉ entries.map Prod.fst := by
  induction entries with
  | nil => simp [lookup]
  | cons entry rest ih =>
      obtain ⟨k, v⟩ := entry
      by_cases h : k = key
      · simp [lookup, h]
      · have h' : key ≠ k := fun e => h e.symm
        simp [lookup, h, h', ih]

/-- Insertion that keeps an existing entry, as `emplace` does. -/
def emplace (table : KeyedTable κ ν) (key : κ) (value : ν) : KeyedTable κ ν :=
  match h : lookup table.entries key with
  | some _ => table
  | none => ⟨table.entries ++ [(key, value)], by
      have absent := (lookup_eq_none_iff _ _).mp h
      simpa [List.nodup_append, table.unique] using fun k v hk e =>
        absent (List.mem_map.mpr ⟨(k, v), hk, e⟩)⟩

/-- A sweep that may rewrite every value. -/
def mapValues (table : KeyedTable κ ν) (f : κ → ν → ν) : KeyedTable κ ν :=
  ⟨table.entries.map fun entry => (entry.1, f entry.1 entry.2), by
    have same : (table.entries.map fun entry => (entry.1, f entry.1 entry.2)).map Prod.fst =
        table.entries.map Prod.fst := by simp [Function.comp_def]
    rw [same]
    exact table.unique⟩

def update (table : KeyedTable κ ν) (key : κ) (f : ν → ν) : KeyedTable κ ν :=
  table.mapValues fun k v => if k = key then f v else v

def assign (table : KeyedTable κ ν) (key : κ) (value : ν) : KeyedTable κ ν :=
  (table.update key fun _ => value).emplace key value

def retain (table : KeyedTable κ ν) (test : ν → Bool) : KeyedTable κ ν :=
  ⟨table.entries.filter fun entry => test entry.2,
    table.unique.sublist (List.filter_sublist.map Prod.fst)⟩

def erase (table : KeyedTable κ ν) (key : κ) : KeyedTable κ ν :=
  ⟨table.entries.filter fun entry => entry.1 ≠ key,
    table.unique.sublist (List.filter_sublist.map Prod.fst)⟩

def size (table : KeyedTable κ ν) : Nat := table.entries.length

@[simp] theorem find?_empty (key : κ) : (empty : KeyedTable κ ν).find? key = none := rfl

theorem lookup_append (xs ys : List (κ × ν)) (key : κ) :
    lookup (xs ++ ys) key = (lookup xs key).or (lookup ys key) := by
  induction xs with
  | nil => simp [lookup]
  | cons entry rest ih =>
      obtain ⟨k, v⟩ := entry
      by_cases h : k = key <;> simp [lookup, h, ih]

variable (table : KeyedTable κ ν)

theorem find?_emplace (key : κ) (value : ν) (k : κ) :
    (table.emplace key value).find? k =
      if k = key then some ((table.find? key).getD value) else table.find? k := by
  unfold emplace
  split
  · next v h =>
      have found : table.find? key = some v := h
      by_cases hk : k = key
      · simp [hk, found]
      · simp [hk]
  · next h =>
      have absent : table.find? key = none := h
      by_cases hk : k = key
      · subst hk
        simp [find?, lookup_append, h, lookup]
      · have hk' : key ≠ k := fun e => hk e.symm
        simp [find?, lookup_append, lookup, hk, hk']

theorem lookup_map (entries : List (κ × ν)) (f : κ → ν → ν) (key : κ) :
    lookup (entries.map fun entry => (entry.1, f entry.1 entry.2)) key =
      (lookup entries key).map (f key) := by
  induction entries with
  | nil => rfl
  | cons entry rest ih =>
      obtain ⟨k, v⟩ := entry
      by_cases h : k = key
      · subst h; simp [lookup]
      · simpa [lookup, h] using ih

theorem find?_mapValues (f : κ → ν → ν) (key : κ) :
    (table.mapValues f).find? key = (table.find? key).map (f key) :=
  lookup_map table.entries f key

theorem find?_update (key : κ) (f : ν → ν) (k : κ) :
    (table.update key f).find? k =
      if k = key then (table.find? key).map f else table.find? k := by
  rw [update, find?_mapValues]
  by_cases h : k = key
  · subst h; simp
  · simp [h]

theorem find?_assign (key : κ) (value : ν) (k : κ) :
    (table.assign key value).find? k = if k = key then some value else table.find? k := by
  rw [assign, find?_emplace, find?_update, find?_update]
  by_cases h : k = key
  · subst h
    cases table.find? k <;> simp
  · simp [h]

variable {entries : List (κ × ν)}

theorem lookup_eq_some_iff (unique : (entries.map Prod.fst).Nodup) (key : κ) (value : ν) :
    lookup entries key = some value ↔ (key, value) ∈ entries := by
  induction entries with
  | nil => simp [lookup]
  | cons entry rest ih =>
      obtain ⟨k, v⟩ := entry
      obtain ⟨fresh, distinct⟩ := List.nodup_cons.mp unique
      by_cases h : k = key
      · subst h
        have absent : (k, value) ∉ rest := fun present =>
          fresh (List.mem_map.mpr ⟨(k, value), present, rfl⟩)
        simp [lookup, absent, eq_comm]
      · have h' : key ≠ k := fun e => h e.symm
        simp [lookup, h, h', ih distinct]

theorem find?_eq_some_iff (key : κ) (value : ν) :
    table.find? key = some value ↔ (key, value) ∈ table.entries :=
  lookup_eq_some_iff table.unique key value

theorem find?_retain (test : ν → Bool) (key : κ) :
    (table.retain test).find? key = (table.find? key).filter test := by
  apply Option.ext
  intro value
  rw [find?_eq_some_iff, Option.filter_eq_some_iff, find?_eq_some_iff]
  exact List.mem_filter

theorem find?_erase (key k : κ) :
    (table.erase key).find? k = if k = key then none else table.find? k := by
  apply Option.ext
  intro value
  rw [find?_eq_some_iff]
  by_cases own : k = key
  · simp [erase, own]
  · rw [if_neg own, find?_eq_some_iff]
    simp [erase, own]

end KeyedTable
