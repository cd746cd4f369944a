/-
  This file defines tables: lists of keys and values in which
  no key is repeated.

  A new key goes to the end; a key that is already there keeps
  its place when its value is replaced.

  Key definitions include:
    * `Palimpsest.Table`
    * `Palimpsest.Table.find?`
    * `Palimpsest.Table.insert`
    * `Palimpsest.Table.erase`
-/

namespace Palimpsest

------------------------------------------------------------
-- Pairs
------------------------------------------------------------

namespace Pairs

variable {κ α : Type}

/- The keys of a list of pairs. -/
def keys (pairs : List (κ × α)) : List κ :=
  pairs.map Prod.fst

/- Filtering repeats no key. -/
theorem nodup_keys_filter
    {pairs : List (κ × α)}
    (h : (keys pairs).Nodup)
    (p : κ × α → Bool) :
    (keys (pairs.filter p)).Nodup :=
  h.sublist (List.filter_sublist.map Prod.fst)

variable [DecidableEq κ]

/- Replace the value of a key, or add the key at the end. -/
def insert
    (key : κ)
    (value : α) : List (κ × α) → List (κ × α)
| [] => [(key, value)]
| (k, v) :: rest =>
    if k = key then
      (k, value) :: rest
    else
      (k, v) :: insert key value rest

/- Inserting keeps the keys or adds the new one at the end. -/
theorem keys_insert
    (key : κ)
    (value : α)
    (pairs : List (κ × α)) :
    keys (insert key value pairs) =
      if key ∈ keys pairs then
        keys pairs
      else
        keys pairs ++ [key] := by
  induction pairs with
  | nil =>
      simp [insert, keys]
  | cons pair rest ih =>
      rcases pair with ⟨k, v⟩
      by_cases h : k = key
      · simp [insert, keys, h]
      · have h' : ¬ key = k := fun e => h e.symm
        unfold keys at ih
        simp only [insert, if_neg h, keys, List.map_cons, ih,
          List.mem_cons, h', false_or]
        split <;> simp

/- Inserting repeats no key. -/
theorem nodup_keys_insert
    {pairs : List (κ × α)}
    (h : (keys pairs).Nodup)
    (key : κ)
    (value : α) :
    (keys (insert key value pairs)).Nodup := by
  rw [keys_insert]
  split
  · exact h
  · rename_i hKey
    rw [List.nodup_append]
    refine ⟨h, by simp, ?_⟩
    intro a ha b hb hEq
    rw [List.mem_singleton] at hb
    subst hb
    subst hEq
    exact hKey ha

/- Looking up in a list of pairs after an insertion. -/
theorem lookup_insert
    (key other : κ)
    (value : α)
    (pairs : List (κ × α)) :
    (insert key value pairs).lookup other =
      if other = key then some value else pairs.lookup other := by
  have hMiss {a b : κ} (h : ¬ a = b) : (a == b) = false := by
    simpa using h
  induction pairs with
  | nil =>
      by_cases h : other = key
      · simp [insert, h]
      · simp [insert, List.lookup_cons, h, hMiss h]
  | cons pair rest ih =>
      rcases pair with ⟨k, v⟩
      by_cases hk : k = key
      · subst hk
        by_cases h : other = k
        · simp [insert, h]
        · simp [insert, List.lookup_cons, h, hMiss h]
      · by_cases h : other = k
        · subst h
          simp [insert, hk]
        · simp [insert, List.lookup_cons, hk, hMiss h, ih]

/- Inserting what is there changes nothing. -/
theorem insert_of_lookup
    {key : κ}
    {value : α}
    {pairs : List (κ × α)}
    (h : pairs.lookup key = some value) :
    insert key value pairs = pairs := by
  induction pairs with
  | nil =>
      cases h
  | cons pair rest ih =>
      rcases pair with ⟨k, v⟩
      by_cases hk : k = key
      · subst hk
        rw [List.lookup_cons, beq_self_eq_true] at h
        cases h
        rw [insert, if_pos rfl]
      · have hMiss : (key == k) = false := by
          simpa using fun e : key = k => hk e.symm
        rw [List.lookup_cons, hMiss] at h
        rw [insert, if_neg hk, ih h]

end Pairs

------------------------------------------------------------
-- Tables
------------------------------------------------------------

/- A list of pairs in which no key is repeated. -/
structure Table (κ α : Type) where
  pairs : List (κ × α)
  nodup_keys : (Pairs.keys pairs).Nodup

namespace Table

variable {κ α : Type}

/- The table without entries. -/
def empty : Table κ α :=
  ⟨[], by simp [Pairs.keys]⟩

/- The keys of a table, in order. -/
def keys (t : Table κ α) : List κ :=
  Pairs.keys t.pairs

/- The number of entries. -/
def size (t : Table κ α) : Nat :=
  t.pairs.length

variable [DecidableEq κ]

/- The value of a key. -/
def find?
    (t : Table κ α)
    (key : κ) : Option α :=
  t.pairs.lookup key

/- Replace the value of a key, or add the key at the end. -/
def insert
    (t : Table κ α)
    (key : κ)
    (value : α) : Table κ α :=
  ⟨Pairs.insert key value t.pairs,
    Pairs.nodup_keys_insert t.nodup_keys key value⟩

/- Take out a key. -/
def erase
    (t : Table κ α)
    (key : κ) : Table κ α :=
  ⟨t.pairs.filter (fun pair => decide (pair.1 ≠ key)),
    Pairs.nodup_keys_filter t.nodup_keys _⟩

/- Insert pairs one after another. -/
def insertAll
    (t : Table κ α)
    (pairs : List (κ × α)) : Table κ α :=
  pairs.foldl (fun t pair => t.insert pair.1 pair.2) t

------------------------------------------------------------
-- Looking Up
------------------------------------------------------------

/- Looking up in a table after an insertion. -/
theorem find?_insert
    (t : Table κ α)
    (key other : κ)
    (value : α) :
    (t.insert key value).find? other =
      if other = key then some value else t.find? other :=
  Pairs.lookup_insert key other value t.pairs

/- Inserting what is there changes nothing. -/
theorem insert_of_find?
    {t : Table κ α}
    {key : κ}
    {value : α}
    (h : t.find? key = some value) :
    t.insert key value = t := by
  rcases t with ⟨pairs, nodup_keys⟩
  unfold insert
  congr 1
  exact Pairs.insert_of_lookup h

end Table

end Palimpsest
