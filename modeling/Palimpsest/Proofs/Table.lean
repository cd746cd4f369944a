import Palimpsest.Table

/-
  What a table holds after many insertions and without a key.

  A key that is not among the first pairs stands in the last
  one.  Inserting pairs one after another keeps the place of a key
  where it came first and the value that came last.  Taking
  out a key leaves the other keys in their order.

  Main declarations:
    * `Pairs.lookup_append_last`
    * `Pairs.insert_append_last`
    * `Table.find?_insertAll`
    * `Table.keys_insertAll_empty`
    * `Table.find?_erase`
    * `Table.keys_erase`
-/

namespace Palimpsest

------------------------------------------------------------
-- Pairs
------------------------------------------------------------

namespace Pairs

variable {κ α : Type} [DecidableEq κ]

theorem lookup_eq_none_iff
    {pairs : List (κ × α)}
    {key : κ} :
    pairs.lookup key = none ↔ key ∉ keys pairs := by
  unfold keys
  rw [List.lookup_eq_none_iff, List.mem_map]
  constructor
  · rintro hNone ⟨pair, hPair, rfl⟩
    simpa using hNone pair hPair
  · intro hNot pair hPair
    have hNe : key ≠ pair.1 :=
      fun hKey => hNot ⟨pair, hPair, hKey.symm⟩
    simpa using hNe

theorem lookup_eq_some_iff
    {pairs : List (κ × α)}
    (hNodup : (keys pairs).Nodup)
    {key : κ}
    {value : α} :
    pairs.lookup key = some value ↔ (key, value) ∈ pairs := by
  induction pairs with
  | nil =>
      simp
  | cons pair rest ih =>
      rcases pair with ⟨k, v⟩
      change (k :: keys rest).Nodup at hNodup
      rw [List.nodup_cons] at hNodup
      rw [List.lookup_cons, List.mem_cons, Prod.mk.injEq]
      by_cases hKey : key = k
      · subst hKey
        have hFresh : (key, value) ∉ rest := fun hIn =>
          hNodup.1 (List.mem_map.mpr ⟨_, hIn, rfl⟩)
        simp [hFresh, eq_comm]
      · have hMiss : (key == k) = false := by
          simpa using hKey
        rw [hMiss]
        simp [hKey, ih hNodup.2]

/- A key that the first pairs lack is found in the last one. -/
theorem lookup_append_last
    {pairs : List (κ × α)}
    {key : κ}
    (hFresh : key ∉ keys pairs)
    (value : α) :
    (pairs ++ [(key, value)]).lookup key = some value := by
  rw [List.lookup_append, lookup_eq_none_iff.mpr hFresh,
    Option.none_or, List.lookup_cons_self]

/- The value of the last pair is replaced in its place. -/
theorem insert_append_last
    {pairs : List (κ × α)}
    {key : κ}
    (hFresh : key ∉ keys pairs)
    (value other : α) :
    insert key other (pairs ++ [(key, value)]) =
      pairs ++ [(key, other)] := by
  induction pairs with
  | nil =>
      rw [List.nil_append, insert, if_pos rfl]
      rfl
  | cons pair rest ih =>
      rcases pair with ⟨k, v⟩
      have hCons : ¬ (key = k ∨ key ∈ keys rest) :=
        fun hIn => hFresh (List.mem_cons.mpr hIn)
      rw [not_or] at hCons
      rw [List.cons_append, insert,
        if_neg (fun hEq => hCons.1 hEq.symm), ih hCons.2]
      rfl

end Pairs

namespace Table

variable {κ α : Type} [DecidableEq κ]

/- A table finds nothing exactly for other keys than its own. -/
theorem find?_eq_none_iff
    {t : Table κ α}
    {key : κ} :
    t.find? key = none ↔ key ∉ t.keys :=
  Pairs.lookup_eq_none_iff

/- A table finds exactly the values that it pairs with keys. -/
theorem find?_eq_some_iff
    {t : Table κ α}
    {key : κ}
    {value : α} :
    t.find? key = some value ↔ (key, value) ∈ t.pairs :=
  Pairs.lookup_eq_some_iff t.nodup_keys

------------------------------------------------------------
-- Many Insertions
------------------------------------------------------------

/-
  A key that was inserted has its last value; any other keeps
  what it had.
-/
theorem find?_insertAll
    (t : Table κ α)
    (pairs : List (κ × α))
    (key : κ) :
    (t.insertAll pairs).find? key =
      ((pairs.reverse.find?
          (fun pair => decide (pair.1 = key))).map
        Prod.snd).or (t.find? key) := by
  induction pairs generalizing t with
  | nil =>
      rfl
  | cons pair rest ih =>
      change ((t.insert pair.1 pair.2).insertAll rest).find?
        key = _
      rw [ih, List.reverse_cons, List.find?_append,
        find?_insert]
      cases hRest : rest.reverse.find?
          (fun pair => decide (pair.1 = key)) with
      | some last =>
          rfl
      | none =>
          by_cases hKey : pair.1 = key
          · simp [hKey]
          · simp [hKey, Ne.symm hKey]

/- A key is there after an insertion if it is the new one. -/
theorem keys_insert
    (t : Table κ α)
    (key : κ)
    (value : α) :
    (t.insert key value).keys =
      if key ∈ t.keys then t.keys else t.keys ++ [key] :=
  Pairs.keys_insert key value t.pairs

/- New keys go to the end, each once, in order. -/
theorem keys_insertAll
    (t : Table κ α)
    (pairs : List (κ × α)) :
    (t.insertAll pairs).keys =
      t.keys ++
        ((pairs.map Prod.fst).filter
          (fun key => decide (key ∉ t.keys))).eraseDups := by
  induction pairs generalizing t with
  | nil =>
      simp [insertAll]
  | cons pair rest ih =>
      change ((t.insert pair.1 pair.2).insertAll rest).keys =
        _
      rw [ih, keys_insert, List.map_cons]
      by_cases hKey : pair.1 ∈ t.keys
      · rw [if_pos hKey, List.filter_cons_of_neg (by simpa)]
      · have hSame :
            (rest.map Prod.fst).filter
                (fun key =>
                  decide (key ∉ t.keys ++ [pair.1])) =
              ((rest.map Prod.fst).filter
                (fun key => decide (key ∉ t.keys))).filter
                  (fun key => !key == pair.1) := by
          rw [List.filter_filter]
          apply List.filter_congr
          intro key _
          by_cases hSame : key = pair.1 <;> simp [hSame]
        rw [if_neg hKey, List.filter_cons_of_pos (by simpa),
          List.eraseDups_cons, hSame, List.append_assoc,
          List.singleton_append]

/- Into an empty table each key goes once, in order. -/
theorem keys_insertAll_empty (pairs : List (κ × α)) :
    (empty.insertAll pairs).keys =
      (pairs.map Prod.fst).eraseDups := by
  have hAll :
      (pairs.map Prod.fst).filter
          (fun key =>
            decide (key ∉ (empty : Table κ α).keys)) =
        pairs.map Prod.fst :=
    List.filter_eq_self.mpr (fun _ _ => decide_eq_true nofun)
  rw [keys_insertAll, hAll]
  rfl

------------------------------------------------------------
-- Taking Out
------------------------------------------------------------

/- The other keys keep their values. -/
theorem find?_erase
    (t : Table κ α)
    {key other : κ}
    (hOther : other ≠ key) :
    (t.erase key).find? other = t.find? other := by
  change (t.pairs.filter
    (fun pair => decide (pair.1 ≠ key))).lookup other =
      t.pairs.lookup other
  induction t.pairs with
  | nil =>
      rfl
  | cons pair rest ih =>
      rcases pair with ⟨k, v⟩
      by_cases hKey : k = key
      · subst hKey
        have hMiss : (other == k) = false := by
          simpa using hOther
        rw [List.filter_cons_of_neg (by simp), ih,
          List.lookup_cons, hMiss]
      · rw [List.filter_cons_of_pos (by simpa using hKey),
          List.lookup_cons, List.lookup_cons, ih]

/- The other keys keep their order. -/
theorem keys_erase
    (t : Table κ α)
    (key : κ) :
    (t.erase key).keys =
      t.keys.filter (fun other => decide (other ≠ key)) := by
  unfold keys erase Pairs.keys
  rw [List.filter_map]
  rfl

end Table

end Palimpsest
