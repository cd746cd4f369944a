import Palimpsest.Table

/-
  This file defines dictionaries: tables whose keys are texts
  in ascending order.

  The order of insertion does not show; texts are ordered by
  the code points of their characters.

  Key definitions include:
    * `Palimpsest.Dictionary`
    * `Palimpsest.Dictionary.insert`
    * `Palimpsest.Dictionary.ofList`
    * `Palimpsest.Dictionary.find?`
-/

namespace Palimpsest

------------------------------------------------------------
-- Sorted Pairs
------------------------------------------------------------

namespace Pairs

variable {α : Type}

/- The keys of the pairs ascend. -/
def Ascending (pairs : List (String × α)) : Prop :=
  (keys pairs).Pairwise (fun first second => first < second)

/- Put a pair at its place among sorted pairs. -/
def insertSorted
    (key : String)
    (value : α) : List (String × α) → List (String × α)
| [] => [(key, value)]
| (k, v) :: rest =>
    if key = k then
      (key, value) :: rest
    else if key < k then
      (key, value) :: (k, v) :: rest
    else
      (k, v) :: insertSorted key value rest

/- The keys after a pair was put at its place. -/
theorem mem_keys_insertSorted
    (key other : String)
    (value : α)
    (pairs : List (String × α)) :
    other ∈ keys (insertSorted key value pairs) ↔
      other = key ∨ other ∈ keys pairs := by
  induction pairs with
  | nil =>
      simp [insertSorted, keys]
  | cons pair rest ih =>
      rcases pair with ⟨k, v⟩
      simp only [keys] at ih ⊢
      by_cases hEq : key = k
      · subst hEq
        simp [insertSorted]
      · by_cases hLess : key < k
        · simp [insertSorted, hEq, hLess]
        · simp only [insertSorted, if_neg hEq, if_neg hLess,
            List.map_cons, List.mem_cons, ih]
          constructor
          · rintro (h | h | h)
            · exact Or.inr (Or.inl h)
            · exact Or.inl h
            · exact Or.inr (Or.inr h)
          · rintro (h | h | h)
            · exact Or.inr (Or.inl h)
            · exact Or.inl h
            · exact Or.inr (Or.inr h)

/- Putting a pair at its place keeps the keys ascending. -/
theorem ascending_insertSorted
    {pairs : List (String × α)}
    (h : Ascending pairs)
    (key : String)
    (value : α) :
    Ascending (insertSorted key value pairs) := by
  induction pairs with
  | nil =>
      simp [insertSorted, Ascending, keys]
  | cons pair rest ih =>
      rcases pair with ⟨k, v⟩
      have hCons :
          (∀ other ∈ keys rest, k < other) ∧
            Ascending rest := by
        simpa [Ascending, keys] using h
      by_cases hEq : key = k
      · subst hEq
        simpa [insertSorted, Ascending, keys] using h
      · by_cases hLess : key < k
        · simp only [insertSorted, if_neg hEq, if_pos hLess]
          refine List.pairwise_cons.mpr ⟨?_, h⟩
          intro other hOther
          rcases List.mem_cons.mp hOther with hHead | hTail
          · exact hHead ▸ hLess
          · exact String.lt_trans hLess (hCons.1 other hTail)
        · simp only [insertSorted, if_neg hEq, if_neg hLess]
          refine List.pairwise_cons.mpr ⟨?_, ih hCons.2⟩
          intro other hOther
          have hMem :=
            (mem_keys_insertSorted key other value rest).mp
              hOther
          rcases hMem with hNew | hOld
          · subst hNew
            exact Std.lt_of_le_of_ne
              (String.not_lt.mp hLess) (Ne.symm hEq)
          · exact hCons.1 other hOld

end Pairs

------------------------------------------------------------
-- Dictionaries
------------------------------------------------------------

/- Texts with values, in the order of the texts. -/
structure Dictionary (α : Type) where
  pairs : List (String × α)
  ascending : Pairs.Ascending pairs

namespace Dictionary

variable {α : Type}

/- Two dictionaries with the same pairs are equal. -/
@[ext]
theorem ext
    {first second : Dictionary α}
    (h : first.pairs = second.pairs) :
    first = second := by
  cases first
  cases second
  cases h
  rfl

instance [DecidableEq α] : DecidableEq (Dictionary α) :=
  fun first second =>
    decidable_of_iff (first.pairs = second.pairs)
      ⟨ext, fun h => h ▸ rfl⟩

/- The dictionary without entries. -/
def empty : Dictionary α :=
  ⟨[], by simp [Pairs.Ascending, Pairs.keys]⟩

/- Give a text a value, in place of the one it had. -/
def insert
    (key : String)
    (value : α)
    (d : Dictionary α) : Dictionary α :=
  ⟨Pairs.insertSorted key value d.pairs,
    Pairs.ascending_insertSorted d.ascending key value⟩

/- The dictionary of pairs; the last value of a text counts. -/
def ofList (pairs : List (String × α)) : Dictionary α :=
  pairs.foldl (fun d pair => d.insert pair.1 pair.2) empty

/- The value of a text. -/
def find?
    (d : Dictionary α)
    (key : String) : Option α :=
  d.pairs.lookup key

end Dictionary

end Palimpsest
