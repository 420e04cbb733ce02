import Mathlib.Data.List.AList
import Mathlib.Data.List.Perm.Subperm

/-!
# Finite maps

A `Table κ ν` is a finite map from `κ` to `ν` with one entry per key, an
`AList` whose value type does not depend on the key.  Mathlib has `lookup`,
`insert` and `erase` on it; this file adds the other operations a hash map is
used through, each with the one lemma that says what `lookup` sees afterwards:

* `retain p` keeps the entries `p` holds of;
* `mapValues f` rewrites every value in place;
* `modify k f` rewrites the value at one key, if there is one;
* `values` lists the values, `countWhere p` counts those `p` holds of.

`countWhere_le_size` compares two tables: if every counted entry of the one
has its key in the other, then no more entries are counted than the other has.
-/

/-- A finite map from `κ` to `ν`. -/
abbrev Table (κ ν : Type) := AList fun _ : κ => ν

namespace Table

variable {κ ν μ : Type}

/-! ### Entries -/

/-- The number of entries. -/
def size (t : Table κ ν) : Nat := t.entries.length

/-- The values, in the order of the entries. -/
def values (t : Table κ ν) : List ν := t.entries.map fun e => e.2

/-- Keep the entries `p` holds of. -/
def retain (p : κ → ν → Bool) (t : Table κ ν) : Table κ ν :=
  ⟨t.entries.filter fun e => p e.1 e.2, t.nodupKeys.sublist List.filter_sublist⟩

/-- Rewrite every value. -/
def mapValues (f : κ → ν → ν) (t : Table κ ν) : Table κ ν :=
  ⟨t.entries.map (Sigma.map id f), List.NodupKeys.map₂ f t.entries t.nodupKeys⟩

/-- How many values `p` holds of. -/
def countWhere (p : ν → Bool) (t : Table κ ν) : Nat := t.values.countP p

section Lookup

variable [DecidableEq κ]

/-- Rewrite the value at `k`, if there is one. -/
def modify (k : κ) (f : ν → ν) (t : Table κ ν) : Table κ ν :=
  t.mapValues fun k' v => if k' = k then f v else v

theorem lookup_insert_eq (k k' : κ) (v : ν) (t : Table κ ν) :
    (AList.insert k v t).lookup k' = if k' = k then some v else t.lookup k' := by
  by_cases h : k' = k
  · subst h
    rw [if_pos rfl, AList.lookup_insert]
  · rw [if_neg h, AList.lookup_insert_ne h]

theorem lookup_erase_eq (k k' : κ) (t : Table κ ν) :
    (AList.erase k t).lookup k' = if k' = k then none else t.lookup k' := by
  by_cases h : k' = k
  · subst h
    rw [if_pos rfl, AList.lookup_erase]
  · rw [if_neg h, AList.lookup_erase_ne h]

private theorem dlookup_filter (p : κ → ν → Bool) (k : κ) :
    ∀ l : List (Σ _ : κ, ν), l.NodupKeys →
      (l.filter fun e => p e.1 e.2).dlookup k = (l.dlookup k).filter (p k) := by
  intro l
  induction l with
  | nil => intro _; rfl
  | cons e l ih =>
    intro hl
    obtain ⟨a, v⟩ := e
    have htail := ih (List.nodupKeys_of_nodupKeys_cons hl)
    by_cases hk : k = a
    · subst hk
      by_cases hp : p k v
      · rw [List.filter_cons_of_pos (by simpa using hp), List.dlookup_cons_eq,
          List.dlookup_cons_eq, Option.filter_some, if_pos hp]
      · -- the other entries have other keys, so nothing is left to find
        have hnot : k ∉ l.keys := List.notMem_keys_of_nodupKeys_cons hl
        rw [List.filter_cons_of_neg (by simpa using hp), htail, List.dlookup_cons_eq,
          List.dlookup_eq_none.mpr hnot, Option.filter_some, if_neg hp, Option.filter_none]
    · rw [List.dlookup_cons_ne l _ hk]
      by_cases hp : p a v
      · rw [List.filter_cons_of_pos (by simpa using hp), List.dlookup_cons_ne _ _ hk, htail]
      · rw [List.filter_cons_of_neg (by simpa using hp), htail]

@[simp] theorem lookup_retain (p : κ → ν → Bool) (k : κ) (t : Table κ ν) :
    (t.retain p).lookup k = (t.lookup k).filter (p k) :=
  dlookup_filter p k t.entries t.nodupKeys

@[simp] theorem lookup_mapValues (f : κ → ν → ν) (k : κ) (t : Table κ ν) :
    (t.mapValues f).lookup k = (t.lookup k).map (f k) :=
  List.dlookup_map₂ k

theorem lookup_modify (k k' : κ) (f : ν → ν) (t : Table κ ν) :
    (t.modify k f).lookup k' = if k' = k then (t.lookup k).map f else t.lookup k' := by
  rw [modify, lookup_mapValues]
  by_cases h : k' = k
  · subst h
    simp
  · simp [h]

theorem mem_entries_iff {k : κ} {v : ν} {t : Table κ ν} :
    (⟨k, v⟩ : Σ _ : κ, ν) ∈ t.entries ↔ t.lookup k = some v :=
  (List.mem_dlookup_iff t.nodupKeys).symm

theorem mem_values {v : ν} {t : Table κ ν} : v ∈ t.values ↔ ∃ k, t.lookup k = some v := by
  constructor
  · intro h
    obtain ⟨⟨k, w⟩, he, rfl⟩ := List.mem_map.mp h
    exact ⟨k, mem_entries_iff.mp he⟩
  · rintro ⟨k, hk⟩
    exact List.mem_map.mpr ⟨⟨k, v⟩, mem_entries_iff.mpr hk, rfl⟩

theorem mem_keys_iff {k : κ} {t : Table κ ν} : k ∈ t.keys ↔ ∃ v, t.lookup k = some v := by
  rw [← AList.mem_keys, ← AList.lookup_isSome, Option.isSome_iff_exists]

end Lookup

/-! ### Counting -/

theorem countWhere_eq_length (p : ν → Bool) (t : Table κ ν) :
    t.countWhere p = (t.retain fun _ v => p v).size := by
  rw [countWhere, values, List.countP_map, size, retain, List.countP_eq_length_filter]
  rfl

theorem values_length (t : Table κ ν) : t.values.length = t.size := List.length_map _

theorem size_eq_keys_length (t : Table κ ν) : t.size = t.keys.length :=
  (List.length_map Sigma.fst).symm

/-- **A table whose keys are all keys of another is no larger.** -/
theorem size_le_size [DecidableEq κ] {t : Table κ ν} {u : Table κ μ}
    (h : ∀ k v, t.lookup k = some v → ∃ w, u.lookup k = some w) : t.size ≤ u.size := by
  rw [size_eq_keys_length, size_eq_keys_length]
  refine (List.subperm_of_subset t.keys_nodup ?_).length_le
  intro k hk
  obtain ⟨v, hv⟩ := mem_keys_iff.mp hk
  exact mem_keys_iff.mpr (h k v hv)

/-- Replacing a value adds no entry. -/
theorem size_insert_of_mem [DecidableEq κ] {k : κ} {t : Table κ ν} (h : k ∈ t.keys) (v : ν) :
    size (AList.insert k v t) = t.size := by
  rw [size_eq_keys_length, size_eq_keys_length, AList.keys_insert, List.length_cons,
    List.length_erase_of_mem h]
  have := List.length_pos_of_mem h
  omega

theorem size_insert_le [DecidableEq κ] (k : κ) (v : ν) (t : Table κ ν) :
    size (AList.insert k v t) ≤ t.size + 1 := by
  rw [size_eq_keys_length, size_eq_keys_length, AList.keys_insert, List.length_cons]
  exact Nat.succ_le_succ List.length_erase_le

/-- Removing an entry makes room for one. -/
theorem size_erase_of_mem [DecidableEq κ] {k : κ} {t : Table κ ν} (h : k ∈ t.keys) :
    size (AList.erase k t) + 1 = t.size := by
  rw [size_eq_keys_length, size_eq_keys_length, AList.keys_erase, List.length_erase_of_mem h]
  have := List.length_pos_of_mem h
  omega

theorem size_erase_le [DecidableEq κ] (k : κ) (t : Table κ ν) :
    size (AList.erase k t) ≤ t.size := by
  rw [size_eq_keys_length, size_eq_keys_length, AList.keys_erase]
  exact List.length_erase_le

/-- The number of entries depends on what is found alone. -/
theorem size_congr [DecidableEq κ] {t u : Table κ ν} (h : ∀ k, t.lookup k = u.lookup k) :
    t.size = u.size :=
  le_antisymm (size_le_size fun k v hv => ⟨v, h k ▸ hv⟩)
    (size_le_size fun k v hv => ⟨v, (h k).symm ▸ hv⟩)

/-- **A table that lacks a key of another is smaller.** -/
theorem size_lt_size [DecidableEq κ] {t : Table κ ν} {u : Table κ μ} {k : κ} {w : μ}
    (h : ∀ k v, t.lookup k = some v → ∃ w, u.lookup k = some w) (ht : t.lookup k = none)
    (hu : u.lookup k = some w) : t.size < u.size := by
  have hless : t.size ≤ size (AList.erase k u) := by
    refine size_le_size fun k' v hv => ?_
    have hne : k' ≠ k := by
      rintro rfl
      rw [ht] at hv
      cases hv
    rw [lookup_erase_eq, if_neg hne]
    exact h k' v hv
  have := size_erase_of_mem (mem_keys_iff.mpr ⟨w, hu⟩)
  omega

/-- There is nothing to erase under a key that is not in the table. -/
theorem erase_of_lookup_eq_none [DecidableEq κ] {k : κ} {t : Table κ ν} (h : t.lookup k = none) :
    AList.erase k t = t :=
  AList.ext (List.kerase_of_notMem_keys (AList.lookup_eq_none.mp h))

theorem size_retain_le (p : κ → ν → Bool) (t : Table κ ν) : (t.retain p).size ≤ t.size :=
  List.length_filter_le _ _

/-- **Counting by way of another table.**  If every entry of `t` that `p` holds
of has its key in `u`, then `p` holds of no more entries than `u` has. -/
theorem countWhere_le_size [DecidableEq κ] {p : ν → Bool} {t : Table κ ν} {u : Table κ μ}
    (h : ∀ k v, t.lookup k = some v → p v → ∃ w, u.lookup k = some w) :
    t.countWhere p ≤ u.size := by
  rw [countWhere_eq_length]
  refine size_le_size fun k v hk => ?_
  rw [lookup_retain, Option.filter_eq_some_iff] at hk
  exact h k v hk.1 hk.2

/-- **Counting less.**  If every entry `p` holds of is one of `u` that `p'` holds
of, then `p` holds of no more entries. -/
theorem countWhere_le_countWhere [DecidableEq κ] {p : ν → Bool} {p' : μ → Bool} {t : Table κ ν}
    {u : Table κ μ}
    (h : ∀ k v, t.lookup k = some v → p v → ∃ w, u.lookup k = some w ∧ p' w) :
    t.countWhere p ≤ u.countWhere p' := by
  rw [countWhere_eq_length p' u]
  refine countWhere_le_size fun k v hk hp => ?_
  obtain ⟨w, hw, hp'⟩ := h k v hk hp
  exact ⟨w, by rw [lookup_retain, hw, Option.filter_some, if_pos hp']⟩

/-- One more entry counts at most once more. -/
theorem countWhere_insert_le [DecidableEq κ] (p : ν → Bool) (k : κ) (v : ν) (t : Table κ ν) :
    countWhere p (AList.insert k v t) ≤ t.countWhere p + if p v then 1 else 0 := by
  have hsub : ((List.kerase k t.entries).map fun e => e.2).Sublist t.values :=
    (List.kerase_sublist k t.entries).map _
  rw [countWhere, values, AList.entries_insert, List.map_cons, List.countP_cons]
  exact Nat.add_le_add_right (hsub.countP_le) _

/-- Every counted entry has the second property or has it not. -/
theorem countWhere_split (p a : ν → Bool) (t : Table κ ν) :
    t.countWhere p = (t.countWhere fun v => p v && a v) + t.countWhere fun v => p v && !a v := by
  rw [countWhere, countWhere, countWhere]
  induction t.values with
  | nil => rfl
  | cons v l ih =>
    rw [List.countP_cons, List.countP_cons, List.countP_cons, ih]
    cases p v <;> cases a v <;> simp <;> omega

end Table
