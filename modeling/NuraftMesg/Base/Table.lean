import Mathlib.Data.List.AList

/-!
# Ordered containers with iteration

A map whose entries are also visited one by one keeps them in a list without
duplicate keys. This file names the operations of such a container and says what
a search finds after each of them.
-/

/-- A map from keys to values with a list of its entries. -/
abbrev Table (K V : Type*) := AList fun _ : K => V

namespace Table

variable {K V : Type*} [DecidableEq K]

/-- Insert a value unless the key is present. -/
def emplace (m : Table K V) (k : K) (v : V) : Table K V := if k ∈ m then m else m.insert k v

/-- The values, in the order of the entries. -/
def values (m : Table K V) : List V := m.entries.map fun e => e.2

variable {m : Table K V} {k q : K} {v w : V}

/-- What an insertion changes. -/
theorem lookup_insert_ite : (m.insert k v).lookup q = if q = k then some v else m.lookup q := by
  split
  · next h => rw [h, AList.lookup_insert]
  · next h => rw [AList.lookup_insert_ne h]

/-- What an erasure changes. -/
theorem lookup_erase_ite : (m.erase k).lookup q = if q = k then none else m.lookup q := by
  split
  · next h => rw [h, AList.lookup_erase]
  · next h => rw [AList.lookup_erase_ne h]

/-- What an emplacement changes. -/
theorem lookup_emplace_ite :
    (m.emplace k v).lookup q = if q = k then some ((m.lookup k).getD v) else m.lookup q := by
  unfold emplace
  split
  · next h =>
    obtain ⟨old, hold⟩ := Option.isSome_iff_exists.mp (AList.lookup_isSome.mpr h)
    split
    · next hq => rw [hq, hold]; rfl
    · rfl
  · next h => rw [lookup_insert_ite, AList.lookup_eq_none.mpr h, Option.getD_none]

/-- A key that is there keeps its value. -/
theorem emplace_of_mem (hk : k ∈ m) : m.emplace k v = m := if_pos hk

/-- What is visited is what is found. -/
theorem mem_values : v ∈ m.values ↔ ∃ k, m.lookup k = some v := by
  simp only [values, List.mem_map, Sigma.exists]
  constructor
  · rintro ⟨k, v', hmem, rfl⟩
    exact ⟨k, AList.mem_lookup_iff.mpr hmem⟩
  · rintro ⟨k, hk⟩
    exact ⟨k, v, AList.mem_lookup_iff.mp hk, rfl⟩

/-- Two maps in which every search finds the same have the same values. -/
theorem values_perm {m' : Table K V} (hlookup : ∀ q, m.lookup q = m'.lookup q) :
    m.values.Perm m'.values := by
  have hentries : m.entries.Perm m'.entries := by
    refine List.lookup_ext m.nodupKeys m'.nodupKeys fun q v => ?_
    have hq : m.entries.dlookup q = m'.entries.dlookup q := hlookup q
    rw [hq]
  exact hentries.map _

end Table
