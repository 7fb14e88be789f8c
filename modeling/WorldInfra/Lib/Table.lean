/-
Finite tables with unique keys, with the operations of a hash map (`get`, `insert`, `remove`,
`retain`, `values`) and what a lookup sees after each of them.
-/
import Mathlib

namespace WorldInfra.Lib

/-- A finite map with unique keys; the order of its entries is the order of iteration. -/
abbrev Table (K V : Type) := AList fun _ : K => V

namespace Table

variable {K V : Type} [DecidableEq K]

def get (m : Table K V) (k : K) : Option V := m.lookup k

def insert (m : Table K V) (k : K) (v : V) : Table K V := AList.insert k v m

def remove (m : Table K V) (k : K) : Table K V := AList.erase k m

def retain (m : Table K V) (p : V → Bool) : Table K V where
  entries := m.entries.filter fun e => p e.2
  nodupKeys := m.nodupKeys.sublist List.filter_sublist

def values (m : Table K V) : List V := m.entries.map fun e => e.2

/-- The number of keys whose value has a property. -/
def count (m : Table K V) (p : V → Bool) : Nat := m.entries.countP fun e => p e.2

@[simp] theorem get_empty (k : K) : get (∅ : Table K V) k = none := AList.lookup_empty k

theorem get_insert (m : Table K V) (k k' : K) (v : V) :
    (m.insert k v).get k' = if k' = k then some v else m.get k' := by
  unfold get insert
  by_cases h : k' = k
  · subst h; rw [if_pos rfl, AList.lookup_insert]
  · rw [if_neg h, AList.lookup_insert_ne h]

@[simp] theorem get_insert_self (m : Table K V) (k : K) (v : V) : (m.insert k v).get k = some v := by
  rw [get_insert, if_pos rfl]

theorem get_insert_ne (m : Table K V) {k k' : K} (v : V) (h : k' ≠ k) : (m.insert k v).get k' = m.get k' := by
  rw [get_insert, if_neg h]

theorem get_remove (m : Table K V) (k k' : K) :
    (m.remove k).get k' = if k' = k then none else m.get k' := by
  unfold get remove
  by_cases h : k' = k
  · subst h; rw [if_pos rfl, AList.lookup_erase]
  · rw [if_neg h, AList.lookup_erase_ne h]

@[simp] theorem get_remove_self (m : Table K V) (k : K) : (m.remove k).get k = none := by
  rw [get_remove, if_pos rfl]

theorem get_remove_ne (m : Table K V) {k k' : K} (h : k' ≠ k) : (m.remove k).get k' = m.get k' := by
  rw [get_remove, if_neg h]

theorem get_eq_some_iff {m : Table K V} {k : K} {v : V} : m.get k = some v ↔ ⟨k, v⟩ ∈ m.entries :=
  AList.mem_lookup_iff (s := m)

theorem get_retain (m : Table K V) (p : V → Bool) (k : K) : (m.retain p).get k = (m.get k).filter p := by
  apply Option.ext
  intro v
  rw [get_eq_some_iff, Option.filter_eq_some_iff, get_eq_some_iff]
  simp [retain]

/-! ## Counting -/

theorem count_remove (m : Table K V) (k : K) (p : V → Bool) :
    (m.remove k).count p + (if (m.get k).any p then 1 else 0) = m.count p := by
  by_cases hk : k ∈ m.entries.keys
  · obtain ⟨v, l₁, l₂, -, hm, herase⟩ := List.exists_of_kerase hk
    have hget : m.get k = some v := get_eq_some_iff.2 (by rw [hm]; simp)
    have hrem : (m.remove k).entries = l₁ ++ l₂ := herase
    rw [hget, count, count, hrem, hm, List.countP_append, List.countP_append, List.countP_cons, Option.any_some,
      Nat.add_assoc]
  · have hget : m.get k = none := AList.lookup_eq_none.2 hk
    have hrem : (m.remove k).entries = m.entries := List.kerase_of_notMem_keys hk
    rw [hget, count, hrem]
    rfl

theorem count_insert (m : Table K V) (k : K) (v : V) (p : V → Bool) :
    (m.insert k v).count p = (m.remove k).count p + if p v then 1 else 0 := by
  unfold count insert
  rw [AList.entries_insert, List.countP_cons]
  rfl

/-- Tables that agree on every key count alike. -/
theorem count_congr {m n : Table K V} (h : ∀ k, m.get k = n.get k) (p : V → Bool) : m.count p = n.count p := by
  have hperm : m.entries.Perm n.entries := List.lookup_ext m.nodupKeys n.nodupKeys fun k v => by
    show v ∈ m.get k ↔ v ∈ n.get k
    rw [h k]
  exact hperm.countP_eq _

theorem count_remove_le (m : Table K V) (k : K) (p : V → Bool) : (m.remove k).count p ≤ m.count p := by
  have := count_remove m k p; omega

/-- A table that shows nothing another does not show counts no more. -/
theorem count_le_of_get {m n : Table K V} (h : ∀ k v, m.get k = some v → n.get k = some v) (p : V → Bool) :
    m.count p ≤ n.count p := by
  have hsub : m.entries ⊆ n.entries := fun e he => get_eq_some_iff.1 (h e.1 e.2 (get_eq_some_iff.2 he))
  exact (List.subperm_of_subset m.nodupKeys.nodup hsub).countP_le _

end Table

end WorldInfra.Lib
