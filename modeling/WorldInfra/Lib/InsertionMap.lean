/-
Maps as lists of their entries in the order of insertion: insertion, and the map rebuilt by ascending key,
which two maps have in common if they differ in the order of their entries only.
-/
import Mathlib

open scoped List

namespace WorldInfra.Lib.InsertionMap

variable {κ β : Type}

def keys (map : List (κ × β)) : List κ := map.map Prod.fst

@[simp] theorem keys_nil : keys ([] : List (κ × β)) = [] := rfl

@[simp] theorem keys_cons (entry : κ × β) (map : List (κ × β)) : keys (entry :: map) = entry.1 :: keys map := rfl

@[simp] theorem keys_append (map other : List (κ × β)) : keys (map ++ other) = keys map ++ keys other := List.map_append

theorem mem_keys {key : κ} {value : β} {map : List (κ × β)} (h : (key, value) ∈ map) : key ∈ keys map :=
  List.mem_map_of_mem h

variable [BEq κ] [LawfulBEq κ]

/-- `map.insert(key, value)`: the value of a key that is there is replaced where it stands. -/
def insert (map : List (κ × β)) (key : κ) (value : β) : List (κ × β) :=
  match map with
  | [] => [(key, value)]
  | entry :: map => if entry.1 == key then (entry.1, value) :: map else entry :: insert map key value

/-- A new key goes last. -/
theorem insert_new {key : κ} {value : β} : ∀ {map : List (κ × β)}, key ∉ keys map →
    insert map key value = map ++ [(key, value)]
  | [], _ => rfl
  | entry :: map, h => by
    rw [keys_cons, List.mem_cons, not_or] at h
    rw [insert, if_neg (by simpa using fun heq => h.1 heq.symm), insert_new h.2, List.cons_append]

theorem keys_insert {key : κ} {value : β} : ∀ {map : List (κ × β)},
    keys (insert map key value) = if key ∈ keys map then keys map else keys map ++ [key]
  | [] => by simp [insert]
  | entry :: map => by
    rw [insert]
    split
    · next heq => simp [eq_of_beq heq]
    · next hne =>
      have hne' : key ≠ entry.1 := fun h => hne (by simp [h])
      simp only [keys_cons, @keys_insert key value map, List.mem_cons, hne', false_or]
      split <;> simp

theorem lookup_insert {key : κ} {value : β} (k : κ) : ∀ map : List (κ × β),
    (insert map key value).lookup k = if k == key then some value else map.lookup k
  | [] => by
    rw [insert, List.lookup_cons]
    split <;> simp_all
  | entry :: map => by
    rw [insert]
    split
    · next heq =>
      rw [List.lookup_cons, List.lookup_cons, eq_of_beq heq]
      split <;> simp_all
    · next hne =>
      rw [List.lookup_cons, List.lookup_cons, lookup_insert k map]
      split
      · next h =>
        have hk : (k == key) = false := by
          rw [eq_of_beq h]
          simpa using hne
        simp [hk]
      · rfl

theorem lookup_eq_some_iff {key : κ} {value : β} : ∀ {map : List (κ × β)}, (keys map).Nodup →
    (map.lookup key = some value ↔ (key, value) ∈ map)
  | [], _ => by simp
  | entry :: map, h => by
    rw [keys_cons, List.nodup_cons] at h
    rw [List.lookup_cons, List.mem_cons, Prod.ext_iff]
    split
    · next heq =>
      obtain rfl := eq_of_beq heq
      have hnot : (entry.1, value) ∉ map := fun hmem => h.1 (mem_keys hmem)
      simp [hnot, eq_comm]
    · next hne =>
      have hne' : key ≠ entry.1 := by
        rintro rfl
        exact absurd hne (by simp)
      simp [lookup_eq_some_iff h.2, hne']

theorem lookup_isSome_iff {key : κ} : ∀ {map : List (κ × β)}, (map.lookup key).isSome = true ↔ key ∈ keys map
  | [] => by simp [keys]
  | entry :: map => by
    rw [List.lookup_cons, keys_cons, List.mem_cons]
    split
    · next heq => simp [eq_of_beq heq]
    · next hne =>
      have hne' : key ≠ entry.1 := by
        rintro rfl
        exact absurd hne (by simp)
      simp [lookup_isSome_iff, hne']

/-- Maps with the same entries under each key show the same. -/
theorem lookup_eq_of_mem_iff {map other : List (κ × β)} (hmap : (keys map).Nodup) (hother : (keys other).Nodup)
    (h : ∀ key value, (key, value) ∈ map ↔ (key, value) ∈ other) (key : κ) : map.lookup key = other.lookup key :=
  Option.ext fun value => by rw [lookup_eq_some_iff hmap, lookup_eq_some_iff hother, h]

/-- The entries of some keys, in the order of the keys. -/
def entriesOf (map : List (κ × β)) (ks : List κ) : List (κ × β) :=
  ks.filterMap fun key => (map.lookup key).map (Prod.mk key)

omit [LawfulBEq κ] in
theorem mem_entriesOf {map : List (κ × β)} {ks : List κ} {key : κ} {value : β} :
    (key, value) ∈ entriesOf map ks ↔ key ∈ ks ∧ map.lookup key = some value := by
  simp only [entriesOf, List.mem_filterMap, Option.map_eq_some_iff, Prod.mk.injEq]
  constructor
  · rintro ⟨k, hk, v, hv, rfl, rfl⟩
    exact ⟨hk, hv⟩
  · rintro ⟨hk, hv⟩
    exact ⟨key, hk, value, hv, rfl, rfl⟩

theorem keys_entriesOf {map : List (κ × β)} : ∀ {ks : List κ}, (∀ k ∈ ks, k ∈ keys map) → keys (entriesOf map ks) = ks
  | [], _ => rfl
  | k :: ks, h => by
    obtain ⟨value, hvalue⟩ := Option.isSome_iff_exists.1 (lookup_isSome_iff.2 (h k (List.mem_cons_self ..)))
    have hrest : keys (entriesOf map ks) = ks := keys_entriesOf fun k' hk' => h k' (List.mem_cons_of_mem _ hk')
    rw [entriesOf] at hrest ⊢
    rw [List.filterMap_cons, hvalue, Option.map_some]
    exact congrArg (k :: ·) hrest

/-- Inserting the entries of distinct keys appends them. -/
theorem foldl_insert {map : List (κ × β)} : ∀ {ks : List κ} {acc : List (κ × β)}, (∀ k ∈ ks, k ∈ keys map) →
    (keys acc ++ ks).Nodup → ks.foldl (fun sorted key =>
      match map.lookup key with
      | some value => insert sorted key value
      | none => sorted) acc = acc ++ entriesOf map ks
  | [], acc, _, _ => by simp [entriesOf]
  | k :: ks, acc, h, hnodup => by
    obtain ⟨value, hvalue⟩ := Option.isSome_iff_exists.1 (lookup_isSome_iff.2 (h k (List.mem_cons_self ..)))
    have hnew : k ∉ keys acc := fun hmem =>
      (List.nodup_append.1 hnodup).2.2 k hmem k (List.mem_cons_self ..) rfl
    rw [List.foldl_cons, hvalue]
    simp only
    rw [insert_new hnew, foldl_insert fun k' hk' => h k' (List.mem_cons_of_mem _ hk')]
    · rw [entriesOf, entriesOf, List.filterMap_cons, hvalue, Option.map_some, List.append_assoc]
      rfl
    · simpa using hnodup

section Sorted

variable [LinearOrder κ]

/-- The map with its entries inserted by ascending key. -/
def sortKeys (map : List (κ × β)) : List (κ × β) :=
  ((keys map).insertionSort (· ≤ ·)).foldl
    (fun sorted key =>
      match map.lookup key with
      | some value => insert sorted key value
      | none => sorted) []

variable {map other : List (κ × β)}

theorem sortKeys_eq (h : (keys map).Nodup) : sortKeys map = entriesOf map ((keys map).insertionSort (· ≤ ·)) := by
  have hperm := List.perm_insertionSort (· ≤ ·) (keys map)
  exact foldl_insert (fun k hk => hperm.mem_iff.1 hk) (by simpa using hperm.nodup_iff.2 h)

theorem keys_sortKeys (h : (keys map).Nodup) : keys (sortKeys map) = (keys map).insertionSort (· ≤ ·) := by
  rw [sortKeys_eq h]
  exact keys_entriesOf fun k hk => (List.perm_insertionSort (· ≤ ·) (keys map)).mem_iff.1 hk

theorem nodup_sortKeys (h : (keys map).Nodup) : (keys (sortKeys map)).Nodup := by
  rw [keys_sortKeys h]
  exact (List.perm_insertionSort (· ≤ ·) (keys map)).nodup_iff.2 h

theorem mem_sortKeys (h : (keys map).Nodup) {key : κ} {value : β} : (key, value) ∈ sortKeys map ↔
    (key, value) ∈ map := by
  rw [sortKeys_eq h, mem_entriesOf, lookup_eq_some_iff h, List.mem_insertionSort]
  exact and_iff_right_of_imp mem_keys

theorem lookup_sortKeys (h : (keys map).Nodup) (key : κ) : (sortKeys map).lookup key = map.lookup key :=
  lookup_eq_of_mem_iff (nodup_sortKeys h) h (fun _ _ => mem_sortKeys h) key

/-- Maps are the same by ascending key if and only if they have the same keys, in some order, and the same
value under each. -/
theorem sortKeys_eq_iff (hmap : (keys map).Nodup) (hother : (keys other).Nodup) : sortKeys map = sortKeys other ↔
    keys map ~ keys other ∧ ∀ key, map.lookup key = other.lookup key := by
  constructor
  · intro h
    refine ⟨?_, fun key => ?_⟩
    · have hkeys := congrArg keys h
      rw [keys_sortKeys hmap, keys_sortKeys hother] at hkeys
      calc
        keys map
        _ ~ (keys map).insertionSort (· ≤ ·) := (List.perm_insertionSort _ _).symm
        _ = (keys other).insertionSort (· ≤ ·) := hkeys
        _ ~ keys other := List.perm_insertionSort _ _
    · rw [← lookup_sortKeys hmap, ← lookup_sortKeys hother, h]
  · rintro ⟨hperm, hlookup⟩
    have hsort : (keys map).insertionSort (· ≤ ·) = (keys other).insertionSort (· ≤ ·) :=
      List.Perm.eq_of_pairwise' (List.pairwise_insertionSort _ _) (List.pairwise_insertionSort _ _)
        ((List.perm_insertionSort _ _).trans (hperm.trans (List.perm_insertionSort _ _).symm))
    rw [sortKeys_eq hmap, sortKeys_eq hother, hsort, entriesOf, entriesOf]
    simp only [hlookup]

theorem sortKeys_sortKeys (h : (keys map).Nodup) : sortKeys (sortKeys map) = sortKeys map := by
  rw [sortKeys_eq_iff (nodup_sortKeys h) h]
  refine ⟨?_, lookup_sortKeys h⟩
  rw [keys_sortKeys h]
  exact List.perm_insertionSort _ _

end Sorted

end WorldInfra.Lib.InsertionMap
