/-
Maps as lists of their entries by ascending key: insertion, lookup, and the rebuilding of a map by
inserting what an ascending traversal of another one yields.
-/
import Mathlib

namespace WorldInfra.Lib.SortedMap

variable {κ β γ : Type} [LinearOrder κ]

/-- `map.insert(key, value)`: an entry of that key is replaced. -/
def insert (key : κ) (value : β) : List (κ × β) → List (κ × β)
  | [] => [(key, value)]
  | entry :: map =>
    if key < entry.1 then (key, value) :: entry :: map
    else if key = entry.1 then (key, value) :: map
    else entry :: insert key value map

/-- The keys ascend, so no key occurs twice. -/
def Ascending (map : List (κ × β)) : Prop := (map.map Prod.fst).Pairwise (· < ·)

instance (map : List (κ × β)) : Decidable (Ascending map) :=
  inferInstanceAs (Decidable ((map.map Prod.fst).Pairwise (· < ·)))

theorem ascending_cons {entry : κ × β} {map : List (κ × β)} :
    Ascending (entry :: map) ↔ (∀ e ∈ map, entry.1 < e.1) ∧ Ascending map := by
  unfold Ascending
  rw [List.map_cons, List.pairwise_cons, List.forall_mem_map]

/-- Whether the keys ascend does not depend on the values. -/
theorem ascending_mapValues {f : κ → β → γ} {map : List (κ × β)} :
    Ascending (map.map fun e => (e.1, f e.1 e.2)) ↔ Ascending map := by
  unfold Ascending
  rw [List.map_map]
  rfl

/-- A key above all others goes last. -/
theorem insert_last {key : κ} {value : β} : ∀ {map : List (κ × β)}, (∀ e ∈ map, e.1 < key) →
    insert key value map = map ++ [(key, value)]
  | [], _ => rfl
  | entry :: map, h => by
    have hlt : entry.1 < key := h entry (List.mem_cons_self ..)
    rw [insert, if_neg (lt_asymm hlt), if_neg (ne_of_gt hlt), insert_last fun e he => h e (List.mem_cons_of_mem _ he),
      List.cons_append]

/-- Inserting along an ascending traversal rebuilds the map, with whatever is put for the values. -/
theorem foldl_insert {f : κ → β → γ} : ∀ {map : List (κ × β)} {acc : List (κ × γ)}, Ascending map →
    (∀ e ∈ map, ∀ a ∈ acc, a.1 < e.1) →
    map.foldl (fun acc e => insert e.1 (f e.1 e.2) acc) acc = acc ++ map.map fun e => (e.1, f e.1 e.2)
  | [], acc, _, _ => by
    rw [List.foldl_nil, List.map_nil, List.append_nil]
  | entry :: map, acc, hasc, hbelow => by
    obtain ⟨hfirst, hasc⟩ := ascending_cons.1 hasc
    rw [List.foldl_cons, insert_last (hbelow entry (List.mem_cons_self ..)), foldl_insert hasc, List.append_assoc,
      List.map_cons, List.singleton_append]
    intro e he a ha
    rcases List.mem_append.1 ha with ha | ha
    · exact hbelow e (List.mem_cons_of_mem _ he) a ha
    · rw [List.mem_singleton.1 ha]
      exact hfirst e he

/-- Entries whose values are mapped are found under the same keys. -/
theorem lookup_mapValues {κ : Type} [BEq κ] [LawfulBEq κ] {f : κ → β → γ} (key : κ) : ∀ map : List (κ × β),
    (map.map fun e => (e.1, f e.1 e.2)).lookup key = (map.lookup key).map (f key)
  | [] => rfl
  | entry :: map => by
    rw [List.map_cons, List.lookup_cons, List.lookup_cons, lookup_mapValues key map]
    split
    · rename_i heq
      rw [← eq_of_beq heq, Option.map_some]
    · rfl

end WorldInfra.Lib.SortedMap
