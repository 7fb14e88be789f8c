/-
JSON values whose objects keep the order in which their keys were inserted (`serde_json` with its
`preserve_order` feature): values that are equal up to that order, and their canonical form, in which the
keys of every object ascend.
-/
import WorldInfra.Json.Value
import WorldInfra.Lib.InsertionMap

open scoped List

namespace WorldInfra.Json

open WorldInfra.Lib WorldInfra.Rust

namespace Value

variable {Number : Type}

mutual

/-- No key occurs twice in an object of the value. -/
def UniqueKeys : Value Number → Prop
  | array items => UniqueItems items
  | object map => (InsertionMap.keys map).Nodup ∧ UniqueFields map
  | _ => True

def UniqueItems : List (Value Number) → Prop
  | [] => True
  | item :: items => item.UniqueKeys ∧ UniqueItems items

def UniqueFields : List (Str × Value Number) → Prop
  | [] => True
  | (_, value) :: map => value.UniqueKeys ∧ UniqueFields map

end

mutual

/-- Equal up to the order of object keys, at any depth: objects have the same keys, in some order, and under
each key values that are so equal; arrays have such items in the same order. -/
def Same : Value Number → Value Number → Prop
  | null, null => True
  | bool b, bool c => b = c
  | number m, number n => m = n
  | string s, string t => s = t
  | array items, array others => SameItems items others
  | object map, object other => InsertionMap.keys map ~ InsertionMap.keys other ∧ SameFields map other
  | _, _ => False

def SameItems : List (Value Number) → List (Value Number) → Prop
  | [], [] => True
  | item :: items, other :: others => item.Same other ∧ SameItems items others
  | _, _ => False

def SameFields : List (Str × Value Number) → List (Str × Value Number) → Prop
  | [], _ => True
  | (key, value) :: map, other => (∃ value', other.lookup key = some value' ∧ value.Same value') ∧ SameFields map other

end

mutual

/-- `canonical_value`. The recursive call on the value of a key is made before the keys are sorted. -/
def canonicalValue : Value Number → Value Number
  | object map => object (InsertionMap.sortKeys (canonicalFields map))
  | array items => array (canonicalItems items)
  | value => value

def canonicalItems : List (Value Number) → List (Value Number)
  | [] => []
  | item :: items => item.canonicalValue :: canonicalItems items

def canonicalFields : List (Str × Value Number) → List (Str × Value Number)
  | [] => []
  | (key, value) :: map => (key, value.canonicalValue) :: canonicalFields map

end

theorem canonicalFields_eq : ∀ map : List (Str × Value Number),
    canonicalFields map = map.map fun entry => (entry.1, entry.2.canonicalValue)
  | [] => by simp [canonicalFields]
  | (key, value) :: map => by simp [canonicalFields, canonicalFields_eq map]

@[simp] theorem keys_canonicalFields (map : List (Str × Value Number)) :
    InsertionMap.keys (canonicalFields map) = InsertionMap.keys map := by
  simp [canonicalFields_eq, InsertionMap.keys]

theorem lookup_canonicalFields (map : List (Str × Value Number)) (key : Str) :
    (canonicalFields map).lookup key = (map.lookup key).map canonicalValue := by
  rw [canonicalFields_eq]
  exact SortedMap.lookup_mapValues (f := fun _ => canonicalValue) key map

theorem uniqueFields_iff : ∀ {map : List (Str × Value Number)}, UniqueFields map ↔ ∀ e ∈ map, e.2.UniqueKeys
  | [] => by simp [UniqueFields]
  | (key, value) :: map => by simp [UniqueFields, @uniqueFields_iff map]

/-- The objects show the same under every key, if under each key of one the other shows the same. -/
theorem lookup_map_congr {map other : List (Str × Value Number)} (hmap : (InsertionMap.keys map).Nodup)
    (hperm : InsertionMap.keys map ~ InsertionMap.keys other) :
    (∀ key, (map.lookup key).map canonicalValue = (other.lookup key).map canonicalValue) ↔
      ∀ key value, (key, value) ∈ map →
        ∃ value', other.lookup key = some value' ∧ value.canonicalValue = value'.canonicalValue := by
  constructor
  · intro h key value hmem
    have hkey := h key
    rw [(InsertionMap.lookup_eq_some_iff hmap).2 hmem, Option.map_some] at hkey
    obtain ⟨value', hvalue', heq⟩ := Option.map_eq_some_iff.1 hkey.symm
    exact ⟨value', hvalue', heq.symm⟩
  · intro h key
    cases hkey : map.lookup key with
    | some value =>
      obtain ⟨value', hvalue', heq⟩ := h key value ((InsertionMap.lookup_eq_some_iff hmap).1 hkey)
      rw [hvalue', Option.map_some, Option.map_some, heq]
    | none =>
      have hnot : key ∉ InsertionMap.keys other := by
        rw [← hperm.mem_iff, ← InsertionMap.lookup_isSome_iff, hkey]
        exact Bool.false_ne_true
      rw [← InsertionMap.lookup_isSome_iff, Option.not_isSome_iff_eq_none] at hnot
      rw [hnot]

/-! ## Canonical forms tell values apart up to the order of keys -/

mutual

theorem canonicalValue_eq_iff : ∀ {v w : Value Number}, v.UniqueKeys → w.UniqueKeys →
    (v.canonicalValue = w.canonicalValue ↔ v.Same w)
  | object map, w, hv, hw => by
    cases w with
    | object other =>
      rw [UniqueKeys] at hv hw
      rw [canonicalValue, canonicalValue, Value.object.injEq, Same,
        InsertionMap.sortKeys_eq_iff (by simpa using hv.1) (by simpa using hw.1), keys_canonicalFields,
        keys_canonicalFields]
      simp only [lookup_canonicalFields]
      refine and_congr_right fun hperm => ?_
      rw [sameFields_iff hv.2 hw.1 hw.2, lookup_map_congr hv.1 hperm]
    | _ => simp [canonicalValue, Same]
  | array items, w, hv, hw => by
    cases w with
    | array others =>
      rw [UniqueKeys] at hv hw
      rw [canonicalValue, canonicalValue, Value.array.injEq, Same]
      exact canonicalItems_eq_iff hv hw
    | _ => simp [canonicalValue, Same]
  | null, w, _, _ => by cases w <;> simp [canonicalValue, Same]
  | bool b, w, _, _ => by cases w <;> simp [canonicalValue, Same]
  | number n, w, _, _ => by cases w <;> simp [canonicalValue, Same]
  | string s, w, _, _ => by cases w <;> simp [canonicalValue, Same]

theorem canonicalItems_eq_iff : ∀ {items others : List (Value Number)}, UniqueItems items → UniqueItems others →
    (canonicalItems items = canonicalItems others ↔ SameItems items others)
  | [], others, _, _ => by cases others <;> simp [canonicalItems, SameItems]
  | item :: items, others, h, h' => by
    cases others with
    | nil => simp [canonicalItems, SameItems]
    | cons other others =>
      rw [UniqueItems] at h h'
      rw [canonicalItems, canonicalItems, List.cons.injEq, SameItems, canonicalValue_eq_iff h.1 h'.1,
        canonicalItems_eq_iff h.2 h'.2]

theorem sameFields_iff : ∀ {map other : List (Str × Value Number)}, UniqueFields map →
    (InsertionMap.keys other).Nodup → UniqueFields other →
    (SameFields map other ↔ ∀ key value, (key, value) ∈ map →
      ∃ value', other.lookup key = some value' ∧ value.canonicalValue = value'.canonicalValue)
  | [], other, _, _, _ => by simp [SameFields]
  | (key, value) :: map, other, h, hkeys, hother => by
    rw [UniqueFields] at h
    have hhead : (∃ value', other.lookup key = some value' ∧ value.Same value') ↔
        ∃ value', other.lookup key = some value' ∧ value.canonicalValue = value'.canonicalValue := by
      refine exists_congr fun value' => and_congr_right fun hlookup => ?_
      have hmem := (InsertionMap.lookup_eq_some_iff hkeys).1 hlookup
      exact (canonicalValue_eq_iff h.1 (uniqueFields_iff.1 hother _ hmem)).symm
    rw [SameFields, hhead, sameFields_iff h.2 hkeys hother]
    constructor
    · rintro ⟨hfirst, hrest⟩ k v hmem
      rcases List.mem_cons.1 hmem with heq | hmem
      · cases heq
        exact hfirst
      · exact hrest k v hmem
    · exact fun hall => ⟨hall key value (List.mem_cons_self ..), fun k v hmem => hall k v (List.mem_cons_of_mem _ hmem)⟩

end

/-! ## Canonical values -/

mutual

theorem uniqueKeys_canonicalValue : ∀ {v : Value Number}, v.UniqueKeys → v.canonicalValue.UniqueKeys
  | object map, h => by
    rw [UniqueKeys] at h
    have hnodup : (InsertionMap.keys (canonicalFields map)).Nodup := by simpa using h.1
    rw [canonicalValue, UniqueKeys, uniqueFields_iff]
    refine ⟨InsertionMap.nodup_sortKeys hnodup, ?_⟩
    rintro ⟨key, value⟩ hmem
    exact uniqueKeys_canonicalFields h.2 _ ((InsertionMap.mem_sortKeys hnodup).1 hmem)
  | array items, h => by
    rw [UniqueKeys] at h
    rw [canonicalValue, UniqueKeys]
    exact uniqueItems_canonicalItems h
  | null, _ => by simp [canonicalValue, UniqueKeys]
  | bool b, _ => by simp [canonicalValue, UniqueKeys]
  | number n, _ => by simp [canonicalValue, UniqueKeys]
  | string s, _ => by simp [canonicalValue, UniqueKeys]

theorem uniqueItems_canonicalItems : ∀ {items : List (Value Number)}, UniqueItems items →
    UniqueItems (canonicalItems items)
  | [], _ => by simp [canonicalItems, UniqueItems]
  | item :: items, h => by
    rw [UniqueItems] at h
    rw [canonicalItems, UniqueItems]
    exact ⟨uniqueKeys_canonicalValue h.1, uniqueItems_canonicalItems h.2⟩

theorem uniqueKeys_canonicalFields : ∀ {map : List (Str × Value Number)}, UniqueFields map →
    ∀ e ∈ canonicalFields map, e.2.UniqueKeys
  | [], _ => by simp [canonicalFields]
  | (key, value) :: map, h => by
    rw [UniqueFields] at h
    rw [canonicalFields, List.forall_mem_cons]
    exact ⟨uniqueKeys_canonicalValue h.1, uniqueKeys_canonicalFields h.2⟩

end

mutual

/-- A canonical form is its own. -/
theorem canonicalValue_idem : ∀ {v : Value Number}, v.UniqueKeys → v.canonicalValue.canonicalValue = v.canonicalValue
  | object map, h => by
    rw [UniqueKeys] at h
    have hnodup : (InsertionMap.keys (canonicalFields map)).Nodup := by simpa using h.1
    have hfields : canonicalFields (InsertionMap.sortKeys (canonicalFields map)) =
        InsertionMap.sortKeys (canonicalFields map) := by
      rw [canonicalFields_eq (InsertionMap.sortKeys _)]
      refine (List.map_congr_left ?_).trans (List.map_id _)
      rintro ⟨key, value⟩ hmem
      exact Prod.ext rfl (canonicalFields_idem h.2 _ ((InsertionMap.mem_sortKeys hnodup).1 hmem))
    rw [canonicalValue, canonicalValue, hfields, InsertionMap.sortKeys_sortKeys hnodup]
  | array items, h => by
    rw [UniqueKeys] at h
    rw [canonicalValue, canonicalValue, canonicalItems_idem h]
  | null, _ => by simp [canonicalValue]
  | bool b, _ => by simp [canonicalValue]
  | number n, _ => by simp [canonicalValue]
  | string s, _ => by simp [canonicalValue]

theorem canonicalItems_idem : ∀ {items : List (Value Number)}, UniqueItems items →
    canonicalItems (canonicalItems items) = canonicalItems items
  | [], _ => by simp [canonicalItems]
  | item :: items, h => by
    rw [UniqueItems] at h
    rw [canonicalItems, canonicalItems, canonicalValue_idem h.1, canonicalItems_idem h.2]

theorem canonicalFields_idem : ∀ {map : List (Str × Value Number)}, UniqueFields map →
    ∀ e ∈ canonicalFields map, e.2.canonicalValue = e.2
  | [], _ => by simp [canonicalFields]
  | (key, value) :: map, h => by
    rw [UniqueFields] at h
    rw [canonicalFields, List.forall_mem_cons]
    exact ⟨canonicalValue_idem h.1, canonicalFields_idem h.2⟩

end

end Value

/-- A JSON value as a program can hold it, with `preserve_order`. -/
@[ext] structure KeyedDocument (Number : Type) where
  value : Value Number
  unique : value.UniqueKeys

namespace KeyedDocument

variable {Number : Type}

def canonical (d : KeyedDocument Number) : KeyedDocument Number :=
  ⟨d.value.canonicalValue, Value.uniqueKeys_canonicalValue d.unique⟩

/-- Documents have one canonical form if and only if they are equal up to the order of object keys. -/
theorem canonical_eq_iff {d e : KeyedDocument Number} : d.canonical = e.canonical ↔ d.value.Same e.value := by
  rw [KeyedDocument.ext_iff]
  exact Value.canonicalValue_eq_iff d.unique e.unique

theorem canonical_idem (d : KeyedDocument Number) : d.canonical.canonical = d.canonical :=
  KeyedDocument.ext (Value.canonicalValue_idem d.unique)

end KeyedDocument

end WorldInfra.Json
