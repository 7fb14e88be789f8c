/-
Covering the values under hidden keys of a JSON value, at any depth, with one fixed value: which
values it makes equal, what it leaves at every path that passes no hidden key, and that it does
nothing the second time.
-/
import WorldInfra.Json.Value

namespace WorldInfra.Json.Value

open WorldInfra.Lib WorldInfra.Rust

variable {Number : Type}

section

variable (hidden : Str → Bool)

mutual

/-- Equal except for the values under hidden keys. -/
def EqExcept : Value Number → Value Number → Prop
  | array items, array items' => EqExceptItems items items'
  | object map, object map' => EqExceptFields map map'
  | v, w => v = w

def EqExceptItems : List (Value Number) → List (Value Number) → Prop
  | [], [] => True
  | v :: items, w :: items' => EqExcept v w ∧ EqExceptItems items items'
  | _, _ => False

def EqExceptFields : List (Str × Value Number) → List (Str × Value Number) → Prop
  | [], [] => True
  | (key, v) :: map, (key', w) :: map' => key = key' ∧ (hidden key = true ∨ EqExcept v w) ∧ EqExceptFields map map'
  | _, _ => False

end

/-- No key on the path is hidden. -/
def ClearPath (path : List Step) : Prop := ∀ key, Step.key key ∈ path → hidden key = false

variable (cover : Value Number)

mutual

def coverHidden : Value Number → Value Number
  | array items => array (coverItems items)
  | object map => object (coverFields map)
  | value => value

def coverItems : List (Value Number) → List (Value Number)
  | [] => []
  | item :: items => coverHidden item :: coverItems items

def coverFields : List (Str × Value Number) → List (Str × Value Number)
  | [] => []
  | (key, value) :: map => (key, if hidden key then cover else coverHidden value) :: coverFields map

end

end

variable {hidden : Str → Bool} {cover : Value Number}

theorem coverItems_eq_map : ∀ items : List (Value Number),
    coverItems hidden cover items = items.map (coverHidden hidden cover)
  | [] => rfl
  | item :: items => by
    rw [coverItems, coverItems_eq_map items, List.map_cons]

theorem coverFields_eq_map : ∀ map : List (Str × Value Number), coverFields hidden cover map =
    map.map fun e => (e.1, if hidden e.1 then cover else coverHidden hidden cover e.2)
  | [] => rfl
  | (key, value) :: map => by
    rw [coverFields, coverFields_eq_map map, List.map_cons]

/-! ## What covering tells apart -/

mutual

theorem coverHidden_eq_iff : ∀ v w : Value Number,
    coverHidden hidden cover v = coverHidden hidden cover w ↔ EqExcept hidden v w
  | array items, array items' => by
    rw [coverHidden, coverHidden, array.injEq, EqExcept]
    exact coverItems_eq_iff items items'
  | object map, object map' => by
    rw [coverHidden, coverHidden, object.injEq, EqExcept]
    exact coverFields_eq_iff map map'
  | array items, null | array items, bool b | array items, number n | array items, string s | array items, object map =>
    ⟨nofun, nofun⟩
  | object map, null | object map, bool b | object map, number n | object map, string s | object map, array items =>
    ⟨nofun, nofun⟩
  | null, w | bool b, w | number n, w | string s, w => by
    cases w with
    | array items => exact ⟨nofun, nofun⟩
    | object map => exact ⟨nofun, nofun⟩
    | _ => exact Iff.rfl

theorem coverItems_eq_iff : ∀ items items' : List (Value Number),
    coverItems hidden cover items = coverItems hidden cover items' ↔ EqExceptItems hidden items items'
  | [], [] => by
    simp only [EqExceptItems]
  | [], w :: items' => ⟨nofun, nofun⟩
  | v :: items, [] => ⟨nofun, nofun⟩
  | v :: items, w :: items' => by
    rw [coverItems, coverItems, List.cons.injEq, EqExceptItems, coverHidden_eq_iff v w, coverItems_eq_iff items items']

theorem coverFields_eq_iff : ∀ map map' : List (Str × Value Number),
    coverFields hidden cover map = coverFields hidden cover map' ↔ EqExceptFields hidden map map'
  | [], [] => by
    simp only [EqExceptFields]
  | [], (key, w) :: map' => ⟨nofun, nofun⟩
  | (key, v) :: map, [] => ⟨nofun, nofun⟩
  | (key, v) :: map, (key', w) :: map' => by
    rw [coverFields, coverFields, List.cons.injEq, Prod.mk.injEq, EqExceptFields, coverFields_eq_iff map map',
      and_assoc]
    apply and_congr_right
    rintro rfl
    apply and_congr_left'
    cases hkey : hidden key with
    | true => simp
    | false =>
      rw [if_neg Bool.false_ne_true, if_neg Bool.false_ne_true, coverHidden_eq_iff v w]
      simp

end

/-! ## What covering keeps -/

theorem outline_coverHidden (v : Value Number) : (coverHidden hidden cover v).outline = v.outline := by
  cases v with
  | array items => rw [coverHidden, outline, outline, coverItems_eq_map, List.length_map]
  | object map =>
    rw [coverHidden, outline, outline, coverFields_eq_map, List.map_map]
    rfl
  | _ => rfl

theorem child_coverHidden {step : Step} (hstep : ∀ key, step = .key key → hidden key = false) (v : Value Number) :
    (coverHidden hidden cover v).child step = (v.child step).map (coverHidden hidden cover) := by
  cases v with
  | array items =>
    cases step with
    | key key => rfl
    | index i => rw [coverHidden, child, child, coverItems_eq_map, List.getElem?_map]
  | object map =>
    cases step with
    | index i => rfl
    | key key =>
      have hmap := SortedMap.lookup_mapValues (β := Value Number)
        (f := fun key value => if hidden key then cover else coverHidden hidden cover value) key map
      rw [coverHidden, child, child, coverFields_eq_map, hmap, hstep key rfl]
      rfl
  | _ => rfl

theorem atPath_coverHidden : ∀ {path : List Step}, ClearPath hidden path → ∀ v : Value Number,
    (coverHidden hidden cover v).atPath path = (v.atPath path).map (coverHidden hidden cover)
  | [], _, _ => rfl
  | step :: path, hclear, v => by
    have hstep : ∀ key, step = .key key → hidden key = false := by
      rintro key rfl
      exact hclear key (List.mem_cons_self ..)
    have hrest : ClearPath hidden path := fun key hkey => hclear key (List.mem_cons_of_mem _ hkey)
    rw [atPath, atPath, child_coverHidden hstep]
    cases v.child step with
    | none => rfl
    | some child => exact atPath_coverHidden hrest child

mutual

theorem coverHidden_idem : ∀ v : Value Number,
    coverHidden hidden cover (coverHidden hidden cover v) = coverHidden hidden cover v
  | array items => by
    rw [coverHidden, coverHidden, coverItems_idem items]
  | object map => by
    rw [coverHidden, coverHidden, coverFields_idem map]
  | null | bool _ | number _ | string _ => rfl

theorem coverItems_idem : ∀ items : List (Value Number),
    coverItems hidden cover (coverItems hidden cover items) = coverItems hidden cover items
  | [] => rfl
  | item :: items => by
    rw [coverItems, coverItems, coverHidden_idem item, coverItems_idem items]

theorem coverFields_idem : ∀ map : List (Str × Value Number),
    coverFields hidden cover (coverFields hidden cover map) = coverFields hidden cover map
  | [] => rfl
  | (key, value) :: map => by
    rw [coverFields, coverFields, coverFields_idem map]
    cases hkey : hidden key with
    | true => rfl
    | false => rw [if_neg Bool.false_ne_true, if_neg Bool.false_ne_true, coverHidden_idem value]

end

mutual

/-- Covering with nothing hidden does nothing. -/
theorem coverHidden_none : ∀ v : Value Number, coverHidden (fun _ => false) cover v = v
  | array items => by rw [coverHidden, coverItems_none items]
  | object map => by rw [coverHidden, coverFields_none map]
  | null | bool _ | number _ | string _ => rfl

theorem coverItems_none : ∀ items : List (Value Number), coverItems (fun _ => false) cover items = items
  | [] => rfl
  | item :: items => by rw [coverItems, coverHidden_none item, coverItems_none items]

theorem coverFields_none : ∀ map : List (Str × Value Number), coverFields (fun _ => false) cover map = map
  | [] => rfl
  | (key, value) :: map => by
    rw [coverFields, coverFields_none map, if_neg Bool.false_ne_true, coverHidden_none value]

end

section

variable {also : Str → Bool}

mutual

/-- Covering twice with a value that covering leaves alone is covering what either hides. -/
theorem coverHidden_coverHidden (hcover : coverHidden also cover cover = cover) : ∀ v : Value Number,
    coverHidden also cover (coverHidden hidden cover v) = coverHidden (fun key => hidden key || also key) cover v
  | array items => by
    rw [coverHidden, coverHidden, coverHidden, coverItems_coverItems hcover items]
  | object map => by
    rw [coverHidden, coverHidden, coverHidden, coverFields_coverFields hcover map]
  | null | bool _ | number _ | string _ => rfl

theorem coverItems_coverItems (hcover : coverHidden also cover cover = cover) : ∀ items : List (Value Number),
    coverItems also cover (coverItems hidden cover items) = coverItems (fun key => hidden key || also key) cover items
  | [] => rfl
  | item :: items => by
    rw [coverItems, coverItems, coverItems, coverHidden_coverHidden hcover item, coverItems_coverItems hcover items]

theorem coverFields_coverFields (hcover : coverHidden also cover cover = cover) : ∀ map : List (Str × Value Number),
    coverFields also cover (coverFields hidden cover map) = coverFields (fun key => hidden key || also key) cover map
  | [] => rfl
  | (key, value) :: map => by
    rw [coverFields, coverFields, coverFields, coverFields_coverFields hcover map]
    cases hkey : hidden key with
    | true => simp [hcover]
    | false => simp [coverHidden_coverHidden hcover value]

end

end

mutual

theorem sorted_coverHidden (hcover : cover.Sorted) : ∀ {v : Value Number}, v.Sorted →
    (coverHidden hidden cover v).Sorted
  | array items, h => by
    have hitems : SortedItems items := h
    exact sortedItems_coverItems hcover hitems
  | object map, h => by
    rw [coverHidden, Sorted]
    refine ⟨?_, sortedFields_coverFields hcover h.2⟩
    rw [coverFields_eq_map]
    exact (SortedMap.ascending_mapValues
      (f := fun key value => if hidden key then cover else coverHidden hidden cover value)).2 h.1
  | null, _ | bool _, _ | number _, _ | string _, _ => trivial

theorem sortedItems_coverItems (hcover : cover.Sorted) : ∀ {items : List (Value Number)}, SortedItems items →
    SortedItems (coverItems hidden cover items)
  | [], _ => trivial
  | _ :: _, h => ⟨sorted_coverHidden hcover h.1, sortedItems_coverItems hcover h.2⟩

theorem sortedFields_coverFields (hcover : cover.Sorted) : ∀ {map : List (Str × Value Number)}, SortedFields map →
    SortedFields (coverFields hidden cover map)
  | [], _ => trivial
  | (key, value) :: map, h => by
    rw [coverFields, SortedFields]
    refine ⟨?_, sortedFields_coverFields hcover h.2⟩
    split
    · exact hcover
    · exact sorted_coverHidden hcover h.1

end

end WorldInfra.Json.Value
