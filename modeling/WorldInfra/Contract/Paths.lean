/-
contract-test-support: paths into a document, the assertions on them, on the keys of an object and on an
OpenAPI operation, and the two helpers that change a document. No assertion sees the order of object keys,
at any depth.
-/
import WorldInfra.Json.Canonical
import WorldInfra.Rust.Pattern

open scoped List

namespace WorldInfra.Json.Value

open WorldInfra.Lib WorldInfra.Rust

variable {Number : Type}

def asObject : Value Number → Option (List (Str × Value Number))
  | object map => some map
  | _ => none

def asArray : Value Number → Option (List (Value Number))
  | array items => some items
  | _ => none

def asStr : Value Number → Option Str
  | string s => some s
  | _ => none

/-! ## What canonical values show -/

theorem canonicalItems_eq (items : List (Value Number)) : canonicalItems items = items.map canonicalValue := by
  induction items with
  | nil => simp [canonicalItems]
  | cons item items ih => simp [canonicalItems, ih]

theorem asObject_eq_some {v : Value Number} {map : List (Str × Value Number)} : v.asObject = some map ↔
    v = .object map := by
  cases v <;> simp [asObject]

theorem asArray_eq_some {v : Value Number} {items : List (Value Number)} : v.asArray = some items ↔
    v = .array items := by
  cases v <;> simp [asArray]

theorem asArray_canonicalValue (v : Value Number) :
    v.canonicalValue.asArray = v.asArray.map (List.map canonicalValue) := by
  cases v <;> simp [canonicalValue, asArray, canonicalItems_eq]

theorem asStr_canonicalValue (v : Value Number) : v.canonicalValue.asStr = v.asStr := by
  cases v <;> simp [canonicalValue, asStr]

theorem asObject_canonicalValue (v : Value Number) :
    v.canonicalValue.asObject = v.asObject.map fun map => InsertionMap.sortKeys (canonicalFields map) := by
  cases v <;> simp [canonicalValue, asObject]

/-- The entries of an object in a value whose objects have unique keys. -/
theorem UniqueKeys.object {v : Value Number} (h : v.UniqueKeys) {map : List (Str × Value Number)}
    (hmap : v.asObject = some map) : (InsertionMap.keys map).Nodup ∧ ∀ e ∈ map, e.2.UniqueKeys := by
  cases v with
  | object m =>
    obtain rfl := Option.some.inj hmap
    rw [UniqueKeys, uniqueFields_iff] at h
    exact h
  | _ => cases hmap

theorem UniqueKeys.array {v : Value Number} (h : v.UniqueKeys) {items : List (Value Number)}
    (hitems : v.asArray = some items) : ∀ item ∈ items, item.UniqueKeys := by
  have hall : ∀ {items : List (Value Number)}, UniqueItems items → ∀ item ∈ items, item.UniqueKeys := by
    intro items
    induction items with
    | nil => simp
    | cons item items ih =>
      intro h
      rw [UniqueItems] at h
      exact List.forall_mem_cons.2 ⟨h.1, ih h.2⟩
  cases v with
  | array others =>
    obtain rfl := Option.some.inj hitems
    rw [UniqueKeys] at h
    exact hall h
  | _ => cases hitems

theorem lookup_sortKeys_canonicalFields {map : List (Str × Value Number)} (h : (InsertionMap.keys map).Nodup)
    (key : Str) :
    (InsertionMap.sortKeys (canonicalFields map)).lookup key = (map.lookup key).map canonicalValue := by
  rw [InsertionMap.lookup_sortKeys (by simpa using h), lookup_canonicalFields]

theorem keys_sortKeys_canonicalFields {map : List (Str × Value Number)} (h : (InsertionMap.keys map).Nodup) :
    InsertionMap.keys (InsertionMap.sortKeys (canonicalFields map)) =
      (InsertionMap.keys map).insertionSort (· ≤ ·) := by
  rw [InsertionMap.keys_sortKeys (by simpa using h), keys_canonicalFields]

end WorldInfra.Json.Value

namespace WorldInfra.Contract

open WorldInfra.Json WorldInfra.Lib WorldInfra.Rust

/-- `ContractTestError`, as the helpers of this file raise it. -/
inductive PathError where
  | missingPath (path : Str)
  | unexpectedPath (path : Str)
  | unexpectedKey (path key : Str)
  | expectedObject (path : Str)
  | jsonMismatch (expected actual : Str)
  deriving DecidableEq, Repr

variable {Number : Type}

/-- `Option::ok_or_else`. -/
def okOrElse {ε α : Type} (o : Option α) (error : ε) : Except ε α :=
  match o with
  | some a => .ok a
  | none => .error error

/-! ## Paths -/

/-- The loop of `get_path` over the parts still to come. -/
def getParts (current : Value Number) : List Str → Option (Value Number)
  | [] => some current
  | part :: parts =>
    match current.asObject with
    | some map =>
      match map.lookup part with
      | some value => getParts value parts
      | none => none
    | none => none

def getPath (value : Value Number) (path : Str) : Option (Value Number) :=
  if path.isEmpty then some value else getParts value (path.split '.')

def assertRequiredPath (value : Value Number) (path : Str) : Except PathError Unit :=
  okOrElse ((getPath value path).map fun _ => ()) (.missingPath path)

def assertAbsentPath (value : Value Number) (path : Str) : Except PathError Unit :=
  if (getPath value path).isNone then .ok () else .error (.unexpectedPath path)

def assertObjectKeysAllowed (value : Value Number) (path : Str) (allowed : List Str) : Except PathError Unit := do
  let value ← okOrElse (getPath value path) (.missingPath path)
  let object ← okOrElse value.asObject (.expectedObject path)
  match (InsertionMap.keys object).find? fun key => !allowed.contains key with
  | some key => .error (.unexpectedKey path key)
  | none => .ok ()

/-! ## Changed documents -/

/-- `Map::remove` with `preserve_order`: the last entry takes the place of the one removed. -/
def removeKey (map : List (Str × Value Number)) (key : Str) : List (Str × Value Number) :=
  match map with
  | [] => []
  | entry :: map =>
    if entry.1 == key then
      match map.getLast? with
      | some last => last :: map.dropLast
      | none => []
    else entry :: removeKey map key

def withoutTopLevelField (value : Value Number) (field : Str) : Value Number :=
  match value with
  | .object map => .object (removeKey map field)
  | value => value

def withUnknownTopLevelField (value : Value Number) (field : Str) : Value Number :=
  match value with
  | .object map => .object (InsertionMap.insert map field (.string "unexpected".toList))
  | value => value

/-! ## OpenAPI operations -/

/-- The field of a value that is to be an object; `path` and `missing` name them in errors. -/
def objectField (value : Value Number) (path key missing : Str) : Except PathError (Value Number) := do
  let object ← okOrElse value.asObject (.expectedObject path)
  okOrElse (object.lookup key) (.missingPath missing)

def operationAt (document : Value Number) (path method : Str) : Except PathError (Value Number) := do
  let method := method.toAsciiLowercase
  let paths ← okOrElse (document.child (.key "paths".toList)) (.missingPath "paths".toList)
  let pathItem ← objectField paths "paths".toList path ("paths.".toList ++ path)
  let operation ← objectField pathItem ("paths.".toList ++ path) method ("paths.".toList ++ path ++ '.' :: method)
  if operation.asObject.isSome then .ok operation
  else .error (.expectedObject ("paths.".toList ++ path ++ '.' :: method))

def responseCodes (operation : Value Number) : Except PathError (List Str) := do
  let responses ← objectField operation "operation".toList "responses".toList "responses".toList
  let responses ← okOrElse responses.asObject (.expectedObject "responses".toList)
  return (InsertionMap.keys responses).insertionSort (· ≤ ·)

def assertResponseCode (operation : Value Number) (status : Str) : Except PathError Unit := do
  let codes ← responseCodes operation
  if codes.contains status then .ok () else .error (.missingPath ("responses.".toList ++ status))

/-- `get("description").and_then(as_str).unwrap_or_default()`. -/
def descriptionOf (object : List (Str × Value Number)) : Str :=
  ((object.lookup "description".toList).bind Value.asStr).getD []

section

variable (debug : Str → Str)

def assertDescriptionContains (operation : Value Number) (text : Str) : Except PathError Unit := do
  let operation ← okOrElse operation.asObject (.expectedObject "operation".toList)
  let actual := descriptionOf operation
  if actual.containsText text then .ok ()
  else .error (.jsonMismatch ("description containing ".toList ++ debug text) actual)

def assertResponseDescriptionContains (operation : Value Number) (status text : Str) : Except PathError Unit := do
  let responses ← objectField operation "operation".toList "responses".toList "responses".toList
  let response ← objectField responses "responses".toList status ("responses.".toList ++ status)
  let response ← okOrElse response.asObject (.expectedObject ("responses.".toList ++ status))
  let actual := descriptionOf response
  if actual.containsText text then .ok ()
  else .error (.jsonMismatch ("responses.".toList ++ status ++ ".description containing ".toList ++ debug text) actual)

end

/-! ## The order of keys shows in no verdict -/

theorem okOrElse_map {ε α β : Type} (o : Option α) (error : ε) (f : α → β) :
    okOrElse (o.map f) error = (okOrElse o error).map f := by
  cases o <;> rfl

theorem okOrElse_eq_ok {ε α : Type} {o : Option α} {error : ε} {a : α} : okOrElse o error = .ok a ↔ o = some a := by
  cases o <;> simp [okOrElse]

theorem getParts_canonical : ∀ {v : Value Number} (parts : List Str), v.UniqueKeys →
    getParts v.canonicalValue parts = (getParts v parts).map Value.canonicalValue
  | v, [], _ => rfl
  | v, part :: parts, h => by
    rw [getParts, getParts, Value.asObject_canonicalValue]
    cases hmap : v.asObject with
    | none => rfl
    | some map =>
      obtain ⟨hkeys, hvalues⟩ := h.object hmap
      simp only [Option.map_some, Value.lookup_sortKeys_canonicalFields hkeys]
      cases hvalue : map.lookup part with
      | none => rfl
      | some value =>
        have hunique := hvalues _ ((InsertionMap.lookup_eq_some_iff hkeys).1 hvalue)
        exact getParts_canonical parts hunique

theorem getPath_canonical {v : Value Number} (h : v.UniqueKeys) (path : Str) :
    getPath v.canonicalValue path = (getPath v path).map Value.canonicalValue := by
  unfold getPath
  split
  · rfl
  · exact getParts_canonical _ h

theorem getParts_unique : ∀ {v w : Value Number} (parts : List Str), v.UniqueKeys → getParts v parts = some w →
    w.UniqueKeys
  | v, w, [], h, hw => Option.some.inj hw ▸ h
  | v, w, part :: parts, h, hw => by
    rw [getParts] at hw
    cases hmap : v.asObject with
    | none => rw [hmap] at hw; cases hw
    | some map =>
      obtain ⟨hkeys, hvalues⟩ := h.object hmap
      rw [hmap] at hw
      cases hvalue : map.lookup part with
      | none => simp [hvalue] at hw
      | some value =>
        simp only [hvalue] at hw
        exact getParts_unique parts (hvalues _ ((InsertionMap.lookup_eq_some_iff hkeys).1 hvalue)) hw

theorem getPath_unique {v w : Value Number} {path : Str} (h : v.UniqueKeys) (hw : getPath v path = some w) :
    w.UniqueKeys := by
  unfold getPath at hw
  split at hw
  · exact Option.some.inj hw ▸ h
  · exact getParts_unique _ h hw

theorem objectField_canonical {v : Value Number} (h : v.UniqueKeys) (path key missing : Str) :
    objectField v.canonicalValue path key missing = (objectField v path key missing).map Value.canonicalValue := by
  unfold objectField
  rw [Value.asObject_canonicalValue]
  cases hmap : v.asObject with
  | none => rfl
  | some map =>
    obtain ⟨hkeys, -⟩ := h.object hmap
    simp only [Option.map_some, okOrElse, bind, Except.bind]
    rw [Value.lookup_sortKeys_canonicalFields hkeys]
    cases map.lookup key <;> rfl

theorem objectField_unique {v w : Value Number} (h : v.UniqueKeys) {path key missing : Str}
    (hw : objectField v path key missing = .ok w) : w.UniqueKeys := by
  unfold objectField at hw
  simp only [Str.bind_eq_ok, okOrElse_eq_ok] at hw
  obtain ⟨map, hmap, hlookup⟩ := hw
  obtain ⟨hkeys, hvalues⟩ := h.object hmap
  exact hvalues _ ((InsertionMap.lookup_eq_some_iff hkeys).1 hlookup)

theorem assertRequiredPath_canonical {v : Value Number} (h : v.UniqueKeys) (path : Str) :
    assertRequiredPath v.canonicalValue path = assertRequiredPath v path := by
  unfold assertRequiredPath
  rw [getPath_canonical h, Option.map_map]

theorem assertAbsentPath_canonical {v : Value Number} (h : v.UniqueKeys) (path : Str) :
    assertAbsentPath v.canonicalValue path = assertAbsentPath v path := by
  unfold assertAbsentPath
  rw [getPath_canonical h, Option.isNone_map]

/-- The keys of an object are allowed if and only if each is. -/
theorem assertObjectKeysAllowed_eq_ok {v : Value Number} {path : Str} {allowed : List Str} :
    assertObjectKeysAllowed v path allowed = .ok () ↔
      ∃ w map, getPath v path = some w ∧ w.asObject = some map ∧ ∀ key ∈ InsertionMap.keys map, key ∈ allowed := by
  unfold assertObjectKeysAllowed
  simp only [Str.bind_eq_ok, okOrElse_eq_ok]
  constructor
  · rintro ⟨w, hw, map, hmap, h⟩
    refine ⟨w, map, hw, hmap, fun key hkey => ?_⟩
    split at h
    · cases h
    · next hnone => simpa using List.find?_eq_none.1 hnone key hkey
  · rintro ⟨w, map, hw, hmap, h⟩
    refine ⟨w, hw, map, hmap, ?_⟩
    rw [List.find?_eq_none.2 fun key hkey => by simpa using h key hkey]

theorem assertObjectKeysAllowed_canonical {v : Value Number} (h : v.UniqueKeys) (path : Str) (allowed : List Str) :
    assertObjectKeysAllowed v.canonicalValue path allowed = .ok () ↔
      assertObjectKeysAllowed v path allowed = .ok () := by
  rw [assertObjectKeysAllowed_eq_ok, assertObjectKeysAllowed_eq_ok, getPath_canonical h]
  simp only [Option.map_eq_some_iff]
  constructor
  · rintro ⟨w, map, ⟨w, hw, rfl⟩, hmap, hall⟩
    rw [Value.asObject_canonicalValue, Option.map_eq_some_iff] at hmap
    obtain ⟨map, hmap, rfl⟩ := hmap
    obtain ⟨hkeys, -⟩ := (getPath_unique h hw).object hmap
    rw [Value.keys_sortKeys_canonicalFields hkeys] at hall
    exact ⟨w, map, hw, hmap, fun key hkey => hall key ((List.mem_insertionSort _).2 hkey)⟩
  · rintro ⟨w, map, hw, hmap, hall⟩
    obtain ⟨hkeys, -⟩ := (getPath_unique h hw).object hmap
    refine ⟨_, _, ⟨w, hw, rfl⟩, by rw [Value.asObject_canonicalValue, hmap]; rfl, ?_⟩
    rw [Value.keys_sortKeys_canonicalFields hkeys]
    exact fun key hkey => hall key ((List.mem_insertionSort _).1 hkey)

theorem child_canonical {v : Value Number} (h : v.UniqueKeys) (key : Str) :
    v.canonicalValue.child (.key key) = (v.child (.key key)).map Value.canonicalValue := by
  cases v with
  | object map =>
    rw [Value.canonicalValue, Value.child, Value.child]
    exact Value.lookup_sortKeys_canonicalFields (h.object rfl).1 key
  | _ => simp [Value.canonicalValue, Value.child]

theorem child_unique {v w : Value Number} (h : v.UniqueKeys) {key : Str} (hw : v.child (.key key) = some w) :
    w.UniqueKeys := by
  cases v with
  | object map =>
    obtain ⟨hkeys, hvalues⟩ := h.object rfl
    exact hvalues _ ((InsertionMap.lookup_eq_some_iff hkeys).1 hw)
  | _ => cases hw

theorem operationAt_canonical {v : Value Number} (h : v.UniqueKeys) (path method : Str) :
    operationAt v.canonicalValue path method = (operationAt v path method).map Value.canonicalValue := by
  unfold operationAt
  simp only [bind, Except.bind, child_canonical h, okOrElse_map]
  cases hpaths : v.child (.key "paths".toList) with
  | none => rfl
  | some paths =>
    have hunique := child_unique h hpaths
    simp only [okOrElse, Except.map, objectField_canonical hunique]
    cases hitem : objectField paths "paths".toList path ("paths.".toList ++ path) with
    | error e => rfl
    | ok item =>
      have hunique' := objectField_unique hunique hitem
      simp only [objectField_canonical hunique']
      cases objectField item ("paths.".toList ++ path) method.toAsciiLowercase
        ("paths.".toList ++ path ++ '.' :: method.toAsciiLowercase) with
      | error e => rfl
      | ok operation =>
        simp only [Except.map, Value.asObject_canonicalValue, Option.isSome_map]
        split <;> rfl

theorem responseCodes_canonical {v : Value Number} (h : v.UniqueKeys) :
    responseCodes v.canonicalValue = responseCodes v := by
  unfold responseCodes
  simp only [bind, Except.bind, objectField_canonical h]
  cases hresponses : objectField v "operation".toList "responses".toList "responses".toList with
  | error e => rfl
  | ok responses =>
    simp only [Except.map, Value.asObject_canonicalValue]
    cases hmap : responses.asObject with
    | none => rfl
    | some map =>
      obtain ⟨hkeys, -⟩ := (objectField_unique h hresponses).object hmap
      simp only [Option.map_some, okOrElse, Value.keys_sortKeys_canonicalFields hkeys]
      rw [(List.pairwise_insertionSort (· ≤ ·) (InsertionMap.keys map)).insertionSort_eq]

theorem descriptionOf_canonical {map : List (Str × Value Number)} (h : (InsertionMap.keys map).Nodup) :
    descriptionOf (InsertionMap.sortKeys (Value.canonicalFields map)) = descriptionOf map := by
  unfold descriptionOf
  rw [Value.lookup_sortKeys_canonicalFields h, Option.bind_map]
  congr 2
  funext v
  exact Value.asStr_canonicalValue v

theorem assertDescriptionContains_canonical (debug : Str → Str) {v : Value Number} (h : v.UniqueKeys) (text : Str) :
    assertDescriptionContains debug v.canonicalValue text = assertDescriptionContains debug v text := by
  unfold assertDescriptionContains
  rw [Value.asObject_canonicalValue]
  cases hmap : v.asObject with
  | none => rfl
  | some map =>
    simp only [Option.map_some, okOrElse, bind, Except.bind, descriptionOf_canonical (h.object hmap).1]

theorem assertResponseDescriptionContains_canonical (debug : Str → Str) {v : Value Number} (h : v.UniqueKeys)
    (status text : Str) : assertResponseDescriptionContains debug v.canonicalValue status text =
      assertResponseDescriptionContains debug v status text := by
  unfold assertResponseDescriptionContains
  simp only [bind, Except.bind, objectField_canonical h]
  cases hresponses : objectField v "operation".toList "responses".toList "responses".toList with
  | error e => rfl
  | ok responses =>
    have hunique := objectField_unique h hresponses
    simp only [Except.map, objectField_canonical hunique]
    cases hresponse : objectField responses "responses".toList status ("responses.".toList ++ status) with
    | error e => rfl
    | ok response =>
      simp only [Value.asObject_canonicalValue]
      cases hmap : response.asObject with
      | none => rfl
      | some map =>
        obtain ⟨hkeys, -⟩ := (objectField_unique hunique hresponse).object hmap
        simp only [Option.map_some, okOrElse, descriptionOf_canonical hkeys]

/-! ## Changed documents differ in one field -/

/-- The entries other than the one removed, in some order. -/
theorem removeKey_perm {key : Str} : ∀ {map : List (Str × Value Number)}, (InsertionMap.keys map).Nodup →
    removeKey map key ~ map.filter fun e => !(e.1 == key)
  | [], _ => by simp [removeKey]
  | entry :: map, h => by
    rw [InsertionMap.keys_cons, List.nodup_cons] at h
    rw [removeKey]
    split
    · next heq =>
      have hall : map.filter (fun e => !(e.1 == key)) = map := by
        rw [List.filter_eq_self]
        intro e he
        have hne : e.1 ≠ key := by
          rintro rfl
          exact h.1 (eq_of_beq heq ▸ List.mem_map_of_mem he)
        simpa using hne
      rw [List.filter_cons_of_neg (by simpa using heq), hall]
      rcases List.eq_nil_or_concat' map with rfl | ⟨rest, last, rfl⟩
      · exact List.Perm.refl _
      · simpa using (List.perm_append_singleton last rest).symm
    · next hne =>
      rw [List.filter_cons_of_pos (by simpa using hne)]
      exact (removeKey_perm h.2).cons entry

theorem keys_removeKey {key : Str} {map : List (Str × Value Number)} (h : (InsertionMap.keys map).Nodup) :
    (InsertionMap.keys (removeKey map key)).Nodup := by
  have hperm : InsertionMap.keys (removeKey map key) ~ InsertionMap.keys (map.filter fun e => !(e.1 == key)) :=
    (removeKey_perm h).map Prod.fst
  rw [hperm.nodup_iff]
  exact (List.filter_sublist.map Prod.fst).nodup h

theorem lookup_removeKey {key : Str} {map : List (Str × Value Number)} (h : (InsertionMap.keys map).Nodup) (k : Str) :
    (removeKey map key).lookup k = if k = key then none else map.lookup k := by
  apply Option.ext
  intro value
  rw [InsertionMap.lookup_eq_some_iff (keys_removeKey h), (removeKey_perm h).mem_iff, List.mem_filter]
  split
  · next heq => simp [heq]
  · next hne => simp [hne, InsertionMap.lookup_eq_some_iff h]

/-- A path that is not empty starts with a field of the document. -/
theorem getPath_object {map : List (Str × Value Number)} {path part : Str} {parts : List Str} (hpath : path ≠ [])
    (hparts : path.split '.' = part :: parts) :
    getPath (.object map) path = (map.lookup part).bind fun value => getParts value parts := by
  unfold getPath
  rw [if_neg (by simpa using hpath), hparts, getParts]
  simp only [Value.asObject]
  cases map.lookup part <;> rfl

/-- In a document that is an object: without a field, every path through it is missing and every other path
shows what it did; with an unknown field, the path to it shows it, paths through it are missing, every other
path shows what it did, and a document whose keys were allowed is refused over that field alone. -/
theorem changed_documents (map : List (Str × Value Number)) (hkeys : (InsertionMap.keys map).Nodup) (field : Str) :
    (∀ (path part : Str) parts, path ≠ [] → path.split '.' = part :: parts →
      getPath (withoutTopLevelField (.object map) field) path =
        if part = field then none else getPath (.object map) path) ∧
    (∀ (path part : Str) parts, path ≠ [] → path.split '.' = part :: parts →
      getPath (withUnknownTopLevelField (.object map) field) path =
        if part = field then (if parts = [] then some (.string "unexpected".toList) else none)
        else getPath (.object map) path) ∧
    (∀ allowed, assertObjectKeysAllowed (.object map) [] allowed = .ok () →
      assertObjectKeysAllowed (withUnknownTopLevelField (.object map) field) [] allowed =
        if field ∈ allowed then .ok () else .error (.unexpectedKey [] field)) := by
  refine ⟨fun path part parts hpath hparts => ?_, fun path part parts hpath hparts => ?_, fun allowed hallowed => ?_⟩
  · rw [withoutTopLevelField, getPath_object hpath hparts, getPath_object hpath hparts, lookup_removeKey hkeys]
    split <;> rfl
  · rw [withUnknownTopLevelField, getPath_object hpath hparts, getPath_object hpath hparts, InsertionMap.lookup_insert]
    by_cases hpart : part = field
    · rw [if_pos (by simpa using hpart), if_pos hpart]
      cases parts with
      | nil => rfl
      | cons part' parts => rfl
    · rw [if_neg (by simpa using hpart), if_neg hpart]
  · obtain ⟨w, map', hw, hmap, hall⟩ := assertObjectKeysAllowed_eq_ok.1 hallowed
    obtain rfl := Option.some.inj hw
    obtain rfl := Option.some.inj hmap
    unfold assertObjectKeysAllowed
    simp only [withUnknownTopLevelField, getPath, List.isEmpty_nil, if_true, okOrElse, Value.asObject, bind,
      Except.bind,
      InsertionMap.keys_insert]
    -- the keys that were there are allowed, so only the new one can be unexpected
    have hnone : (InsertionMap.keys map).find? (fun key => !allowed.contains key) = none :=
      List.find?_eq_none.2 fun key hkey => by simpa using hall key hkey
    by_cases hfield : field ∈ InsertionMap.keys map
    · rw [if_pos hfield, hnone, if_pos (hall field hfield)]
    · rw [if_neg hfield, List.find?_append, hnone, Option.none_or, List.find?_singleton]
      by_cases hin : field ∈ allowed <;> simp [hin]

/-- The document `{"world": {"id": 1}, "kind": "cycle"}` without its world, and with a trace. -/
theorem changed_documents_world :
    let map : List (Str × Value Int) :=
      [("world".toList, .object [("id".toList, .number 1)]), ("kind".toList, .string "cycle".toList)]
    getPath (withoutTopLevelField (.object map) "world".toList) "world.id".toList = none ∧
    assertObjectKeysAllowed (withUnknownTopLevelField (.object map) "trace".toList) []
      ["kind".toList, "world".toList] = .error (.unexpectedKey [] "trace".toList) := by
  have hkeys : (InsertionMap.keys
      [("world".toList, Value.object [("id".toList, .number (1 : Int))]),
      ("kind".toList, .string "cycle".toList)]).Nodup := by
    decide
  refine ⟨?_, ?_⟩
  · exact (changed_documents _ hkeys "world".toList).1 "world.id".toList "world".toList ["id".toList] (by decide)
      (by decide)
  · exact (changed_documents _ hkeys "trace".toList).2.2 ["kind".toList, "world".toList] (by rfl)

end WorldInfra.Contract
