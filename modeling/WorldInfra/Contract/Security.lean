/-
contract-test-support: the security requirements of an OpenAPI operation. The list is alternatives, each
a set of schemes to be met together; a scheme is required if no credentials without it are admitted, and
not declared only if it never makes a difference.
-/
import WorldInfra.Contract.Paths
import WorldInfra.Rust.Token

namespace WorldInfra.Contract

open WorldInfra.Json WorldInfra.Lib WorldInfra.Rust

variable {Number : Type}

abbrev Requirement (Number : Type) : Type := List (Str × Value Number)

section

variable (debug : Str → Str) (text : Value Number → Str)

def validateScopes (scheme : Str) (scopes : Value Number) : Except PathError Unit := do
  let scopes ← okOrElse scopes.asArray
    (.jsonMismatch ("security requirement ".toList ++ debug scheme ++ " value array".toList) (text scopes))
  forM scopes fun scope =>
    if scope.asStr.isSome then .ok ()
    else .error (.jsonMismatch ("security requirement ".toList ++ debug scheme ++ " scope string".toList) (text scope))

def validateSecurityRequirement (requirement : Requirement Number) : Except PathError Unit :=
  forM requirement fun entry => validateScopes debug text entry.1 entry.2

def securityRequirements (operation : Value Number) (scheme : Str) : Except PathError (List (Requirement Number)) := do
  let security ← objectField operation "operation".toList "security".toList "security".toList
  let requirements ← okOrElse security.asArray
    (.jsonMismatch ("security array containing scheme ".toList ++ debug scheme) (text security))
  requirements.mapM fun requirement => do
    let requirement ← okOrElse requirement.asObject (.expectedObject "security[]".toList)
    validateSecurityRequirement debug text requirement
    return requirement

def assertSecuritySchemeRequired (operation : Value Number) (scheme : Str) : Except PathError Unit := do
  let requirements ← securityRequirements debug text operation scheme
  if requirements.isEmpty then .error (.missingPath ("security.".toList ++ scheme))
  else
    forM requirements fun requirement =>
      if (InsertionMap.keys requirement).contains scheme then .ok ()
      else .error (.missingPath ("security.".toList ++ scheme))

def assertSecuritySchemeDeclared (operation : Value Number) (scheme : Str) : Except PathError Unit := do
  let requirements ← securityRequirements debug text operation scheme
  if requirements.any fun requirement => (InsertionMap.keys requirement).contains scheme then .ok ()
  else .error (.missingPath ("security.".toList ++ scheme))

end

/-! ## What a list of requirements means -/

/-- Credentials for a set of schemes are admitted if they meet all schemes of one alternative. -/
def Admits (requirements : List (Requirement Number)) (schemes : Set Str) : Prop :=
  ∃ requirement ∈ requirements, ∀ scheme ∈ InsertionMap.keys requirement, scheme ∈ schemes

/-- Every scheme's scopes are a list of texts. -/
def ValidRequirement (requirement : Requirement Number) : Prop :=
  ∀ entry ∈ requirement, ∃ scopes, entry.2.asArray = some scopes ∧ ∀ scope ∈ scopes, ∃ s, scope.asStr = some s

variable {debug : Str → Str} {text : Value Number → Str}

theorem validateSecurityRequirement_eq_ok {requirement : Requirement Number} :
    validateSecurityRequirement debug text requirement = .ok () ↔ ValidRequirement requirement := by
  unfold validateSecurityRequirement ValidRequirement
  rw [Str.forM_eq_ok]
  refine forall₂_congr fun entry _ => ?_
  unfold validateScopes
  simp only [Str.bind_eq_ok, okOrElse_eq_ok, Str.forM_eq_ok]
  refine exists_congr fun scopes => and_congr_right fun _ => forall₂_congr fun scope _ => ?_
  rw [← Option.isSome_iff_exists]
  split <;> simp_all

/-- What an operation demands: its `security` field is the list of these requirements, each of them valid. -/
def Demands (operation : Value Number) (requirements : List (Requirement Number)) : Prop :=
  ∃ fields, operation = .object fields ∧
    fields.lookup "security".toList = some (.array (requirements.map .object)) ∧
    ∀ requirement ∈ requirements, ValidRequirement requirement

/-- The requirements of an operation: its `security` is a list of objects, each valid. -/
theorem securityRequirements_eq_ok {operation : Value Number} {scheme : Str}
    {requirements : List (Requirement Number)} :
    securityRequirements debug text operation scheme = .ok requirements ↔
      ∃ security items, objectField operation "operation".toList "security".toList "security".toList = .ok security ∧
        security.asArray = some items ∧
        List.Forall₂ (fun item requirement => item.asObject = some requirement ∧ ValidRequirement requirement)
          items requirements := by
  unfold securityRequirements
  simp only [Str.bind_eq_ok, okOrElse_eq_ok, Str.mapM_eq_ok]
  refine exists_congr fun security => ?_
  rw [← exists_and_left]
  refine exists_congr fun items => and_congr_right fun _ => and_congr_right fun _ => ?_
  refine ⟨fun h => h.imp fun item requirement => ?_, fun h => h.imp fun item requirement => ?_⟩
  · rintro ⟨r, hr, ⟨⟩, hvalid, h⟩
    cases h
    exact ⟨hr, validateSecurityRequirement_eq_ok.1 hvalid⟩
  · rintro ⟨hr, hvalid⟩
    exact ⟨requirement, hr, (), validateSecurityRequirement_eq_ok.2 hvalid, rfl⟩

theorem forall₂_object {items : List (Value Number)} {requirements : List (Requirement Number)} :
    List.Forall₂ (fun item requirement => item.asObject = some requirement ∧ ValidRequirement requirement)
        items requirements ↔
      items = requirements.map .object ∧ ∀ requirement ∈ requirements, ValidRequirement requirement := by
  constructor
  · intro h
    induction h with
    | nil => exact ⟨rfl, nofun⟩
    | cons h _ ih =>
      obtain ⟨rfl, hvalid⟩ := ih
      rw [Value.asObject_eq_some.1 h.1]
      exact ⟨rfl, List.forall_mem_cons.2 ⟨h.2, hvalid⟩⟩
  · rintro ⟨rfl, hvalid⟩
    induction requirements with
    | nil => exact .nil
    | cons requirement requirements ih =>
      rw [List.forall_mem_cons] at hvalid
      exact .cons ⟨Value.asObject_eq_some.2 rfl, hvalid.1⟩ (ih hvalid.2)

/-- What is read of an operation is what it demands, and nothing is read if it demands nothing valid. -/
theorem securityRequirements_eq_ok_iff {operation : Value Number} {scheme : Str}
    {requirements : List (Requirement Number)} :
    securityRequirements debug text operation scheme = .ok requirements ↔ Demands operation requirements := by
  rw [securityRequirements_eq_ok]
  unfold objectField Demands
  simp only [forall₂_object]
  simp only [Str.bind_eq_ok, okOrElse_eq_ok, Value.asObject_eq_some, Value.asArray_eq_some]
  constructor
  · rintro ⟨_, items, ⟨fields, rfl, hsecurity⟩, rfl, rfl, hvalid⟩
    exact ⟨fields, rfl, hsecurity, hvalid⟩
  · rintro ⟨fields, rfl, hsecurity, hvalid⟩
    exact ⟨_, _, ⟨fields, rfl, hsecurity⟩, rfl, rfl, hvalid⟩

theorem assertSecuritySchemeRequired_eq_ok {operation : Value Number} {scheme : Str} :
    assertSecuritySchemeRequired debug text operation scheme = .ok () ↔
      ∃ requirements, securityRequirements debug text operation scheme = .ok requirements ∧ requirements ≠ [] ∧
        ∀ requirement ∈ requirements, scheme ∈ InsertionMap.keys requirement := by
  unfold assertSecuritySchemeRequired
  rw [Str.bind_eq_ok]
  refine exists_congr fun requirements => and_congr_right fun _ => ?_
  cases requirements with
  | nil => simp
  | cons requirement requirements =>
    rw [List.isEmpty_cons, if_neg Bool.false_ne_true, Str.forM_eq_ok]
    constructor
    · refine fun h => ⟨List.cons_ne_nil _ _, fun r hr => ?_⟩
      have hr := h r hr
      split at hr
      · next hin => exact List.contains_iff_mem.1 hin
      · cases hr
    · rintro ⟨-, h⟩ r hr
      rw [if_pos (List.contains_iff_mem.2 (h r hr))]

theorem assertSecuritySchemeDeclared_eq_ok {operation : Value Number} {scheme : Str} :
    assertSecuritySchemeDeclared debug text operation scheme = .ok () ↔
      ∃ requirements, securityRequirements debug text operation scheme = .ok requirements ∧
        ∃ requirement ∈ requirements, scheme ∈ InsertionMap.keys requirement := by
  unfold assertSecuritySchemeDeclared
  rw [Str.bind_eq_ok]
  refine exists_congr fun requirements => and_congr_right fun _ => ?_
  split
  · next h => simpa using h
  · next h => simpa using h

/-- A scheme is in every alternative if and only if nothing without it is admitted. -/
theorem all_iff_admits {requirements : List (Requirement Number)} {scheme : Str} :
    (∀ requirement ∈ requirements, scheme ∈ InsertionMap.keys requirement) ↔
      ∀ schemes, Admits requirements schemes → scheme ∈ schemes := by
  constructor
  · rintro h schemes ⟨requirement, hmem, hall⟩
    exact hall scheme (h requirement hmem)
  · intro h requirement hmem
    exact h {s | s ∈ InsertionMap.keys requirement} ⟨requirement, hmem, fun _ hs => hs⟩

theorem ne_nil_iff_admits {requirements : List (Requirement Number)} :
    requirements ≠ [] ↔ ∃ schemes, Admits requirements schemes := by
  constructor
  · intro h
    obtain ⟨requirement, hmem⟩ := List.exists_mem_of_ne_nil _ h
    exact ⟨Set.univ, requirement, hmem, fun _ _ => trivial⟩
  · rintro ⟨_, requirement, hmem, -⟩
    exact List.ne_nil_of_mem hmem

/-- A scheme in no alternative makes no difference to what is admitted. -/
theorem admits_without {requirements : List (Requirement Number)} {scheme : Str}
    (h : ∀ requirement ∈ requirements, scheme ∉ InsertionMap.keys requirement) (schemes : Set Str) :
    Admits requirements schemes ↔ Admits requirements (schemes \ {scheme}) := by
  refine exists_congr fun requirement => and_congr_right fun hmem => forall₂_congr fun s hs => ?_
  rw [Set.mem_sdiff, Set.mem_singleton_iff]
  refine ⟨fun hin => ⟨hin, ?_⟩, And.left⟩
  rintro rfl
  exact h requirement hmem hs

/-- For every operation and scheme: the scheme is found to be required exactly if the operation demands a
valid list that admits some credentials, and admits none without the scheme; it is found to be declared
exactly if one of the alternatives demanded names it; a required scheme is declared; and where it is not
declared, it never makes a difference to what the operation demands. -/
theorem security_verdicts (debug : Str → Str) (text : Value Number → Str) (operation : Value Number) (scheme : Str) :
    (assertSecuritySchemeRequired debug text operation scheme = .ok () ↔
      ∃ requirements, Demands operation requirements ∧
        (∃ schemes, Admits requirements schemes) ∧ ∀ schemes, Admits requirements schemes → scheme ∈ schemes) ∧
    (assertSecuritySchemeDeclared debug text operation scheme = .ok () ↔
      ∃ requirements, Demands operation requirements ∧
        ∃ requirement ∈ requirements, scheme ∈ InsertionMap.keys requirement) ∧
    (assertSecuritySchemeRequired debug text operation scheme = .ok () →
      assertSecuritySchemeDeclared debug text operation scheme = .ok ()) ∧
    ∀ requirements, Demands operation requirements →
      assertSecuritySchemeDeclared debug text operation scheme ≠ .ok () →
        ∀ schemes, Admits requirements schemes ↔ Admits requirements (schemes \ {scheme}) := by
  refine ⟨?_, ?_, fun h => ?_, fun requirements hreq h schemes => ?_⟩
  · rw [assertSecuritySchemeRequired_eq_ok]
    simp only [securityRequirements_eq_ok_iff, ne_nil_iff_admits, all_iff_admits]
  · rw [assertSecuritySchemeDeclared_eq_ok]
    simp only [securityRequirements_eq_ok_iff]
  · obtain ⟨requirements, hreq, hne, hall⟩ := assertSecuritySchemeRequired_eq_ok.1 h
    obtain ⟨requirement, hmem⟩ := List.exists_mem_of_ne_nil _ hne
    exact assertSecuritySchemeDeclared_eq_ok.2 ⟨requirements, hreq, requirement, hmem, hall requirement hmem⟩
  · refine admits_without (fun requirement hmem hin => h ?_) schemes
    rw [assertSecuritySchemeDeclared_eq_ok]
    exact ⟨requirements, securityRequirements_eq_ok_iff.2 hreq, requirement, hmem, hin⟩

/-! ## The order of keys shows in no verdict -/

theorem forall₂_asObject {items : List (Value Number)} {P : Requirement Number → Prop} :
    (∃ requirements, List.Forall₂
        (fun item requirement => item.asObject = some requirement ∧ ValidRequirement requirement) items requirements ∧
      ∀ requirement ∈ requirements, P requirement) ↔
    ∀ item ∈ items, ∃ requirement, item.asObject = some requirement ∧ ValidRequirement requirement ∧ P requirement := by
  induction items with
  | nil => simp
  | cons item items ih =>
    rw [List.forall_mem_cons, ← ih]
    constructor
    · rintro ⟨_, _ | ⟨⟨hobject, hvalid⟩, hrest⟩, hall⟩
      rw [List.forall_mem_cons] at hall
      exact ⟨⟨_, hobject, hvalid, hall.1⟩, _, hrest, hall.2⟩
    · rintro ⟨⟨requirement, hobject, hvalid, hP⟩, requirements, hrest, hall⟩
      exact ⟨requirement :: requirements, .cons ⟨hobject, hvalid⟩ hrest, List.forall_mem_cons.2 ⟨hP, hall⟩⟩

theorem assertSecuritySchemeRequired_iff {operation : Value Number} {scheme : Str} :
    assertSecuritySchemeRequired debug text operation scheme = .ok () ↔
      ∃ security items, objectField operation "operation".toList "security".toList "security".toList = .ok security ∧
        security.asArray = some items ∧ items ≠ [] ∧ ∀ item ∈ items, ∃ requirement, item.asObject = some requirement ∧
          ValidRequirement requirement ∧ scheme ∈ InsertionMap.keys requirement := by
  rw [assertSecuritySchemeRequired_eq_ok]
  simp only [securityRequirements_eq_ok, ← forall₂_asObject]
  constructor
  · rintro ⟨requirements, ⟨security, items, hsecurity, hitems, hall⟩, hne, hkeys⟩
    refine ⟨security, items, hsecurity, hitems, ?_, requirements, hall, hkeys⟩
    rintro rfl
    cases hall
    exact hne rfl
  · rintro ⟨security, items, hsecurity, hitems, hne, requirements, hall, hkeys⟩
    refine ⟨requirements, ⟨security, items, hsecurity, hitems, hall⟩, ?_, hkeys⟩
    rintro rfl
    cases hall
    exact hne rfl

theorem validRequirement_canonical {requirement : Requirement Number} (h : (InsertionMap.keys requirement).Nodup) :
    ValidRequirement (InsertionMap.sortKeys (Value.canonicalFields requirement)) ↔ ValidRequirement requirement := by
  have hmem : ∀ entry, entry ∈ InsertionMap.sortKeys (Value.canonicalFields requirement) ↔
      entry ∈ Value.canonicalFields requirement := fun entry => InsertionMap.mem_sortKeys (by simpa using h)
  unfold ValidRequirement
  simp only [hmem]
  simp only [Value.canonicalFields_eq, List.forall_mem_map, Value.asArray_canonicalValue, Option.map_eq_some_iff,
    exists_exists_and_eq_and, Value.asStr_canonicalValue]

theorem mem_keys_canonical {requirement : Requirement Number} (scheme : Str)
    (h : (InsertionMap.keys requirement).Nodup) :
    scheme ∈ InsertionMap.keys (InsertionMap.sortKeys (Value.canonicalFields requirement)) ↔
      scheme ∈ InsertionMap.keys requirement := by
  rw [Value.keys_sortKeys_canonicalFields h, List.mem_insertionSort]

/-- What is asked of each requirement holds of a canonical item if and only if it does of the item. -/
theorem requirement_canonical {item : Value Number} (h : item.UniqueKeys) {P : Requirement Number → Prop}
    (hP : ∀ requirement : Requirement Number, (InsertionMap.keys requirement).Nodup →
      (P (InsertionMap.sortKeys (Value.canonicalFields requirement)) ↔ P requirement)) :
    (∃ requirement, item.canonicalValue.asObject = some requirement ∧ ValidRequirement requirement ∧ P requirement) ↔
      ∃ requirement, item.asObject = some requirement ∧ ValidRequirement requirement ∧ P requirement := by
  rw [Value.asObject_canonicalValue]
  simp only [Option.map_eq_some_iff, exists_exists_and_eq_and]
  refine exists_congr fun requirement => and_congr_right fun hobject => ?_
  obtain ⟨hkeys, -⟩ := h.object hobject
  rw [validRequirement_canonical hkeys, hP requirement hkeys]

theorem objectField_canonical_iff {v : Value Number} (h : v.UniqueKeys) {path key missing : Str}
    {P : List (Value Number) → Prop} (hP : ∀ items : List (Value Number), (∀ item ∈ items, item.UniqueKeys) →
      (P (items.map Value.canonicalValue) ↔ P items)) :
    (∃ field items, objectField v.canonicalValue path key missing = .ok field ∧ field.asArray = some items ∧ P items) ↔
      ∃ field items, objectField v path key missing = .ok field ∧ field.asArray = some items ∧ P items := by
  rw [objectField_canonical h]
  cases hfield : objectField v path key missing with
  | error e => simp [Except.map]
  | ok field =>
    have hunique := objectField_unique h hfield
    simp only [Except.map, Except.ok.injEq, ↓existsAndEq, true_and, and_true, Value.asArray_canonicalValue,
      Option.map_eq_some_iff]
    exact exists_congr fun items => and_congr_right fun hitems => hP items (hunique.array hitems)

theorem assertSecuritySchemeRequired_canonical {v : Value Number} (h : v.UniqueKeys) (scheme : Str) :
    assertSecuritySchemeRequired debug text v.canonicalValue scheme = .ok () ↔
      assertSecuritySchemeRequired debug text v scheme = .ok () := by
  rw [assertSecuritySchemeRequired_iff, assertSecuritySchemeRequired_iff]
  refine objectField_canonical_iff h (P := fun items => items ≠ [] ∧ ∀ item ∈ items, ∃ requirement,
    item.asObject = some requirement ∧ ValidRequirement requirement ∧ scheme ∈ InsertionMap.keys requirement)
    fun items hitems => ?_
  rw [List.forall_mem_map]
  refine and_congr (not_congr List.map_eq_nil_iff) (forall₂_congr fun item hitem => ?_)
  exact requirement_canonical (hitems item hitem) fun _ => mem_keys_canonical scheme

theorem forall₂_exists {items : List (Value Number)} {P : Requirement Number → Prop} :
    (∃ requirements, List.Forall₂
        (fun item requirement => item.asObject = some requirement ∧ ValidRequirement requirement) items requirements ∧
      ∃ requirement ∈ requirements, P requirement) ↔
    (∀ item ∈ items, ∃ requirement, item.asObject = some requirement ∧ ValidRequirement requirement ∧ True) ∧
      ∃ item ∈ items, ∃ requirement, item.asObject = some requirement ∧ ValidRequirement requirement ∧
        P requirement := by
  simp only [forall₂_object]
  simp only [Value.asObject_eq_some]
  constructor
  · rintro ⟨requirements, ⟨rfl, hvalid⟩, requirement, hmem, hP⟩
    refine ⟨?_, _, List.mem_map_of_mem hmem, requirement, rfl, hvalid requirement hmem, hP⟩
    rw [List.forall_mem_map]
    exact fun r hr => ⟨r, rfl, hvalid r hr, trivial⟩
  · rintro ⟨hall, item, hitem, requirement, rfl, -, hP⟩
    have hread := forall₂_asObject.2 (show ∀ item ∈ items, ∃ requirement, item.asObject = some requirement ∧
      ValidRequirement requirement ∧ True by simpa only [Value.asObject_eq_some] using hall)
    obtain ⟨requirements, hread, -⟩ := hread
    obtain ⟨rfl, hvalid⟩ := forall₂_object.1 hread
    obtain ⟨r, hr, heq⟩ := List.mem_map.1 hitem
    cases heq
    exact ⟨requirements, ⟨rfl, hvalid⟩, requirement, hr, hP⟩

theorem assertSecuritySchemeDeclared_iff {operation : Value Number} {scheme : Str} :
    assertSecuritySchemeDeclared debug text operation scheme = .ok () ↔
      ∃ security items, objectField operation "operation".toList "security".toList "security".toList = .ok security ∧
        security.asArray = some items ∧
        (∀ item ∈ items, ∃ requirement, item.asObject = some requirement ∧ ValidRequirement requirement ∧ True) ∧
        ∃ item ∈ items, ∃ requirement, item.asObject = some requirement ∧ ValidRequirement requirement ∧
          scheme ∈ InsertionMap.keys requirement := by
  rw [assertSecuritySchemeDeclared_eq_ok]
  simp only [securityRequirements_eq_ok, ← forall₂_exists]
  constructor
  · rintro ⟨requirements, ⟨security, items, hsecurity, hitems, hall⟩, hdeclared⟩
    exact ⟨security, items, hsecurity, hitems, requirements, hall, hdeclared⟩
  · rintro ⟨security, items, hsecurity, hitems, requirements, hall, hdeclared⟩
    exact ⟨requirements, ⟨security, items, hsecurity, hitems, hall⟩, hdeclared⟩

theorem assertSecuritySchemeDeclared_canonical {v : Value Number} (h : v.UniqueKeys) (scheme : Str) :
    assertSecuritySchemeDeclared debug text v.canonicalValue scheme = .ok () ↔
      assertSecuritySchemeDeclared debug text v scheme = .ok () := by
  rw [assertSecuritySchemeDeclared_iff, assertSecuritySchemeDeclared_iff]
  refine objectField_canonical_iff h (P := fun items =>
    (∀ item ∈ items, ∃ requirement, item.asObject = some requirement ∧ ValidRequirement requirement ∧ True) ∧
    ∃ item ∈ items, ∃ requirement, item.asObject = some requirement ∧ ValidRequirement requirement ∧
      scheme ∈ InsertionMap.keys requirement) fun items hitems => ?_
  rw [List.forall_mem_map]
  simp only [List.mem_map, exists_exists_and_eq_and]
  refine and_congr (forall₂_congr fun item hitem => ?_) (exists_congr fun item => and_congr_right fun hitem => ?_)
  · exact requirement_canonical (hitems item hitem) fun _ _ => Iff.rfl
  · exact requirement_canonical (hitems item hitem) fun _ => mem_keys_canonical scheme

/-- Documents that are equal up to the order of object keys are told apart by no assertion on paths,
allowed keys, operations, response codes, descriptions and required or declared schemes; only which
unexpected key is reported first depends on the order. -/
theorem verdicts_of_same (debug : Str → Str) (text : Value Number → Str) (v w : KeyedDocument Number)
    (h : v.value.Same w.value) :
    (∀ path, assertRequiredPath v.value path = assertRequiredPath w.value path) ∧
    (∀ path, assertAbsentPath v.value path = assertAbsentPath w.value path) ∧
    (∀ path allowed, assertObjectKeysAllowed v.value path allowed = .ok () ↔
      assertObjectKeysAllowed w.value path allowed = .ok ()) ∧
    (∀ path method, (operationAt v.value path method).map Value.canonicalValue =
      (operationAt w.value path method).map Value.canonicalValue) ∧
    responseCodes v.value = responseCodes w.value ∧
    (∀ status, assertResponseCode v.value status = assertResponseCode w.value status) ∧
    (∀ part, assertDescriptionContains debug v.value part = assertDescriptionContains debug w.value part) ∧
    (∀ status part, assertResponseDescriptionContains debug v.value status part =
      assertResponseDescriptionContains debug w.value status part) ∧
    (∀ scheme, assertSecuritySchemeRequired debug text v.value scheme = .ok () ↔
      assertSecuritySchemeRequired debug text w.value scheme = .ok ()) ∧
    ∀ scheme, assertSecuritySchemeDeclared debug text v.value scheme = .ok () ↔
      assertSecuritySchemeDeclared debug text w.value scheme = .ok () := by
  have hcanonical := (Value.canonicalValue_eq_iff v.unique w.unique).2 h
  have hcodes : responseCodes v.value = responseCodes w.value := by
    rw [← responseCodes_canonical v.unique, ← responseCodes_canonical w.unique, hcanonical]
  refine ⟨fun path => ?_, fun path => ?_, fun path allowed => ?_, fun path method => ?_, hcodes, fun status => ?_,
    fun part => ?_, fun status part => ?_, fun scheme => ?_, fun scheme => ?_⟩
  · rw [← assertRequiredPath_canonical v.unique, ← assertRequiredPath_canonical w.unique, hcanonical]
  · rw [← assertAbsentPath_canonical v.unique, ← assertAbsentPath_canonical w.unique, hcanonical]
  · rw [← assertObjectKeysAllowed_canonical v.unique, ← assertObjectKeysAllowed_canonical w.unique, hcanonical]
  · rw [← operationAt_canonical v.unique, ← operationAt_canonical w.unique, hcanonical]
  · unfold assertResponseCode
    rw [hcodes]
  · rw [← assertDescriptionContains_canonical debug v.unique, ← assertDescriptionContains_canonical debug w.unique,
      hcanonical]
  · rw [← assertResponseDescriptionContains_canonical debug v.unique,
      ← assertResponseDescriptionContains_canonical debug w.unique, hcanonical]
  · rw [← assertSecuritySchemeRequired_canonical v.unique, ← assertSecuritySchemeRequired_canonical w.unique,
      hcanonical]
  · rw [← assertSecuritySchemeDeclared_canonical v.unique, ← assertSecuritySchemeDeclared_canonical w.unique,
      hcanonical]

/-- The operation `{"responses": {"200": {}}, "security": [{"bearerAuth": []}]}`. -/
def securedOperation : KeyedDocument Int where
  value := .object
    [("responses".toList, .object [("200".toList, .object [])]),
      ("security".toList, .array [.object [("bearerAuth".toList, .array [])]])]
  unique := by simp [Value.UniqueKeys, Value.UniqueFields, Value.UniqueItems, InsertionMap.keys]

theorem verdicts_of_same_secured :
    assertSecuritySchemeRequired id (fun _ => []) securedOperation.canonical.value "bearerAuth".toList = .ok () :=
  ((verdicts_of_same id (fun _ => []) securedOperation securedOperation.canonical
    (KeyedDocument.canonical_eq_iff.1 (KeyedDocument.canonical_idem securedOperation).symm)).2.2.2.2.2.2.2.2.1
      "bearerAuth".toList).1 rfl

end WorldInfra.Contract
