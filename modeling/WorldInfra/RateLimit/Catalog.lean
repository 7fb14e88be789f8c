/-
rate-limit-core: catalogs of limits, from pairs, from JSON overrides and merged. A catalog shows for a
label the limit it was last given under any label that trims to the same.
-/
import WorldInfra.RateLimit.LimitText
import WorldInfra.Rust.Token

namespace WorldInfra.RateLimit

open WorldInfra.Lib WorldInfra.Rust

namespace LimitCatalog

/-- The loop of `from_pairs` over the pairs still to come. -/
def insertPairs (catalog : LimitCatalog) : List (Str × LimitSpec) → Except RateLimitError LimitCatalog
  | [] => .ok catalog
  | (label, spec) :: pairs => do
    let r ← catalog.insert label spec
    insertPairs r.2 pairs

def fromPairs (pairs : List (Str × LimitSpec)) : Except RateLimitError LimitCatalog := insertPairs .new pairs

def merge (self other : LimitCatalog) : LimitCatalog :=
  ⟨other.limits.entries.foldl (fun limits entry => limits.insert entry.1 entry.2) self.limits⟩

/-- What the pairs say of a label: the limit of the last whose label trims to it. -/
def lastLimit : List (Str × LimitSpec) → Str → Option LimitSpec
  | [], _ => none
  | (label, spec) :: pairs, key => (lastLimit pairs key).or (if label.trim = key then some spec else none)

/-! ## Insertion -/

theorem insert_eq_ok {catalog catalog' : LimitCatalog} {label : Str} {spec : LimitSpec} {old : Option LimitSpec} :
    catalog.insert label spec = .ok (old, catalog') ↔ ∃ key, validateKeyPart label = .ok key ∧
      old = catalog.limits.get key ∧ catalog'.limits = catalog.limits.insert key spec := by
  unfold LimitCatalog.insert
  rw [Str.bind_eq_ok]
  refine exists_congr fun key => and_congr_right fun _ => ?_
  rw [Except.ok.injEq, Prod.mk.injEq]
  constructor
  · rintro ⟨rfl, rfl⟩
    exact ⟨rfl, rfl⟩
  · rintro ⟨rfl, h⟩
    obtain ⟨limits⟩ := catalog'
    exact ⟨rfl, by rw [← h]⟩

theorem validateKeyPart_trim {label key : Str} (h : validateKeyPart label = .ok key) : key = label.trim :=
  (Str.validateTrimmed_cases h).2.1

theorem insertPairs_get : ∀ {pairs : List (Str × LimitSpec)} {catalog catalog' : LimitCatalog},
    insertPairs catalog pairs = .ok catalog' →
      ∀ key, catalog'.limits.get key = (lastLimit pairs key).or (catalog.limits.get key)
  | [], catalog, catalog', h, key => by
    cases h
    rfl
  | (label, spec) :: pairs, catalog, catalog', h, key => by
    rw [insertPairs, Str.bind_eq_ok] at h
    obtain ⟨⟨old, next⟩, hinsert, hrest⟩ := h
    obtain ⟨k, hk, -, hnext⟩ := insert_eq_ok.1 hinsert
    rw [insertPairs_get hrest key, hnext, Table.get_insert, lastLimit, Option.or_assoc, validateKeyPart_trim hk]
    congr 1
    by_cases hkey : key = label.trim
    · rw [if_pos hkey, if_pos hkey.symm, Option.some_or]
    · rw [if_neg hkey, if_neg fun heq => hkey heq.symm, Option.none_or]

theorem insertPairs_isOk : ∀ {pairs : List (Str × LimitSpec)} {catalog : LimitCatalog},
    (∃ catalog', insertPairs catalog pairs = .ok catalog') ↔ ∀ pair ∈ pairs, ∃ key, validateKeyPart pair.1 = .ok key
  | [], catalog => by simp [insertPairs]
  | (label, spec) :: pairs, catalog => by
    rw [List.forall_mem_cons]
    constructor
    · rintro ⟨catalog', h⟩
      rw [insertPairs, Str.bind_eq_ok] at h
      obtain ⟨⟨old, next⟩, hinsert, hrest⟩ := h
      obtain ⟨key, hkey, -⟩ := insert_eq_ok.1 hinsert
      exact ⟨⟨key, hkey⟩, insertPairs_isOk.1 ⟨catalog', hrest⟩⟩
    · rintro ⟨⟨key, hkey⟩, hall⟩
      have hinsert : catalog.insert label spec = .ok (catalog.limits.get key, ⟨catalog.limits.insert key spec⟩) :=
        insert_eq_ok.2 ⟨key, hkey, rfl, rfl⟩
      obtain ⟨catalog', h⟩ : ∃ catalog', insertPairs ⟨catalog.limits.insert key spec⟩ pairs = .ok catalog' :=
        insertPairs_isOk.2 hall
      exact ⟨catalog', by rw [insertPairs, Str.bind_eq_ok]; exact ⟨_, hinsert, h⟩⟩

theorem get_of_valid {label key : Str} (h : validateKeyPart label = .ok key) (catalog : LimitCatalog) :
    catalog.get label = catalog.limits.get key := by
  rw [LimitCatalog.get, h]

theorem get_of_invalid {label : Str} {e : RateLimitError} (h : validateKeyPart label = .error e)
    (catalog : LimitCatalog) :
    catalog.get label = none := by
  rw [LimitCatalog.get, h]

/-! ## Merging -/

theorem get_foldl_insert : ∀ (entries : List ((_ : Str) × LimitSpec)) (limits : Table Str LimitSpec) (key : Str),
    entries.NodupKeys → (entries.foldl (fun limits entry => limits.insert entry.1 entry.2) limits).get key =
      (entries.dlookup key).or (limits.get key)
  | [], limits, key, _ => by simp
  | ⟨k, spec⟩ :: entries, limits, key, h => by
    rw [List.nodupKeys_cons] at h
    rw [List.foldl_cons, get_foldl_insert entries _ key h.2, Table.get_insert]
    by_cases hkey : key = k
    · subst hkey
      rw [List.dlookup_cons_eq, List.dlookup_eq_none.2 h.1, if_pos rfl, Option.none_or, Option.some_or]
    · rw [List.dlookup_cons_ne _ _ hkey, if_neg hkey]

theorem get_merge (self other : LimitCatalog) (key : Str) :
    (self.merge other).limits.get key = (other.limits.get key).or (self.limits.get key) :=
  get_foldl_insert _ _ key other.limits.nodupKeys

/-! ## JSON overrides -/

section

variable {Number : Type} {asU64 : Number → Option UInt64}

/-- The fields of an object as pairs of labels and limits. -/
def Reads (asU64 : Number → Option UInt64) (fields : List (Str × Json.Value Number)) (pairs : List (Str × LimitSpec)) :
    Prop :=
  List.Forall₂ (fun field pair => pair.1 = field.1 ∧ limitSpecFromJsonValue asU64 field.1 field.2 = .ok pair.2)
    fields pairs

theorem insertLimits_eq_ok : ∀ {fields : List (Str × Json.Value Number)} {catalog catalog' : LimitCatalog},
    insertLimits asU64 catalog fields = .ok catalog' ↔ ∃ pairs, Reads asU64 fields pairs ∧
      insertPairs catalog pairs = .ok catalog'
  | [], catalog, catalog' => by
    constructor
    · rintro ⟨⟩
      exact ⟨[], .nil, rfl⟩
    · rintro ⟨_, ⟨⟩, ⟨⟩⟩
      rfl
  | (label, value) :: fields, catalog, catalog' => by
    rw [insertLimits, Str.bind_eq_ok]
    constructor
    · rintro ⟨spec, hspec, h⟩
      cases hinsert : catalog.insert label spec with
      | error e => simp [hinsert] at h
      | ok r =>
        rw [hinsert] at h
        obtain ⟨pairs, hreads, hpairs⟩ := insertLimits_eq_ok.1 h
        exact ⟨(label, spec) :: pairs, .cons ⟨rfl, hspec⟩ hreads,
          by rw [insertPairs, Str.bind_eq_ok]; exact ⟨r, hinsert, hpairs⟩⟩
    · rintro ⟨_, _ | @⟨_, pair, _, pairs, ⟨hlabel, hspec⟩, hreads⟩, h⟩
      obtain ⟨label', spec⟩ := pair
      obtain rfl : label' = label := hlabel
      rw [insertPairs, Str.bind_eq_ok] at h
      obtain ⟨r, hinsert, hpairs⟩ := h
      exact ⟨spec, hspec, by rw [hinsert]; exact insertLimits_eq_ok.2 ⟨pairs, hreads, hpairs⟩⟩

theorem parseLimitOverridesJson_eq_ok {fromStr : Str → Except Str (Json.Document Number)} {raw : Str}
    {catalog : LimitCatalog} :
    parseLimitOverridesJson fromStr asU64 raw = .ok catalog ↔ ∃ document fields pairs, fromStr raw = .ok document ∧
      document.value = .object fields ∧ Reads asU64 fields pairs ∧ fromPairs pairs = .ok catalog := by
  unfold parseLimitOverridesJson fromPairs
  cases hdocument : fromStr raw with
  | error e => simp
  | ok document =>
    simp only [Except.ok.injEq, ↓existsAndEq, true_and]
    cases document.value with
    | object fields =>
      simp only [insertLimits_eq_ok, Json.Value.object.injEq]
      simp
    | _ => simp

end

end LimitCatalog

end WorldInfra.RateLimit
