/-
idempotency-core: durable keys. A key is the text of its segments with colons between them; no segment has
a colon or is empty, so the text determines the segments, and reading it gives the key back.
-/
import WorldInfra.Rust.Pattern
import WorldInfra.Rust.Token

namespace WorldInfra.IdempotencyCore

open WorldInfra.Rust

def maxSegmentLen : Nat := 128

inductive KeyError where
  | emptySegment
  | segmentTooLong (len : Nat)
  | invalidCharacter (ch : Char)
  | emptyKey
  deriving DecidableEq, Repr

/-! ## Segments -/

def isSegmentChar (ch : Char) : Bool := ch.isAlphanum || ch == '-' || ch == '_' || ch == '.'

@[ext] structure KeySegment where
  value : Str
  valid : Str.IsToken maxSegmentLen isSegmentChar value

def KeySegment.validate : Str → Except KeyError Str :=
  Str.validateToken .invalidCharacter .emptySegment .segmentTooLong maxSegmentLen isSegmentChar

def KeySegment.new (value : Str) : Except KeyError KeySegment :=
  match h : KeySegment.validate value with
  | .ok value => .ok ⟨value, (Str.validateToken_eq_ok.1 h).2.2⟩
  | .error e => .error e

theorem isSegmentChar_plain {ch : Char} (h : isSegmentChar ch = true) :
    isWhitespace ch = false ∧ isControl ch = false := by
  simp only [isSegmentChar, Bool.or_eq_true, beq_iff_eq] at h
  rcases h with ((h | rfl) | rfl) | rfl
  · refine ⟨isWhitespace_of_isAlphanum h, ?_⟩
    rw [isAlphanum_iff] at h
    simp only [isControl, Bool.or_eq_false_iff, Bool.and_eq_false_iff, decide_eq_false_iff_not]
    omega
  · decide
  · decide
  · decide

namespace KeySegment

theorem new_eq_ok {value : Str} {segment : KeySegment} :
    new value = .ok segment ↔ validate value = .ok segment.value := by
  unfold new
  split
  · next v h =>
    have hvalue : validate value = .ok segment.value ↔ v = segment.value := by simp [h]
    rw [hvalue, Except.ok.injEq, KeySegment.ext_iff]
  · next e h =>
    rw [h]
    simp

/-- A segment is the trimmed text. -/
theorem value_of_new {value : Str} {segment : KeySegment} (h : new value = .ok segment) : segment.value = value.trim :=
  (Str.validateToken_eq_ok.1 (new_eq_ok.1 h)).2.1

theorem new_value (segment : KeySegment) : new segment.value = .ok segment :=
  new_eq_ok.2 (Str.validateToken_self (fun _ => isSegmentChar_plain) segment.valid)

theorem colon_not_mem (segment : KeySegment) : ':' ∉ segment.value := fun h =>
  absurd (segment.valid.allowed ':' h) (by decide)

end KeySegment

/-! ## Keys -/

/-- The segments with colons between them. -/
def joinSegments (segments : List KeySegment) : Str := [':'].intercalate (segments.map KeySegment.value)

/-- `IdempotencyKey`: the text of one segment or more. -/
@[ext] structure IdempotencyKey where
  value : Str
  built : ∃ segments, segments ≠ [] ∧ value = joinSegments segments

namespace IdempotencyKey

def fromSegments (segments : List KeySegment) : Except KeyError IdempotencyKey :=
  if h : segments = [] then .error .emptyKey else .ok ⟨joinSegments segments, segments, h, rfl⟩

def parseNewKey (value : Str) : Except KeyError IdempotencyKey := do
  let segments ← (value.split ':').mapM KeySegment.new
  fromSegments segments

theorem fromSegments_eq_ok {segments : List KeySegment} {key : IdempotencyKey} :
    fromSegments segments = .ok key ↔ segments ≠ [] ∧ key.value = joinSegments segments := by
  unfold fromSegments
  split
  · next h => simp [h]
  · next h =>
    rw [Except.ok.injEq, IdempotencyKey.ext_iff, eq_comm]
    exact (and_iff_right h).symm

/-! ### Splitting what was joined -/

theorem split_joinSegments {segments : List KeySegment} (h : segments ≠ []) :
    (joinSegments segments).split ':' = segments.map KeySegment.value := by
  apply List.splitOn_intercalate
  · intro value hvalue
    obtain ⟨segment, -, rfl⟩ := List.mem_map.1 hvalue
    exact segment.colon_not_mem
  · rwa [Ne, List.map_eq_nil_iff]

theorem values_injective : Function.Injective (List.map KeySegment.value) :=
  List.map_injective_iff.2 fun _ _ => KeySegment.ext

/-- Only the empty list is refused. -/
theorem eq_nil_of_fromSegments {segments : List KeySegment} {e : KeyError} (h : fromSegments segments = .error e) :
    segments = [] := by
  unfold fromSegments at h
  split at h
  · next hnil => exact hnil
  · cases h

theorem fromSegments_injective : Function.Injective fromSegments := by
  intro l m h
  cases hl : fromSegments l with
  | error e =>
    have hm : fromSegments m = .error e := h ▸ hl
    rw [eq_nil_of_fromSegments hl, eq_nil_of_fromSegments hm]
  | ok key =>
    have hm : fromSegments m = .ok key := h ▸ hl
    obtain ⟨hl, hkey⟩ := fromSegments_eq_ok.1 hl
    obtain ⟨hm, hkey'⟩ := fromSegments_eq_ok.1 hm
    apply values_injective
    rw [← split_joinSegments hl, ← split_joinSegments hm, ← hkey, ← hkey']

theorem parseNewKey_eq_ok {value : Str} {key : IdempotencyKey} : parseNewKey value = .ok key ↔
    ∃ segments, List.Forall₂ (fun part segment => KeySegment.new part = .ok segment) (value.split ':') segments ∧
      fromSegments segments = .ok key := by
  unfold parseNewKey
  rw [Str.bind_eq_ok]
  simp only [Str.mapM_eq_ok]

/-- Reading the text of a key gives the key. -/
theorem parseNewKey_value (key : IdempotencyKey) : parseNewKey key.value = .ok key := by
  obtain ⟨segments, hne, hvalue⟩ := key.built
  refine parseNewKey_eq_ok.2 ⟨segments, ?_, fromSegments_eq_ok.2 ⟨hne, hvalue⟩⟩
  rw [hvalue, split_joinSegments hne, List.forall₂_map_left_iff, List.forall₂_same]
  exact fun segment _ => segment.new_value

/-- The texts accepted are those whose parts all are. -/
theorem parseNewKey_isOk_iff (value : Str) : (∃ key, parseNewKey value = .ok key) ↔
    ∀ part ∈ value.split ':', ∃ segment, KeySegment.new part = .ok segment := by
  rw [← Str.mapM_isOk_iff]
  constructor
  · rintro ⟨key, h⟩
    obtain ⟨segments, hparts, -⟩ := Str.bind_eq_ok.1 h
    exact ⟨segments, hparts⟩
  · rintro ⟨segments, hparts⟩
    have hne : segments ≠ [] := by
      rintro rfl
      exact List.splitOn_ne_nil _ _ (List.forall₂_nil_right_iff.1 (Str.mapM_eq_ok.1 hparts))
    exact ⟨⟨_, segments, hne, rfl⟩, Str.bind_eq_ok.2 ⟨segments, hparts, fromSegments_eq_ok.2 ⟨hne, rfl⟩⟩⟩

/-- Lists of segments with one key, or none, are equal. The text of a key is read as that key. A text is
accepted if every part between colons is a segment, and the key is that of the trimmed parts, whose text
is read as itself. -/
theorem key_roundTrip :
    (∀ l m, fromSegments l = fromSegments m → l = m) ∧
    (∀ segments, segments ≠ [] → ∃ key, fromSegments segments = .ok key ∧ parseNewKey key.value = .ok key) ∧
    (∀ key : IdempotencyKey, parseNewKey key.value = .ok key) ∧
    (∀ value key, parseNewKey value = .ok key → parseNewKey key.value = .ok key ∧
      ∃ segments, segments.map KeySegment.value = (value.split ':').map Str.trim ∧ fromSegments segments = .ok key) ∧
    ∀ value, (∃ key, parseNewKey value = .ok key) ↔
      ∀ part ∈ value.split ':', ∃ segment, KeySegment.new part = .ok segment := by
  refine ⟨fun _ _ h => fromSegments_injective h, ?_, parseNewKey_value, ?_, parseNewKey_isOk_iff⟩
  · intro segments hne
    exact ⟨⟨joinSegments segments, segments, hne, rfl⟩, fromSegments_eq_ok.2 ⟨hne, rfl⟩, parseNewKey_value _⟩
  · intro value key h
    obtain ⟨segments, hparts, hkey⟩ := parseNewKey_eq_ok.1 h
    refine ⟨parseNewKey_value key, segments, ?_, hkey⟩
    rw [← List.forall₂_eq_eq_eq, List.forall₂_map_left_iff, List.forall₂_map_right_iff]
    exact (hparts.imp fun part segment hsegment => KeySegment.value_of_new hsegment).flip

/-- A key of two parts, the second of them padded. -/
theorem key_roundTrip_padded : ∃ key, parseNewKey "world: 7".toList = .ok key ∧
    (parseNewKey key.value = .ok key ∧ ∃ segments, segments.map KeySegment.value = ["world".toList, "7".toList] ∧
      fromSegments segments = .ok key) := by
  obtain ⟨-, -, -, hread, -⟩ := key_roundTrip
  have hsegments : ∃ key, parseNewKey "world: 7".toList = .ok key := ⟨_, rfl⟩
  obtain ⟨key, hkey⟩ := hsegments
  exact ⟨key, hkey, hread _ key hkey⟩

end IdempotencyKey

/-! ## Builders -/

/-- `WorldRef`: a world, and its incarnation or the marker that there is none. -/
structure WorldRef (W I : Type) where
  worldId : W
  incarnation : I

structure NoIncarnation where

structure IncarnationId (I : Type) where
  value : I

structure KeyBuilder where
  segments : List KeySegment

namespace KeyBuilder

def new : KeyBuilder := ⟨[]⟩

def push (self : KeyBuilder) (segment : Str) : Except KeyError KeyBuilder := do
  let segment ← KeySegment.new segment
  .ok ⟨self.segments ++ [segment]⟩

section

variable {W I : Type} (displayWorld : W → Str) (displayIncarnation : I → Str)

def world (self : KeyBuilder) (world : WorldRef W NoIncarnation) : Except KeyError KeyBuilder := do
  let self ← self.push "world".toList
  self.push (displayWorld world.worldId)

def incarnatedWorld (self : KeyBuilder) (world : WorldRef W (IncarnationId I)) : Except KeyError KeyBuilder := do
  let self ← self.push "world".toList
  let self ← self.push (displayWorld world.worldId)
  let self ← self.push "incarnation".toList
  self.push (displayIncarnation world.incarnation.value)

end

def build (self : KeyBuilder) : Except KeyError IdempotencyKey := IdempotencyKey.fromSegments self.segments

variable {W I : Type} {displayWorld : W → Str} {displayIncarnation : I → Str} {self b : KeyBuilder}

theorem values_push {segment : Str} (h : self.push segment = .ok b) :
    b.segments.map KeySegment.value = self.segments.map KeySegment.value ++ [segment.trim] := by
  obtain ⟨segment', hnew, h⟩ := Str.bind_eq_ok.1 h
  obtain rfl := Except.ok.inj h
  rw [List.map_append, List.map_singleton, KeySegment.value_of_new hnew]

theorem values_world {world : WorldRef W NoIncarnation} (h : self.world displayWorld world = .ok b) :
    b.segments.map KeySegment.value =
      self.segments.map KeySegment.value ++ ["world".toList, (displayWorld world.worldId).trim] := by
  obtain ⟨b₁, h₁, h⟩ := Str.bind_eq_ok.1 h
  rw [values_push h, values_push h₁, List.append_assoc]
  rfl

theorem values_incarnatedWorld {world : WorldRef W (IncarnationId I)}
    (h : self.incarnatedWorld displayWorld displayIncarnation world = .ok b) :
    b.segments.map KeySegment.value = self.segments.map KeySegment.value ++ ["world".toList,
      (displayWorld world.worldId).trim, "incarnation".toList, (displayIncarnation world.incarnation.value).trim] := by
  obtain ⟨b₁, h₁, h⟩ := Str.bind_eq_ok.1 h
  obtain ⟨b₂, h₂, h⟩ := Str.bind_eq_ok.1 h
  obtain ⟨b₃, h₃, h⟩ := Str.bind_eq_ok.1 h
  rw [values_push h, values_push h₃, values_push h₂, values_push h₁]
  simp only [List.append_assoc]
  rfl

theorem eq_of_build {key : IdempotencyKey} (h : self.build = .ok key) (h' : b.build = .ok key) : self = b := by
  have hsegments : self.segments = b.segments := IdempotencyKey.fromSegments_injective (h.trans h'.symm)
  cases self
  cases b
  exact congrArg KeyBuilder.mk hsegments

/-- Keys that are built for different worlds, or for different incarnations of one, differ. -/
theorem worlds_of_key {key : IdempotencyKey} {b' : KeyBuilder} (hb : b.build = .ok key) (hb' : b'.build = .ok key) :
    (∀ w w' : WorldRef W NoIncarnation, self.world displayWorld w = .ok b → self.world displayWorld w' = .ok b' →
      (displayWorld w.worldId).trim = (displayWorld w'.worldId).trim) ∧
    ∀ w w' : WorldRef W (IncarnationId I), self.incarnatedWorld displayWorld displayIncarnation w = .ok b →
      self.incarnatedWorld displayWorld displayIncarnation w' = .ok b' →
        (displayWorld w.worldId).trim = (displayWorld w'.worldId).trim ∧
          (displayIncarnation w.incarnation.value).trim = (displayIncarnation w'.incarnation.value).trim := by
  obtain rfl := eq_of_build hb hb'
  constructor
  · intro w w' h h'
    have hvalues := List.append_cancel_left ((values_world h).symm.trans (values_world h'))
    simpa using hvalues
  · intro w w' h h'
    have hvalues := List.append_cancel_left ((values_incarnatedWorld h).symm.trans (values_incarnatedWorld h'))
    simpa using hvalues

end KeyBuilder

end WorldInfra.IdempotencyCore
