/-
world-event-core: event metadata and its builder. Metadata is built exactly if every text given is valid and
the time and the durability are set; each field is the last value given, whatever is set in between, and the
error is that of the first text that is not valid.
-/
import WorldInfra.IdempotencyCore.Key
import WorldInfra.Lib.Chain
import WorldInfra.Rust.Time
import WorldInfra.WorldIdentity.WorldRef

namespace WorldInfra.Event

open WorldInfra.Lib WorldInfra.Rust
open WorldInfra.IdempotencyCore (IdempotencyKey KeyError isSegmentChar isSegmentChar_plain)
open WorldInfra.WorldIdentity (WorldRef)

/-! ## Validated texts -/

inductive EventMetadataError where
  | empty (field : Str)
  | tooLong (field : Str) (len max : Nat)
  | invalidCharacter (field : Str) (ch : Char)
  | zeroSchemaVersion
  | missingRequired (field : Str)
  | invalidIdempotencyKey (error : KeyError)
  deriving DecidableEq, Repr

def isMetadataChar (allowColon : Bool) (ch : Char) : Bool :=
  ch.isAlphanum || ch == '-' || ch == '_' || ch == '.' || (allowColon && ch == ':')

def validatedMetadata (field value : Str) (max : Nat) (allowColon : Bool) : Except EventMetadataError Str :=
  value.validateToken (.invalidCharacter field) (.empty field) (fun len => .tooLong field len max) max
    (isMetadataChar allowColon)

theorem isMetadataChar_plain {allowColon : Bool} {ch : Char} (h : isMetadataChar allowColon ch = true) :
    isWhitespace ch = false ∧ isControl ch = false := by
  simp only [isMetadataChar, Bool.or_eq_true, Bool.and_eq_true, beq_iff_eq] at h
  rcases h with (((h | rfl) | rfl) | rfl) | ⟨-, rfl⟩
  · exact isSegmentChar_plain (by rw [isSegmentChar, h]; rfl)
  all_goals exact ⟨rfl, rfl⟩

/-- What `metadata_string_type!` declares: a validated text. -/
@[ext] structure MetadataString (field : Str) (max : Nat) (allowColon : Bool) where
  value : Str
  valid : Str.IsToken max (isMetadataChar allowColon) value

namespace MetadataString

variable {field : Str} {max : Nat} {allowColon : Bool}

def new (value : Str) : Except EventMetadataError (MetadataString field max allowColon) :=
  match h : validatedMetadata field value max allowColon with
  | .ok value => .ok ⟨value, (Str.validateToken_eq_ok.1 h).2.2⟩
  | .error e => .error e

theorem new_eq_ok {value : Str} {text : MetadataString field max allowColon} :
    new value = .ok text ↔ validatedMetadata field value max allowColon = .ok text.value := by
  unfold new
  split
  · rename_i v h
    have hvalue : validatedMetadata field value max allowColon = .ok text.value ↔ v = text.value := by simp [h]
    rw [hvalue, Except.ok.injEq, MetadataString.ext_iff]
  · rename_i e h
    rw [h]
    simp

theorem new_value (text : MetadataString field max allowColon) : new text.value = .ok text :=
  new_eq_ok.2 (Str.validateToken_self (fun _ => isMetadataChar_plain) text.valid)

end MetadataString

abbrev EventId : Type := MetadataString "event_id".toList 256 true

abbrev EventType : Type := MetadataString "event_type".toList 128 false

abbrev AggregateId : Type := MetadataString "aggregate_id".toList 256 true

abbrev EventSource : Type := MetadataString "source".toList 128 false

abbrev CorrelationId : Type := MetadataString "correlation_id".toList 256 true

@[ext] structure SchemaVersion where
  value : UInt32
  pos : value ≠ 0

def SchemaVersion.new (value : UInt32) : Except EventMetadataError SchemaVersion :=
  if h : value = 0 then .error .zeroSchemaVersion else .ok ⟨value, h⟩

theorem SchemaVersion.new_value (version : SchemaVersion) : new version.value = .ok version := dif_neg version.pos

inductive DurabilityBoundary where
  | ephemeralSignal
  | authoritativeStateCommitted
  | durableOutboxRecorded
  | publishAccepted
  | publishAttemptAmbiguous
  deriving DecidableEq, Repr

/-! ## The builder -/

section

variable {W I : Type}

@[ext] structure EventMetadata (W I : Type) where
  eventId : EventId
  eventType : EventType
  schemaVersion : SchemaVersion
  world : WorldRef W I
  aggregateId : Option AggregateId
  idempotencyKey : Option IdempotencyKey
  producedAt : SystemTime
  source : EventSource
  causationId : Option EventId
  correlationId : Option CorrelationId
  durability : DurabilityBoundary

structure EventMetadataBuilder (W I : Type) where
  eventId : EventId
  eventType : EventType
  schemaVersion : SchemaVersion
  world : WorldRef W I
  aggregateId : Option AggregateId
  idempotencyKey : Option IdempotencyKey
  producedAt : Option SystemTime
  source : EventSource
  causationId : Option EventId
  correlationId : Option CorrelationId
  durability : Option DurabilityBoundary

namespace EventMetadataBuilder

def new (world : WorldRef W I) (eventId eventType : Str) (schemaVersion : UInt32) (source : Str) :
    Except EventMetadataError (EventMetadataBuilder W I) := do
  let eventId ← MetadataString.new eventId
  let eventType ← MetadataString.new eventType
  let schemaVersion ← SchemaVersion.new schemaVersion
  let source ← MetadataString.new source
  .ok ⟨eventId, eventType, schemaVersion, world, none, none, none, source, none, none, none⟩

def aggregateIdValue (self : EventMetadataBuilder W I) (value : AggregateId) : EventMetadataBuilder W I :=
  { self with aggregateId := some value }

def setAggregateId (self : EventMetadataBuilder W I) (value : Str) :
    Except EventMetadataError (EventMetadataBuilder W I) := do
  let value ← MetadataString.new value
  .ok (self.aggregateIdValue value)

def idempotencyKeyValue (self : EventMetadataBuilder W I) (value : IdempotencyKey) : EventMetadataBuilder W I :=
  { self with idempotencyKey := some value }

/-- The key of an event, from a text. -/
def eventKey (value : Str) : Except EventMetadataError IdempotencyKey :=
  match IdempotencyKey.parseNewKey value with
  | .ok key => .ok key
  | .error error => .error (.invalidIdempotencyKey error)

def setIdempotencyKey (self : EventMetadataBuilder W I) (value : Str) :
    Except EventMetadataError (EventMetadataBuilder W I) := do
  let value ← eventKey value
  .ok (self.idempotencyKeyValue value)

def causationIdValue (self : EventMetadataBuilder W I) (value : EventId) : EventMetadataBuilder W I :=
  { self with causationId := some value }

def setCausationId (self : EventMetadataBuilder W I) (value : Str) :
    Except EventMetadataError (EventMetadataBuilder W I) := do
  let value ← MetadataString.new value
  .ok (self.causationIdValue value)

def correlationIdValue (self : EventMetadataBuilder W I) (value : CorrelationId) : EventMetadataBuilder W I :=
  { self with correlationId := some value }

def setCorrelationId (self : EventMetadataBuilder W I) (value : Str) :
    Except EventMetadataError (EventMetadataBuilder W I) := do
  let value ← MetadataString.new value
  .ok (self.correlationIdValue value)

/-- `produced_at`, and `produced_now` with the clock's reading. -/
def setProducedAt (self : EventMetadataBuilder W I) (value : SystemTime) : EventMetadataBuilder W I :=
  { self with producedAt := some value }

def setDurability (self : EventMetadataBuilder W I) (value : DurabilityBoundary) : EventMetadataBuilder W I :=
  { self with durability := some value }

def build (self : EventMetadataBuilder W I) : Except EventMetadataError (EventMetadata W I) :=
  match self.producedAt with
  | none => .error (.missingRequired "produced_at".toList)
  | some producedAt =>
    match self.durability with
    | none => .error (.missingRequired "durability".toList)
    | some durability =>
      .ok ⟨self.eventId, self.eventType, self.schemaVersion, self.world, self.aggregateId, self.idempotencyKey,
        producedAt, self.source, self.causationId, self.correlationId, durability⟩

end EventMetadataBuilder

/-- A call of the builder. -/
inductive BuilderCall where
  | aggregateId (value : Str)
  | aggregateIdValue (value : AggregateId)
  | idempotencyKey (value : Str)
  | idempotencyKeyValue (value : IdempotencyKey)
  | causationId (value : Str)
  | causationIdValue (value : EventId)
  | correlationId (value : Str)
  | correlationIdValue (value : CorrelationId)
  | producedAt (value : SystemTime)
  | durability (value : DurabilityBoundary)

namespace EventMetadataBuilder

def call (self : EventMetadataBuilder W I) : BuilderCall → Except EventMetadataError (EventMetadataBuilder W I)
  | .aggregateId value => self.setAggregateId value
  | .aggregateIdValue value => .ok (self.aggregateIdValue value)
  | .idempotencyKey value => self.setIdempotencyKey value
  | .idempotencyKeyValue value => .ok (self.idempotencyKeyValue value)
  | .causationId value => self.setCausationId value
  | .causationIdValue value => .ok (self.causationIdValue value)
  | .correlationId value => self.setCorrelationId value
  | .correlationIdValue value => .ok (self.correlationIdValue value)
  | .producedAt value => .ok (self.setProducedAt value)
  | .durability value => .ok (self.setDurability value)

end EventMetadataBuilder

/-- `EventMetadataBuilder::new`, calls with `?` between them, and `build`. -/
def buildMetadata (world : WorldRef W I) (eventId eventType : Str) (schemaVersion : UInt32) (source : Str)
    (calls : List BuilderCall) : Except EventMetadataError (EventMetadata W I) := do
  let builder ← EventMetadataBuilder.new world eventId eventType schemaVersion source
  let builder ← calls.foldlM EventMetadataBuilder.call builder
  builder.build

/-! ## Envelopes -/

structure EventEnvelope (W I P : Type) where
  metadata : EventMetadata W I
  payload : P

def EventMetadataBuilder.buildEnvelope {P : Type} (self : EventMetadataBuilder W I) (payload : P) :
    Except EventMetadataError (EventEnvelope W I P) := do
  let metadata ← self.build
  .ok ⟨metadata, payload⟩

/-! ## What a call writes -/

namespace BuilderCall

/-- The error of a call. -/
def failure : BuilderCall → Option EventMetadataError
  | aggregateId value => errorOf (MetadataString.new value : Except _ AggregateId)
  | idempotencyKey value => errorOf (EventMetadataBuilder.eventKey value)
  | causationId value => errorOf (MetadataString.new value : Except _ EventId)
  | correlationId value => errorOf (MetadataString.new value : Except _ CorrelationId)
  | _ => none
where
  errorOf {α : Type} : Except EventMetadataError α → Option EventMetadataError
    | .ok _ => none
    | .error e => some e

def writesAggregateId : BuilderCall → Option AggregateId
  | aggregateId value => (MetadataString.new value).toOption
  | aggregateIdValue value => some value
  | _ => none

def writesIdempotencyKey : BuilderCall → Option IdempotencyKey
  | idempotencyKey value => (EventMetadataBuilder.eventKey value).toOption
  | idempotencyKeyValue value => some value
  | _ => none

def writesCausationId : BuilderCall → Option EventId
  | causationId value => (MetadataString.new value).toOption
  | causationIdValue value => some value
  | _ => none

def writesCorrelationId : BuilderCall → Option CorrelationId
  | correlationId value => (MetadataString.new value).toOption
  | correlationIdValue value => some value
  | _ => none

def writesProducedAt : BuilderCall → Option SystemTime
  | producedAt value => some value
  | _ => none

def writesDurability : BuilderCall → Option DurabilityBoundary
  | durability value => some value
  | _ => none

end BuilderCall

namespace EventMetadataBuilder

theorem call_failsWith : FailsWith (call (W := W) (I := I)) BuilderCall.failure := by
  intro builder call
  cases call with
  | aggregateId value =>
    simp only [BuilderCall.failure, EventMetadataBuilder.call, setAggregateId]
    cases (MetadataString.new value : Except _ AggregateId) with
    | ok text => exact ⟨_, rfl⟩
    | error e => rfl
  | idempotencyKey value =>
    simp only [BuilderCall.failure, EventMetadataBuilder.call, setIdempotencyKey]
    cases eventKey value with
    | ok key => exact ⟨_, rfl⟩
    | error e => rfl
  | causationId value =>
    simp only [BuilderCall.failure, EventMetadataBuilder.call, setCausationId]
    cases (MetadataString.new value : Except _ EventId) with
    | ok text => exact ⟨_, rfl⟩
    | error e => rfl
  | correlationId value =>
    simp only [BuilderCall.failure, EventMetadataBuilder.call, setCorrelationId]
    cases (MetadataString.new value : Except _ CorrelationId) with
    | ok text => exact ⟨_, rfl⟩
    | error e => rfl
  | _ => exact ⟨_, rfl⟩

/-- What a call that succeeds has written. -/
structure Wrote (builder : EventMetadataBuilder W I) (call : BuilderCall) (builder' : EventMetadataBuilder W I) :
    Prop where
  aggregateId : builder'.aggregateId = call.writesAggregateId.or builder.aggregateId
  idempotencyKey : builder'.idempotencyKey = call.writesIdempotencyKey.or builder.idempotencyKey
  causationId : builder'.causationId = call.writesCausationId.or builder.causationId
  correlationId : builder'.correlationId = call.writesCorrelationId.or builder.correlationId
  producedAt : builder'.producedAt = call.writesProducedAt.or builder.producedAt
  durability : builder'.durability = call.writesDurability.or builder.durability
  required : (builder'.eventId, builder'.eventType, builder'.schemaVersion, builder'.world, builder'.source) =
    (builder.eventId, builder.eventType, builder.schemaVersion, builder.world, builder.source)

theorem call_wrote (builder : EventMetadataBuilder W I) (call : BuilderCall) (builder' : EventMetadataBuilder W I)
    (h : builder.call call = .ok builder') : Wrote builder call builder' := by
  cases call with
  | aggregateId value =>
    obtain ⟨text, htext, h⟩ := Str.bind_eq_ok.1 h
    cases h
    exact ⟨by rw [BuilderCall.writesAggregateId, htext]; rfl, rfl, rfl, rfl, rfl, rfl, rfl⟩
  | idempotencyKey value =>
    obtain ⟨key, hkey, h⟩ := Str.bind_eq_ok.1 h
    cases h
    exact ⟨rfl, by rw [BuilderCall.writesIdempotencyKey, hkey]; rfl, rfl, rfl, rfl, rfl, rfl⟩
  | causationId value =>
    obtain ⟨text, htext, h⟩ := Str.bind_eq_ok.1 h
    cases h
    exact ⟨rfl, rfl, by rw [BuilderCall.writesCausationId, htext]; rfl, rfl, rfl, rfl, rfl⟩
  | correlationId value =>
    obtain ⟨text, htext, h⟩ := Str.bind_eq_ok.1 h
    cases h
    exact ⟨rfl, rfl, rfl, by rw [BuilderCall.writesCorrelationId, htext]; rfl, rfl, rfl, rfl⟩
  | _ =>
    cases h
    exact ⟨rfl, rfl, rfl, rfl, rfl, rfl, rfl⟩

theorem new_eq_ok {world : WorldRef W I} {eventId eventType source : Str} {schemaVersion : UInt32}
    {builder : EventMetadataBuilder W I} : new world eventId eventType schemaVersion source = .ok builder ↔
      (MetadataString.new eventId = .ok builder.eventId ∧ MetadataString.new eventType = .ok builder.eventType ∧
        SchemaVersion.new schemaVersion = .ok builder.schemaVersion ∧
        MetadataString.new source = .ok builder.source ∧ builder.world = world) ∧
      builder.aggregateId = none ∧ builder.idempotencyKey = none ∧ builder.causationId = none ∧
        builder.correlationId = none ∧ builder.producedAt = none ∧ builder.durability = none := by
  simp only [new, Str.bind_eq_ok]
  constructor
  · rintro ⟨id, hid, type, htype, version, hversion, src, hsrc, h⟩
    cases h
    exact ⟨⟨hid, htype, hversion, hsrc, rfl⟩, rfl, rfl, rfl, rfl, rfl, rfl⟩
  · obtain ⟨id, type, version, world', agg, key, time, src, cause, corr, dur⟩ := builder
    rintro ⟨⟨hid, htype, hversion, hsrc, hworld⟩, hagg, hkey, hcause, hcorr, htime, hdur⟩
    simp only at hworld hagg hkey hcause hcorr htime hdur
    subst hworld hagg hkey hcause hcorr htime hdur
    exact ⟨id, hid, type, htype, version, hversion, src, hsrc, rfl⟩

theorem build_eq_ok {builder : EventMetadataBuilder W I} {m : EventMetadata W I} : builder.build = .ok m ↔
    (builder.eventId = m.eventId ∧ builder.eventType = m.eventType ∧ builder.schemaVersion = m.schemaVersion ∧
      builder.source = m.source ∧ builder.world = m.world) ∧
    builder.producedAt = some m.producedAt ∧ builder.durability = some m.durability ∧
      builder.aggregateId = m.aggregateId ∧ builder.idempotencyKey = m.idempotencyKey ∧
      builder.causationId = m.causationId ∧ builder.correlationId = m.correlationId := by
  obtain ⟨id, type, version, world, agg, key, time, src, cause, corr, dur⟩ := builder
  cases time with
  | none => simp [build]
  | some time =>
    cases dur with
    | none => simp [build]
    | some dur =>
      simp only [build, Except.ok.injEq, EventMetadata.ext_iff, Option.some.injEq]
      tauto

theorem build_eq_error {builder : EventMetadataBuilder W I} {e : EventMetadataError} : builder.build = .error e ↔
    (builder.producedAt = none ∧ e = .missingRequired "produced_at".toList) ∨
      (builder.producedAt ≠ none ∧ builder.durability = none ∧ e = .missingRequired "durability".toList) := by
  obtain ⟨id, type, version, world, agg, key, time, src, cause, corr, dur⟩ := builder
  cases time with
  | none => simp [build, eq_comm]
  | some time => cases dur <;> simp [build, eq_comm]

/-- What a chain of calls leaves in a builder. -/
theorem chain_wrote {builder builder' : EventMetadataBuilder W I} {calls : List BuilderCall}
    (h : calls.foldlM call builder = .ok builder') :
    builder'.aggregateId = (lastWritten BuilderCall.writesAggregateId calls).or builder.aggregateId ∧
    builder'.idempotencyKey = (lastWritten BuilderCall.writesIdempotencyKey calls).or builder.idempotencyKey ∧
    builder'.causationId = (lastWritten BuilderCall.writesCausationId calls).or builder.causationId ∧
    builder'.correlationId = (lastWritten BuilderCall.writesCorrelationId calls).or builder.correlationId ∧
    builder'.producedAt = (lastWritten BuilderCall.writesProducedAt calls).or builder.producedAt ∧
    builder'.durability = (lastWritten BuilderCall.writesDurability calls).or builder.durability ∧
    (builder'.eventId, builder'.eventType, builder'.schemaVersion, builder'.world, builder'.source) =
      (builder.eventId, builder.eventType, builder.schemaVersion, builder.world, builder.source) := by
  refine ⟨?_, ?_, ?_, ?_, ?_, ?_, ?_⟩
  · exact chain_lastWritten (fun s a s' hs => (call_wrote s a s' hs).aggregateId) h
  · exact chain_lastWritten (fun s a s' hs => (call_wrote s a s' hs).idempotencyKey) h
  · exact chain_lastWritten (fun s a s' hs => (call_wrote s a s' hs).causationId) h
  · exact chain_lastWritten (fun s a s' hs => (call_wrote s a s' hs).correlationId) h
  · exact chain_lastWritten (fun s a s' hs => (call_wrote s a s' hs).producedAt) h
  · exact chain_lastWritten (fun s a s' hs => (call_wrote s a s' hs).durability) h
  · exact chain_kept (fun b : EventMetadataBuilder W I => (b.eventId, b.eventType, b.schemaVersion, b.world, b.source))
      (fun s a s' hs => (call_wrote s a s' hs).required) h

/-- A new builder after a chain of calls. -/
theorem chain_new {world : WorldRef W I} {eventId eventType source : Str} {schemaVersion : UInt32}
    {builder builder' : EventMetadataBuilder W I} {calls : List BuilderCall}
    (hnew : new world eventId eventType schemaVersion source = .ok builder)
    (h : calls.foldlM call builder = .ok builder') :
    (MetadataString.new eventId = .ok builder'.eventId ∧ MetadataString.new eventType = .ok builder'.eventType ∧
      SchemaVersion.new schemaVersion = .ok builder'.schemaVersion ∧
      MetadataString.new source = .ok builder'.source ∧ builder'.world = world) ∧
    builder'.aggregateId = lastWritten BuilderCall.writesAggregateId calls ∧
    builder'.idempotencyKey = lastWritten BuilderCall.writesIdempotencyKey calls ∧
    builder'.causationId = lastWritten BuilderCall.writesCausationId calls ∧
    builder'.correlationId = lastWritten BuilderCall.writesCorrelationId calls ∧
    builder'.producedAt = lastWritten BuilderCall.writesProducedAt calls ∧
    builder'.durability = lastWritten BuilderCall.writesDurability calls := by
  obtain ⟨hrequired, hagg, hkey, hcause, hcorr, htime, hdur⟩ := new_eq_ok.1 hnew
  obtain ⟨hagg', hkey', hcause', hcorr', htime', hdur', hkept⟩ := chain_wrote h
  rw [hagg, Option.or_none] at hagg'
  rw [hkey, Option.or_none] at hkey'
  rw [hcause, Option.or_none] at hcause'
  rw [hcorr, Option.or_none] at hcorr'
  rw [htime, Option.or_none] at htime'
  rw [hdur, Option.or_none] at hdur'
  simp only [Prod.mk.injEq] at hkept
  obtain ⟨hid, htype, hversion, hworld, hsource⟩ := hkept
  rw [hid, htype, hversion, hworld, hsource]
  exact ⟨hrequired, hagg', hkey', hcause', hcorr', htime', hdur'⟩

end EventMetadataBuilder

/-! ## Metadata -/

open EventMetadataBuilder

section Building

variable (world : WorldRef W I) (eventId eventType : Str) (schemaVersion : UInt32) (source : Str)
  (calls : List BuilderCall)

/-- Every text given is valid, and the metadata has the last of the values given for each field. -/
structure Records (m : EventMetadata W I) : Prop where
  eventId : MetadataString.new eventId = .ok m.eventId
  eventType : MetadataString.new eventType = .ok m.eventType
  schemaVersion : SchemaVersion.new schemaVersion = .ok m.schemaVersion
  source : MetadataString.new source = .ok m.source
  world : m.world = world
  valid : ∀ call ∈ calls, call.failure = none
  producedAt : lastWritten BuilderCall.writesProducedAt calls = some m.producedAt
  durability : lastWritten BuilderCall.writesDurability calls = some m.durability
  aggregateId : lastWritten BuilderCall.writesAggregateId calls = m.aggregateId
  idempotencyKey : lastWritten BuilderCall.writesIdempotencyKey calls = m.idempotencyKey
  causationId : lastWritten BuilderCall.writesCausationId calls = m.causationId
  correlationId : lastWritten BuilderCall.writesCorrelationId calls = m.correlationId

/-- The first thing that is wrong: a required text, the text of a call, or a field that is never set. -/
inductive Refused : EventMetadataError → Prop where
  | required {e : EventMetadataError} (hnew : new world eventId eventType schemaVersion source = .error e) : Refused e
  | call {e : EventMetadataError} {builder : EventMetadataBuilder W I}
      (hnew : new world eventId eventType schemaVersion source = .ok builder) {before : List BuilderCall}
      {call : BuilderCall} {after : List BuilderCall} (hcalls : calls = before ++ call :: after)
      (hbefore : ∀ other ∈ before, other.failure = none) (hcall : call.failure = some e) : Refused e
  | producedAt {builder : EventMetadataBuilder W I}
      (hnew : new world eventId eventType schemaVersion source = .ok builder)
      (hcalls : ∀ call ∈ calls, call.failure = none) (hnone : lastWritten BuilderCall.writesProducedAt calls = none) :
      Refused (.missingRequired "produced_at".toList)
  | durability {builder : EventMetadataBuilder W I}
      (hnew : new world eventId eventType schemaVersion source = .ok builder)
      (hcalls : ∀ call ∈ calls, call.failure = none) (hsome : lastWritten BuilderCall.writesProducedAt calls ≠ none)
      (hnone : lastWritten BuilderCall.writesDurability calls = none) : Refused (.missingRequired "durability".toList)

variable {world eventId eventType schemaVersion source calls}

theorem buildMetadata_eq_ok {m : EventMetadata W I} :
    buildMetadata world eventId eventType schemaVersion source calls = .ok m ↔
      Records world eventId eventType schemaVersion source calls m := by
  simp only [buildMetadata, Str.bind_eq_ok]
  constructor
  · rintro ⟨builder, hnew, builder', hchain, hbuild⟩
    obtain ⟨hrequired, hagg, hkey, hcause, hcorr, htime, hdur⟩ := chain_new hnew hchain
    obtain ⟨⟨hid, htype, hversion, hsource, hworld⟩, htime', hdur', hagg', hkey', hcause', hcorr'⟩ :=
      build_eq_ok.1 hbuild
    rw [hid, htype, hversion, hsource, hworld] at hrequired
    obtain ⟨hid, htype, hversion, hsource, hworld⟩ := hrequired
    have hcalls : ∀ call ∈ calls, call.failure = none :=
      (call_failsWith (W := W) (I := I)).chain_ok_iff.1 ⟨builder', hchain⟩
    exact ⟨hid, htype, hversion, hsource, hworld, hcalls, htime.symm.trans htime', hdur.symm.trans hdur',
      hagg.symm.trans hagg', hkey.symm.trans hkey', hcause.symm.trans hcause', hcorr.symm.trans hcorr'⟩
  · intro h
    let builder : EventMetadataBuilder W I :=
      ⟨m.eventId, m.eventType, m.schemaVersion, m.world, none, none, none, m.source, none, none, none⟩
    have hnew : new world eventId eventType schemaVersion source = .ok builder :=
      new_eq_ok.2 ⟨⟨h.eventId, h.eventType, h.schemaVersion, h.source, h.world⟩, rfl, rfl, rfl, rfl, rfl, rfl⟩
    obtain ⟨builder', hchain⟩ : ∃ builder', calls.foldlM call builder = .ok builder' :=
      call_failsWith.chain_ok_iff.2 h.valid
    obtain ⟨-, hagg, hkey, hcause, hcorr, htime, hdur⟩ := chain_new hnew hchain
    obtain ⟨-, -, -, -, -, -, hkept⟩ := chain_wrote hchain
    simp only [Prod.mk.injEq] at hkept
    obtain ⟨hid, htype, hversion, hworld, hsource⟩ := hkept
    refine ⟨builder, hnew, builder', hchain, build_eq_ok.2 ⟨⟨hid, htype, hversion, hsource, hworld⟩, ?_⟩⟩
    rw [hagg, hkey, hcause, hcorr, htime, hdur]
    exact ⟨h.producedAt, h.durability, h.aggregateId, h.idempotencyKey, h.causationId, h.correlationId⟩

theorem buildMetadata_eq_error {e : EventMetadataError} :
    buildMetadata world eventId eventType schemaVersion source calls = .error e ↔
      Refused world eventId eventType schemaVersion source calls e := by
  unfold buildMetadata
  cases hnew : new world eventId eventType schemaVersion source with
  | error e' =>
    -- the required parts come first: no call is made
    constructor
    · rintro ⟨⟩
      exact .required hnew
    · intro h
      cases h with
      | required hnew' =>
        cases hnew.symm.trans hnew'
        rfl
      | call hnew' | producedAt hnew' | durability hnew' => cases hnew.symm.trans hnew'
  | ok builder =>
    show (calls.foldlM call builder >>= EventMetadataBuilder.build) = .error e ↔ _
    cases hchain : calls.foldlM call builder with
    | error e' =>
      -- then the calls: the first that fails ends the chain, whatever stands after it
      obtain ⟨before, failing, after, hcalls, hbefore, hfailing⟩ := call_failsWith.chain_error_iff.1 hchain
      have hmem : failing ∈ calls := hcalls ▸ List.mem_append_right _ (List.mem_cons_self ..)
      constructor
      · rintro ⟨⟩
        exact .call hnew hcalls hbefore hfailing
      · intro h
        cases h with
        | required hnew' => cases hnew.symm.trans hnew'
        | call _ hcalls' hbefore' hfailing' =>
          have hchain' := hchain.symm.trans (call_failsWith.chain_error_iff.2 ⟨_, _, _, hcalls', hbefore', hfailing'⟩)
          cases hchain'
          rfl
        | producedAt _ hnone | durability _ hnone =>
          rw [hnone failing hmem] at hfailing
          cases hfailing
    | ok builder' =>
      -- and last what no call has set
      have hnone : ∀ call ∈ calls, call.failure = none :=
        (call_failsWith (W := W) (I := I)).chain_ok_iff.1 ⟨builder', hchain⟩
      obtain ⟨-, -, -, -, -, htime, hdur⟩ := chain_new hnew hchain
      refine Iff.trans build_eq_error ?_
      rw [htime, hdur]
      constructor
      · rintro (⟨htime, rfl⟩ | ⟨htime, hdur, rfl⟩)
        · exact .producedAt hnew hnone htime
        · exact .durability hnew hnone htime hdur
      · intro h
        cases h with
        | required hnew' => cases hnew.symm.trans hnew'
        | call _ hcalls _ hfailing =>
          rw [hnone _ (hcalls ▸ List.mem_append_right _ (List.mem_cons_self ..))] at hfailing
          cases hfailing
        | producedAt _ _ htime => exact .inl ⟨htime, rfl⟩
        | durability _ _ htime hdur => exact .inr ⟨htime, hdur, rfl⟩

end Building

/-- The calls that give metadata its texts and values again. -/
def EventMetadata.calls (m : EventMetadata W I) : List BuilderCall :=
  (m.aggregateId.toList.map fun text => .aggregateId text.value) ++
    (m.idempotencyKey.toList.map fun key => .idempotencyKey key.value) ++
    (m.causationId.toList.map fun text => .causationId text.value) ++
    (m.correlationId.toList.map fun text => .correlationId text.value) ++
      [.producedAt m.producedAt, .durability m.durability]

theorem eventKey_value (key : IdempotencyKey) : eventKey key.value = .ok key := by
  rw [eventKey, IdempotencyCore.IdempotencyKey.parseNewKey_value]

theorem lastWritten_calls {β : Type} (write : BuilderCall → Option β) (m : EventMetadata W I) :
    lastWritten write m.calls = ((write (.durability m.durability)).or (write (.producedAt m.producedAt))).or
      ((m.correlationId.bind fun text => write (.correlationId text.value)).or
        ((m.causationId.bind fun text => write (.causationId text.value)).or
          ((m.idempotencyKey.bind fun key => write (.idempotencyKey key.value)).or
            (m.aggregateId.bind fun text => write (.aggregateId text.value))))) := by
  rw [EventMetadata.calls, lastWritten_append, lastWritten_append, lastWritten_append, lastWritten_append,
    lastWritten_toList, lastWritten_toList, lastWritten_toList, lastWritten_toList, lastWritten_cons,
    lastWritten_singleton]

theorem toOption_new_value {field : Str} {max : Nat} {allowColon : Bool} (text : MetadataString field max allowColon) :
    (MetadataString.new text.value : Except _ (MetadataString field max allowColon)).toOption = some text := by
  rw [text.new_value]
  rfl

theorem failure_of_mem_calls {m : EventMetadata W I} {call : BuilderCall} (h : call ∈ m.calls) :
    call.failure = none := by
  simp only [EventMetadata.calls, List.mem_append, List.mem_map, Option.mem_toList, List.mem_cons, List.not_mem_nil,
    or_false] at h
  rcases h with (((⟨text, -, rfl⟩ | ⟨key, -, rfl⟩) | ⟨text, -, rfl⟩) | ⟨text, -, rfl⟩) | rfl | rfl
  · rw [BuilderCall.failure, text.new_value, BuilderCall.failure.errorOf]
  · rw [BuilderCall.failure, eventKey_value, BuilderCall.failure.errorOf]
  · rw [BuilderCall.failure, text.new_value, BuilderCall.failure.errorOf]
  · rw [BuilderCall.failure, text.new_value, BuilderCall.failure.errorOf]
  · rfl
  · rfl

/-- Metadata is built from its own texts and values. -/
theorem buildMetadata_self (m : EventMetadata W I) :
    buildMetadata m.world m.eventId.value m.eventType.value m.schemaVersion.value m.source.value m.calls = .ok m := by
  have hkey (key : IdempotencyKey) : (eventKey key.value).toOption = some key := by
    rw [eventKey_value]
    rfl
  refine buildMetadata_eq_ok.2 ⟨m.eventId.new_value, m.eventType.new_value, m.schemaVersion.new_value,
    m.source.new_value, rfl, fun call => failure_of_mem_calls, ?_, ?_, ?_, ?_, ?_, ?_⟩
  all_goals
    simp only [lastWritten_calls, BuilderCall.writesAggregateId, BuilderCall.writesIdempotencyKey,
      BuilderCall.writesCausationId, BuilderCall.writesCorrelationId, BuilderCall.writesProducedAt,
      BuilderCall.writesDurability, toOption_new_value, hkey, Option.bind_fun_none, Option.bind_fun_some,
      Option.or_none,
      Option.none_or]

end

end WorldInfra.Event
