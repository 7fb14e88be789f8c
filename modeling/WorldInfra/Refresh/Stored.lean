/-
auth-refresh-core: what loading a stored hash yields, for every hash of bytes. Either it is
reported as an invalid stored session, or it spells a session and `RefreshSession::new` decides;
the identifiers it refuses are the payloads that are not classified as discardable.
-/
import WorldInfra.Refresh.RedisStore

namespace WorldInfra.Refresh

open WorldInfra.Lib WorldInfra.Rust WorldInfra.Redis

/-! ## Decoding -/

theorem decodeFields_error : ∀ {l : List ((_ : Bytes) × Bytes)} {decoded : Table Str Str} {e : RefreshStoreError},
    decodeFields decoded l = .error e → (∃ m, e = .invalidStoredSession m) ∧
      ∃ f ∈ l, ¬ ((Utf8.decode f.1).isSome ∧ (Utf8.decode f.2).isSome)
  | [], _, _, h => by cases h
  | ⟨field, value⟩ :: l, decoded, e, h => by
    have hbad {b : Bytes} {error : Utf8.Utf8Error} (hb : Utf8.fromUtf8 b = .error error) :
        ¬ (Utf8.decode b).isSome := by
      intro hs
      obtain ⟨s, hs⟩ := Option.isSome_iff_exists.1 hs
      rw [Utf8.fromUtf8_ok.2 (Utf8.decode_eq_some_iff.1 hs)] at hb
      cases hb
    unfold decodeFields at h
    split at h
    · rename_i error herr
      cases h
      exact ⟨⟨_, rfl⟩, _, List.mem_cons_self .., fun hs => hbad herr hs.1⟩
    · split at h
      · rename_i error herr
        cases h
        exact ⟨⟨_, rfl⟩, _, List.mem_cons_self .., fun hs => hbad herr hs.2⟩
      · obtain ⟨hm, f, hf, hno⟩ := decodeFields_error h
        exact ⟨hm, f, List.mem_cons_of_mem _ hf, hno⟩

theorem decodeFields_ok : ∀ {l : List ((_ : Bytes) × Bytes)} {decoded t : Table Str Str}, l.NodupKeys →
    decodeFields decoded l = .ok t → (∀ f ∈ l, (Utf8.decode f.1).isSome ∧ (Utf8.decode f.2).isSome) ∧
      ∀ name, t.get name = match l.dlookup (Utf8.encode name) with
        | some value => Utf8.decode value
        | none => decoded.get name
  | [], _, _, _, h => by cases h; exact ⟨fun _ h => absurd h List.not_mem_nil, fun _ => rfl⟩
  | ⟨field, value⟩ :: l, decoded, t, hnd, h => by
    rw [List.nodupKeys_cons] at hnd
    unfold decodeFields at h
    split at h
    · cases h
    · rename_i name hname
      split at h
      · cases h
      · rename_i text htext
        obtain rfl := Utf8.fromUtf8_ok.1 hname
        obtain rfl := Utf8.fromUtf8_ok.1 htext
        obtain ⟨hall, hget⟩ := decodeFields_ok hnd.2 h
        refine ⟨?_, fun name' => ?_⟩
        · rintro f (_ | ⟨_, hf⟩)
          · simp
          · exact hall f hf
        · rw [hget name']
          by_cases hn : name' = name
          · -- the keys are distinct, so no later field replaces this one
            subst hn
            rw [List.dlookup_cons_eq, List.dlookup_eq_none.2 hnd.1]
            exact (Table.get_insert_self ..).trans (Utf8.decode_encode text).symm
          · have hne : Utf8.encode name' ≠ Utf8.encode name := fun h => hn (Utf8.encode_injective h)
            rw [List.dlookup_cons_ne _ _ hne, Table.get_insert_ne _ _ hn]

/-! ## Parsing -/

section

variable (config : RefreshStoreConfig)

/-- Fields by name, as texts, spell a session under the configured names. -/
structure Spells (text : Str → Option Str) (s : RefreshSession) : Prop where
  subjectId : text config.subjectIdField.value = some s.subjectId
  sessionId : text config.sessionIdField.value = some s.sessionId
  issuedAt : ∃ v, text config.issuedAtUnixSecsField.value = some v ∧ parseI64 v = .ok s.issuedAtUnixSecs
  version : ∃ v, text config.sessionVersionField.value = some v ∧ parseU64 v = .ok s.sessionVersion

/-- The fields spell at most one session. -/
theorem spells_unique {text : Str → Option Str} {s s' : RefreshSession} (h : Spells config text s)
    (h' : Spells config text s') : s = s' := by
  obtain ⟨v, hv, hissued⟩ := h.issuedAt
  obtain ⟨v', hv', hissued'⟩ := h'.issuedAt
  obtain ⟨w, hw, hversion⟩ := h.version
  obtain ⟨w', hw', hversion'⟩ := h'.version
  have hsubject := h.subjectId.symm.trans h'.subjectId
  have hsession := h.sessionId.symm.trans h'.sessionId
  rw [hv, Option.some.injEq] at hv'
  rw [hw, Option.some.injEq] at hw'
  rw [hv', hissued', Except.ok.injEq] at hissued
  rw [hw', hversion', Except.ok.injEq] at hversion
  cases s
  cases s'
  simp_all

theorem requireField_cases (t : Table Str Str) (name : Str) :
    (∃ v, t.get name = some v ∧ requireField t name = .ok v) ∨
    (t.get name = none ∧ ∃ m, requireField t name = .error (.invalidStoredSession m)) := by
  unfold requireField
  rcases t.get name with _ | v
  · exact Or.inr ⟨rfl, _, rfl⟩
  · exact Or.inl ⟨v, rfl, rfl⟩

theorem parseNumber_cases {α : Type} (parse : Str → Except IntErrorKind α) (v : Str) :
    (∃ n, parse v = .ok n ∧ parseNumber parse v = .ok n) ∨
    ((∃ e, parse v = .error e) ∧ ∃ m, parseNumber parse v = .error (.invalidStoredSession m)) := by
  unfold parseNumber
  rcases parse v with e | n
  · exact Or.inr ⟨⟨e, rfl⟩, _, rfl⟩
  · exact Or.inl ⟨n, rfl, rfl⟩

/-- Parsing reports an invalid stored session, or the fields spell a session and
`RefreshSession::new` decides. -/
theorem parseSessionHash_cases (t : Table Str Str) :
    (∃ s, Spells config t.get s ∧ parseSessionHash t config =
      RefreshSession.new s.subjectId s.sessionId s.issuedAtUnixSecs s.sessionVersion) ∨
    ((∃ m, parseSessionHash t config = .error (.invalidStoredSession m)) ∧ ∀ s, ¬ Spells config t.get s) := by
  unfold parseSessionHash
  simp only [bind, Except.bind]
  -- a field that is missing, or a number that does not parse, ends the parse
  rcases requireField_cases t config.subjectIdField.value with ⟨subjectId, hsubject, he⟩ | ⟨hnone, m, he⟩ <;> rw [he]
  swap
  · exact Or.inr ⟨⟨m, rfl⟩, fun s hs => by rw [hs.subjectId] at hnone; cases hnone⟩
  rcases requireField_cases t config.sessionIdField.value with ⟨sessionId, hsession, he⟩ | ⟨hnone, m, he⟩ <;>
    simp only [he]
  swap
  · exact Or.inr ⟨⟨m, rfl⟩, fun s hs => by rw [hs.sessionId] at hnone; cases hnone⟩
  rcases requireField_cases t config.issuedAtUnixSecsField.value with ⟨issued, hissued, he⟩ | ⟨hnone, m, he⟩ <;>
    simp only [he]
  swap
  · exact Or.inr ⟨⟨m, rfl⟩, fun s hs => by obtain ⟨v, hv, -⟩ := hs.issuedAt; rw [hv] at hnone; cases hnone⟩
  rcases parseNumber_cases parseI64 issued with ⟨issuedAt, hparse, he⟩ | ⟨⟨e, hfail⟩, m, he⟩ <;> simp only [he]
  swap
  · refine Or.inr ⟨⟨m, rfl⟩, fun s hs => ?_⟩
    obtain ⟨v, hv, hok⟩ := hs.issuedAt
    rw [hissued, Option.some.injEq] at hv
    rw [← hv, hfail] at hok
    cases hok
  rcases requireField_cases t config.sessionVersionField.value with ⟨ver, hver, he⟩ | ⟨hnone, m, he⟩ <;>
    simp only [he]
  swap
  · exact Or.inr ⟨⟨m, rfl⟩, fun s hs => by obtain ⟨v, hv, -⟩ := hs.version; rw [hv] at hnone; cases hnone⟩
  rcases parseNumber_cases parseU64 ver with ⟨version, hparse', he⟩ | ⟨⟨e, hfail⟩, m, he⟩ <;> simp only [he]
  swap
  · refine Or.inr ⟨⟨m, rfl⟩, fun s hs => ?_⟩
    obtain ⟨v, hv, hok⟩ := hs.version
    rw [hver, Option.some.injEq] at hv
    rw [← hv, hfail] at hok
    cases hok
  exact Or.inl ⟨⟨subjectId, sessionId, issuedAt, version⟩,
    ⟨hsubject, hsession, ⟨issued, hissued, hparse⟩, ⟨ver, hver, hparse'⟩⟩, rfl⟩

end

/-! ## Loading -/

section

variable (config : RefreshStoreConfig) (fields : Table Bytes Bytes)

/-- The text stored under a field name. -/
def storedText (name : Str) : Option Str := (fields.get (Utf8.encode name)).bind Utf8.decode

/-- Every field name and value is text. -/
def Readable : Prop := ∀ f v, fields.get f = some v → (Utf8.decode f).isSome ∧ (Utf8.decode v).isSome

theorem readable_iff : Readable fields ↔ ∀ e ∈ fields.entries, (Utf8.decode e.1).isSome ∧ (Utf8.decode e.2).isSome := by
  constructor
  · rintro h ⟨f, v⟩ he
    exact h f v (Table.get_eq_some_iff.2 he)
  · intro h f v hget
    exact h ⟨f, v⟩ (Table.get_eq_some_iff.1 hget)

/-- Loading reports an invalid stored session, or the hash is text throughout, spells a session,
and `RefreshSession::new` decides. -/
theorem loadSession_cases :
    (∃ s, Readable fields ∧ Spells config (storedText fields) s ∧ loadSession config fields =
      RefreshSession.new s.subjectId s.sessionId s.issuedAtUnixSecs s.sessionVersion) ∨
    ((∃ m, loadSession config fields = .error (.invalidStoredSession m)) ∧
      ∀ s, ¬ (Readable fields ∧ Spells config (storedText fields) s)) := by
  unfold loadSession decodeSessionHash
  simp only [bind, Except.bind]
  rcases hdecode : decodeFields ∅ fields.entries with e | t
  · obtain ⟨⟨m, rfl⟩, f, hf, hbad⟩ := decodeFields_error hdecode
    exact Or.inr ⟨⟨m, rfl⟩, fun s hs => hbad ((readable_iff fields).1 hs.1 f hf)⟩
  · obtain ⟨hall, hget⟩ := decodeFields_ok fields.nodupKeys hdecode
    have hreadable : Readable fields := (readable_iff fields).2 hall
    have htext : t.get = storedText fields := by
      funext name
      rw [hget name, storedText]
      show _ = (List.dlookup (Utf8.encode name) fields.entries).bind Utf8.decode
      cases List.dlookup (Utf8.encode name) fields.entries with
      | none => exact Table.get_empty name
      | some v => rfl
    have hparse := parseSessionHash_cases config t
    rw [htext] at hparse
    rcases hparse with ⟨s, hs, he⟩ | ⟨hm, hno⟩
    · exact Or.inl ⟨s, hreadable, hs, he⟩
    · exact Or.inr ⟨hm, fun s hs => hno s hs.2⟩

end

/-! ## The hash of a session -/

section

variable {config : RefreshStoreConfig} {m : Table Bytes Bytes} {s : RefreshSession}

theorem sessionArgs_names (config : RefreshStoreConfig) (s : RefreshSession) :
    (sessionArgs config s).map Prod.fst = config.sessionFields.map Utf8.encode := rfl

theorem sessionArgs_nodup (config : RefreshStoreConfig) (s : RefreshSession) :
    ((sessionArgs config s).map Prod.fst).Nodup := by
  rw [sessionArgs_names]
  exact config.sessionFields_nodup.map Utf8.encode_injective

/-- The hash has the fields the session is written with, and no others. -/
def Holds (config : RefreshStoreConfig) (m : Table Bytes Bytes) (s : RefreshSession) : Prop :=
  ∀ f v, m.get f = some v ↔ (f, v) ∈ sessionArgs config s

theorem holds_setFields_empty (config : RefreshStoreConfig) (s : RefreshSession) :
    Holds config (setFields ∅ (sessionArgs config s)) s := fun f v => by
  rw [get_setFields ∅ (sessionArgs_nodup config s), Table.get_empty]
  simp

/-- Writing a session over another leaves nothing of the other. -/
theorem Holds.setFields (h : Holds config m s) (s' : RefreshSession) :
    Holds config (Redis.setFields m (sessionArgs config s')) s' := fun f v => by
  rw [get_setFields m (sessionArgs_nodup config s')]
  refine ⟨?_, Or.inl⟩
  rintro (hm | ⟨hno, hget⟩)
  · exact hm
  · rw [sessionArgs_names, ← sessionArgs_names config s] at hno
    exact absurd (List.mem_map_of_mem ((h f v).1 hget)) hno

theorem Holds.readable (h : Holds config m s) : Readable m := fun f v hget => by
  have hm := (h f v).1 hget
  simp only [sessionArgs, List.mem_cons, Prod.mk.injEq, List.not_mem_nil, or_false] at hm
  rcases hm with ⟨rfl, rfl⟩ | ⟨rfl, rfl⟩ | ⟨rfl, rfl⟩ | ⟨rfl, rfl⟩ <;> simp

theorem spells_of_fields (h : ∀ p ∈ sessionArgs config s, m.get p.1 = some p.2) :
    Spells config (storedText m) s := by
  have htext {name v : Str} (hm : (Utf8.encode name, Utf8.encode v) ∈ sessionArgs config s) :
      storedText m name = some v := by
    rw [storedText, h _ hm]
    exact Utf8.decode_encode v
  refine ⟨htext ?_, htext ?_, ⟨_, htext ?_, parseI64_decimal _⟩, ⟨_, htext ?_, parseU64_decimal _⟩⟩ <;>
    simp [sessionArgs]

theorem Holds.fields (h : Holds config m s) : ∀ p ∈ sessionArgs config s, m.get p.1 = some p.2 :=
  fun p hp => (h p.1 p.2).2 hp

theorem Holds.loadSession (h : Holds config m s) :
    loadSession config m = RefreshSession.new s.subjectId s.sessionId s.issuedAtUnixSecs s.sessionVersion := by
  rcases loadSession_cases config m with ⟨s', -, hs', he⟩ | ⟨-, hno⟩
  · rw [he, spells_unique config hs' (spells_of_fields h.fields)]
  · exact absurd ⟨h.readable, spells_of_fields h.fields⟩ (hno s)

/-- The field comparisons of the rotation script compare sessions. -/
theorem Holds.fields_iff (h : Holds config m s) (current : RefreshSession) :
    (∀ p ∈ sessionArgs config current, m.get p.1 = some p.2) ↔ s = current := by
  constructor
  · intro hall
    exact spells_unique config (spells_of_fields h.fields) (spells_of_fields hall)
  · rintro rfl
    exact h.fields

end

/-! ## Classification -/

/-- The outcome is a session that `RefreshSession::new` accepts, or an invalid stored session,
which is discarded and treated as a credential miss. -/
def Classified : Except RefreshStoreError RefreshSession → Prop
  | .ok s => s.Accepted
  | .error e => (∃ m, e = .invalidStoredSession m) ∧ e.shouldDiscardStoredPayload = true ∧
      e.shouldTreatAsCredentialMiss = true

/-- An identifier that `validate_session_field` refuses. -/
def RefusedIdentifier (v : Str) : Prop := v.isEmpty ∨ 256 < v.len ∨ v.any unsafeChar

theorem validateSessionField_cases (v field : Str) :
    (validateSessionField v field = .ok v ∧ ¬ RefusedIdentifier v) ∨
    (validateSessionField v field = .error (.invalidSessionField field) ∧ RefusedIdentifier v) := by
  unfold validateSessionField RefusedIdentifier
  split
  · rename_i h
    simp only [Bool.or_eq_true, decide_eq_true_eq, or_assoc] at h
    exact Or.inr ⟨rfl, h⟩
  · rename_i h
    simp only [Bool.or_eq_true, decide_eq_true_eq, or_assoc] at h
    exact Or.inl ⟨rfl, h⟩

theorem new_cases (s : RefreshSession) :
    (RefreshSession.new s.subjectId s.sessionId s.issuedAtUnixSecs s.sessionVersion = .ok s ∧
      ¬ (RefusedIdentifier s.subjectId ∨ RefusedIdentifier s.sessionId)) ∨
    ((∃ field, RefreshSession.new s.subjectId s.sessionId s.issuedAtUnixSecs s.sessionVersion =
      .error (.invalidSessionField field)) ∧ (RefusedIdentifier s.subjectId ∨ RefusedIdentifier s.sessionId)) := by
  unfold RefreshSession.new
  simp only [bind, Except.bind]
  rcases validateSessionField_cases s.subjectId "subject_id".toList with ⟨h, hs⟩ | ⟨h, hs⟩
  · rcases validateSessionField_cases s.sessionId "session_id".toList with ⟨h', hs'⟩ | ⟨h', hs'⟩
    · exact Or.inl ⟨by simp only [h, h'], fun hr => hr.elim hs hs'⟩
    · exact Or.inr ⟨⟨"session_id".toList, by simp only [h, h']⟩, Or.inr hs'⟩
  · exact Or.inr ⟨⟨"subject_id".toList, by simp only [h]⟩, Or.inl hs⟩

/-- A stored payload is classified as it should be exactly when it is not a text payload that
spells a session with an identifier `RefreshSession::new` refuses. -/
theorem stored_payload_classified_iff (config : RefreshStoreConfig) (fields : Table Bytes Bytes) :
    Classified (loadSession config fields) ↔
      ¬ ∃ s, Readable fields ∧ Spells config (storedText fields) s ∧
        (RefusedIdentifier s.subjectId ∨ RefusedIdentifier s.sessionId) := by
  rcases loadSession_cases config fields with ⟨s, hread, hs, he⟩ | ⟨⟨m, he⟩, hno⟩
  · rw [he]
    rcases new_cases s with ⟨hok, hgood⟩ | ⟨⟨field, hbad⟩, hrefused⟩
    · rw [hok]
      refine ⟨?_, fun _ => hok⟩
      rintro _ ⟨s', _, hs', hrefused⟩
      rw [spells_unique config hs' hs] at hrefused
      exact hgood hrefused
    · rw [hbad]
      refine ⟨fun h => ?_, fun h => absurd ⟨s, hread, hs, hrefused⟩ h⟩
      obtain ⟨⟨m, hm⟩, -⟩ := h
      cases hm
  · rw [he]
    exact ⟨fun _ ⟨s, hread, hs, _⟩ => hno s ⟨hread, hs⟩, fun _ => ⟨⟨m, rfl⟩, rfl, rfl⟩⟩

/-- A stored session with a blank subject is an invalid session field, not an invalid stored session. -/
theorem blank_subject_not_classified : ¬ ∀ (config : RefreshStoreConfig) (fields : Table Bytes Bytes),
    fields.entries ≠ [] → Classified (loadSession config fields) := by
  intro h
  have hload := h .default (setFields ∅ (sessionArgs .default ⟨[], "session-1".toList, 0, 0⟩)) (by decide)
  rw [Holds.loadSession (holds_setFields_empty _ _)] at hload
  obtain ⟨m, hm⟩ := hload.1
  cases hm

end WorldInfra.Refresh
