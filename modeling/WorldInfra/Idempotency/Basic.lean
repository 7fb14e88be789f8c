/-
idempotency-runtime-core: claims, entries, errors, namespaces, key formats and the runtime keys. A
namespace carries the fact that it is valid; distinct keys have distinct runtime keys.
-/
import WorldInfra.Rust.Num
import WorldInfra.Rust.Time

namespace WorldInfra.Idempotency

open WorldInfra.Rust

inductive WorkClaim where
  | fresh
  | pending
  | completed
  deriving DecidableEq, Repr

inductive EntryState where
  | marker
  | pending
  | completed
  deriving DecidableEq, Repr

inductive IdempotencyRuntimeError where
  | invalidNamespace
  | invalidKey
  | timeout
  | unsupportedMarker
  | backend (error : Str)
  deriving DecidableEq, Repr

/-! ## Keys -/

def validatePart (value : Str) : Except IdempotencyRuntimeError Str :=
  value.validateTrimmed .invalidKey fun value =>
    value.isEmpty || value.len > 512 || value.any fun c => isControl c || isWhitespace c

theorem validatePart_ok {value v : Str} (h : validatePart value = .ok v) : validatePart v = .ok v := by
  refine Str.validateTrimmed_ok (fun v hv c hc => ?_) h
  simp only [Bool.or_eq_false_iff, List.any_eq_false, Bool.not_eq_true] at hv
  exact (hv.2 c hc).2

/-- `IdempotencyNamespace`: a validated text. -/
structure IdempotencyNamespace where
  value : Str
  valid : validatePart value = .ok value

def IdempotencyNamespace.new (value : Str) : Except IdempotencyRuntimeError IdempotencyNamespace :=
  match h : validatePart value with
  | .ok v => .ok ⟨v, validatePart_ok h⟩
  | .error _ => .error .invalidNamespace

inductive IdempotencyKeyFormat where
  | lengthPrefixed
  | namespacePrefix
  deriving DecidableEq, Repr

/-- The runtime key of a validated key. -/
def formatKey : IdempotencyKeyFormat → Option IdempotencyNamespace → Str → Str
  | .lengthPrefixed, some ns, key =>
    "idem:".toList ++ decimal ns.value.len ++ ':' :: ns.value ++ ':' :: (decimal key.len ++ ':' :: key)
  | .lengthPrefixed, none, key => "idem:0::".toList ++ (decimal key.len ++ ':' :: key)
  | .namespacePrefix, some ns, key => ns.value ++ ':' :: key
  | .namespacePrefix, none, key => key

def namespacedKey (namespace' : Option IdempotencyNamespace) (key : Str) (keyFormat : IdempotencyKeyFormat) :
    Except IdempotencyRuntimeError Str := do
  let key ← validatePart key
  .ok (formatKey keyFormat namespace' key)

/-- Under one format and namespace, distinct keys have distinct runtime keys. -/
theorem formatKey_inj {s t : Str} : ∀ {keyFormat : IdempotencyKeyFormat} {namespace' : Option IdempotencyNamespace},
    formatKey keyFormat namespace' s = formatKey keyFormat namespace' t → s = t
  | .lengthPrefixed, some ns, h => by
    change "idem:".toList ++ decimal ns.value.len ++ ':' :: ns.value ++ ':' :: (decimal s.len ++ ':' :: s) =
      "idem:".toList ++ decimal ns.value.len ++ ':' :: ns.value ++ ':' :: (decimal t.len ++ ':' :: t) at h
    rw [List.append_cancel_left_eq, List.cons.injEq] at h
    exact (decimal_colon_inj h.2).2
  | .lengthPrefixed, none, h => by
    change "idem:0::".toList ++ (decimal s.len ++ ':' :: s) = "idem:0::".toList ++ (decimal t.len ++ ':' :: t) at h
    rw [List.append_cancel_left_eq] at h
    exact (decimal_colon_inj h).2
  | .namespacePrefix, some ns, h => by
    change ns.value ++ ':' :: s = ns.value ++ ':' :: t at h
    rw [List.append_cancel_left_eq, List.cons.injEq] at h
    exact h.2
  | .namespacePrefix, none, h => h

/-- Keys with one runtime key are one key. -/
theorem namespacedKey_inj {namespace' : Option IdempotencyNamespace} {keyFormat : IdempotencyKeyFormat} {s t k : Str}
    (hs : namespacedKey namespace' s keyFormat = .ok k) (ht : namespacedKey namespace' t keyFormat = .ok k) :
    validatePart s = validatePart t := by
  simp only [namespacedKey, bind, Except.bind] at hs ht
  rcases hvs : validatePart s with e | v
  · rw [hvs] at hs; cases hs
  · rcases hvt : validatePart t with e | w
    · rw [hvt] at ht; cases ht
    · rw [hvs, Except.ok.injEq] at hs
      rw [hvt, Except.ok.injEq, ← hs] at ht
      rw [formatKey_inj ht]

/-! ## Length-prefixed keys -/

@[ext] theorem IdempotencyNamespace.ext {m n : IdempotencyNamespace} (h : m.value = n.value) : m = n := by
  cases m
  cases n
  cases h
  rfl

theorem validatePart_trim {value v : Str} (h : validatePart value = .ok v) : v = value.trim ∧ v ≠ [] := by
  obtain ⟨-, hv, hbad⟩ := Str.validateTrimmed_cases h
  refine ⟨hv, ?_⟩
  rintro hnil
  rw [hnil, List.isEmpty_nil, Bool.true_or, Bool.true_or] at hbad
  exact Bool.noConfusion hbad

/-- The text that stands for a namespace in a length-prefixed key; a missing one counts as empty. -/
def namespaceText : Option IdempotencyNamespace → Str
  | some ns => ns.value
  | none => []

/-- No namespace is empty, so the text tells whether there is one. -/
theorem namespaceText_injective : Function.Injective namespaceText
  | none, none, _ => rfl
  | none, some n, h => absurd h.symm (validatePart_trim n.valid).2
  | some m, none, h => absurd h (validatePart_trim m.valid).2
  | some _, some _, h => congrArg some (IdempotencyNamespace.ext h)

theorem formatKey_lengthPrefixed (namespace' : Option IdempotencyNamespace) (key : Str) :
    formatKey .lengthPrefixed namespace' key =
      "idem:".toList ++ (lengthField (namespaceText namespace') ++ ':' :: lengthField key) := by
  have hkey : decimal key.len ++ ':' :: key = lengthField key := by
    rw [lengthField, List.append_assoc, List.singleton_append]
  cases namespace' with
  | none =>
    have hempty : "idem:0::".toList = "idem:".toList ++ (lengthField [] ++ [':']) := by decide
    change "idem:0::".toList ++ (decimal key.len ++ ':' :: key) =
      "idem:".toList ++ (lengthField [] ++ ':' :: lengthField key)
    rw [hkey, hempty, List.append_assoc, List.append_assoc, List.singleton_append]
  | some ns =>
    change "idem:".toList ++ decimal ns.value.len ++ ':' :: ns.value ++ ':' :: (decimal key.len ++ ':' :: key) =
      "idem:".toList ++ (lengthField ns.value ++ ':' :: lengthField key)
    rw [hkey, lengthField_append, List.append_assoc, List.append_assoc, List.cons_append]

/-- A length-prefixed runtime key determines the namespace, or that there is none, and the key. -/
theorem namespacedKey_lengthPrefixed_inj {m n : Option IdempotencyNamespace} {s t k : Str}
    (hs : namespacedKey m s .lengthPrefixed = .ok k) (ht : namespacedKey n t .lengthPrefixed = .ok k) :
    m = n ∧ s.trim = t.trim := by
  obtain ⟨v, hv, hk⟩ := Str.bind_eq_ok.1 hs
  obtain ⟨w, hw, hk'⟩ := Str.bind_eq_ok.1 ht
  have heq : formatKey .lengthPrefixed m v = formatKey .lengthPrefixed n w := Except.ok.inj (hk.trans hk'.symm)
  rw [formatKey_lengthPrefixed, formatKey_lengthPrefixed, List.append_cancel_left_eq] at heq
  -- first the field of the namespace, then, behind the colon, the field of the key
  obtain ⟨hns, hrest⟩ := lengthField_inj heq
  have hkey : v = w := lengthField_injective (List.tail_eq_of_cons_eq hrest)
  refine ⟨namespaceText_injective hns, ?_⟩
  rw [← (validatePart_trim hv).1, ← (validatePart_trim hw).1, hkey]

theorem namespacedKey_lengthPrefixed_inj_padded :
    some (⟨"a:b".toList, by decide⟩ : IdempotencyNamespace) = some ⟨"a:b".toList, by decide⟩ ∧
      Str.trim " 1:c ".toList = Str.trim "1:c".toList :=
  namespacedKey_lengthPrefixed_inj (k := "idem:3:a:b:3:1:c".toList) (by decide) (by decide)

/-! ## Calls -/

/-- An operation of an idempotency store, with its arguments. -/
inductive IdempotencyOp where
  | setOnce (key : Str) (ttl : Duration)
  | claimPending (key : Str) (ttl : Duration)
  | markCompleted (key : Str) (ttl : Duration)
  | delete (key : Str)
  | exists' (key : Str)
  deriving DecidableEq, Repr

def IdempotencyOp.key : IdempotencyOp → Str
  | .setOnce key _ | .claimPending key _ | .markCompleted key _ | .delete key | .exists' key => key

/-- A call: an operation and the time it reads. -/
structure IdempotencyCall (T : Type) where
  now : T
  op : IdempotencyOp

inductive IdempotencyReply where
  | set (success : Bool)
  | claim (claim : WorkClaim)
  | done
  | found (there : Bool)
  deriving DecidableEq, Repr

abbrev IdempotencyAnswer : Type := Except IdempotencyRuntimeError IdempotencyReply

end WorldInfra.Idempotency
