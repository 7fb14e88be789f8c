/-
auth-device-core: what a digest is fed determines the material. The first zero byte is that of the first
length; the text before it names the separator and the shape of the material, the rest its values. A
raw device id has no zero byte, and a legacy pair begins with one.
-/
import WorldInfra.Device.Hash
import WorldInfra.Rust.Hex

namespace WorldInfra.Device

open WorldInfra.Lib WorldInfra.Rust

/-! ## The shape of the fed bytes -/

/-- What comes first in a material: the device id, the address, or the user agent alone. -/
inductive Shape where
  | deviceId
  | ip
  | userAgent
  deriving DecidableEq, Repr

namespace Shape

/-- The last letter of the label. -/
def mark : Shape → Char
  | deviceId => 'd'
  | ip => 'p'
  | userAgent => 'a'

def front : Shape → Str
  | deviceId => "device-i".toList
  | ip => "ip-ua:i".toList
  | userAgent => "ip-ua:u".toList

/-- The labels between the separator and the first length. -/
def label (shape : Shape) : Str := shape.front ++ [shape.mark, ':']

theorem mark_injective : Function.Injective mark := by
  intro a b h
  cases a <;> cases b <;> first | rfl | cases h

/-- A separator and a label are read back from their text: the label's last letter tells its shape. -/
theorem label_inj {s t : Str} {a b : Shape} (h : s ++ ':' :: a.label = t ++ ':' :: b.label) : s = t ∧ a = b := by
  have hsplit : ∀ (u : Str) (c : Shape), u ++ ':' :: c.label = (u ++ ':' :: c.front) ++ [c.mark, ':'] := by
    intro u c
    rw [label, List.append_assoc, List.cons_append]
  rw [hsplit, hsplit] at h
  obtain ⟨hfront, hmark⟩ := List.append_inj' h rfl
  rw [List.cons.injEq] at hmark
  obtain rfl := mark_injective hmark.1
  exact ⟨List.append_cancel_right hfront, rfl⟩

end Shape

namespace DeviceHashMaterial

def shape : DeviceHashMaterial → Shape
  | deviceId _ => .deviceId
  | ipUserAgent (some _) _ => .ip
  | ipUserAgent none _ => .userAgent

/-- A user agent behind an address. -/
def userAgentField : Option Str → Bytes
  | none => []
  | some userAgent => Utf8.encode "ua:".toList ++ lenPrefixed userAgent

/-- What follows the label. -/
def body : DeviceHashMaterial → Bytes
  | deviceId id => lenPrefixed id
  | ipUserAgent (some ip) userAgent => lenPrefixed ip ++ userAgentField userAgent
  | ipUserAgent none (some userAgent) => lenPrefixed userAgent
  | ipUserAgent none none => []

/-- Some value is present. -/
def Present : DeviceHashMaterial → Prop
  | deviceId _ => True
  | ipUserAgent ip userAgent => ip ≠ none ∨ userAgent ≠ none

/-- Every value is shorter than 2^24 bytes. -/
def Short : DeviceHashMaterial → Prop
  | deviceId id => Str.len id < 2 ^ 24
  | ipUserAgent ip userAgent => (∀ v ∈ ip, Str.len v < 2 ^ 24) ∧ ∀ v ∈ userAgent, Str.len v < 2 ^ 24

end DeviceHashMaterial

open DeviceHashMaterial

section

variable {m n : DeviceHashMaterial} {s t : Str}

theorem updateLenPrefixed_eq (digest : Bytes) (value : Str) :
    updateLenPrefixed digest value = digest ++ lenPrefixed value :=
  List.append_assoc ..

theorem updateHashMaterial_eq (hm : m.Present) (s : Str) :
    updateHashMaterial [] m s = Utf8.encode (s ++ ':' :: m.shape.label) ++ m.body := by
  have hencode : Utf8.encode (s ++ ':' :: m.shape.label) =
      Utf8.encode s ++ Utf8.encode [':'] ++ Utf8.encode m.shape.label := by
    rw [List.append_cons, Utf8.encode_append, Utf8.encode_append]
  have hid : Utf8.encode Shape.deviceId.label = Utf8.encode "device-id:".toList := by rfl
  have hip : Utf8.encode Shape.ip.label = Utf8.encode "ip-ua:".toList ++ Utf8.encode "ip:".toList := by rfl
  have hua : Utf8.encode Shape.userAgent.label = Utf8.encode "ip-ua:".toList ++ Utf8.encode "ua:".toList := by rfl
  rw [hencode]
  match m, hm with
  | .deviceId id, _ =>
    simp only [updateHashMaterial, updateLenPrefixed_eq, updateBytes, shape, hid, body, List.nil_append]
  | .ipUserAgent (some ip) none, _ =>
    simp only [updateHashMaterial, updateLenPrefixed_eq, updateBytes, shape, hip, body, userAgentField,
      List.append_assoc, List.nil_append, List.append_nil]
  | .ipUserAgent (some ip) (some userAgent), _ =>
    simp only [updateHashMaterial, updateLenPrefixed_eq, updateBytes, shape, hip, body, userAgentField,
      List.append_assoc, List.nil_append]
  | .ipUserAgent none (some userAgent), _ =>
    simp only [updateHashMaterial, updateLenPrefixed_eq, updateBytes, shape, hua, body, List.append_assoc,
      List.nil_append]
  | .ipUserAgent none none, hm => exact absurd hm (by simp [Present])

/-! ## Zero bytes -/

theorem zero_not_mem_visible (h : s.any isControl = false) : (0 : UInt8) ∉ Utf8.encode s := by
  apply zero_not_mem_encode
  intro c hc hzero
  apply List.any_eq_false.1 h c hc
  rw [isControl, hzero]
  rfl

theorem visible_label (h : s.any isControl = false) (shape : Shape) :
    (s ++ ':' :: shape.label).any isControl = false := by
  have hlabel : (':' :: shape.label).any isControl = false := by
    cases shape with
    | deviceId => rfl
    | ip => rfl
    | userAgent => rfl
  rw [List.any_append, h, hlabel, Bool.or_self]

theorem body_cons (hm : m.Present) (hshort : m.Short) : ∃ rest, m.body = 0 :: rest := by
  match m, hm, hshort with
  | .deviceId id, _, hshort => exact lenPrefixed_cons hshort
  | .ipUserAgent (some ip) userAgent, _, hshort =>
    obtain ⟨rest, hrest⟩ := lenPrefixed_cons (hshort.1 ip rfl)
    exact ⟨rest ++ userAgentField userAgent, by rw [body, hrest, List.cons_append]⟩
  | .ipUserAgent none (some userAgent), _, hshort => exact lenPrefixed_cons (hshort.2 userAgent rfl)
  | .ipUserAgent none none, hm, _ => exact absurd hm (by simp [Present])

/-! ## Reading back -/

theorem lenPrefixed_inj {v w : Str} (hv : v.len < 2 ^ 24) (hw : w.len < 2 ^ 24) (h : lenPrefixed v = lenPrefixed w) :
    v = w := by
  have hnil : lenPrefixed v ++ [] = lenPrefixed w ++ [] := by rw [h]
  exact (lenPrefixed_selfDelimiting hv hw hnil).1

theorem userAgentField_inj {v w : Option Str} (hv : ∀ x ∈ v, Str.len x < 2 ^ 24) (hw : ∀ x ∈ w, Str.len x < 2 ^ 24)
    (h : userAgentField v = userAgentField w) : v = w := by
  cases v with
  | none =>
    cases w with
    | none => rfl
    | some w => cases h
  | some v =>
    cases w with
    | none => cases h
    | some w => rw [lenPrefixed_inj (hv v rfl) (hw w rfl) (List.append_cancel_left h)]

theorem body_inj (hm : m.Present) (hn : n.Present) (hms : m.Short) (hns : n.Short) (hshape : m.shape = n.shape)
    (h : m.body = n.body) : m = n := by
  match m, n, hm, hn, hms, hns with
  | .deviceId id, .deviceId id', _, _, hms, hns => rw [lenPrefixed_inj hms hns h]
  | .ipUserAgent (some ip) userAgent, .ipUserAgent (some ip') userAgent', _, _, hms, hns =>
    obtain ⟨rfl, hrest⟩ := lenPrefixed_selfDelimiting (hms.1 ip rfl) (hns.1 ip' rfl) h
    rw [userAgentField_inj hms.2 hns.2 hrest]
  | .ipUserAgent none (some userAgent), .ipUserAgent none (some userAgent'), _, _, hms, hns =>
    rw [lenPrefixed_inj (hms.2 userAgent rfl) (hns.2 userAgent' rfl) h]
  | .ipUserAgent none none, _, hm, _, _, _ => exact absurd hm (by simp [Present])
  | _, .ipUserAgent none none, _, hn, _, _ => exact absurd hn (by simp [Present])
  | .deviceId _, .ipUserAgent (some _) _, _, _, _, _ => cases hshape
  | .deviceId _, .ipUserAgent none (some _), _, _, _, _ => cases hshape
  | .ipUserAgent (some _) _, .deviceId _, _, _, _, _ => cases hshape
  | .ipUserAgent none (some _), .deviceId _, _, _, _, _ => cases hshape
  | .ipUserAgent (some _) _, .ipUserAgent none (some _), _, _, _, _ => cases hshape
  | .ipUserAgent none (some _), .ipUserAgent (some _) _, _, _, _, _ => cases hshape

/-- The domain-separated encoding is injective in the separator and the material together. -/
theorem updateHashMaterial_inj (hs : s.any isControl = false) (ht : t.any isControl = false) (hm : m.Present)
    (hn : n.Present) (hms : m.Short) (hns : n.Short) (h : updateHashMaterial [] m s = updateHashMaterial [] n t) :
    s = t ∧ m = n := by
  rw [updateHashMaterial_eq hm, updateHashMaterial_eq hn] at h
  obtain ⟨rest, hrest⟩ := body_cons hm hms
  obtain ⟨rest', hrest'⟩ := body_cons hn hns
  rw [hrest, hrest'] at h
  -- cut at the first zero byte
  obtain ⟨hlabel, htail⟩ := append_sep_inj (zero_not_mem_visible (visible_label hs m.shape))
    (zero_not_mem_visible (visible_label ht n.shape)) h
  obtain ⟨hst, hshape⟩ := Shape.label_inj (Utf8.encode_injective hlabel)
  have hbody : m.body = n.body := by rw [hrest, hrest', htail]
  exact ⟨hst, body_inj hm hn hms hns hshape hbody⟩

end

/-! ## The three encodings -/

/-- What a digest may have been fed for a material. -/
inductive Fed (s : Str) : DeviceHashMaterial → Bytes → Prop
  | separated (m : DeviceHashMaterial) : m.Present → Fed s m (updateHashMaterial [] m s)
  | raw (id : Str) : id.any isControl = false → Fed s (.deviceId id) (Utf8.encode id)
  | legacy (ip userAgent : Str) :
    Fed s (.ipUserAgent (some ip) (some userAgent)) (lenPrefixed ip ++ lenPrefixed userAgent)

section

variable {m n : DeviceHashMaterial} {s t : Str} {bytes : Bytes}

theorem present_of_material {input : DeviceHashInput} {policy : DeviceHashPolicy}
    (h : deviceHashMaterial input policy = some m) : m.Present := by
  unfold deviceHashMaterial at h
  split at h
  · cases h
    trivial
  · simp only at h
    split at h
    · cases h
    · next hsome =>
      cases h
      rw [Bool.and_eq_true, Option.isNone_iff_eq_none, Option.isNone_iff_eq_none, not_and_or] at hsome
      exact hsome

theorem visible_of_material {input : DeviceHashInput} {policy : DeviceHashPolicy} {id : Str}
    (hreject : policy.deviceIdNormalization.rejectsControl = true)
    (h : deviceHashMaterial input policy = some (.deviceId id)) : id.any isControl = false := by
  unfold deviceHashMaterial at h
  split at h
  · next hid =>
    cases h
    exact normalizeDeviceIdForHash_control hreject hid
  · simp only at h
    split at h
    · cases h
    · cases h

theorem fed_of_fedBytes {input : DeviceHashInput} {policy : DeviceHashPolicy} {key : Option DeviceHashKey}
    (hreject : policy.deviceIdNormalization.rejectsControl = true) (hm : deviceHashMaterial input policy = some m)
    (h : fedBytes key policy m = some bytes) : Fed policy.domainSeparator m bytes := by
  have hseparated := Fed.separated (s := policy.domainSeparator) m (present_of_material hm)
  unfold fedBytes at h
  split at h
  · cases h
    exact hseparated
  · split at h
    · cases h
      exact Fed.raw _ (visible_of_material hreject hm)
    · split at h
      · split at h
        · cases h
          rw [updateLenPrefixed_eq, updateLenPrefixed_eq, List.nil_append]
          exact Fed.legacy _ _
        · cases h
      · cases h
        exact hseparated

/-- A domain-separated text has a zero byte, and not as its first. -/
theorem separated_zero (hs : s.any isControl = false) (hm : m.Present) (hshort : m.Short) :
    (0 : UInt8) ∈ updateHashMaterial [] m s ∧ (updateHashMaterial [] m s).head? ≠ some 0 := by
  obtain ⟨rest, hrest⟩ := body_cons hm hshort
  rw [updateHashMaterial_eq hm, hrest]
  constructor
  · exact List.mem_append_right _ (List.mem_cons_self ..)
  · intro hhead
    have hne : Utf8.encode (s ++ ':' :: m.shape.label) ≠ [] := fun hnil =>
      List.append_ne_nil_of_right_ne_nil s (List.cons_ne_nil _ _) (Utf8.encode_injective hnil)
    rw [List.head?_append_of_ne_nil _ hne] at hhead
    exact zero_not_mem_visible (visible_label hs m.shape) (List.mem_of_head? hhead)

theorem legacy_zero {ip userAgent : Str} (h : (DeviceHashMaterial.ipUserAgent (some ip) (some userAgent)).Short) :
    (lenPrefixed ip ++ lenPrefixed userAgent).head? = some 0 := by
  obtain ⟨rest, hrest⟩ := lenPrefixed_cons (h.1 ip rfl)
  rw [hrest]
  rfl

theorem legacy_inj {ip ip' userAgent userAgent' : Str}
    (hm : (DeviceHashMaterial.ipUserAgent (some ip) (some userAgent)).Short)
    (hn : (DeviceHashMaterial.ipUserAgent (some ip') (some userAgent')).Short)
    (h : lenPrefixed ip ++ lenPrefixed userAgent = lenPrefixed ip' ++ lenPrefixed userAgent') :
    ip = ip' ∧ userAgent = userAgent' := by
  obtain ⟨hip, hrest⟩ := lenPrefixed_selfDelimiting (hm.1 ip rfl) (hn.1 ip' rfl) h
  exact ⟨hip, lenPrefixed_inj (hm.2 userAgent rfl) (hn.2 userAgent' rfl) hrest⟩

/-- The three encodings share no text: one has its zero byte first, one further on, and one has none. -/
theorem fed_inj (hs : s.any isControl = false) (ht : t.any isControl = false) (hms : m.Short) (hns : n.Short)
    (hm : Fed s m bytes) (hn : Fed t n bytes) : m = n := by
  -- the kinds differ in their zero bytes: one after the front, none at all, one at the front
  cases hm with
  | separated _ hmp =>
    have hzero := separated_zero hs hmp hms
    generalize hbytes : updateHashMaterial [] m s = bytes at hn hzero
    cases hn with
    | separated _ hnp => exact (updateHashMaterial_inj hs ht hmp hnp hms hns hbytes).2
    | raw id hid => exact absurd hzero.1 (zero_not_mem_visible hid)
    | legacy ip userAgent => exact absurd (legacy_zero hns) hzero.2
  | raw id hid =>
    generalize hbytes : Utf8.encode id = bytes at hn
    have hnone : (0 : UInt8) ∉ bytes := hbytes ▸ zero_not_mem_visible hid
    cases hn with
    | separated _ hnp => exact absurd (separated_zero ht hnp hns).1 hnone
    | raw id' _ => rw [Utf8.encode_injective hbytes]
    | legacy ip userAgent => exact absurd (List.mem_of_head? (legacy_zero hns)) hnone
  | legacy ip userAgent =>
    have hfirst := legacy_zero hms
    generalize hbytes : lenPrefixed ip ++ lenPrefixed userAgent = bytes at hn hfirst
    cases hn with
    | separated _ hnp => exact absurd hfirst (separated_zero ht hnp hns).2
    | raw id hid => exact absurd (List.mem_of_head? hfirst) (zero_not_mem_visible hid)
    | legacy ip' userAgent' =>
      obtain ⟨rfl, rfl⟩ := legacy_inj hms hns hbytes
      rfl

end

/-! ## Hashes -/

/-- The digest under a key, or without one. -/
def digest (hmacSha256 : Bytes → Bytes → Bytes) (sha256 : Bytes → Bytes) : Option DeviceHashKey → Bytes → Bytes
  | some key => hmacSha256 key.secret
  | none => sha256

def digestLabel : Option DeviceHashKey → Str
  | some key => key.keyId ++ [':']
  | none => []

section

variable {hmacSha256 : Bytes → Bytes → Bytes} {sha256 : Bytes → Bytes} {hexEncode : Bytes → Str}
  {input : DeviceHashInput} {key : Option DeviceHashKey} {policy : DeviceHashPolicy} {hash : Str}

theorem computeDeviceHashWithPolicy_eq_some :
    computeDeviceHashWithPolicy hmacSha256 sha256 hexEncode input key policy = some hash ↔
      ∃ m bytes, deviceHashMaterial input policy = some m ∧ fedBytes key policy m = some bytes ∧
        digestLabel key ++ hexEncode (digest hmacSha256 sha256 key bytes) = hash := by
  simp only [computeDeviceHashWithPolicy, Option.bind_eq_bind, Option.bind_eq_some_iff]
  cases key with
  | none => simp [digest, digestLabel]
  | some key => simp [digest, digestLabel]

/-- Under one key, or both without, equal hashes are of equal materials, unless the digest collides on
what it was fed. -/
theorem material_of_computeDeviceHashWithPolicy {input' : DeviceHashInput} {policy' : DeviceHashPolicy}
    (hhex : HexEncodes hexEncode) (hp : policy.deviceIdNormalization.rejectsControl = true)
    (hq : policy'.deviceIdNormalization.rejectsControl = true)
    (hshort : ∀ m, deviceHashMaterial input policy = some m → m.Short)
    (hshort' : ∀ m, deviceHashMaterial input' policy' = some m → m.Short)
    (hcollision : ∀ m n a b, deviceHashMaterial input policy = some m → deviceHashMaterial input' policy' = some n →
      fedBytes key policy m = some a → fedBytes key policy' n = some b →
        digest hmacSha256 sha256 key a = digest hmacSha256 sha256 key b → a = b)
    (h : computeDeviceHashWithPolicy hmacSha256 sha256 hexEncode input key policy = some hash)
    (h' : computeDeviceHashWithPolicy hmacSha256 sha256 hexEncode input' key policy' = some hash) :
    deviceHashMaterial input policy = deviceHashMaterial input' policy' := by
  obtain ⟨m, a, hm, ha, hhash⟩ := computeDeviceHashWithPolicy_eq_some.1 h
  obtain ⟨n, b, hn, hb, hhash'⟩ := computeDeviceHashWithPolicy_eq_some.1 h'
  have hdigest : digest hmacSha256 sha256 key a = digest hmacSha256 sha256 key b :=
    hhex.injective (List.append_cancel_left (hhash.trans hhash'.symm))
  obtain rfl := hcollision m n a b hm hn ha hb hdigest
  rw [hm, hn, fed_inj policy.separator_visible.2 policy'.separator_visible.2 (hshort m hm) (hshort' n hn)
    (fed_of_fedBytes hp hm ha) (fed_of_fedBytes hq hn hb)]

end

/-- Pre-images never collide. Two inputs, under policies that reject control characters in device ids,
feed the same bytes to their digests only if their materials are the same: the same device id, or the
same optional address and user agent, whichever of the encodings either side uses, and with a key or
without. Behind the domain separator the bytes determine the separator as well. -/
theorem preimage_determines_material (p q : DeviceHashPolicy) (i j : DeviceHashInput) (m n : DeviceHashMaterial)
    (hm : deviceHashMaterial i p = some m) (hn : deviceHashMaterial j q = some n) (hms : m.Short) (hns : n.Short) :
    (p.deviceIdNormalization.rejectsControl = true → q.deviceIdNormalization.rejectsControl = true →
      ∀ (k l : Option DeviceHashKey) (bytes : Bytes), fedBytes k p m = some bytes → fedBytes l q n = some bytes →
        m = n) ∧
    (updateHashMaterial [] m p.domainSeparator = updateHashMaterial [] n q.domainSeparator →
      p.domainSeparator = q.domainSeparator ∧ m = n) := by
  have hps := p.separator_visible.2
  have hqs := q.separator_visible.2
  constructor
  · intro hp hq k l bytes hk hl
    exact fed_inj hps hqs hms hns (fed_of_fedBytes hp hm hk) (fed_of_fedBytes hq hn hl)
  · exact updateHashMaterial_inj hps hqs (present_of_material hm) (present_of_material hn) hms hns

/-- The policy with both bare encodings. -/
def barePolicy : DeviceHashPolicy :=
  { DeviceHashPolicy.default with unkeyedDeviceIdHash := .rawSha256, unkeyedIpUserAgentHash := .legacyLenPrefixed }

/-- A device id against an address and a user agent, bare and behind the separator. -/
theorem preimage_determines_material_bare :
    fedBytes none barePolicy (.deviceId "ip".toList) ≠
      fedBytes none barePolicy (.ipUserAgent (some "ip".toList) (some "ua".toList)) ∧
    updateHashMaterial [] (.deviceId "ip".toList) barePolicy.domainSeparator ≠
      updateHashMaterial [] (.ipUserAgent (some "ip".toList) (some "ua".toList)) barePolicy.domainSeparator := by
  have hm : deviceHashMaterial ⟨some "ip".toList, none, none⟩ barePolicy = some (.deviceId "ip".toList) := by rfl
  have hn : deviceHashMaterial ⟨none, some "ua".toList, some "ip".toList⟩ barePolicy =
      some (.ipUserAgent (some "ip".toList) (some "ua".toList)) := by rfl
  have hms : (DeviceHashMaterial.deviceId "ip".toList).Short := by
    show Str.len "ip".toList < 2 ^ 24
    decide
  have hns : (DeviceHashMaterial.ipUserAgent (some "ip".toList) (some "ua".toList)).Short := by
    constructor
    · rintro _ ⟨⟩
      decide
    · rintro _ ⟨⟩
      decide
  obtain ⟨hfed, hseparated⟩ := preimage_determines_material barePolicy barePolicy _ _ _ _ hm hn hms hns
  constructor
  · intro h
    have hbare : fedBytes none barePolicy (.deviceId "ip".toList) = some (Utf8.encode "ip".toList) := by rfl
    cases hfed rfl rfl none none _ hbare (h.symm.trans hbare)
  · intro h
    cases (hseparated h).2

end WorldInfra.Device
