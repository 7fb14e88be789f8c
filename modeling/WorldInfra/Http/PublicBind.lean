/-
http-primitives: which bind addresses are publicly reachable. The checks on octets and segments are
those of membership in a list of networks, for the addresses of both families and for IPv4 addresses
inside IPv6 ones.
-/
import WorldInfra.Http.Networks
import WorldInfra.StaticWeb.HostRejection

namespace WorldInfra.Http

open WorldInfra.Rust WorldInfra.StaticWeb

/-! ## The source -/

/-- `Ipv6Addr::to_ipv4_mapped`. -/
def toIpv4Mapped (ip : BitVec 128) : Option (BitVec 32) :=
  if ip.toNat / 2 ^ 32 = 0xffff then some (BitVec.ofNat 32 (ip.toNat % 2 ^ 32)) else none

/-- `Ipv4Addr::is_link_local`. -/
def isLinkLocal (addr : BitVec 32) : Bool := octet addr 0 == 169 && octet addr 1 == 254

/-- `Ipv4Addr::is_multicast`. -/
def isMulticast (addr : BitVec 32) : Bool := 224 ≤ octet addr 0 && octet addr 0 ≤ 239

def isSharedV4 (addr : BitVec 32) : Bool := octet addr 0 == 100 && (64 ≤ octet addr 1 && octet addr 1 ≤ 127)

def isBenchmarkingV4 (addr : BitVec 32) : Bool := octet addr 0 == 198 && (octet addr 1 == 18 || octet addr 1 == 19)

def isDocumentationV4 (addr : BitVec 32) : Bool :=
  (octet addr 0 == 192 && octet addr 1 == 0 && octet addr 2 == 2) ||
    (octet addr 0 == 198 && octet addr 1 == 51 && octet addr 2 == 100) ||
    (octet addr 0 == 203 && octet addr 1 == 0 && octet addr 2 == 113)

def isReservedV4 (addr : BitVec 32) : Bool := octet addr 0 ≥ 240

/-- `is_loopback` is 127 in the first octet, `is_broadcast` one in every bit. -/
def isPublicUnicastV4 (addr : BitVec 32) : Bool :=
  !(octet addr 0 == 0 || octet addr 0 == 127 || isPrivate addr || isLinkLocal addr || isMulticast addr ||
    addr == BitVec.allOnes 32 || isSharedV4 addr || isBenchmarkingV4 addr || isDocumentationV4 addr ||
    isReservedV4 addr)

def isUniqueLocalV6 (addr : BitVec 128) : Bool := StaticWeb.segment addr 0 &&& 0xfe00 == 0xfc00

def isUnicastLinkLocalV6 (addr : BitVec 128) : Bool := StaticWeb.segment addr 0 &&& 0xffc0 == 0xfe80

def isSiteLocalV6 (addr : BitVec 128) : Bool := StaticWeb.segment addr 0 &&& 0xffc0 == 0xfec0

def isDocumentationV6 (addr : BitVec 128) : Bool :=
  StaticWeb.segment addr 0 == 0x2001 && StaticWeb.segment addr 1 == 0x0db8

/-- `is_unspecified` is 0, `is_loopback` 1, and `is_multicast` all ones in the first eight bits. -/
def isPublicUnicastV6 (addr : BitVec 128) : Bool :=
  match toIpv4Mapped addr with
  | some addr => isPublicUnicastV4 addr
  | none =>
    !(addr == 0 || addr == 1 || StaticWeb.segment addr 0 &&& 0xff00 == 0xff00 || isUniqueLocalV6 addr ||
      isUnicastLinkLocalV6 addr || isSiteLocalV6 addr || isDocumentationV6 addr)

def isPublicBind : IpAddr → Bool
  | .v4 addr => addr == 0 || isPublicUnicastV4 addr
  | .v6 addr => addr == 0 || isPublicUnicastV6 addr

/-! ## The networks -/

/-- This network, loopback, private, link-local, multicast, shared, benchmarking, documentation and reserved
addresses. -/
def localBlocksV4 : List (Nat × Fin 33) := [
  (ipv4 0 0 0 0, 8), (ipv4 127 0 0 0, 8), (ipv4 10 0 0 0, 8), (ipv4 172 16 0 0, 12), (ipv4 192 168 0 0, 16),
  (ipv4 169 254 0 0, 16), (ipv4 224 0 0 0, 4), (ipv4 100 64 0 0, 10), (ipv4 198 18 0 0, 15), (ipv4 192 0 2 0, 24),
  (ipv4 198 51 100 0, 24), (ipv4 203 0 113 0, 24), (ipv4 240 0 0 0, 4)]

/-- Unspecified, loopback, multicast, unique local, link-local, site-local and documentation addresses. -/
def localBlocksV6 : List (Nat × Fin 129) := [
  (0, 128), (1, 128), (0xff00 <<< 112, 8), (0xfc00 <<< 112, 7), (0xfe80 <<< 112, 10), (0xfec0 <<< 112, 10),
  (0x20010db8 <<< 96, 32)]

def Cidr.ofV4 (block : Nat × Fin 33) : Cidr :=
  ⟨.v4 (BitVec.ofNat 32 block.1), block.2, Nat.le_of_lt_succ block.2.isLt⟩

def Cidr.ofV6 (block : Nat × Fin 129) : Cidr :=
  ⟨.v6 (BitVec.ofNat 128 block.1), block.2, Nat.le_of_lt_succ block.2.isLt⟩

/-- The network of the IPv6 addresses an IPv4 network is mapped to. -/
def Cidr.ofMapped (block : Nat × Fin 33) : Cidr :=
  ⟨.v6 (BitVec.ofNat 128 (0xffff <<< 32 + block.1)), 96 + block.2, by
    have hlt := block.2.isLt
    show 96 + block.2.val ≤ 128
    omega⟩

def localNetworks : List Cidr :=
  localBlocksV4.map .ofV4 ++ localBlocksV6.map .ofV6 ++ localBlocksV4.map .ofMapped

/-! ## Membership in a block -/

theorem contains_ofV4 {block : Nat × Fin 33} (hblock : block.1 < 2 ^ 32) (a : BitVec 32) :
    (Cidr.ofV4 block).contains (.v4 a) = true ↔
      a.toNat / 2 ^ (32 - block.2.val) = block.1 / 2 ^ (32 - block.2.val) := by
  rw [Cidr.contains_iff, eq_comm, ← Nat.mod_eq_of_lt hblock, ← BitVec.toNat_ofNat]
  exact ushiftRight_eq_iff

theorem contains_ofV6 {block : Nat × Fin 129} (hblock : block.1 < 2 ^ 128) (a : BitVec 128) :
    (Cidr.ofV6 block).contains (.v6 a) = true ↔
      a.toNat / 2 ^ (128 - block.2.val) = block.1 / 2 ^ (128 - block.2.val) := by
  rw [Cidr.contains_iff, eq_comm, ← Nat.mod_eq_of_lt hblock, ← BitVec.toNat_ofNat]
  exact ushiftRight_eq_iff

/-- Dividing by a power of two below another leaves the digits above that apart. -/
theorem div_two_pow_eq_iff {n b p j w : Nat} (hj : j ≤ w) (hb : b < 2 ^ w) :
    n / 2 ^ j = (p * 2 ^ w + b) / 2 ^ j ↔ n / 2 ^ w = p ∧ n % 2 ^ w / 2 ^ j = b / 2 ^ j := by
  have hw : 2 ^ w = 2 ^ j * 2 ^ (w - j) := by rw [← Nat.pow_add, Nat.add_sub_cancel' hj]
  have hlow : b / 2 ^ j < 2 ^ (w - j) := Nat.div_lt_of_lt_mul (hw ▸ hb)
  have hsum : (p * 2 ^ w + b) / 2 ^ j = b / 2 ^ j + 2 ^ (w - j) * p := by
    rw [hw, Nat.add_comm, show p * (2 ^ j * 2 ^ (w - j)) = 2 ^ j * (2 ^ (w - j) * p) by ring,
      Nat.add_mul_div_left _ _ (Nat.two_pow_pos j)]
  rw [hsum, hw, ← Nat.div_div_eq_div_mul, Nat.mod_mul_right_div_self, Nat.div_mod_unique (Nat.two_pow_pos _), eq_comm]
  exact (and_iff_left hlow).symm

theorem contains_ofMapped {block : Nat × Fin 33} (hblock : block.1 < 2 ^ 32) (a : BitVec 128) :
    (Cidr.ofMapped block).contains (.v6 a) = true ↔
      ∃ mapped, toIpv4Mapped a = some mapped ∧ (Cidr.ofV4 block).contains (.v4 mapped) = true := by
  have hshift : 128 - (96 + block.2.val) = 32 - block.2.val := by omega
  have hbase : 0xffff <<< 32 + block.1 < 2 ^ 128 := by
    norm_num
    omega
  have hcontains : (Cidr.ofMapped block).contains (.v6 a) = true ↔
      a.toNat / 2 ^ (32 - block.2.val) = (0xffff * 2 ^ 32 + block.1) / 2 ^ (32 - block.2.val) := by
    rw [Cidr.contains_iff, eq_comm, ← Nat.shiftLeft_eq, ← Nat.mod_eq_of_lt hbase, ← BitVec.toNat_ofNat, ← hshift]
    exact ushiftRight_eq_iff
  rw [hcontains, div_two_pow_eq_iff (Nat.sub_le _ _) hblock]
  unfold toIpv4Mapped
  by_cases hm : a.toNat / 2 ^ 32 = 0xffff
  · rw [if_pos hm]
    simp only [hm, Option.some.injEq, exists_eq_left', contains_ofV4 hblock, BitVec.toNat_ofNat, Nat.mod_mod, true_and]
  · rw [if_neg hm]
    simp only [hm, false_and, reduceCtorEq, exists_false]

/-! ## Public unicast -/

section

variable (a : BitVec 32)

theorem octet_zero : octet a 0 = a.toNat / 2 ^ 24 :=
  Nat.mod_eq_of_lt (Nat.div_lt_of_lt_mul a.isLt)

theorem isPrivate_iff :
    isPrivate a = true ↔ a.toNat / 2 ^ 24 = 10 ∨ a.toNat / 2 ^ 20 = 2753 ∨ a.toNat / 2 ^ 16 = 49320 := by
  have h1 : octet a 1 = a.toNat / 2 ^ 16 % 256 := rfl
  simp only [isPrivate, Bool.or_eq_true, Bool.and_eq_true, beq_iff_eq, decide_eq_true_eq, octet_zero, h1]
  omega

theorem isSharedV4_iff : isSharedV4 a = true ↔ a.toNat / 2 ^ 22 = 401 := by
  have h1 : octet a 1 = a.toNat / 2 ^ 16 % 256 := rfl
  simp only [isSharedV4, Bool.and_eq_true, beq_iff_eq, decide_eq_true_eq, octet_zero, h1]
  omega

theorem isBenchmarkingV4_iff : isBenchmarkingV4 a = true ↔ a.toNat / 2 ^ 17 = 25353 := by
  have h1 : octet a 1 = a.toNat / 2 ^ 16 % 256 := rfl
  simp only [isBenchmarkingV4, Bool.or_eq_true, Bool.and_eq_true, beq_iff_eq, octet_zero, h1]
  omega

theorem isDocumentationV4_iff :
    isDocumentationV4 a = true ↔
      a.toNat / 2 ^ 8 = 12582914 ∨ a.toNat / 2 ^ 8 = 12989284 ∨ a.toNat / 2 ^ 8 = 13303921 := by
  have h1 : octet a 1 = a.toNat / 2 ^ 16 % 256 := rfl
  have h2 : octet a 2 = a.toNat / 2 ^ 8 % 256 := rfl
  simp only [isDocumentationV4, Bool.or_eq_true, Bool.and_eq_true, beq_iff_eq, octet_zero, h1, h2]
  omega

theorem isReservedV4_iff : isReservedV4 a = true ↔ a.toNat / 2 ^ 28 = 15 := by
  have hlt := a.isLt
  simp only [isReservedV4, decide_eq_true_eq, octet_zero]
  omega

theorem isLinkLocal_iff : isLinkLocal a = true ↔ a.toNat / 2 ^ 16 = 43518 := by
  have h1 : octet a 1 = a.toNat / 2 ^ 16 % 256 := rfl
  simp only [isLinkLocal, Bool.and_eq_true, beq_iff_eq, octet_zero, h1]
  omega

theorem isMulticast_iff : isMulticast a = true ↔ a.toNat / 2 ^ 28 = 14 := by
  simp only [isMulticast, Bool.and_eq_true, decide_eq_true_eq, octet_zero]
  omega

theorem isPublicUnicastV4_eq_false_iff :
    isPublicUnicastV4 a = false ↔
      ∃ block ∈ localBlocksV4, a.toNat / 2 ^ (32 - block.2.val) = block.1 / 2 ^ (32 - block.2.val) := by
  have hbroadcast : (a == BitVec.allOnes 32) = true → a.toNat / 2 ^ 28 = 15 := by
    intro h
    rw [eq_of_beq h]
    rfl
  have hchecks : isPublicUnicastV4 a = false ↔ a.toNat / 2 ^ 24 = 0 ∨ a.toNat / 2 ^ 24 = 127 ∨
      (a.toNat / 2 ^ 24 = 10 ∨ a.toNat / 2 ^ 20 = 2753 ∨ a.toNat / 2 ^ 16 = 49320) ∨ a.toNat / 2 ^ 16 = 43518 ∨
      a.toNat / 2 ^ 28 = 14 ∨ a.toNat / 2 ^ 22 = 401 ∨ a.toNat / 2 ^ 17 = 25353 ∨
      (a.toNat / 2 ^ 8 = 12582914 ∨ a.toNat / 2 ^ 8 = 12989284 ∨ a.toNat / 2 ^ 8 = 13303921) ∨
      a.toNat / 2 ^ 28 = 15 := by
    rw [isPublicUnicastV4, Bool.not_eq_false']
    simp only [Bool.or_eq_true, isLinkLocal_iff, isMulticast_iff, isPrivate_iff, isSharedV4_iff,
      isBenchmarkingV4_iff, isDocumentationV4_iff, isReservedV4_iff, octet_zero, Nat.beq_eq_true_eq]
    grind
  rw [hchecks]
  simp only [localBlocksV4, List.mem_cons, List.not_mem_nil, or_false, exists_eq_or_imp, exists_eq_left, ipv4,
    Fin.coe_ofNat_eq_mod, or_assoc]
  norm_num only

end

section

variable (a : BitVec 128)

theorem segment_zero : StaticWeb.segment a 0 = a.toNat / 2 ^ 112 :=
  Nat.mod_eq_of_lt (Nat.div_lt_of_lt_mul a.isLt)

/-- Masking off the low bits of a segment compares the high ones. -/
theorem and_shiftLeft_eq_iff {x k j : Nat} (hx : x < 2 ^ (j + k)) (c : Nat) :
    x &&& (2 ^ j - 1) <<< k = c <<< k ↔ x / 2 ^ k = c := by
  have hhigh : x >>> k < 2 ^ j := by
    rw [Nat.shiftRight_eq_div_pow]
    exact Nat.div_lt_of_lt_mul (by rwa [← Nat.pow_add, Nat.add_comm k])
  have hmask : x &&& (2 ^ j - 1) <<< k = (x >>> k) <<< k := by
    rw [← Nat.mod_eq_of_lt hhigh, ← Nat.and_two_pow_sub_one_eq_mod, Nat.shiftLeft_and_distrib]
    apply Nat.eq_of_testBit_eq
    intro i
    by_cases hi : k ≤ i
    · simp [hi]
    · simp [hi]
  rw [hmask, Nat.shiftLeft_eq, Nat.shiftLeft_eq, Nat.mul_left_inj (Nat.two_pow_pos k).ne', Nat.shiftRight_eq_div_pow]

theorem segment_mask_iff {j k : Nat} (h : j + k = 16) (c : Nat) :
    StaticWeb.segment a 0 &&& (2 ^ j - 1) <<< k = c <<< k ↔ a.toNat / 2 ^ (112 + k) = c := by
  have hlt : StaticWeb.segment a 0 < 2 ^ (j + k) := by
    rw [h]
    exact Nat.mod_lt _ (by norm_num)
  rw [and_shiftLeft_eq_iff hlt, segment_zero, Nat.div_div_eq_div_mul, ← Nat.pow_add]

theorem isPublicUnicastV6_eq_false_iff (hm : toIpv4Mapped a = none) :
    isPublicUnicastV6 a = false ↔
      ∃ block ∈ localBlocksV6, a.toNat / 2 ^ (128 - block.2.val) = block.1 / 2 ^ (128 - block.2.val) := by
  -- a mask on the first segment is a division by a power of two
  have hmulticast : StaticWeb.segment a 0 &&& 0xff00 = 0xff00 ↔ a.toNat / 2 ^ 120 = 0xff :=
    segment_mask_iff (j := 8) (k := 8) a rfl 0xff
  have huniqueLocal : isUniqueLocalV6 a = true ↔ a.toNat / 2 ^ 121 = 0x7e :=
    beq_iff_eq.trans (segment_mask_iff (j := 7) (k := 9) a rfl 0x7e)
  have hlinkLocal : isUnicastLinkLocalV6 a = true ↔ a.toNat / 2 ^ 118 = 0x3fa :=
    beq_iff_eq.trans (segment_mask_iff (j := 10) (k := 6) a rfl 0x3fa)
  have hsiteLocal : isSiteLocalV6 a = true ↔ a.toNat / 2 ^ 118 = 0x3fb :=
    beq_iff_eq.trans (segment_mask_iff (j := 10) (k := 6) a rfl 0x3fb)
  have hdocumentation : isDocumentationV6 a = true ↔ a.toNat / 2 ^ 96 = 0x20010db8 := by
    rw [isDocumentationV6, Bool.and_eq_true, beq_iff_eq, beq_iff_eq, segment_zero,
      show StaticWeb.segment a 1 = a.toNat / 2 ^ 96 % 65536 from rfl]
    omega
  have hunspecified : (a == 0) = true ↔ a.toNat / 2 ^ 0 = 0 := by
    rw [beq_iff_eq, Nat.pow_zero, Nat.div_one, ← BitVec.toNat_inj]
    rfl
  have hloopback : (a == 1) = true ↔ a.toNat / 2 ^ 0 = 1 := by
    rw [beq_iff_eq, Nat.pow_zero, Nat.div_one, ← BitVec.toNat_inj]
    rfl
  have hchecks : isPublicUnicastV6 a = false ↔ a.toNat / 2 ^ 0 = 0 ∨ a.toNat / 2 ^ 0 = 1 ∨ a.toNat / 2 ^ 120 = 0xff ∨
      a.toNat / 2 ^ 121 = 0x7e ∨ a.toNat / 2 ^ 118 = 0x3fa ∨ a.toNat / 2 ^ 118 = 0x3fb ∨
      a.toNat / 2 ^ 96 = 0x20010db8 := by
    rw [isPublicUnicastV6, hm, Bool.not_eq_false']
    simp only [Bool.or_eq_true, hunspecified, hloopback, beq_iff_eq, hmulticast, huniqueLocal, hlinkLocal,
      hsiteLocal, hdocumentation, or_assoc]
  rw [hchecks]
  simp only [localBlocksV6, List.mem_cons, List.not_mem_nil, or_false, exists_eq_or_imp, exists_eq_left,
    Fin.coe_ofNat_eq_mod, Nat.shiftLeft_eq]
  norm_num only

end

/-! ## Local networks -/

theorem localBlocksV4_lt : ∀ block ∈ localBlocksV4, block.1 < 2 ^ 32 := by decide

theorem localBlocksV6_lt : ∀ block ∈ localBlocksV6, block.1 < 2 ^ 128 := by decide

theorem exists_ofV4_iff (a : BitVec 32) :
    (∃ block ∈ localBlocksV4, (Cidr.ofV4 block).contains (.v4 a) = true) ↔ isPublicUnicastV4 a = false := by
  rw [isPublicUnicastV4_eq_false_iff]
  exact exists_congr fun block => and_congr_right fun hb => contains_ofV4 (localBlocksV4_lt block hb) a

theorem exists_localNetworks_v4 (a : BitVec 32) :
    (∃ network ∈ localNetworks, network.contains (.v4 a) = true) ↔ isPublicUnicastV4 a = false := by
  simp only [localNetworks, List.mem_append, List.mem_map, or_and_right, exists_or, exists_exists_and_eq_and,
    exists_ofV4_iff]
  simp [Cidr.ofV6, Cidr.ofMapped, Cidr.contains]

theorem exists_ofMapped_iff (a : BitVec 128) :
    (∃ block ∈ localBlocksV4, (Cidr.ofMapped block).contains (.v6 a) = true) ↔
      ∃ mapped, toIpv4Mapped a = some mapped ∧ isPublicUnicastV4 mapped = false := by
  simp only [← exists_ofV4_iff]
  constructor
  · rintro ⟨block, hb, hcontains⟩
    obtain ⟨mapped, hm, hin⟩ := (contains_ofMapped (localBlocksV4_lt block hb) a).1 hcontains
    exact ⟨mapped, hm, block, hb, hin⟩
  · rintro ⟨mapped, hm, block, hb, hin⟩
    exact ⟨block, hb, (contains_ofMapped (localBlocksV4_lt block hb) a).2 ⟨mapped, hm, hin⟩⟩

/-- A mapped IPv4 address is in none of the IPv6 blocks. -/
theorem not_localBlocksV6_of_mapped {a : BitVec 128} (h : a.toNat / 2 ^ 32 = 0xffff) :
    ∀ block ∈ localBlocksV6, a.toNat / 2 ^ (128 - block.2.val) ≠ block.1 / 2 ^ (128 - block.2.val) := by
  simp only [localBlocksV6, List.forall_mem_cons, List.not_mem_nil, false_implies, implies_true, and_true,
    Fin.coe_ofNat_eq_mod, Nat.shiftLeft_eq, ne_eq]
  norm_num only
  omega

theorem exists_localNetworks_v6 (a : BitVec 128) :
    (∃ network ∈ localNetworks, network.contains (.v6 a) = true) ↔ isPublicUnicastV6 a = false := by
  have hv6 : (∃ block ∈ localBlocksV6, (Cidr.ofV6 block).contains (.v6 a) = true) ↔
      ∃ block ∈ localBlocksV6, a.toNat / 2 ^ (128 - block.2.val) = block.1 / 2 ^ (128 - block.2.val) :=
    exists_congr fun block => and_congr_right fun hb => contains_ofV6 (localBlocksV6_lt block hb) a
  have hv4 : ¬ ∃ block ∈ localBlocksV4, (Cidr.ofV4 block).contains (.v6 a) = true := by
    simp [Cidr.ofV4, Cidr.contains]
  simp only [localNetworks, List.mem_append, List.mem_map, or_and_right, exists_or, exists_exists_and_eq_and,
    exists_ofMapped_iff, hv4, hv6, false_or]
  cases hm : toIpv4Mapped a with
  | none => simp [isPublicUnicastV6_eq_false_iff a hm]
  | some mapped =>
    have hhigh : a.toNat / 2 ^ 32 = 0xffff := by
      unfold toIpv4Mapped at hm
      split at hm
      · assumption
      · cases hm
    have hnone : ¬ ∃ block ∈ localBlocksV6, a.toNat / 2 ^ (128 - block.2.val) = block.1 / 2 ^ (128 - block.2.val) := by
      rintro ⟨block, hb, heq⟩
      exact not_localBlocksV6_of_mapped hhigh block hb heq
    simp only [hnone, false_or, Option.some.injEq, exists_eq_left', isPublicUnicastV6, hm]

/-! ## Bind addresses -/

/-- `Ipv4Addr::UNSPECIFIED` or `Ipv6Addr::UNSPECIFIED`. -/
def Unspecified (addr : IpAddr) : Prop := addr = .v4 0 ∨ addr = .v6 0

theorem isPublicBind_iff (addr : IpAddr) :
    isPublicBind addr = true ↔ Unspecified addr ∨ ∀ network ∈ localNetworks, network.contains addr = false := by
  have hlocal : (∀ network ∈ localNetworks, network.contains addr = false) ↔
      ¬ ∃ network ∈ localNetworks, network.contains addr = true := by
    simp only [not_exists, not_and, Bool.not_eq_true]
  rw [hlocal]
  cases addr with
  | v4 a => simp [isPublicBind, Unspecified, exists_localNetworks_v4]
  | v6 a => simp [isPublicBind, Unspecified, exists_localNetworks_v6]

/-! ## The URL policy's addresses -/

theorem ipv4MappedIpv6_eq (a : BitVec 128) : ipv4MappedIpv6 a = toIpv4Mapped a := by
  have hlt := a.isLt
  have hhigh : ((StaticWeb.segment a 0 = 0 ∧ StaticWeb.segment a 1 = 0 ∧ StaticWeb.segment a 2 = 0 ∧
      StaticWeb.segment a 3 = 0 ∧ StaticWeb.segment a 4 = 0) ∧ StaticWeb.segment a 5 = 0xffff) ↔
        a.toNat / 2 ^ 32 = 0xffff := by
    unfold StaticWeb.segment
    norm_num only
    omega
  have hlow : StaticWeb.segment a 6 * 65536 + StaticWeb.segment a 7 = a.toNat % 2 ^ 32 := by
    unfold StaticWeb.segment
    norm_num only
    omega
  simp only [ipv4MappedIpv6, toIpv4Mapped, hhigh, hlow]

theorem not_public_of_isPrivateLikeIpv4 {a : BitVec 32} (h : isPrivateLikeIpv4 a = true) :
    isPublicUnicastV4 a = false := by
  have hshared : octet a 1 &&& 0b11000000 = 0b01000000 ↔ octet a 1 / 2 ^ 6 = 1 :=
    and_shiftLeft_eq_iff (j := 2) (k := 6) (octet_lt a 1) 1
  simp only [isPrivateLikeIpv4, Bool.or_eq_true, Bool.and_eq_true, beq_iff_eq, hshared] at h
  rw [isPublicUnicastV4, Bool.not_eq_false']
  obtain (((h | h) | ⟨h, h'⟩) | rfl) | ⟨h, h'⟩ := h
  · simp [h]
  · simp [h]
  · simp [isLinkLocal, h, h']
  · rfl
  · have hbounds : 64 ≤ octet a 1 ∧ octet a 1 ≤ 127 := by omega
    simp [isSharedV4, h, hbounds]

theorem not_public_of_isDocumentationIpv4 {a : BitVec 32} (h : isDocumentationIpv4 a = true) :
    isPublicUnicastV4 a = false := by
  have hdocumentation : isDocumentationV4 a = true := h
  simp [isPublicUnicastV4, hdocumentation]

/-- No address that the URL policy refuses is public, but for the unspecified ones. -/
theorem unspecified_of_refused {addr : IpAddr} (h : isPrivateLikeIp addr = true ∨ isDocumentationIp addr = true)
    (hpublic : isPublicBind addr = true) : Unspecified addr := by
  cases addr with
  | v4 a =>
    have hlocal : isPublicUnicastV4 a = false :=
      h.elim not_public_of_isPrivateLikeIpv4 not_public_of_isDocumentationIpv4
    simpa [isPublicBind, hlocal, Unspecified] using hpublic
  | v6 a =>
    rw [isPrivateLikeIp, isDocumentationIp, ipv4MappedIpv6_eq] at h
    have hlocal : isPublicUnicastV6 a = false := by
      rw [isPublicUnicastV6]
      cases hm : toIpv4Mapped a with
      | some mapped =>
        rw [hm] at h
        exact h.elim not_public_of_isPrivateLikeIpv4 not_public_of_isDocumentationIpv4
      | none =>
        rw [hm] at h
        rw [Bool.not_eq_false']
        simp only [Bool.or_eq_true] at h ⊢
        obtain (((h | h) | h) | h) | h := h
        · simp [eq_of_beq h]
        · simp [eq_of_beq h]
        · simp [isUniqueLocalV6, h]
        · simp [isUnicastLinkLocalV6, h]
        · simp [isDocumentationV6, h]
    simpa [isPublicBind, hlocal, Unspecified] using hpublic

/-- A bind address is public exactly if it is unspecified or in none of the local networks; and no other
public address than the unspecified ones is one that the URL policy refuses as private or documentation. -/
theorem publicBind_networks (addr : IpAddr) :
    (isPublicBind addr = true ↔ Unspecified addr ∨ ∀ network ∈ localNetworks, network.contains addr = false) ∧
    ((isPrivateLikeIp addr = true ∨ isDocumentationIp addr = true) → isPublicBind addr = true → Unspecified addr) :=
  ⟨isPublicBind_iff addr, unspecified_of_refused⟩

end WorldInfra.Http
