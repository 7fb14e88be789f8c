/-
world-clock-core: the seed of a cycle, FNV-1a over the world, its incarnation, the cycle's number and
the labels, each closed by a zero byte. The multiplier is odd, so a step of the hash loses nothing: one
byte changed in any part changes the seed.
-/
import WorldInfra.Lib.InjectiveFold
import WorldInfra.Rust.Num
import WorldInfra.Rust.Pattern
import WorldInfra.Rust.Utf8
import WorldInfra.WorldIdentity.WorldRef

namespace WorldInfra.WorldClock

open WorldInfra.Rust WorldInfra.Lib WorldInfra.WorldIdentity

@[ext] structure CycleNumber where
  value : UInt64
  deriving DecidableEq

instance : Display CycleNumber := ⟨fun cycle => decimal cycle.value.toNat⟩

theorem CycleNumber.toNat_inj {m n : CycleNumber} : m.value.toNat = n.value.toNat ↔ m = n :=
  UInt64.toNat_inj.trans CycleNumber.ext_iff.symm

/-! ## The source -/

/-- The body of the loop of `fnv1a_update`. -/
def fnv1aStep (hash : UInt64) (byte : UInt8) : UInt64 := (hash ^^^ byte.toUInt64) * 0x00000100000001b3

def fnv1aUpdate (hash : UInt64) (bytes : Bytes) : UInt64 := bytes.foldl fnv1aStep hash

/-- The body of the loops over the parts and over the labels. -/
def updatePart (hash : UInt64) (part : Str) : UInt64 := fnv1aUpdate (fnv1aUpdate hash (Utf8.encode part)) [0]

section

variable {W I : Type} [Display W] [Display I]

def deterministicCycleSeed (world : WorldRef W I) (cycle : CycleNumber) (labels : List Str) : UInt64 :=
  let hash := [display world.worldId, display world.incarnation, display cycle].foldl updatePart 0xcbf29ce484222325
  labels.foldl updatePart hash

/-! ## What is hashed -/

/-- All parts of a seed, in order. -/
def seedParts (world : WorldRef W I) (cycle : CycleNumber) (labels : List Str) : List Str :=
  [display world.worldId, display world.incarnation, display cycle] ++ labels

/-- The bytes of parts, each closed by a zero byte. -/
def seedMaterial (parts : List Str) : Bytes := parts.flatMap fun part => Utf8.encode part ++ [0]

theorem foldl_updatePart (parts : List Str) (hash : UInt64) :
    parts.foldl updatePart hash = fnv1aUpdate hash (seedMaterial parts) := by
  unfold seedMaterial fnv1aUpdate
  rw [List.foldl_flatMap]
  simp only [List.foldl_append]
  rfl

/-- The seed is the hash of the material. -/
theorem deterministicCycleSeed_eq (world : WorldRef W I) (cycle : CycleNumber) (labels : List Str) :
    deterministicCycleSeed world cycle labels =
      fnv1aUpdate 0xcbf29ce484222325 (seedMaterial (seedParts world cycle labels)) := by
  rw [← foldl_updatePart, seedParts, List.foldl_append]
  rfl

end

/-! ## The step -/

/-- The multiplier has an inverse. -/
theorem mul_fnvPrime_injective : Function.Injective fun hash : UInt64 => hash * 0x00000100000001b3 := by
  intro x y h
  have hinv := congrArg (· * (0xce965057aff6957b : UInt64)) h
  simpa [mul_assoc] using hinv

theorem fnv1aStep_state (byte : UInt8) : Function.Injective fun hash => fnv1aStep hash byte := by
  intro x y h
  exact (UInt64.xor_left_inj _).1 (mul_fnvPrime_injective h)

theorem fnv1aStep_byte (hash : UInt64) : Function.Injective (fnv1aStep hash) := by
  intro x y h
  exact UInt8.toUInt64_inj.1 ((UInt64.xor_right_inj _).1 (mul_fnvPrime_injective h))

/-! ## Seeds -/

section

variable {W I V J : Type} [Display W] [Display I] [Display V] [Display J]

theorem differInOne_seedMaterial {s t : Str} (h : DifferInOne (Utf8.encode s) (Utf8.encode t))
    (before after : List Str) :
    DifferInOne (seedMaterial (before ++ s :: after)) (seedMaterial (before ++ t :: after)) := by
  simp only [seedMaterial, List.flatMap_append, List.flatMap_cons, List.append_assoc]
  have hwithin := h.within (before.flatMap fun part => Utf8.encode part ++ [0])
    ([0] ++ after.flatMap fun part => Utf8.encode part ++ [0])
  simpa only [List.append_assoc] using hwithin

/-- The digits of a number before its last. -/
def decadeDigits (decade : Nat) : Str := if decade = 0 then [] else Nat.toDigits 10 decade

theorem decimal_eq_decadeDigits (n : Nat) : decimal n = decadeDigits (n / 10) ++ [Nat.digitChar (n % 10)] := by
  have hn : ¬ (n : Int) < 0 := by omega
  rw [decimal, if_neg hn, Int.natAbs_natCast, Nat.toDigits_eq_if (by decide), decadeDigits]
  by_cases hlt : n < 10
  · rw [if_pos hlt, if_pos (by omega), Nat.mod_eq_of_lt hlt, List.nil_append]
  · rw [if_neg hlt, if_neg (by omega)]

theorem encode_digitChar {d : Nat} (hd : d < 10) : Utf8.encode [Nat.digitChar d] = [UInt8.ofNat (48 + d)] := by
  interval_cases d <;> rfl

/-- Numbers of one decade are spelled alike but for the last digit. -/
theorem differInOne_decimal {m n : Nat} (hdecade : m / 10 = n / 10) (hne : m ≠ n) :
    DifferInOne (Utf8.encode (decimal m)) (Utf8.encode (decimal n)) := by
  refine ⟨Utf8.encode (decadeDigits (m / 10)), [], .ofNat (48 + m % 10), .ofNat (48 + n % 10), ?_, ?_, ?_⟩
  · rw [decimal_eq_decadeDigits, Utf8.encode_append, encode_digitChar (Nat.mod_lt _ (by decide))]
  · rw [decimal_eq_decadeDigits, Utf8.encode_append, encode_digitChar (Nat.mod_lt _ (by decide)), hdecade]
  · rw [ne_eq, ← UInt8.toNat_inj, UInt8.toNat_ofNat', UInt8.toNat_ofNat']
    omega

/-- Parts, each closed by a zero character. -/
def closedParts (parts : List Str) : Str := parts.flatMap fun part => part ++ ['\x00']

theorem encode_closedParts : ∀ parts : List Str, Utf8.encode (closedParts parts) = seedMaterial parts
  | [] => rfl
  | part :: parts => by
    rw [closedParts, List.flatMap_cons, ← closedParts, Utf8.encode_append, Utf8.encode_append,
      encode_closedParts parts]
    rfl

theorem split_closedParts : ∀ parts : List Str,
    (closedParts parts).split '\x00' = (parts.flatMap fun part => part.split '\x00') ++ [[]]
  | [] => rfl
  | part :: parts => by
    rw [closedParts, List.flatMap_cons, ← closedParts, List.append_assoc, List.singleton_append,
      Str.split_append_cons, split_closedParts parts, List.flatMap_cons, List.append_assoc]

theorem split_inj {sep : Char} {s t : Str} : s.split sep = t.split sep ↔ s = t := by
  refine ⟨fun h => ?_, fun h => h ▸ rfl⟩
  have hjoin : ∀ u : Str, [sep].intercalate (u.split sep) = u := fun u => List.intercalate_splitOn sep
  rw [← hjoin s, h, hjoin]

theorem flatMap_split_eq_self {sep : Char} : ∀ {parts : List Str}, (∀ part ∈ parts, sep ∉ part) →
    (parts.flatMap fun part => part.split sep) = parts
  | [], _ => rfl
  | part :: parts, h => by
    rw [List.flatMap_cons, Str.split, List.splitOn_eq_singleton (h part (List.mem_cons_self ..)), List.singleton_append,
      flatMap_split_eq_self fun p hp => h p (List.mem_cons_of_mem _ hp)]

/-- Materials are the same exactly if the parts are, once cut at the zero characters. -/
theorem seedMaterial_eq_iff {parts parts' : List Str} :
    seedMaterial parts = seedMaterial parts' ↔
      (parts.flatMap fun part => part.split '\x00') = parts'.flatMap fun part => part.split '\x00' := by
  rw [← encode_closedParts, ← encode_closedParts, Utf8.encode_injective.eq_iff, ← @split_inj '\x00',
    split_closedParts, split_closedParts, List.append_left_inj]

/-- Two seeds whose parts are the same but for one byte of one part are different; so all cycles of one
decade have different seeds, for any world and any labels. -/
theorem seeds_differ (world : WorldRef W I) (world' : WorldRef V J) (cycle cycle' : CycleNumber)
    (labels labels' : List Str) :
    (∀ before after s t, seedParts world cycle labels = before ++ s :: after →
      seedParts world' cycle' labels' = before ++ t :: after → DifferInOne (Utf8.encode s) (Utf8.encode t) →
      deterministicCycleSeed world cycle labels ≠ deterministicCycleSeed world' cycle' labels') ∧
    (cycle.value.toNat / 10 = cycle'.value.toNat / 10 → cycle ≠ cycle' →
      deterministicCycleSeed world cycle labels ≠ deterministicCycleSeed world cycle' labels) := by
  have hpart : ∀ before after s t, DifferInOne (Utf8.encode s) (Utf8.encode t) →
      fnv1aUpdate 0xcbf29ce484222325 (seedMaterial (before ++ s :: after)) ≠
        fnv1aUpdate 0xcbf29ce484222325 (seedMaterial (before ++ t :: after)) := fun before after s t h =>
    foldl_ne_of_differInOne fnv1aStep_state fnv1aStep_byte _ (differInOne_seedMaterial h before after)
  refine ⟨fun before after s t hs ht hst => ?_, fun hdecade hne => ?_⟩
  · rw [deterministicCycleSeed_eq, deterministicCycleSeed_eq, hs, ht]
    exact hpart before after s t hst
  · rw [deterministicCycleSeed_eq, deterministicCycleSeed_eq]
    have hvalue : cycle.value.toNat ≠ cycle'.value.toNat := fun heq => hne (CycleNumber.toNat_inj.1 heq)
    exact hpart [display world.worldId, display world.incarnation] labels _ _ (differInOne_decimal hdecade hvalue)

/-- What a seed is the hash of: it is the same for two calls exactly if their parts, cut at the zero
characters, are; so calls without a zero character in any part share it only if all parts are equal, and
a label with one is as good as two labels. -/
theorem seed_material (world : WorldRef W I) (world' : WorldRef V J) (cycle cycle' : CycleNumber)
    (labels labels' : List Str) :
    deterministicCycleSeed world cycle labels =
      fnv1aUpdate 0xcbf29ce484222325 (seedMaterial (seedParts world cycle labels)) ∧
    (seedMaterial (seedParts world cycle labels) = seedMaterial (seedParts world' cycle' labels') ↔
      ((seedParts world cycle labels).flatMap fun part => part.split '\x00') =
        (seedParts world' cycle' labels').flatMap fun part => part.split '\x00') ∧
    ((∀ part ∈ seedParts world cycle labels ++ seedParts world' cycle' labels', '\x00' ∉ part) →
      seedMaterial (seedParts world cycle labels) = seedMaterial (seedParts world' cycle' labels') →
      display world.worldId = display world'.worldId ∧ display world.incarnation = display world'.incarnation ∧
        cycle = cycle' ∧ labels = labels') ∧
    ∀ a b before after, labels = before ++ (a ++ '\x00' :: b) :: after →
      deterministicCycleSeed world cycle labels = deterministicCycleSeed world cycle (before ++ a :: b :: after) := by
  refine ⟨deterministicCycleSeed_eq world cycle labels, seedMaterial_eq_iff, fun hzero h => ?_, ?_⟩
  · rw [seedMaterial_eq_iff, flatMap_split_eq_self fun part hp => hzero part (List.mem_append_left _ hp),
      flatMap_split_eq_self fun part hp => hzero part (List.mem_append_right _ hp)] at h
    simp only [seedParts, List.cons_append, List.nil_append, List.cons.injEq] at h
    obtain ⟨hworld, hincarnation, hcycle, hlabels⟩ := h
    exact ⟨hworld, hincarnation, CycleNumber.toNat_inj.1 (Int.ofNat_inj.1 (decimal_injective hcycle)), hlabels⟩
  · rintro a b before after rfl
    rw [deterministicCycleSeed_eq, deterministicCycleSeed_eq]
    congr 1
    rw [seedMaterial_eq_iff]
    simp only [seedParts, List.flatMap_append, List.flatMap_cons, Str.split_append_cons, List.append_assoc]

end

end WorldInfra.WorldClock
