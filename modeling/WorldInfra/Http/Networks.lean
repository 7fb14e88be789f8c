/-
Networks as prefixes: an address is in a network if the two agree on their first bits. So one network
is part of another exactly if its prefix is at least as long and begins with the other's, and two
networks that meet are one part of the other.
-/
import WorldInfra.Http.ClientIp

namespace WorldInfra.Http

open WorldInfra.Rust

/-! ## Shifts and masks -/

section

variable {w : Nat} {x y : BitVec w}

theorem and_allOnes_shiftLeft_eq_iff (x y : BitVec w) (k : Nat) :
    x &&& BitVec.allOnes w <<< k = y &&& BitVec.allOnes w <<< k ↔ x >>> k = y >>> k := by
  constructor
  · intro h
    ext i hi
    have hbit := congrArg (fun z => z.getLsbD (k + i)) h
    by_cases hk : k + i < w
    · simpa [hk] using hbit
    · simp [BitVec.getLsbD_of_ge x (k + i) (by omega), BitVec.getLsbD_of_ge y (k + i) (by omega)]
  · intro h
    ext i hi
    by_cases hk : i < k
    · simp [hk]
    · have hbit := congrArg (fun z => z.getLsbD (i - k)) h
      simp only [BitVec.getLsbD_ushiftRight, show k + (i - k) = i by omega] at hbit
      simpa [hk, hi] using hbit

theorem ushiftRight_eq_iff {k : Nat} : x >>> k = y >>> k ↔ x.toNat / 2 ^ k = y.toNat / 2 ^ k := by
  rw [← BitVec.toNat_inj, BitVec.toNat_ushiftRight, BitVec.toNat_ushiftRight, Nat.shiftRight_eq_div_pow,
    Nat.shiftRight_eq_div_pow]

theorem ushiftRight_eq_of_le {i j : Nat} (hij : i ≤ j) (h : x >>> i = y >>> i) : x >>> j = y >>> j := by
  rw [← Nat.add_sub_cancel' hij, BitVec.shiftRight_add, BitVec.shiftRight_add, h]

/-- Another value that differs in one bit only, and so past any shift that leaves that bit. -/
theorem exists_ushiftRight_ne {k : Nat} (hk : k < w) (x : BitVec w) :
    ∃ y : BitVec w, x >>> (k + 1) = y >>> (k + 1) ∧ ∀ j ≤ k, x >>> j ≠ y >>> j := by
  refine ⟨x ^^^ BitVec.twoPow w k, ?_, fun j hj h => ?_⟩
  · ext i hi
    simp only [BitVec.getElem_ushiftRight, BitVec.getLsbD_xor, BitVec.getLsbD_twoPow]
    simp [show k ≠ k + 1 + i by omega]
  · have hbit := congrArg (fun z => z.getLsbD (k - j)) h
    simp only [BitVec.getLsbD_ushiftRight, BitVec.getLsbD_xor, BitVec.getLsbD_twoPow,
      show j + (k - j) = k by omega] at hbit
    simp [hk] at hbit

end

/-! ## Prefixes -/

/-- Two addresses of one family that agree on their first `k` bits. -/
def SharePrefix (k : Nat) : IpAddr → IpAddr → Prop
  | .v4 x, .v4 y => x >>> (32 - k) = y >>> (32 - k)
  | .v6 x, .v6 y => x >>> (128 - k) = y >>> (128 - k)
  | _, _ => False

theorem SharePrefix.refl (k : Nat) : ∀ a : IpAddr, SharePrefix k a a
  | .v4 _ => rfl
  | .v6 _ => rfl

theorem SharePrefix.symm {k : Nat} {a b : IpAddr} (h : SharePrefix k a b) : SharePrefix k b a := by
  cases a <;> cases b <;> first | exact h.elim | exact Eq.symm h

theorem SharePrefix.trans {k : Nat} {a b c : IpAddr} (hab : SharePrefix k a b) (hbc : SharePrefix k b c) :
    SharePrefix k a c := by
  cases a <;> cases b <;> cases c <;> first | exact hab.elim | exact hbc.elim | exact Eq.trans hab hbc

theorem SharePrefix.mono {k l : Nat} (hkl : k ≤ l) {a b : IpAddr} (h : SharePrefix l a b) : SharePrefix k a b := by
  cases a <;> cases b
  · exact ushiftRight_eq_of_le (by omega) h
  · exact h.elim
  · exact h.elim
  · exact ushiftRight_eq_of_le (by omega) h

theorem exists_not_sharePrefix {k : Nat} (a : IpAddr) (hk : k < a.bits) :
    ∃ b, SharePrefix k a b ∧ ∀ l, k < l → ¬ SharePrefix l a b := by
  cases a with
  | v4 x =>
    replace hk : k < 32 := hk
    obtain ⟨y, heq, hne⟩ := exists_ushiftRight_ne (show 32 - k - 1 < 32 by omega) x
    rw [show 32 - k - 1 + 1 = 32 - k by omega] at heq
    exact ⟨.v4 y, heq, fun l hl => hne (32 - l) (by omega)⟩
  | v6 x =>
    replace hk : k < 128 := hk
    obtain ⟨y, heq, hne⟩ := exists_ushiftRight_ne (show 128 - k - 1 < 128 by omega) x
    rw [show 128 - k - 1 + 1 = 128 - k by omega] at heq
    exact ⟨.v6 y, heq, fun l hl => hne (128 - l) (by omega)⟩

/-! ## Networks -/

namespace Cidr

theorem mask_eq (w k : Nat) :
    (if k = 0 then 0 else BitVec.allOnes w <<< (w - k)) = BitVec.allOnes w <<< (w - k) := by
  split
  · rename_i h
    rw [h, Nat.sub_zero, BitVec.shiftLeft_eq_zero (Nat.le_refl w)]
    rfl
  · rfl

theorem contains_iff (network : Cidr) (addr : IpAddr) :
    network.contains addr = true ↔ SharePrefix network.prefixLen network.addr addr := by
  obtain ⟨base, k, hk⟩ := network
  cases base <;> cases addr <;>
    simp only [contains, SharePrefix, mask_eq, beq_iff_eq, and_allOnes_shiftLeft_eq_iff, Bool.false_eq_true]

theorem contains_addr (network : Cidr) : network.contains network.addr = true :=
  network.contains_iff _ |>.2 (.refl _ _)

/-- A network is part of another exactly if its prefix is at least as long and its address is in the other. -/
theorem subset_iff (a b : Cidr) :
    (∀ addr, a.contains addr = true → b.contains addr = true) ↔
      b.prefixLen ≤ a.prefixLen ∧ b.contains a.addr = true := by
  constructor
  · intro h
    have hba := h a.addr a.contains_addr
    refine ⟨Nat.le_of_not_lt fun hlt => ?_, hba⟩
    rw [contains_iff] at hba
    -- an address that leaves `b` where `a` still has it
    have hbits : a.prefixLen < a.addr.bits := by
      refine Nat.lt_of_lt_of_le hlt (b.le.trans (le_of_eq ?_))
      cases hb : b.addr <;> cases ha : a.addr <;> simp_all [SharePrefix, IpAddr.bits]
    obtain ⟨addr, hin, hout⟩ := exists_not_sharePrefix a.addr hbits
    have hb := (b.contains_iff addr).1 (h addr ((a.contains_iff addr).2 hin))
    exact hout b.prefixLen hlt (hba.symm.trans hb)
  · rintro ⟨hle, hba⟩ addr haddr
    rw [contains_iff] at hba haddr ⊢
    exact hba.trans (haddr.mono hle)

/-- Two networks that have an address in common are one part of the other: the one with the longer prefix. -/
theorem subset_of_meet {a b : Cidr} {addr : IpAddr} (ha : a.contains addr = true) (hb : b.contains addr = true)
    (hle : b.prefixLen ≤ a.prefixLen) : ∀ addr', a.contains addr' = true → b.contains addr' = true := by
  refine (subset_iff a b).2 ⟨hle, ?_⟩
  rw [contains_iff] at ha hb ⊢
  exact hb.trans (ha.mono hle).symm

/-- A network is part of another exactly if its prefix is at least as long and its address is in the other;
and any two networks are one part of the other, or have no address in common. -/
theorem nested_or_disjoint (a b : Cidr) :
    ((∀ addr, a.contains addr = true → b.contains addr = true) ↔
      b.prefixLen ≤ a.prefixLen ∧ b.contains a.addr = true) ∧
    ((∀ addr, a.contains addr = true → b.contains addr = true) ∨
      (∀ addr, b.contains addr = true → a.contains addr = true) ∨
      ∀ addr, ¬ (a.contains addr = true ∧ b.contains addr = true)) := by
  refine ⟨subset_iff a b, ?_⟩
  by_cases hmeet : ∃ addr, a.contains addr = true ∧ b.contains addr = true
  · obtain ⟨addr, ha, hb⟩ := hmeet
    rcases Nat.le_total b.prefixLen a.prefixLen with hle | hle
    · exact .inl (subset_of_meet ha hb hle)
    · exact .inr (.inl (subset_of_meet hb ha hle))
  · exact .inr (.inr fun addr h => hmeet ⟨addr, h⟩)

end Cidr

end WorldInfra.Http
