/-
Self-delimiting encodings: a value is read back from its code whatever follows it. Codes of one
length, codes closed by a separator and bodies that stand behind their size are such encodings.
-/
import Mathlib

namespace WorldInfra.Lib

variable {α β : Type}

/-- The code of a value of `s` can be split off the front of any text. -/
def SelfDelimitingOn (s : Set α) (enc : α → List β) : Prop :=
  ∀ ⦃a⦄, a ∈ s → ∀ ⦃b⦄, b ∈ s → ∀ ⦃u v⦄, enc a ++ u = enc b ++ v → a = b ∧ u = v

/-- Two texts with a separator are cut alike where it first occurs. -/
theorem append_sep_inj {t : β} : ∀ {a b u v : List β}, t ∉ a → t ∉ b → a ++ t :: u = b ++ t :: v → a = b ∧ u = v
  | [], [], _, _, _, _, h => ⟨rfl, List.tail_eq_of_cons_eq h⟩
  | [], c :: b, _, _, _, hb, h => by
    rw [List.nil_append, List.cons_append, List.cons.injEq] at h
    exact absurd (h.1 ▸ List.mem_cons_self ..) hb
  | c :: a, [], _, _, ha, _, h => by
    rw [List.nil_append, List.cons_append, List.cons.injEq] at h
    exact absurd (h.1 ▸ List.mem_cons_self ..) ha
  | c :: a, d :: b, u, v, ha, hb, h => by
    rw [List.cons_append, List.cons_append, List.cons.injEq] at h
    obtain ⟨rfl, h⟩ := h
    obtain ⟨rfl, huv⟩ := append_sep_inj (fun hm => ha (List.mem_cons_of_mem _ hm))
      (fun hm => hb (List.mem_cons_of_mem _ hm)) h
    exact ⟨rfl, huv⟩

/-- And so are they where it last occurs. -/
theorem append_sep_inj_last {t : β} {a b u v : List β} (hu : t ∉ u) (hv : t ∉ v) (h : a ++ t :: u = b ++ t :: v) :
    a = b ∧ u = v := by
  have hrev : u.reverse ++ t :: a.reverse = v.reverse ++ t :: b.reverse := by
    simpa using congrArg List.reverse h
  obtain ⟨huv, hab⟩ := append_sep_inj (fun hm => hu (List.mem_reverse.1 hm)) (fun hm => hv (List.mem_reverse.1 hm)) hrev
  exact ⟨List.reverse_injective hab, List.reverse_injective huv⟩

namespace SelfDelimitingOn

variable {s : Set α} {enc : α → List β}

theorem of_length {n : Nat} (hlen : ∀ a ∈ s, (enc a).length = n) (hinj : Set.InjOn enc s) :
    SelfDelimitingOn s enc := by
  intro a ha b hb u v h
  obtain ⟨hab, huv⟩ := List.append_inj h (by rw [hlen a ha, hlen b hb])
  exact ⟨hinj ha hb hab, huv⟩

/-- A code that has no separator in it, and is closed by one. -/
theorem of_sep {t : β} (hsep : ∀ a ∈ s, t ∉ enc a) (hinj : Set.InjOn enc s) :
    SelfDelimitingOn s fun a => enc a ++ [t] := by
  intro a ha b hb u v h
  rw [List.append_assoc, List.append_assoc] at h
  obtain ⟨hab, huv⟩ := append_sep_inj (hsep a ha) (hsep b hb) h
  exact ⟨hinj ha hb hab, huv⟩

/-- The codes of a list, closed by a mark that no code begins with. -/
theorem list_closed {t : β} (henc : SelfDelimitingOn s enc) (hmark : ∀ a ∈ s, ∀ u v, enc a ++ u ≠ t :: v) :
    SelfDelimitingOn {l : List α | ∀ a ∈ l, a ∈ s} fun l => l.flatMap enc ++ [t] := by
  intro l hl
  induction l with
  | nil =>
    rintro (_ | ⟨b, m⟩) hm u v h
    · exact ⟨rfl, List.tail_eq_of_cons_eq h⟩
    · simp only [List.flatMap_nil, List.nil_append, List.flatMap_cons, List.append_assoc, List.cons_append] at h
      exact absurd h.symm (hmark b (hm b (List.mem_cons_self ..)) _ _)
  | cons a l ih =>
    rintro (_ | ⟨b, m⟩) hm u v h
    · simp only [List.flatMap_nil, List.nil_append, List.flatMap_cons, List.append_assoc, List.cons_append] at h
      exact absurd h (hmark a (hl a (List.mem_cons_self ..)) _ _)
    · simp only [List.flatMap_cons, List.append_assoc] at h
      obtain ⟨rfl, hrest⟩ := henc (hl a (List.mem_cons_self ..)) (hm b (List.mem_cons_self ..)) h
      rw [← List.append_assoc, ← List.append_assoc] at hrest
      obtain ⟨rfl, huv⟩ := ih (fun c hc => hl c (List.mem_cons_of_mem _ hc))
        (fun c hc => hm c (List.mem_cons_of_mem _ hc)) hrest
      exact ⟨rfl, huv⟩

/-- A body behind the code of its size. -/
theorem sized {γ : Type} {t : Set γ} {head : γ → List β} (hhead : SelfDelimitingOn t head) {size : α → γ}
    (hsize : ∀ a ∈ s, size a ∈ t)
    (hbody : ∀ ⦃a⦄, a ∈ s → ∀ ⦃b⦄, b ∈ s → size a = size b → ∀ ⦃u v⦄, enc a ++ u = enc b ++ v → a = b ∧ u = v) :
    SelfDelimitingOn s fun a => head (size a) ++ enc a := by
  intro a ha b hb u v h
  rw [List.append_assoc, List.append_assoc] at h
  obtain ⟨hab, hrest⟩ := hhead (hsize a ha) (hsize b hb) h
  exact hbody ha hb hab hrest

end SelfDelimitingOn

end WorldInfra.Lib
