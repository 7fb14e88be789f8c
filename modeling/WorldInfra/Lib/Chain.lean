/-
Chains of steps that may fail: the first failure is the chain's, and what a step writes to a part of the
state stands until another step of the chain writes to the same part.
-/
import Mathlib

namespace WorldInfra.Lib

variable {σ α β ε : Type*} {step : σ → α → Except ε σ}

/-- A step that fails does so whatever the state, with an error of its own. -/
def FailsWith (step : σ → α → Except ε σ) (failure : α → Option ε) : Prop :=
  ∀ s a, match failure a with
    | some e => step s a = .error e
    | none => ∃ s', step s a = .ok s'

variable {failure : α → Option ε}

theorem FailsWith.eq_error (h : FailsWith step failure) {s : σ} {a : α} {e : ε} (hfail : failure a = some e) :
    step s a = .error e := by
  have hstep := h s a
  rw [hfail] at hstep
  exact hstep

theorem FailsWith.exists_ok (h : FailsWith step failure) {a : α} (hfail : failure a = none) (s : σ) :
    ∃ s', step s a = .ok s' := by
  have hstep := h s a
  rw [hfail] at hstep
  exact hstep

theorem foldlM_cons_ok {s s' : σ} {a : α} (hstep : step s a = .ok s') (l : List α) :
    (a :: l).foldlM step s = l.foldlM step s' := by
  rw [List.foldlM_cons, hstep]
  rfl

theorem foldlM_cons_error {s : σ} {a : α} {e : ε} (hstep : step s a = .error e) (l : List α) :
    (a :: l).foldlM step s = .error e := by
  rw [List.foldlM_cons, hstep]
  rfl

/-- A chain runs to its end if none of its steps fails. -/
theorem FailsWith.chain_ok_iff (h : FailsWith step failure) : ∀ {l : List α} {s : σ},
    (∃ s', l.foldlM step s = .ok s') ↔ ∀ a ∈ l, failure a = none
  | [], s => by
    rw [List.foldlM_nil]
    exact ⟨fun _ a ha => absurd ha List.not_mem_nil, fun _ => ⟨s, rfl⟩⟩
  | a :: l, s => by
    rw [List.forall_mem_cons]
    cases hfail : failure a with
    | some e =>
      rw [foldlM_cons_error (h.eq_error hfail)]
      simp
    | none =>
      obtain ⟨s', hstep⟩ := h.exists_ok hfail s
      rw [foldlM_cons_ok hstep, h.chain_ok_iff]
      simp

/-- Its error is that of the first step that fails. -/
theorem FailsWith.chain_error_iff (h : FailsWith step failure) {e : ε} : ∀ {l : List α} {s : σ},
    l.foldlM step s = .error e ↔
      ∃ before a after, l = before ++ a :: after ∧ (∀ b ∈ before, failure b = none) ∧ failure a = some e
  | [], s => by
    rw [List.foldlM_nil]
    constructor
    · rintro ⟨⟩
    · rintro ⟨before, a, after, hl, -⟩
      cases before <;> cases hl
  | a :: l, s => by
    cases hfail : failure a with
    | some e' =>
      -- the head fails: nothing can stand before it, and what stands after it is not run
      rw [foldlM_cons_error (h.eq_error hfail)]
      constructor
      · rintro ⟨⟩
        exact ⟨[], a, l, rfl, fun b hb => absurd hb List.not_mem_nil, hfail⟩
      · rintro ⟨_ | ⟨b, before⟩, a', after, hl, hbefore, ha'⟩
        · cases hl
          rw [hfail] at ha'
          rw [Option.some.inj ha']
        · cases hl
          have hb := hbefore a (List.mem_cons_self ..)
          rw [hfail] at hb
          cases hb
    | none =>
      obtain ⟨s', hstep⟩ := h.exists_ok hfail s
      rw [foldlM_cons_ok hstep, h.chain_error_iff]
      constructor
      · rintro ⟨before, a', after, rfl, hbefore, ha'⟩
        refine ⟨a :: before, a', after, rfl, ?_, ha'⟩
        rw [List.forall_mem_cons]
        exact ⟨hfail, hbefore⟩
      · rintro ⟨_ | ⟨b, before⟩, a', after, hl, hbefore, ha'⟩
        · cases hl
          rw [hfail] at ha'
          cases ha'
        · cases hl
          exact ⟨before, a', after, rfl, fun b hb => hbefore b (List.mem_cons_of_mem _ hb), ha'⟩

/-- The last of the values written by a chain. -/
def lastWritten (write : α → Option β) (l : List α) : Option β := (l.filterMap write).getLast?

theorem lastWritten_cons (write : α → Option β) (a : α) (l : List α) :
    lastWritten write (a :: l) = (lastWritten write l).or (write a) := by
  unfold lastWritten
  cases hwrite : write a with
  | none => rw [List.filterMap_cons_none hwrite, Option.or_none]
  | some b =>
    rw [List.filterMap_cons_some hwrite, List.getLast?_cons]
    cases (l.filterMap write).getLast? <;> rfl

@[simp] theorem lastWritten_append (write : α → Option β) (l m : List α) :
    lastWritten write (l ++ m) = (lastWritten write m).or (lastWritten write l) := by
  rw [lastWritten, List.filterMap_append, List.getLast?_append]
  rfl

@[simp] theorem lastWritten_singleton (write : α → Option β) (a : α) : lastWritten write [a] = write a := by
  rw [lastWritten_cons]
  rfl

/-- A step for a value that is there, and none for a value that is not. -/
@[simp] theorem lastWritten_toList {γ : Type*} (write : α → Option β) (f : γ → α) (o : Option γ) :
    lastWritten write (o.toList.map f) = o.bind fun c => write (f c) := by
  cases o with
  | none => rfl
  | some c => exact lastWritten_singleton write (f c)

/-- A part of the state that a step either writes or leaves alone. -/
theorem chain_lastWritten {part : σ → Option β} {write : α → Option β}
    (h : ∀ s a s', step s a = .ok s' → part s' = (write a).or (part s)) : ∀ {l : List α} {s s' : σ},
    l.foldlM step s = .ok s' → part s' = (lastWritten write l).or (part s)
  | [], s, s', hchain => by
    rw [List.foldlM_nil] at hchain
    cases hchain
    rfl
  | a :: l, s, s', hchain => by
    cases hstep : step s a with
    | error e =>
      rw [foldlM_cons_error hstep] at hchain
      cases hchain
    | ok t =>
      rw [foldlM_cons_ok hstep] at hchain
      rw [chain_lastWritten h hchain, h s a t hstep, lastWritten_cons, Option.or_assoc]

/-- A part of the state that no step writes. -/
theorem chain_kept {γ : Type*} (part : σ → γ) (h : ∀ s a s', step s a = .ok s' → part s' = part s) :
    ∀ {l : List α} {s s' : σ}, l.foldlM step s = .ok s' → part s' = part s
  | [], s, s', hchain => by
    rw [List.foldlM_nil] at hchain
    cases hchain
    rfl
  | a :: l, s, s', hchain => by
    cases hstep : step s a with
    | error e =>
      rw [foldlM_cons_error hstep] at hchain
      cases hchain
    | ok t =>
      rw [foldlM_cons_ok hstep] at hchain
      rw [chain_kept part h hchain, h s a t hstep]

end WorldInfra.Lib
