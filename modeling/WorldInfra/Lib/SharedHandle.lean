/-
A slot that clients share: each takes the handle it finds there, or makes one of its own and puts it
there, and any of them may empty the slot. Whatever the order of their steps, a handle is put there
at most once, so a handle that was there and is no longer is never found there again.
-/
import WorldInfra.Lib.Machine

namespace WorldInfra.Lib

/-- A client has no handle, has one it has not shared yet, or works with a shared one. -/
inductive SharedHandle.Phase where
  | idle
  | private' (h : Nat)
  | holding (h : Nat)
  deriving DecidableEq, Repr

/-- Handles are numbered in the order they are made. -/
structure SharedHandle (C : Type) where
  slot : Option Nat
  made : Nat
  phase : C → SharedHandle.Phase

namespace SharedHandle

inductive Action where
  | take
  | make
  | publish
  | abandon
  | empty
  deriving DecidableEq, Repr

variable {C : Type} [DecidableEq C]

/-- A client's step; an action that is not possible in the client's phase does nothing. -/
def step (s : SharedHandle C) (c : C) (a : Action) : SharedHandle C :=
  match a, s.phase c with
  | .take, .idle =>
    match s.slot with
    | some h => { s with phase := Function.update s.phase c (.holding h) }
    | none => s
  | .make, .idle => { s with made := s.made + 1, phase := Function.update s.phase c (.private' s.made) }
  | .publish, .private' h => { s with slot := some h, phase := Function.update s.phase c (.holding h) }
  | .abandon, _ => { s with phase := Function.update s.phase c .idle }
  | .empty, .holding _ => { s with slot := none, phase := Function.update s.phase c .idle }
  | _, _ => s

/-- Clients' steps in the order they come. -/
def run (s : SharedHandle C) (l : List (C × Action)) : SharedHandle C := l.foldl (fun s e => s.step e.1 e.2) s

@[simp] theorem run_nil (s : SharedHandle C) : s.run [] = s := rfl

@[simp] theorem run_cons (s : SharedHandle C) (e : C × Action) (l : List (C × Action)) :
    s.run (e :: l) = (s.step e.1 e.2).run l := rfl

/-! ## Single steps -/

variable {s : SharedHandle C} {c : C} {h : Nat}

theorem step_take (hc : s.phase c = .idle) (hs : s.slot = some h) :
    s.step c .take = { s with phase := Function.update s.phase c (.holding h) } := by
  simp only [step, hc, hs]

theorem step_take_none (hs : s.slot = none) : s.step c .take = s := by
  cases hc : s.phase c <;> simp only [step, hc, hs]

theorem step_make (hc : s.phase c = .idle) :
    s.step c .make = { s with made := s.made + 1, phase := Function.update s.phase c (.private' s.made) } := by
  simp only [step, hc]

theorem step_publish (hc : s.phase c = .private' h) :
    s.step c .publish = { s with slot := some h, phase := Function.update s.phase c (.holding h) } := by
  simp only [step, hc]

theorem step_abandon : s.step c .abandon = { s with phase := Function.update s.phase c .idle } := by
  simp only [step]

theorem step_empty (hc : s.phase c = .holding h) :
    s.step c .empty = { s with slot := none, phase := Function.update s.phase c .idle } := by
  simp only [step, hc]

/-- What a step can do, and in which phase. -/
theorem step_cases (s : SharedHandle C) (c : C) (a : Action) :
    s.step c a = s ∨
    (∃ h, s.phase c = .idle ∧ s.slot = some h ∧
      s.step c a = { s with phase := Function.update s.phase c (.holding h) }) ∨
    (s.phase c = .idle ∧
      s.step c a = { s with made := s.made + 1, phase := Function.update s.phase c (.private' s.made) }) ∨
    (∃ h, s.phase c = .private' h ∧
      s.step c a = { s with slot := some h, phase := Function.update s.phase c (.holding h) }) ∨
    s.step c a = { s with phase := Function.update s.phase c .idle } ∨
    (∃ h, s.phase c = .holding h ∧ s.step c a = { s with slot := none, phase := Function.update s.phase c .idle }) := by
  cases a with
  | take =>
    cases hs : s.slot with
    | none => exact .inl (step_take_none hs)
    | some h =>
      cases hp : s.phase c with
      | idle => exact .inr (.inl ⟨h, rfl, rfl, by rw [step_take hp hs, hs]⟩)
      | private' h => exact .inl (by simp only [step, hp])
      | holding h => exact .inl (by simp only [step, hp])
  | make =>
    cases hp : s.phase c with
    | idle => exact .inr (.inr (.inl ⟨rfl, step_make hp⟩))
    | private' h => exact .inl (by simp only [step, hp])
    | holding h => exact .inl (by simp only [step, hp])
  | publish =>
    cases hp : s.phase c with
    | idle => exact .inl (by simp only [step, hp])
    | private' h => exact .inr (.inr (.inr (.inl ⟨h, rfl, step_publish hp⟩)))
    | holding h => exact .inl (by simp only [step, hp])
  | abandon => exact .inr (.inr (.inr (.inr (.inl step_abandon))))
  | empty =>
    cases hp : s.phase c with
    | idle => exact .inl (by simp only [step, hp])
    | private' h => exact .inl (by simp only [step, hp])
    | holding h => exact .inr (.inr (.inr (.inr (.inr ⟨h, rfl, step_empty hp⟩))))

/-! ## The invariant -/

/-- Every handle around has been made, and one that is not shared yet is with one client alone. -/
structure Sound (s : SharedHandle C) : Prop where
  slot_lt : ∀ h, s.slot = some h → h < s.made
  private_lt : ∀ c h, s.phase c = .private' h → h < s.made
  holding_lt : ∀ c h, s.phase c = .holding h → h < s.made
  private_slot : ∀ c h, s.phase c = .private' h → s.slot ≠ some h
  private_unique : ∀ c d h, s.phase c = .private' h → s.phase d = .private' h → c = d
  private_holding : ∀ c d h, s.phase c = .private' h → s.phase d ≠ .holding h

theorem Sound.step {s : SharedHandle C} (hs : s.Sound) (c : C) (a : Action) : (s.step c a).Sound := by
  obtain ⟨h1, h2, h3, h4, h5, h6⟩ := hs
  obtain h | ⟨h, hp, hslot, h'⟩ | ⟨hp, h'⟩ | ⟨h, hp, h'⟩ | h' | ⟨h, hp, h'⟩ := s.step_cases c a
  · rw [h]
    exact ⟨h1, h2, h3, h4, h5, h6⟩
  all_goals
    rw [h']
    constructor <;> grind [Function.update_apply]

theorem Sound.run : ∀ {s : SharedHandle C} (l : List (C × Action)), s.Sound → (s.run l).Sound
  | _, [], hs => hs
  | _, e :: l, hs => Sound.run l (hs.step e.1 e.2)

/-! ## Retired handles -/

/-- A handle that was made, is not in the slot, and that no client could still put there. -/
structure Retired (h : Nat) (s : SharedHandle C) : Prop where
  made : h < s.made
  slot : s.slot ≠ some h
  phase : ∀ c, s.phase c ≠ .private' h

/-- The one step that takes a shared handle out of the slot retires every handle a client holds. -/
theorem Sound.retired_of_empty {s : SharedHandle C} (hs : s.Sound) {c d : C} {h h' : Nat}
    (hc : s.phase c = .holding h) (hd : s.phase d = .holding h') : Retired h' (s.step c .empty) := by
  rw [step_empty hc]
  refine ⟨hs.holding_lt d h' hd, by simp, fun e he => ?_⟩
  simp only [Function.update_apply] at he
  split at he
  · cases he
  · exact hs.private_holding e d h' he hd

theorem Retired.step {h : Nat} {s : SharedHandle C} (hr : Retired h s) (c : C) (a : Action) :
    Retired h (s.step c a) := by
  obtain ⟨h1, h2, h3⟩ := hr
  obtain hstep | ⟨h', hp, hslot, hstep⟩ | ⟨hp, hstep⟩ | ⟨h', hp, hstep⟩ | hstep | ⟨h', hp, hstep⟩ :=
    s.step_cases c a
  · rw [hstep]
    exact ⟨h1, h2, h3⟩
  all_goals
    rw [hstep]
    constructor <;> grind [Function.update_apply]

theorem Retired.run {h : Nat} : ∀ {s : SharedHandle C} (l : List (C × Action)), Retired h s → Retired h (s.run l)
  | _, [], hr => hr
  | _, e :: l, hr => Retired.run l (hr.step e.1 e.2)

/-- Once a handle is retired, no client comes to hold it. -/
theorem Retired.holding_step {h : Nat} {s : SharedHandle C} (hr : Retired h s) (c : C) (a : Action) {d : C}
    (hd : (s.step c a).phase d = .holding h) : s.phase d = .holding h := by
  obtain ⟨h1, h2, h3⟩ := hr
  obtain hstep | ⟨h', hp, hslot, hstep⟩ | ⟨hp, hstep⟩ | ⟨h', hp, hstep⟩ | hstep | ⟨h', hp, hstep⟩ :=
    s.step_cases c a
  · rwa [hstep] at hd
  all_goals
    rw [hstep] at hd
    grind [Function.update_apply]

theorem Retired.holding_run {h : Nat} {d : C} : ∀ {s : SharedHandle C} (l : List (C × Action)), Retired h s →
    (s.run l).phase d = .holding h → s.phase d = .holding h
  | _, [], _, hd => hd
  | _, e :: l, hr, hd => hr.holding_step e.1 e.2 (Retired.holding_run l (hr.step e.1 e.2) hd)

end SharedHandle

end WorldInfra.Lib
