/-
Short names of a few characters, as several crates validate them: no control character anywhere, and the
trimmed text not empty, of bounded length, and of allowed characters only.
-/
import WorldInfra.Rust.Text

namespace WorldInfra.Rust.Str

/-- A name of at most `max` bytes, of allowed characters. -/
structure IsToken (max : Nat) (allowed : Char → Bool) (value : Str) : Prop where
  nonempty : value ≠ []
  len_le : value.len ≤ max
  allowed : ∀ ch ∈ value, allowed ch = true

/-- What the validators have in common; the errors differ, and the first of them that applies is reported. -/
def validateToken {ε : Type} (invalidCharacter : Char → ε) (empty : ε) (tooLong : Nat → ε) (max : Nat)
    (allowed : Char → Bool) (value : Str) : Except ε Str :=
  match value.find? isControl with
  | some ch => .error (invalidCharacter ch)
  | none =>
    let value := value.trim
    if value.isEmpty then .error empty
    else if value.len > max then .error (tooLong value.len)
    else
      match value.find? fun ch => !allowed ch with
      | some ch => .error (invalidCharacter ch)
      | none => .ok value

variable {ε : Type} {invalidCharacter : Char → ε} {empty : ε} {tooLong : Nat → ε} {max : Nat} {allowed : Char → Bool}

theorem validateToken_eq_ok {value v : Str} :
    validateToken invalidCharacter empty tooLong max allowed value = .ok v ↔
      (∀ ch ∈ value, isControl ch = false) ∧ v = value.trim ∧ IsToken max allowed v := by
  unfold validateToken
  constructor
  · intro h
    split at h
    · cases h
    · next hctl =>
      simp only at h
      split at h
      · cases h
      · next hempty =>
        split at h
        · cases h
        · next hlen =>
          split at h
          · cases h
          · next hall =>
            obtain rfl := Except.ok.inj h
            simp only [List.find?_eq_none, Bool.not_eq_true, Bool.not_eq_false'] at hctl hall
            exact ⟨hctl, rfl, fun hnil => hempty (List.isEmpty_iff.2 hnil), Nat.not_lt.1 hlen, hall⟩
  · rintro ⟨hctl, rfl, hnonempty, hlen, hall⟩
    have hfind : value.find? isControl = none := List.find?_eq_none.2 fun ch hch => by simp [hctl ch hch]
    have hfind' : value.trim.find? (fun ch => !allowed ch) = none :=
      List.find?_eq_none.2 fun ch hch => by simp [hall ch hch]
    rw [hfind]
    simp only
    rw [if_neg (fun hempty => hnonempty (List.isEmpty_iff.1 hempty)), if_neg (Nat.not_lt.2 hlen), hfind']

/-- A name is accepted as it stands, if no allowed character is white space or a control character. -/
theorem validateToken_self (hallowed : ∀ ch, allowed ch = true → isWhitespace ch = false ∧ isControl ch = false)
    {value : Str} (h : IsToken max allowed value) :
    validateToken invalidCharacter empty tooLong max allowed value = .ok value := by
  refine validateToken_eq_ok.2 ⟨fun ch hch => (hallowed ch (h.allowed ch hch)).2, ?_, h⟩
  exact (trim_eq_self fun ch hch => (hallowed ch (h.allowed ch hch)).1).symm

/-! ## Collecting results -/

/-- `collect` into a `Result`: it succeeds if every element does. -/
theorem mapM_eq_ok {α β : Type} {f : α → Except ε β} : ∀ {l : List α} {r : List β},
    l.mapM f = .ok r ↔ List.Forall₂ (fun a b => f a = .ok b) l r
  | [], r => by
    rw [List.mapM_nil]
    constructor
    · rintro ⟨⟩
      exact .nil
    · rintro ⟨⟩
      rfl
  | a :: l, r => by
    rw [List.mapM_cons, bind_eq_ok]
    constructor
    · rintro ⟨b, hb, h⟩
      obtain ⟨bs, hbs, h⟩ := bind_eq_ok.1 h
      obtain rfl := Except.ok.inj h
      exact .cons hb (mapM_eq_ok.1 hbs)
    · rintro (_ | ⟨hb, hbs⟩)
      exact ⟨_, hb, bind_eq_ok.2 ⟨_, mapM_eq_ok.2 hbs, rfl⟩⟩

/-- A loop of checks runs to its end if every check does. -/
theorem forM_eq_ok {α : Type} {f : α → Except ε Unit} : ∀ {l : List α}, forM l f = .ok () ↔ ∀ a ∈ l, f a = .ok ()
  | [] => by simp [pure, Except.pure]
  | a :: l => by
    rw [List.forM_cons, bind_eq_ok, List.forall_mem_cons]
    constructor
    · rintro ⟨⟨⟩, ha, hl⟩
      exact ⟨ha, forM_eq_ok.1 hl⟩
    · rintro ⟨ha, hl⟩
      exact ⟨(), ha, forM_eq_ok.2 hl⟩

/-- Its error is that of the first check that fails. -/
theorem forM_eq_error {α : Type} {f : α → Except ε Unit} {error : ε} : ∀ {l : List α},
    forM l f = .error error ↔
      ∃ before a after, l = before ++ a :: after ∧ (∀ b ∈ before, f b = .ok ()) ∧ f a = .error error
  | [] => by simp [pure, Except.pure]
  | a :: l => by
    rw [List.forM_cons]
    cases ha : f a with
    | error e =>
      constructor
      · rintro ⟨⟩
        exact ⟨[], a, l, rfl, by simp, ha⟩
      · rintro ⟨_ | ⟨b, before⟩, a', after, h, hbefore, ha'⟩
        · cases h
          rw [ha] at ha'
          exact ha'
        · cases h
          have hb := hbefore a (List.mem_cons_self ..)
          rw [ha] at hb
          cases hb
    | ok u =>
      refine Iff.trans (forM_eq_error (l := l)) ?_
      constructor
      · rintro ⟨before, a', after, rfl, hbefore, ha'⟩
        refine ⟨a :: before, a', after, rfl, ?_, ha'⟩
        rw [List.forall_mem_cons]
        exact ⟨ha, hbefore⟩
      · rintro ⟨_ | ⟨b, before⟩, a', after, h, hbefore, ha'⟩
        · cases h
          rw [ha] at ha'
          cases ha'
        · cases h
          exact ⟨before, a', after, rfl, fun c hc => hbefore c (List.mem_cons_of_mem _ hc), ha'⟩

theorem mapM_isOk_iff {α β : Type} {f : α → Except ε β} {l : List α} :
    (∃ r, l.mapM f = .ok r) ↔ ∀ a ∈ l, ∃ b, f a = .ok b := by
  simp only [mapM_eq_ok]
  induction l with
  | nil => simp
  | cons a l ih =>
    rw [List.forall_mem_cons, ← ih]
    constructor
    · rintro ⟨_, _ | ⟨hb, hbs⟩⟩
      exact ⟨⟨_, hb⟩, _, hbs⟩
    · rintro ⟨⟨b, hb⟩, bs, hbs⟩
      exact ⟨b :: bs, .cons hb hbs⟩

end WorldInfra.Rust.Str
