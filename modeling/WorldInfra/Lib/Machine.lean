/-
Deterministic machines that answer every input: runs, traces, the invariant rules (of a state
along a run, of a property that a class of events keeps), the simulation rule for machines whose
inputs carry nondecreasing times, also where one of two machines is spared some inputs, and the rule
for machines that answer by the inputs so far.
-/
import Mathlib

namespace WorldInfra.Lib

/-- A machine over states `S` that reads inputs `A` and answers each with a `B`. -/
structure Machine (S A B : Type) where
  step : S → A → B × S

namespace Machine

variable {S T A B : Type} (M : Machine S A B)

def exec : S → List A → S
  | s, [] => s
  | s, a :: l => exec (M.step s a).2 l

/-- The events of a run: every input with its answer. -/
def trace : S → List A → List (A × B)
  | _, [] => []
  | s, a :: l => (a, (M.step s a).1) :: trace (M.step s a).2 l

def outputs (s : S) (l : List A) : List B := (M.trace s l).map Prod.snd

@[simp] theorem exec_nil (s : S) : M.exec s [] = s := rfl

@[simp] theorem exec_cons (s : S) (a : A) (l : List A) : M.exec s (a :: l) = M.exec (M.step s a).2 l := rfl

@[simp] theorem trace_nil (s : S) : M.trace s [] = [] := rfl

@[simp] theorem trace_cons (s : S) (a : A) (l : List A) :
    M.trace s (a :: l) = (a, (M.step s a).1) :: M.trace (M.step s a).2 l := rfl

@[simp] theorem outputs_nil (s : S) : M.outputs s [] = [] := rfl

@[simp] theorem outputs_cons (s : S) (a : A) (l : List A) :
    M.outputs s (a :: l) = (M.step s a).1 :: M.outputs (M.step s a).2 l := rfl

theorem exec_append : ∀ (s : S) (l m : List A), M.exec s (l ++ m) = M.exec (M.exec s l) m
  | _, [], _ => rfl
  | s, a :: l, m => exec_append (M.step s a).2 l m

theorem trace_append : ∀ (s : S) (l m : List A),
    M.trace s (l ++ m) = M.trace s l ++ M.trace (M.exec s l) m
  | _, [], _ => rfl
  | s, a :: l, m => by
    simp only [List.cons_append, trace_cons, exec_cons]
    rw [trace_append (M.step s a).2 l m]

theorem map_fst_trace : ∀ (s : S) (l : List A), (M.trace s l).map Prod.fst = l
  | _, [] => rfl
  | s, a :: l => by rw [trace_cons, List.map_cons, map_fst_trace (M.step s a).2 l]

/-- Cutting a trace cuts the run that produced it. -/
theorem trace_eq_append : ∀ {s : S} {l : List A} {es fs : List (A × B)}, M.trace s l = es ++ fs →
    ∃ l₁ l₂, l = l₁ ++ l₂ ∧ M.trace s l₁ = es ∧ M.trace (M.exec s l₁) l₂ = fs
  | s, l, [], fs, h => ⟨[], l, rfl, rfl, h⟩
  | s, [], e :: es, fs, h => by simp at h
  | s, a :: l, e :: es, fs, h => by
    rw [trace_cons, List.cons_append, List.cons.injEq] at h
    obtain ⟨rfl, h⟩ := h
    obtain ⟨l₁, l₂, rfl, h₁, h₂⟩ := trace_eq_append h
    exact ⟨a :: l₁, l₂, rfl, by rw [trace_cons, h₁], h₂⟩

/-- The event at a cut is the machine's step in the state the events before it lead to. -/
theorem trace_eq_append_cons {s : S} {l : List A} {es fs : List (A × B)} {a : A} {b : B}
    (h : M.trace s l = es ++ (a, b) :: fs) :
    ∃ l₁ l₂, l = l₁ ++ a :: l₂ ∧ M.trace s l₁ = es ∧ (M.step (M.exec s l₁) a).1 = b ∧
      M.trace (M.step (M.exec s l₁) a).2 l₂ = fs := by
  obtain ⟨l₁, l₂, rfl, h₁, h₂⟩ := M.trace_eq_append h
  cases l₂ with
  | nil => simp at h₂
  | cons a' l₂ =>
    rw [trace_cons, List.cons.injEq, Prod.mk.injEq] at h₂
    obtain ⟨⟨rfl, hb⟩, h₂⟩ := h₂
    exact ⟨l₁, l₂, rfl, h₁, hb, h₂⟩

/-- The machine on inputs translated by `g`. -/
def comap {A' : Type} (g : A' → A) : Machine S A' B where
  step s a := M.step s (g a)

theorem outputs_comap {A' : Type} (g : A' → A) : ∀ (s : S) (l : List A'),
    (M.comap g).outputs s l = M.outputs s (l.map g)
  | _, [] => rfl
  | s, a :: l => by
    rw [outputs_cons, List.map_cons, outputs_cons, outputs_comap g]
    rfl

/-- The answers of a run are those of its events. -/
theorem mem_outputs {s : S} {l : List A} {e : A × B} (h : e ∈ M.trace s l) : e.2 ∈ M.outputs s l :=
  List.mem_map_of_mem h

/-- The inputs of a run are those of its events. -/
theorem mem_inputs {s : S} {l : List A} {e : A × B} (h : e ∈ M.trace s l) : e.1 ∈ l := by
  rw [← M.map_fst_trace s l]
  exact List.mem_map_of_mem h

/-- The answers to some of the inputs of a run. -/
def outputsOf (mine : A → Bool) (s : S) (l : List A) : List B := ((M.trace s l).filter fun e => mine e.1).map Prod.snd

/-! ## Invariants -/

/-- What every step keeps holds at the end of every run. -/
theorem exec_inv {I : S → Prop} (hstep : ∀ s a, I s → I (M.step s a).2) :
    ∀ {s : S} (l : List A), I s → I (M.exec s l)
  | _, [], h => h
  | s, a :: l, h => exec_inv hstep l (hstep s a h)

/-- What every event of a class keeps holds after a run all of whose events are in the class. -/
theorem exec_inv_of_events {I : S → Prop} {E : A × B → Prop}
    (hstep : ∀ s a, I s → E (a, (M.step s a).1) → I (M.step s a).2) :
    ∀ {s : S} (l : List A), I s → (∀ e ∈ M.trace s l, E e) → I (M.exec s l)
  | _, [], h, _ => h
  | s, a :: l, h, he => by
    rw [trace_cons] at he
    exact exec_inv_of_events hstep l (hstep s a h (he _ (List.mem_cons_self ..)))
      fun e hm => he e (List.mem_cons_of_mem _ hm)

/-- A property of the events so far and the state, kept by every step whose event is in a class. -/
theorem trace_inv {J : List (A × B) → S → Prop} {E : A × B → Prop}
    (hstep : ∀ es s a, J es s → E (a, (M.step s a).1) → J (es ++ [(a, (M.step s a).1)]) (M.step s a).2) :
    ∀ {es : List (A × B)} {s : S} (l : List A), J es s → (∀ e ∈ M.trace s l, E e) →
      J (es ++ M.trace s l) (M.exec s l)
  | es, s, [], h, _ => by rw [trace_nil, List.append_nil]; exact h
  | es, s, a :: l, h, he => by
    rw [trace_cons] at he
    have hnext := trace_inv hstep l (hstep es s a h (he _ (List.mem_cons_self ..)))
      fun e hm => he e (List.mem_cons_of_mem _ hm)
    rwa [List.append_assoc] at hnext

/-- The same of a property that holds before the first event. -/
theorem trace_inv_nil {J : List (A × B) → S → Prop} {E : A × B → Prop}
    (hstep : ∀ es s a, J es s → E (a, (M.step s a).1) → J (es ++ [(a, (M.step s a).1)]) (M.step s a).2)
    {s : S} (l : List A) (h : J [] s) (he : ∀ e ∈ M.trace s l, E e) : J (M.trace s l) (M.exec s l) := by
  have hrun := M.trace_inv hstep l h he
  rwa [List.nil_append] at hrun

/-! ## Simulation along nondecreasing times -/

section Timed

variable {τ : Type} [Preorder τ] (time : A → τ)

def TimedFrom (t : τ) : List A → Prop
  | [] => True
  | a :: l => t ≤ time a ∧ TimedFrom (time a) l

variable {time}

theorem TimedFrom.mono {t t' : τ} (h : t ≤ t') : ∀ {l : List A}, TimedFrom time t' l → TimedFrom time t l
  | [], _ => trivial
  | _ :: _, hl => ⟨le_trans h hl.1, hl.2⟩

theorem timedFrom_of_pairwise : ∀ {l : List A} {t : τ}, (∀ a ∈ l, t ≤ time a) →
    l.Pairwise (fun a b => time a ≤ time b) → TimedFrom time t l
  | [], _, _, _ => trivial
  | a :: l, _, ht, hl => by
    rw [List.pairwise_cons] at hl
    exact ⟨ht a (List.mem_cons_self ..), timedFrom_of_pairwise hl.1 hl.2⟩

/-- Two machines whose states stay related as time passes, and that at every event of the class `P`
answer alike and step to related states, answer every timed run of such events alike. -/
theorem outputs_eq_of_simulation {M : Machine S A B} {N : Machine T A B} {R : τ → S → T → Prop}
    {P : A × B → Prop} (hmono : ∀ t t' s s', t ≤ t' → R t s s' → R t' s s')
    (hstep : ∀ a s s', P (a, (M.step s a).1) → R (time a) s s' →
      (M.step s a).1 = (N.step s' a).1 ∧ R (time a) (M.step s a).2 (N.step s' a).2) :
    ∀ {l : List A} {t : τ} {s : S} {s' : T}, (∀ e ∈ M.trace s l, P e) → TimedFrom time t l → R t s s' →
      M.outputs s l = N.outputs s' l
  | [], _, _, _, _, _, _ => rfl
  | a :: l, t, s, s', hP, hl, hR => by
    rw [trace_cons] at hP
    obtain ⟨hout, hR'⟩ := hstep a s s' (hP _ (List.mem_cons_self ..)) (hmono t _ s s' hl.1 hR)
    rw [outputs_cons, outputs_cons, hout,
      outputs_eq_of_simulation hmono hstep (fun e he => hP e (List.mem_cons_of_mem _ he)) hl.2 hR']

/-- If the inputs that are not of a class are invisible to a machine that is spared them, it answers
the others alike. -/
theorem outputsOf_of_simulation {M : Machine S A B} {N : Machine T A B} {R : τ → S → T → Prop} {P : A → Prop}
    {mine : A → Bool} (hmono : ∀ t t' s s', t ≤ t' → R t s s' → R t' s s')
    (hmine : ∀ a s s', mine a = true → P a → R (time a) s s' →
      (M.step s a).1 = (N.step s' a).1 ∧ R (time a) (M.step s a).2 (N.step s' a).2)
    (hother : ∀ a s s', mine a = false → P a → R (time a) s s' → R (time a) (M.step s a).2 s') :
    ∀ {l : List A} {t : τ} {s : S} {s' : T}, (∀ a ∈ l, P a) → TimedFrom time t l → R t s s' →
      M.outputsOf mine s l = N.outputs s' (l.filter mine)
  | [], _, _, _, _, _, _ => rfl
  | a :: l, t, s, s', hP, hl, hR => by
    have hnow := hmono t _ s s' hl.1 hR
    have hPl : ∀ b ∈ l, P b := fun b hb => hP b (List.mem_cons_of_mem _ hb)
    rw [outputsOf, trace_cons, List.filter_cons, List.filter_cons]
    cases ha : mine a with
    | true =>
      obtain ⟨hout, hR'⟩ := hmine a s s' ha (hP a (List.mem_cons_self ..)) hnow
      rw [if_pos rfl, if_pos rfl, List.map_cons, outputs_cons, hout]
      exact congrArg _ (outputsOf_of_simulation hmono hmine hother hPl hl.2 hR')
    | false =>
      rw [if_neg Bool.false_ne_true, if_neg Bool.false_ne_true]
      exact outputsOf_of_simulation hmono hmine hother hPl hl.2 (hother a s s' ha (hP a (List.mem_cons_self ..)) hnow)

end Timed

/-! ## Answers by the history -/

/-- The machine that answers each input by the inputs before it, last first. -/
def history (answer : List A → A → B) : Machine (List A) A B where
  step past a := (answer past a, a :: past)

/-- A machine whose state goes on reflecting the inputs so far, as long as each input is in a
relation to all before it and each event in a class, answers as the history does. -/
theorem outputs_eq_history {M : Machine S A B} {answer : List A → A → B} {Q : List A → S → Prop} {r : A → A → Prop}
    {P : A × B → Prop} (hstep : ∀ past a s, (∀ b ∈ past, r b a) → P (a, (M.step s a).1) → Q past s →
      (M.step s a).1 = answer past a ∧ Q (a :: past) (M.step s a).2) :
    ∀ {l : List A} {past : List A} {s : S}, (∀ e ∈ M.trace s l, P e) → (∀ b ∈ past, ∀ a ∈ l, r b a) →
      l.Pairwise r → Q past s → M.outputs s l = (history answer).outputs past l
  | [], _, _, _, _, _, _ => rfl
  | a :: l, past, s, hP, hpast, hl, hQ => by
    rw [trace_cons] at hP
    rw [List.pairwise_cons] at hl
    obtain ⟨hout, hQ'⟩ := hstep past a s (fun b hb => hpast b hb a (List.mem_cons_self ..))
      (hP _ (List.mem_cons_self ..)) hQ
    have hrest := outputs_eq_history hstep (fun e he => hP e (List.mem_cons_of_mem _ he))
      (fun b hb a' ha' => by
        rcases List.mem_cons.1 hb with rfl | hb
        · exact hl.1 a' ha'
        · exact hpast b hb a' (List.mem_cons_of_mem _ ha')) hl.2 hQ'
    rw [outputs_cons, outputs_cons, hout, hrest]
    rfl

end Machine

end WorldInfra.Lib
