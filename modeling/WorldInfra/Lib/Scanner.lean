/-
Scanners: machines that read a text character by character, may emit tokens at every step and may
refuse, and that complete the last token at the end of the text.
-/
import Mathlib

namespace WorldInfra.Lib

/-- A scanner with modes `M` that reads characters `C` and emits tokens `T`. -/
structure Scanner (M C T : Type) where
  start : M
  step : M → C → Option (List T × M)
  finish : M → Option (List T)

namespace Scanner

variable {M C T A : Type} (S : Scanner M C T)

/-- The tokens of a part of the text, and the mode after it. -/
def feed : M → List C → Option (List T × M)
  | m, [] => some ([], m)
  | m, c :: l => do
    let (ts, m) ← S.step m c
    let (us, m) ← feed m l
    return (ts ++ us, m)

/-- The tokens of a whole text. -/
def scan (l : List C) : Option (List T) := do
  let (ts, m) ← S.feed S.start l
  let us ← S.finish m
  return ts ++ us

variable {S} {m m' m'' : M} {ts us : List T}

@[simp] theorem feed_nil : S.feed m [] = some ([], m) := rfl

theorem feed_cons {c : C} {l : List C} (h : S.step m c = some (ts, m')) (h' : S.feed m' l = some (us, m'')) :
    S.feed m (c :: l) = some (ts ++ us, m'') := by
  rw [feed, h]
  show (S.feed m' l >>= _) = _
  rw [h']
  rfl

theorem feed_append : ∀ {l l' : List C} {m m' m'' : M} {ts us : List T}, S.feed m l = some (ts, m') →
    S.feed m' l' = some (us, m'') → S.feed m (l ++ l') = some (ts ++ us, m'')
  | [], l', m, m', m'', ts, us, h, h' => by
    rw [feed_nil, Option.some.injEq, Prod.mk.injEq] at h
    obtain ⟨rfl, rfl⟩ := h
    exact h'
  | c :: l, l', m, m', m'', ts, us, h, h' => by
    rw [feed] at h
    rcases hstep : S.step m c with _ | ⟨ts₁, m₁⟩
    · rw [hstep] at h; cases h
    rcases hfeed : S.feed m₁ l with _ | ⟨ts₂, m₂⟩
    · simp [hstep, hfeed] at h
    simp only [hstep, hfeed, Option.bind_eq_bind, Option.bind_some, pure, Option.some.injEq, Prod.mk.injEq] at h
    obtain ⟨rfl, rfl⟩ := h
    rw [List.cons_append, List.append_assoc]
    exact feed_cons hstep (feed_append hfeed h')

theorem scan_of_feed {l : List C} (h : S.feed S.start l = some (ts, m)) (h' : S.finish m = some us) :
    S.scan l = some (ts ++ us) := by
  rw [scan, h]
  show (S.finish m >>= _) = _
  rw [h']
  rfl

/-- A mode that takes up the values whose encodings it reads takes up the whole list. -/
theorem feed_flatMap {enc : A → List C} {mode : List A → M} : ∀ {l : List A} (acc : List A),
    (∀ acc, ∀ a ∈ l, S.feed (mode acc) (enc a) = some ([], mode (acc ++ [a]))) →
      S.feed (mode acc) (l.flatMap enc) = some ([], mode (acc ++ l))
  | [], acc, _ => by rw [List.flatMap_nil, feed_nil, List.append_nil]
  | a :: l, acc, h => by
    have hrest := feed_flatMap (acc ++ [a]) fun acc b hb => h acc b (List.mem_cons_of_mem _ hb)
    rw [List.append_assoc] at hrest
    rw [List.flatMap_cons]
    exact feed_append (h acc a (List.mem_cons_self ..)) hrest

end Scanner

end WorldInfra.Lib
