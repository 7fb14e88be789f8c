/-
Logs of overwritten values: a write notes what it replaces, and undoing the notes last first brings back what
was there before the first of them, whatever has been written since.
-/
import WorldInfra.Lib.Chain

namespace WorldInfra.Lib

variable {K V : Type*} [DecidableEq K]

/-- Undoing the notes of a log, the last one first. -/
def undo (log : List (K × V)) (s : K → V) : K → V :=
  log.foldr (fun note t => Function.update t note.1 note.2) s

@[simp] theorem undo_nil (s : K → V) : undo [] s = s := rfl

@[simp] theorem undo_cons (note : K × V) (log : List (K × V)) (s : K → V) :
    undo (note :: log) s = Function.update (undo log s) note.1 note.2 := rfl

theorem undo_append (log log' : List (K × V)) (s : K → V) : undo (log ++ log') s = undo log (undo log' s) :=
  List.foldr_append

/-- A key without a note keeps its value. -/
theorem undo_of_notMem {log : List (K × V)} {k : K} (h : k ∉ log.map Prod.fst) (s : K → V) : undo log s k = s k := by
  induction log with
  | nil => rfl
  | cons note log ih =>
    rw [List.map_cons, List.mem_cons, not_or] at h
    rw [undo_cons, Function.update_of_ne h.1, ih h.2]

/-- The value of a key with a note does not depend on the store. -/
theorem undo_of_mem {log : List (K × V)} {k : K} (h : k ∈ log.map Prod.fst) (s t : K → V) :
    undo log s k = undo log t k := by
  induction log with
  | nil => exact absurd h List.not_mem_nil
  | cons note log ih =>
    rw [undo_cons, undo_cons, Function.update_apply, Function.update_apply]
    split
    · rfl
    · next hne =>
      rw [List.map_cons, List.mem_cons] at h
      exact ih (h.resolve_left hne)

theorem undo_congr (log : List (K × V)) {s t : K → V} {k : K} (h : s k = t k) : undo log s k = undo log t k := by
  by_cases hk : k ∈ log.map Prod.fst
  · exact undo_of_mem hk s t
  · rw [undo_of_notMem hk, undo_of_notMem hk, h]

/-- The first note of a key is the one that counts. -/
theorem undo_mem_log {log : List (K × V)} {k : K} (h : k ∈ log.map Prod.fst) (s : K → V) : (k, undo log s k) ∈ log := by
  induction log with
  | nil => exact absurd h List.not_mem_nil
  | cons note log ih =>
    rw [undo_cons, Function.update_apply]
    split
    · next heq =>
      rw [heq]
      exact List.mem_cons_self ..
    · next hne =>
      rw [List.map_cons, List.mem_cons] at h
      exact List.mem_cons_of_mem _ (ih (h.resolve_left hne))

section Writes

variable (keep : V → V)

/-- Writes that note what `keep` makes of each value they replace. -/
def writeAll : List (K × V) → (K → V) → List (K × V) × (K → V)
  | [], s => ([], s)
  | e :: l, s => ((e.1, keep (s e.1)) :: (writeAll l (Function.update s e.1 e.2)).1,
      (writeAll l (Function.update s e.1 e.2)).2)

variable {keep}

theorem map_fst_writeAll {l : List (K × V)} {s : K → V} : (writeAll keep l s).1.map Prod.fst = l.map Prod.fst := by
  induction l generalizing s with
  | nil => rfl
  | cons e l ih => rw [writeAll, List.map_cons, List.map_cons, ih]

/-- What a write stores under a key. -/
def writtenTo (k : K) (e : K × V) : Option V := if e.1 = k then some e.2 else none

theorem writeAll_apply {l : List (K × V)} {s : K → V} {k : K} :
    (writeAll keep l s).2 k = (lastWritten (writtenTo k) l).getD (s k) := by
  induction l generalizing s with
  | nil => rfl
  | cons e l ih =>
    rw [writeAll, ih, lastWritten_cons, writtenTo]
    cases lastWritten (writtenTo k) l with
    | some v => rfl
    | none =>
      rw [Option.getD_none, Option.none_or]
      split
      · next heq => rw [← heq, Function.update_self, Option.getD_some]
      · next hne => rw [Function.update_of_ne (Ne.symm hne), Option.getD_none]

/-- Undoing what writes noted gives every key they wrote what was kept of its value before them, whatever the store
has become. -/
theorem undo_writeAll {l : List (K × V)} {s : K → V} {k : K} (h : k ∈ l.map Prod.fst) (t : K → V) :
    undo (writeAll keep l s).1 t k = keep (s k) := by
  induction l generalizing s with
  | nil => exact absurd h List.not_mem_nil
  | cons e l ih =>
    rw [writeAll, undo_cons, Function.update_apply]
    split
    · next heq => rw [heq]
    · next hne =>
      rw [List.map_cons, List.mem_cons] at h
      rw [ih (h.resolve_left hne), Function.update_of_ne hne]

/-- A key they did not write keeps the value it has. -/
theorem undo_writeAll_of_notMem {l : List (K × V)} {s : K → V} {k : K} (h : k ∉ l.map Prod.fst) (t : K → V) :
    undo (writeAll keep l s).1 t k = t k := by
  apply undo_of_notMem
  rwa [map_fst_writeAll]

theorem writeAll_apply_of_notMem {l : List (K × V)} {s : K → V} {k : K} (h : k ∉ l.map Prod.fst) :
    (writeAll keep l s).2 k = s k := by
  induction l generalizing s with
  | nil => rfl
  | cons e l ih =>
    rw [List.map_cons, List.mem_cons, not_or] at h
    rw [writeAll, ih h.2, Function.update_of_ne h.1]

end Writes

end WorldInfra.Lib
