/-
scoped-sql-lint: table names in a window of lower-cased lines. The search goes on behind each occurrence it
looks at, so an occurrence that is refused can hide one that runs into it.
-/
import WorldInfra.Lib.Occurrences
import WorldInfra.Rust.Case

namespace WorldInfra.Rust.Str

/-- `str::match_indices` of a text that is not empty, with the places counted in characters. -/
def matchIndices (s p : Str) : List Nat := Lib.takenIn p 0 0 s

theorem mem_matchIndices {s p : Str} (hp : p ≠ []) {i : Nat} : i ∈ matchIndices s p ↔ Lib.Taken p s i :=
  Lib.mem_takenIn hp rfl

end WorldInfra.Rust.Str

namespace WorldInfra.ScopedSql

open WorldInfra.Rust WorldInfra.Lib

def isIdentifierChar (ch : Char) : Bool := ch.isAlphanum || ch == '_'

def containsIdentifier (window table : Str) : Bool :=
  let table := table.toAsciiLowercase
  if table.isEmpty then false
  else
    (window.matchIndices table).any fun index =>
      let before := (window.take index).getLast?
      let after := (window.drop (index + table.length)).head?
      !before.any isIdentifierChar && !after.any isIdentifierChar

/-! ## Where a name stands alone -/

/-- The name occurs behind `i` characters, with no identifier character on either side. -/
def AloneAt (name window : Str) (i : Nat) : Prop :=
  ∃ before after, window = before ++ name ++ after ∧ before.length = i ∧
    (∀ c ∈ before.getLast?, isIdentifierChar c = false) ∧ ∀ c ∈ after.head?, isIdentifierChar c = false

def StandsAlone (name window : Str) : Prop := ∃ i, AloneAt name window i

/-- The name stands alone, but wherever it does an occurrence that the search took runs into it. -/
def Hidden (name window : Str) : Prop :=
  StandsAlone name window ∧ ∀ i, AloneAt name window i → ∃ j, Taken name window j ∧ j < i ∧ i < j + name.length

/-- The name can run into itself right behind a character that is no identifier character. -/
def HidesItself (name : Str) : Prop := ∃ x, Border name x ∧ ∀ c ∈ x.getLast?, isIdentifierChar c = false

theorem AloneAt.occursAt {name window : Str} {i : Nat} (hname : name ≠ []) (h : AloneAt name window i) :
    OccursAt name window i := by
  obtain ⟨before, after, hwindow, hlen, -⟩ := h
  exact (occursAt_iff hname).2 ⟨before, after, hwindow, hlen⟩

theorem not_any_iff {o : Option Char} {p : Char → Bool} : (!o.any p) = true ↔ ∀ c ∈ o, p c = false := by
  cases o <;> simp

theorem aloneAt_iff {name window : Str} {i : Nat} (hname : name ≠ []) :
    AloneAt name window i ↔ OccursAt name window i ∧
      (∀ c ∈ (window.take i).getLast?, isIdentifierChar c = false) ∧
      ∀ c ∈ (window.drop (i + name.length)).head?, isIdentifierChar c = false := by
  constructor
  · intro h
    refine ⟨h.occursAt hname, ?_⟩
    obtain ⟨before, after, rfl, rfl, hbefore, hafter⟩ := h
    rw [← List.length_append, List.drop_left, List.append_assoc, List.take_left]
    exact ⟨hbefore, hafter⟩
  · rintro ⟨hocc, hbefore, hafter⟩
    obtain ⟨before, after, rfl, rfl⟩ := (occursAt_iff hname).1 hocc
    rw [List.append_assoc, List.take_left] at hbefore
    rw [← List.length_append, List.drop_left] at hafter
    exact ⟨before, after, rfl, rfl, hbefore, hafter⟩

theorem lower_ne_nil {table : Str} (htable : table ≠ []) : table.toAsciiLowercase ≠ [] := by
  simpa [Str.toAsciiLowercase] using htable

/-- The code's answer: of the occurrences that the search takes, one stands alone. -/
theorem containsIdentifier_iff {window table : Str} (htable : table ≠ []) :
    containsIdentifier window table = true ↔
      ∃ i, Taken table.toAsciiLowercase window i ∧ AloneAt table.toAsciiLowercase window i := by
  have hname := lower_ne_nil htable
  have hempty : table.toAsciiLowercase.isEmpty = false := by rwa [List.isEmpty_eq_false_iff]
  unfold containsIdentifier
  simp only [hempty, Bool.false_eq_true, if_false, List.any_eq_true, Bool.and_eq_true, not_any_iff,
    Str.mem_matchIndices hname]
  refine exists_congr fun i => and_congr_right fun htaken => ?_
  rw [aloneAt_iff hname, and_iff_right (TakenFrom.occursAt htaken)]

/-- The answer is the right one unless every place where the name stands alone is hidden. -/
theorem answer_iff_not_hidden {window table : Str} (htable : table ≠ []) :
    (containsIdentifier window table = true ↔ StandsAlone table.toAsciiLowercase window) ↔
      ¬ Hidden table.toAsciiLowercase window := by
  rw [containsIdentifier_iff htable]
  constructor
  · rintro h ⟨halone, hover⟩
    obtain ⟨i, htaken, hi⟩ := h.2 halone
    obtain ⟨j, hj, hlt, hrun⟩ := hover i hi
    have := TakenFrom.disjoint hj htaken hlt
    omega
  · intro hnot
    constructor
    · rintro ⟨i, -, hi⟩
      exact ⟨i, hi⟩
    · intro halone
      by_contra hnone
      refine hnot ⟨halone, fun i hi => ?_⟩
      rcases taken_or_overlapped (lower_ne_nil htable) (Nat.zero_le i) (hi.occursAt (lower_ne_nil htable)) with
        htaken | hover
      · exact absurd ⟨i, htaken, hi⟩ hnone
      · exact hover

/-- A hidden place has the character before it from the occurrence that runs into it. -/
theorem hidesItself_of_hidden {name window : Str} (hname : name ≠ []) (h : Hidden name window) : HidesItself name := by
  obtain ⟨⟨i, hi⟩, hover⟩ := h
  obtain ⟨j, hj, hlt, hrun⟩ := hover i hi
  obtain ⟨x, hx, front, hfront⟩ := border_of_overlap (hi.occursAt hname) hj.occursAt hlt hrun
  refine ⟨x, hx, fun c hc => ((aloneAt_iff hname).1 hi).2.1 c ?_⟩
  rwa [← hfront, List.getLast?_append_of_ne_nil _ hx.1]

/-- An identifier character that the name does not begin with. -/
def otherChar (name : Str) : Char := if name.head? = some 'a' then 'b' else 'a'

theorem otherChar_spec (name : Str) : name.head? ≠ some (otherChar name) ∧ isIdentifierChar (otherChar name) = true ∧
    (otherChar name).toLower = otherChar name := by
  unfold otherChar
  split
  · next h =>
    rw [h]
    decide
  · next h => exact ⟨h, by decide, by decide⟩

/-- A name that can hide itself is hidden behind an identifier character and the part it runs into itself with. -/
theorem hidden_of_hidesItself {name : Str} (hlower : name.toAsciiLowercase = name) (h : HidesItself name) :
    ∃ window : Str, Hidden name window.toAsciiLowercase := by
  obtain ⟨x, hx, hboundary⟩ := h
  obtain ⟨hhead, hident, hcase⟩ := otherChar_spec name
  have hname : name ≠ [] := List.length_pos_iff.1 (Nat.zero_lt_of_lt hx.2.1)
  have hxlower : Str.toAsciiLowercase x = x := by
    obtain ⟨rest, hrest⟩ := hx.isPrefix
    rw [← hrest, Str.toAsciiLowercase_append] at hlower
    exact (List.append_inj hlower (List.length_map _)).1
  refine ⟨otherChar name :: (x ++ name), ?_⟩
  rw [Str.toAsciiLowercase_cons, Str.toAsciiLowercase_append, hcase, hxlower, hlower]
  refine ⟨⟨x.length + 1, otherChar name :: x, [], by simp, rfl, ?_, by simp⟩, fun i hi => ?_⟩
  · rwa [List.getLast?_cons_of_ne_nil hx.1]
  · have hfirst : i ≠ 0 := by
      rintro rfl
      exact not_occursAt_zero hname hhead (hi.occursAt hname)
    have hsecond : i ≠ 1 := by
      rintro rfl
      have hbefore := ((aloneAt_iff hname).1 hi).2.1 (otherChar name) (by simp)
      rw [hident] at hbefore
      cases hbefore
    have hlen := hx.2.1
    have hend := (hi.occursAt hname).le hname
    rw [List.length_cons, List.length_append] at hend
    exact ⟨1, taken_of_border hx hhead, by omega, by omega⟩

/-- A name of identifier characters only cannot hide itself. -/
theorem not_hidesItself_of_identifier {name : Str} (h : ∀ c ∈ name, isIdentifierChar c = true) :
    ¬ HidesItself name := by
  rintro ⟨x, hx, hboundary⟩
  have hlast := List.getLast?_eq_some_getLast hx.1
  have hmem := hx.isPrefix.subset (List.getLast_mem hx.1)
  have hfalse := hboundary _ hlast
  rw [h _ hmem] at hfalse
  cases hfalse

/-! ## More lines in the window -/

theorem isIdentifierChar_newline : isIdentifierChar '\n' = false := rfl

theorem AloneAt.behind_line {name window : Str} {i : Nat} (h : AloneAt name window i) (lines : Str) :
    AloneAt name (lines ++ '\n' :: window) (lines.length + 1 + i) := by
  obtain ⟨before, after, rfl, rfl, hbefore, hafter⟩ := h
  refine ⟨lines ++ '\n' :: before, after, by simp, by simp; omega, fun c hc => ?_, hafter⟩
  rw [List.getLast?_append_of_ne_nil _ (List.cons_ne_nil _ _), List.getLast?_cons] at hc
  cases hlast : before.getLast? with
  | none =>
    rw [hlast] at hc
    cases hc
    exact isIdentifierChar_newline
  | some d =>
    rw [hlast] at hc
    exact hbefore c (hlast.trans hc)

theorem AloneAt.before_line {name window : Str} {i : Nat} (h : AloneAt name window i) (lines : Str) :
    AloneAt name (window ++ '\n' :: lines) i := by
  obtain ⟨before, after, rfl, rfl, hbefore, hafter⟩ := h
  refine ⟨before, after ++ '\n' :: lines, by simp, rfl, hbefore, fun c hc => ?_⟩
  cases after with
  | nil =>
    cases hc
    exact isIdentifierChar_newline
  | cons d after => exact hafter c hc

theorem newline_mem_lower {table : Str} : '\n' ∈ table.toAsciiLowercase ↔ '\n' ∈ table := by
  simp only [Str.toAsciiLowercase, List.mem_map, toLower_eq_iff (show Char.isAlpha '\n' = false from rfl),
    exists_eq_right]

/-- A name that is found is found in more lines, if it does not break off a line or cannot hide itself. -/
theorem containsIdentifier_behind_line {window table : Str}
    (hname : '\n' ∉ table ∨ ¬ HidesItself table.toAsciiLowercase) (lines : Str)
    (h : containsIdentifier window table = true) : containsIdentifier (lines ++ '\n' :: window) table = true := by
  by_cases htable : table = []
  · subst htable
    cases h
  obtain ⟨i, htaken, halone⟩ := (containsIdentifier_iff htable).1 h
  rcases hname with hline | hhides
  · rw [← newline_mem_lower] at hline
    exact (containsIdentifier_iff htable).2
      ⟨_, (taken_behind_sep (lower_ne_nil htable) hline).2 htaken, halone.behind_line lines⟩
  · exact ((answer_iff_not_hidden htable).2 (mt (hidesItself_of_hidden (lower_ne_nil htable)) hhides)).2
      ⟨_, halone.behind_line lines⟩

theorem containsIdentifier_before_line {window table : Str}
    (hname : '\n' ∉ table ∨ ¬ HidesItself table.toAsciiLowercase) (lines : Str)
    (h : containsIdentifier window table = true) : containsIdentifier (window ++ '\n' :: lines) table = true := by
  by_cases htable : table = []
  · subst htable
    cases h
  have hne := lower_ne_nil htable
  obtain ⟨i, htaken, halone⟩ := (containsIdentifier_iff htable).1 h
  rcases hname with hline | hhides
  · rw [← newline_mem_lower] at hline
    have hend := (TakenFrom.occursAt htaken).le hne
    exact (containsIdentifier_iff htable).2
      ⟨i, (taken_before_sep hne hline (by omega)).2 htaken, halone.before_line lines⟩
  · exact ((answer_iff_not_hidden htable).2 (mt (hidesItself_of_hidden hne) hhides)).2 ⟨_, halone.before_line lines⟩

/-! ## Which names are found -/

/-- In a given window the answer is right unless the name is hidden there. It is right in every window if and
only if the name cannot run into itself behind a character that is no identifier character. -/
theorem sensitiveTable_found_iff (table : Str) (htable : table ≠ []) :
    (∀ window : Str, (containsIdentifier window.toAsciiLowercase table = true ↔
        StandsAlone table.toAsciiLowercase window.toAsciiLowercase) ↔
      ¬ Hidden table.toAsciiLowercase window.toAsciiLowercase) ∧
    ((∀ window : Str, containsIdentifier window.toAsciiLowercase table = true ↔
        StandsAlone table.toAsciiLowercase window.toAsciiLowercase) ↔
      ¬ HidesItself table.toAsciiLowercase) := by
  refine ⟨fun window => answer_iff_not_hidden htable, ?_⟩
  simp only [answer_iff_not_hidden htable]
  constructor
  · intro h hhides
    obtain ⟨window, hhidden⟩ := hidden_of_hidesItself (Str.toAsciiLowercase_idem table) hhides
    exact h window hhidden
  · exact fun h window hhidden => h (hidesItself_of_hidden (lower_ne_nil htable) hhidden)

theorem sensitiveTable_found_worldCycleJobs :
    containsIdentifier (Str.toAsciiLowercase "from World_Cycle_Jobs".toList) "world_cycle_jobs".toList = true :=
  ((sensitiveTable_found_iff "world_cycle_jobs".toList (by simp)).2.2
    (not_hidesItself_of_identifier (by simp [Str.toAsciiLowercase, isIdentifierChar]))
    "from World_Cycle_Jobs".toList).2
    ⟨5, "from ".toList, [], rfl, rfl, by simp [isIdentifierChar], by simp⟩

/-- The name `world.world` stands alone at the end of `old_world.world.world`, and is not found. -/
theorem sensitiveTable_hidden : ¬ ∀ window table : Str, table ≠ [] →
    (containsIdentifier window.toAsciiLowercase table = true ↔
      StandsAlone table.toAsciiLowercase window.toAsciiLowercase) := by
  intro h
  have halone : StandsAlone "world.world".toList "old_world.world.world".toList :=
    ⟨10, "old_world.".toList, [], rfl, rfl, by simp [isIdentifierChar], by simp⟩
  have hfound := (h "old_world.world.world".toList "world.world".toList (by simp)).2 halone
  exact absurd hfound (by decide)

end WorldInfra.ScopedSql
