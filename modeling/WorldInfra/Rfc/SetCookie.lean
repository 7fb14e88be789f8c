/-
RFC 6265, section 5.2: how a user agent reads a `Set-Cookie` header. What is written as a pair and
attributes between semicolons is read back as that pair and those attributes.
-/
import WorldInfra.Rust.Pattern

namespace WorldInfra.Rfc

open WorldInfra.Rust

/-- A cookie as a user agent reads it. -/
structure Cookie where
  name : Str
  value : Str
  attributes : List (Str × Str)
  deriving DecidableEq

/-- `WSP`. -/
def isWsp (c : Char) : Bool := c == ' ' || c == '\t'

def trimWsp (s : Str) : Str := s.trimMatches isWsp

def readAttribute (av : Str) : Str × Str :=
  match Str.splitOnce '=' av with
  | some (name, value) => (trimWsp name, trimWsp value)
  | none => (trimWsp av, [])

/-- The cookie of a header value. A pair without an equals sign or a name is ignored. -/
def readSetCookie (s : Str) : Option Cookie :=
  match s.split ';' with
  | [] => none
  | pair :: avs =>
    match Str.splitOnce '=' pair with
    | none => none
    | some (name, value) =>
      if (trimWsp name).isEmpty then none else some ⟨trimWsp name, trimWsp value, avs.map readAttribute⟩

/-! ## Written cookies -/

/-- A pair with attributes behind it, each after a semicolon and a space. -/
def writeSetCookie (name value : Str) (avs : List Str) : Str :=
  name ++ '=' :: value ++ avs.flatMap fun av => ';' :: ' ' :: av

theorem writeSetCookie_eq_intercalate (name value : Str) (avs : List Str) : writeSetCookie name value avs =
    [';'].intercalate ((name ++ '=' :: value) :: avs.map fun av => ' ' :: av) := by
  unfold writeSetCookie
  generalize name ++ '=' :: value = pair
  induction avs generalizing pair with
  | nil => rw [List.flatMap_nil, List.append_nil, List.map_nil, List.intercalate_singleton]
  | cons av avs ih =>
    rw [List.flatMap_cons, List.map_cons, List.intercalate_cons_cons, ← ih, List.append_assoc]
    rfl

theorem writeSetCookie_append (name value : Str) (avs more : List Str) : writeSetCookie name value (avs ++ more) =
    writeSetCookie name value avs ++ more.flatMap fun av => ';' :: ' ' :: av := by
  unfold writeSetCookie
  rw [List.flatMap_append, List.append_assoc, List.append_assoc, List.append_assoc]

theorem trimWsp_cons_space (s : Str) : trimWsp (' ' :: s) = trimWsp s := by
  unfold trimWsp Str.trimMatches
  rw [List.dropWhile_cons_of_pos (by decide)]

theorem trimWsp_eq_self {s : Str} (h : ∀ c ∈ s, isWsp c = false) : trimWsp s = s := Str.trimMatches_eq_self h

/-- A text that is read as an attribute's name when it stands before an equals sign. -/
def attributeName (name : Str) : Bool := name.all fun c => c != '=' && !isWsp c

theorem readAttribute_pair {name : Str} (h : attributeName name = true) (value : Str) :
    readAttribute (' ' :: (name ++ '=' :: value)) = (name, trimWsp value) := by
  have hchars : ∀ c ∈ name, c ≠ '=' ∧ isWsp c = false := by
    intro c hc
    have hgood := List.all_eq_true.1 h c hc
    rw [Bool.and_eq_true, bne_iff_ne, Bool.not_eq_true'] at hgood
    exact hgood
  have hsplit : Str.splitOnce '=' (' ' :: (name ++ '=' :: value)) = some (' ' :: name, value) := by
    rw [Str.splitOnce_eq_some]
    refine ⟨rfl, ?_⟩
    rw [List.mem_cons, not_or]
    exact ⟨by decide, fun heq => (hchars _ heq).1 rfl⟩
  rw [readAttribute, hsplit]
  simp only
  rw [trimWsp_cons_space, trimWsp_eq_self fun c hc => (hchars c hc).2]

theorem readSetCookie_write {name value : Str} {avs : List Str} (hne : name ≠ [])
    (hname : ∀ c ∈ name, c ≠ '=' ∧ c ≠ ';' ∧ isWsp c = false) (hvalue : ∀ c ∈ value, c ≠ ';' ∧ isWsp c = false)
    (havs : ∀ av ∈ avs, ';' ∉ av) :
    readSetCookie (writeSetCookie name value avs) =
      some ⟨name, value, avs.map fun av => readAttribute (' ' :: av)⟩ := by
  have hparts : (writeSetCookie name value avs).split ';' = (name ++ '=' :: value) :: avs.map fun av => ' ' :: av := by
    rw [writeSetCookie_eq_intercalate]
    apply List.splitOn_intercalate
    · intro part hpart
      rcases List.mem_cons.1 hpart with rfl | hpart
      · intro hmem
        rcases List.mem_append.1 hmem with hmem | hmem
        · exact (hname _ hmem).2.1 rfl
        · rcases List.mem_cons.1 hmem with hmem | hmem
          · cases hmem
          · exact (hvalue _ hmem).1 rfl
      · obtain ⟨av, hav, rfl⟩ := List.mem_map.1 hpart
        rw [List.mem_cons, not_or]
        exact ⟨by decide, havs av hav⟩
    · exact List.cons_ne_nil _ _
  have hpair : Str.splitOnce '=' (name ++ '=' :: value) = some (name, value) :=
    Str.splitOnce_eq_some.2 ⟨rfl, fun h => (hname _ h).1 rfl⟩
  rw [readSetCookie, hparts]
  simp only
  rw [hpair]
  simp only
  rw [trimWsp_eq_self fun c hc => (hname c hc).2.2, trimWsp_eq_self fun c hc => (hvalue c hc).2,
    if_neg (by rw [List.isEmpty_iff]; exact hne), List.map_map]
  rfl

/-- Whatever holds of the separators and of all characters written holds of all characters of the text. -/
theorem forall_mem_writeSetCookie {P : Char → Prop} {name value : Str} {avs : List Str} (hsemi : P ';') (hspace : P ' ')
    (heq : P '=') (hname : ∀ c ∈ name, P c) (hvalue : ∀ c ∈ value, P c) (havs : ∀ av ∈ avs, ∀ c ∈ av, P c) :
    ∀ c ∈ writeSetCookie name value avs, P c := by
  intro c hc
  rw [writeSetCookie_eq_intercalate] at hc
  rcases Str.mem_intercalate hc with rfl | ⟨part, hpart, hc⟩
  · exact hsemi
  · rcases List.mem_cons.1 hpart with rfl | hpart
    · rcases List.mem_append.1 hc with hc | hc
      · exact hname c hc
      · rcases List.mem_cons.1 hc with rfl | hc
        · exact heq
        · exact hvalue c hc
    · obtain ⟨av, hav, rfl⟩ := List.mem_map.1 hpart
      rcases List.mem_cons.1 hc with rfl | hc
      · exact hspace
      · exact havs av hav c hc

end WorldInfra.Rfc
