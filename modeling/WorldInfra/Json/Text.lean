/-
The text of a JSON value as `serde_json::to_string` writes it: no white space, fields and items in the order
of the value. The text determines the value, if the texts of numbers determine the numbers.
-/
import WorldInfra.Json.Canonical
import WorldInfra.Lib.Framing
import WorldInfra.Rust.Hex
import WorldInfra.Rust.Numeral

namespace WorldInfra.Json

open WorldInfra.Lib WorldInfra.Rust

/-! ## Strings -/

/-- The characters with an escape of their own. -/
def escapes : List (Char × Char) :=
  [('"', '"'), ('\\', '\\'), ('\x08', 'b'), ('\x0c', 'f'), ('\n', 'n'), ('\r', 'r'), ('\t', 't')]

def escapeChar (c : Char) : Str :=
  match escapes.lookup c with
  | some e => ['\\', e]
  | none => if c.toNat < 0x20 then ['\\', 'u', '0', '0', hexChar (c.toNat / 16), hexChar (c.toNat % 16)] else [c]

def stringText (s : Str) : Str := '"' :: (s.flatMap escapeChar ++ ['"'])

theorem escapeChar_cases (c : Char) : (∃ e, (c, e) ∈ escapes ∧ escapeChar c = ['\\', e]) ∨
    (c.toNat < 0x20 ∧ escapeChar c = ['\\', 'u', '0', '0', hexChar (c.toNat / 16), hexChar (c.toNat % 16)]) ∨
    (c ≠ '\\' ∧ c ≠ '"' ∧ escapeChar c = [c]) := by
  unfold escapeChar
  cases h : escapes.lookup c with
  | some e => exact Or.inl ⟨e, (InsertionMap.lookup_eq_some_iff (by decide)).1 h, rfl⟩
  | none =>
    have hnot (d : Char) (hd : (escapes.lookup d).isSome = true) : c ≠ d := by
      rintro rfl
      rw [h] at hd
      cases hd
    simp only
    split
    · next hlt => exact Or.inr (Or.inl ⟨hlt, rfl⟩)
    · exact Or.inr (Or.inr ⟨hnot '\\' rfl, hnot '"' rfl, rfl⟩)

theorem escapes_inj : ∀ p ∈ escapes, p.2 ≠ 'u' ∧ ∀ q ∈ escapes, p.2 = q.2 → p.1 = q.1 := by decide

/-- What follows an escape can be told from it. -/
theorem escapeChar_selfDelimiting : SelfDelimitingOn Set.univ escapeChar := by
  intro c _ d _ u v h
  rcases escapeChar_cases c with ⟨e, he, hc⟩ | ⟨hlt, hc⟩ | ⟨hc₁, -, hc⟩ <;>
    rcases escapeChar_cases d with ⟨f, hf, hd⟩ | ⟨hlt', hd⟩ | ⟨hd₁, -, hd⟩ <;>
    simp only [hc, hd, List.cons_append, List.nil_append, List.cons.injEq, true_and] at h
  · exact ⟨(escapes_inj _ he).2 _ hf h.1, h.2⟩
  · exact absurd h.1 (escapes_inj _ he).1
  · exact absurd h.1.symm hd₁
  · exact absurd h.1.symm (escapes_inj _ hf).1
  · obtain ⟨hhi, hlo, hrest⟩ := h
    have hdiv := hexChar_injOn _ (by omega) _ (by omega) hhi
    have hmod := hexChar_injOn _ (by omega) _ (by omega) hlo
    exact ⟨char_eq_of_toNat (by omega), hrest⟩
  · exact absurd h.1.symm hd₁
  · exact absurd h.1 hc₁
  · exact absurd h.1 hc₁
  · exact h

theorem stringText_inj {s t u v : Str} (h : stringText s ++ u = stringText t ++ v) : s = t ∧ u = v := by
  have hmark : ∀ c ∈ (Set.univ : Set Char), ∀ u v : Str, escapeChar c ++ u ≠ '"' :: v := by
    intro c _ u v heq
    rcases escapeChar_cases c with ⟨e, -, hc⟩ | ⟨-, hc⟩ | ⟨-, hquote, hc⟩
    · simp [hc] at heq
    · simp [hc] at heq
    · simp [hc, hquote] at heq
  exact escapeChar_selfDelimiting.list_closed hmark (fun _ _ => trivial) (fun _ _ => trivial)
    (List.tail_eq_of_cons_eq h)

/-! ## Numbers -/

def isNumberChar (c : Char) : Bool := c.isDigit || c == '-' || c == '+' || c == '.' || c == 'e' || c == 'E'

/-- A way to write numbers: each as a text of its own, of the characters of numbers. -/
structure NumberText (Number : Type) where
  text : Number → Str
  injective : Function.Injective text
  nonempty : ∀ n, text n ≠ []
  chars : ∀ n, ∀ c ∈ text n, isNumberChar c = true

/-- No number goes on. -/
def EndsNumber (rest : Str) : Prop := ∀ c, rest.head? = some c → isNumberChar c = false

theorem EndsNumber.nil : EndsNumber [] := nofun

theorem EndsNumber.cons {c : Char} (h : isNumberChar c = false) (s : Str) : EndsNumber (c :: s) := by
  rintro d ⟨⟩
  exact h

variable {Number : Type} (numbers : NumberText Number)

theorem numberText_inj {m n : Number} {u v : Str} (hu : EndsNumber u) (hv : EndsNumber v)
    (h : numbers.text m ++ u = numbers.text n ++ v) : m = n ∧ u = v := by
  have hspan {n : Number} {u : Str} (hu : EndsNumber u) :
      (numbers.text n ++ u).takeWhile isNumberChar = numbers.text n := by
    rw [List.takeWhile_append_of_pos (numbers.chars n)]
    cases u with
    | nil => simp
    | cons c u => rw [List.takeWhile_cons_of_neg (by simp [hu c rfl]), List.append_nil]
  have htext : numbers.text m = numbers.text n := by
    rw [← hspan hu, h, hspan hv]
  obtain rfl := numbers.injective htext
  exact ⟨rfl, List.append_cancel_left h⟩

/-! ## Values -/

namespace Value

mutual

def text : Value Number → Str
  | null => "null".toList
  | bool true => "true".toList
  | bool false => "false".toList
  | number n => numbers.text n
  | string s => stringText s
  | array items => '[' :: textItems items
  | object map => '{' :: textFields map

/-- The items and the closing bracket. -/
def textItems : List (Value Number) → Str
  | [] => [']']
  | item :: items => item.text ++ textMoreItems items

def textMoreItems : List (Value Number) → Str
  | [] => [']']
  | item :: items => ',' :: (item.text ++ textMoreItems items)

/-- The fields and the closing brace. -/
def textFields : List (Str × Value Number) → Str
  | [] => ['}']
  | (key, value) :: map => stringText key ++ ':' :: (value.text ++ textMoreFields map)

def textMoreFields : List (Str × Value Number) → Str
  | [] => ['}']
  | (key, value) :: map => ',' :: (stringText key ++ ':' :: (value.text ++ textMoreFields map))

end

/-- What the first character of a text tells about the value. -/
inductive Kind where
  | null
  | true
  | false
  | number
  | string
  | array
  | object
  deriving DecidableEq

def kind : Value Number → Kind
  | null => .null
  | bool true => .true
  | bool false => .false
  | number _ => .number
  | string _ => .string
  | array _ => .array
  | object _ => .object

def kindOfChar (c : Char) : Option Kind :=
  if isNumberChar c then some .number
  else if c = 'n' then some .null
  else if c = 't' then some .true
  else if c = 'f' then some .false
  else if c = '"' then some .string
  else if c = '[' then some .array
  else if c = '{' then some .object
  else none

theorem text_eq_cons (v : Value Number) : ∃ c rest, v.text numbers = c :: rest ∧ kindOfChar c = some v.kind := by
  cases v with
  | null => exact ⟨'n', _, by rw [text]; rfl, rfl⟩
  | bool b =>
    cases b with
    | true => exact ⟨'t', _, by rw [text]; rfl, rfl⟩
    | false => exact ⟨'f', _, by rw [text]; rfl, rfl⟩
  | number n =>
    obtain ⟨c, rest, hc⟩ := List.exists_cons_of_ne_nil (numbers.nonempty n)
    refine ⟨c, rest, by rw [text, hc], ?_⟩
    rw [kindOfChar, if_pos (numbers.chars n c (by simp [hc]))]
    rfl
  | string s => exact ⟨'"', _, by rw [text]; rfl, rfl⟩
  | array items => exact ⟨'[', _, by rw [text], rfl⟩
  | object map => exact ⟨'{', _, by rw [text], rfl⟩

/-- Texts that go on alike are of values of one kind. -/
theorem kind_eq {v w : Value Number} {u x : Str} (h : v.text numbers ++ u = w.text numbers ++ x) : v.kind = w.kind := by
  obtain ⟨c, r, hc, hv⟩ := text_eq_cons numbers v
  obtain ⟨d, r', hd, hw⟩ := text_eq_cons numbers w
  rw [hc, hd, List.cons_append, List.cons_append, List.cons.injEq] at h
  rw [h.1, hw] at hv
  exact (Option.some.inj hv).symm

/-- No value's text begins so. -/
theorem text_ne_of_kind {v : Value Number} {u x : Str} {c : Char} (hc : kindOfChar c = none) :
    v.text numbers ++ u ≠ c :: x := by
  intro h
  obtain ⟨d, r, hd, hv⟩ := text_eq_cons numbers v
  rw [hd, List.cons_append, List.cons.injEq] at h
  rw [h.1, hc] at hv
  cases hv

theorem endsNumber_moreItems (items : List (Value Number)) (u : Str) :
    EndsNumber (textMoreItems numbers items ++ u) := by
  cases items with
  | nil =>
    rw [textMoreItems]
    exact .cons (by decide) _
  | cons item items =>
    rw [textMoreItems]
    exact .cons (by decide) _

theorem endsNumber_moreFields (map : List (Str × Value Number)) (u : Str) :
    EndsNumber (textMoreFields numbers map ++ u) := by
  cases map with
  | nil =>
    rw [textMoreFields]
    exact .cons (by decide) _
  | cons e map =>
    rw [textMoreFields]
    exact .cons (by decide) _

mutual

theorem text_inj : ∀ {v w : Value Number} {u x : Str}, EndsNumber u → EndsNumber x →
    v.text numbers ++ u = w.text numbers ++ x → v = w ∧ u = x
  | null, w, u, x, _, _, h => by
    -- the first character tells the kind of a value, so only values of one kind are compared
    have hkind := kind_eq numbers h
    cases w with
    | null => exact ⟨rfl, List.append_cancel_left h⟩
    | bool c => cases c <;> cases hkind
    | _ => cases hkind
  | bool true, w, u, x, _, _, h => by
    have hkind := kind_eq numbers h
    cases w with
    | bool c =>
      cases c with
      | true => exact ⟨rfl, List.append_cancel_left h⟩
      | false => cases hkind
    | _ => cases hkind
  | bool false, w, u, x, _, _, h => by
    have hkind := kind_eq numbers h
    cases w with
    | bool c =>
      cases c with
      | true => cases hkind
      | false => exact ⟨rfl, List.append_cancel_left h⟩
    | _ => cases hkind
  | number n, w, u, x, hu, hx, h => by
    have hkind := kind_eq numbers h
    cases w with
    | number m =>
      rw [text, text] at h
      obtain ⟨rfl, hrest⟩ := numberText_inj numbers hu hx h
      exact ⟨rfl, hrest⟩
    | bool c => cases c <;> cases hkind
    | _ => cases hkind
  | string s, w, u, x, _, _, h => by
    have hkind := kind_eq numbers h
    cases w with
    | string t =>
      rw [text, text] at h
      obtain ⟨rfl, hrest⟩ := stringText_inj h
      exact ⟨rfl, hrest⟩
    | bool c => cases c <;> cases hkind
    | _ => cases hkind
  | array items, w, u, x, _, _, h => by
    have hkind := kind_eq numbers h
    cases w with
    | array others =>
      rw [text, text] at h
      obtain ⟨rfl, hrest⟩ := textItems_inj (List.tail_eq_of_cons_eq h)
      exact ⟨rfl, hrest⟩
    | bool c => cases c <;> cases hkind
    | _ => cases hkind
  | object map, w, u, x, _, _, h => by
    have hkind := kind_eq numbers h
    cases w with
    | object other =>
      rw [text, text] at h
      obtain ⟨rfl, hrest⟩ := textFields_inj (List.tail_eq_of_cons_eq h)
      exact ⟨rfl, hrest⟩
    | bool c => cases c <;> cases hkind
    | _ => cases hkind

theorem textItems_inj : ∀ {items others : List (Value Number)} {u x : Str},
    textItems numbers items ++ u = textItems numbers others ++ x → items = others ∧ u = x
  | [], others, u, x, h => by
    cases others with
    | nil => exact ⟨rfl, List.append_cancel_left h⟩
    | cons other others =>
      rw [textItems, textItems, List.append_assoc] at h
      exact absurd h.symm (text_ne_of_kind numbers rfl)
  | item :: items, others, u, x, h => by
    cases others with
    | nil =>
      rw [textItems, textItems, List.append_assoc] at h
      exact absurd h (text_ne_of_kind numbers rfl)
    | cons other others =>
      rw [textItems, textItems, List.append_assoc, List.append_assoc] at h
      obtain ⟨rfl, hrest⟩ := text_inj (endsNumber_moreItems numbers _ _) (endsNumber_moreItems numbers _ _) h
      obtain ⟨rfl, hux⟩ := textMoreItems_inj hrest
      exact ⟨rfl, hux⟩

theorem textMoreItems_inj : ∀ {items others : List (Value Number)} {u x : Str},
    textMoreItems numbers items ++ u = textMoreItems numbers others ++ x → items = others ∧ u = x
  | [], others, u, x, h => by
    cases others with
    | nil => exact ⟨rfl, List.append_cancel_left h⟩
    | cons other others =>
      rw [textMoreItems, textMoreItems] at h
      simp at h
  | item :: items, others, u, x, h => by
    cases others with
    | nil =>
      rw [textMoreItems, textMoreItems] at h
      simp at h
    | cons other others =>
      rw [textMoreItems, textMoreItems, List.cons_append, List.cons_append, List.append_assoc, List.append_assoc] at h
      obtain ⟨rfl, hrest⟩ := text_inj (endsNumber_moreItems numbers _ _) (endsNumber_moreItems numbers _ _)
        (List.tail_eq_of_cons_eq h)
      obtain ⟨rfl, hux⟩ := textMoreItems_inj hrest
      exact ⟨rfl, hux⟩

theorem textFields_inj : ∀ {map other : List (Str × Value Number)} {u x : Str},
    textFields numbers map ++ u = textFields numbers other ++ x → map = other ∧ u = x
  | [], other, u, x, h => by
    cases other with
    | nil => exact ⟨rfl, List.append_cancel_left h⟩
    | cons e other =>
      rw [textFields, textFields, stringText] at h
      simp at h
  | (key, value) :: map, other, u, x, h => by
    cases other with
    | nil =>
      rw [textFields, textFields, stringText] at h
      simp at h
    | cons e other =>
      rw [textFields, textFields] at h
      simp only [List.append_assoc, List.cons_append] at h
      obtain ⟨hkey, hrest⟩ := stringText_inj h
      obtain ⟨hvalue, hrest⟩ := text_inj (endsNumber_moreFields numbers _ _) (endsNumber_moreFields numbers _ _)
        (List.tail_eq_of_cons_eq hrest)
      obtain ⟨rfl, hux⟩ := textMoreFields_inj hrest
      exact ⟨by rw [hkey, hvalue], hux⟩

theorem textMoreFields_inj : ∀ {map other : List (Str × Value Number)} {u x : Str},
    textMoreFields numbers map ++ u = textMoreFields numbers other ++ x → map = other ∧ u = x
  | [], other, u, x, h => by
    cases other with
    | nil => exact ⟨rfl, List.append_cancel_left h⟩
    | cons e other =>
      rw [textMoreFields, textMoreFields] at h
      simp at h
  | (key, value) :: map, other, u, x, h => by
    cases other with
    | nil =>
      rw [textMoreFields, textMoreFields] at h
      simp at h
    | cons e other =>
      rw [textMoreFields, textMoreFields] at h
      simp only [List.append_assoc, List.cons_append] at h
      obtain ⟨hkey, hrest⟩ := stringText_inj (List.tail_eq_of_cons_eq h)
      obtain ⟨hvalue, hrest⟩ := text_inj (endsNumber_moreFields numbers _ _) (endsNumber_moreFields numbers _ _)
        (List.tail_eq_of_cons_eq hrest)
      obtain ⟨rfl, hux⟩ := textMoreFields_inj hrest
      exact ⟨by rw [hkey, hvalue], hux⟩

end

/-- Distinct values have distinct texts. -/
theorem text_injective : Function.Injective (text numbers) := by
  intro v w h
  refine (text_inj numbers EndsNumber.nil EndsNumber.nil ?_).1
  rw [h]

end Value

end WorldInfra.Json
