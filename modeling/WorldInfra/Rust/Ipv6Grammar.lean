/-
The parser of IPv6 addresses against the grammar of RFC 3986: it reads exactly the texts of the grammar,
as the addresses they stand for. What it reads without looking back is what the grammar cuts at colons.
-/
import WorldInfra.Rfc.Node
import WorldInfra.Rust.Ipv6Text

namespace WorldInfra.Rust

open WorldInfra.Rfc

namespace Net

/-! ## Numbers -/

/-- No digit follows. -/
def EndsDigits (radix : Nat) (rest : Str) : Prop := ∀ c, rest.head? = some c → isDigitOf radix c = false

theorem takeWhile_isDigitOf {radix : Nat} {digits rest : Str} (hdigits : ∀ c ∈ digits, isDigitOf radix c = true)
    (hrest : EndsDigits radix rest) : (digits ++ rest).takeWhile (isDigitOf radix) = digits := by
  rw [List.takeWhile_append_of_pos hdigits]
  cases rest with
  | nil => rw [List.takeWhile_nil, List.append_nil]
  | cons c rest =>
    rw [List.takeWhile_cons_of_neg, List.append_nil]
    rw [hrest c rfl]
    exact Bool.false_ne_true

/-- A number that may begin with zeros is read as all digits there are. -/
theorem readNumber_eq_some {radix bound n : Nat} {maxDigits : Option Nat} {s rest : Str} :
    readNumber radix maxDigits true bound s = some (n, rest) ↔
      ∃ digits, s = digits ++ rest ∧ (digits ≠ [] ∧ ∀ m, maxDigits = some m → digits.length ≤ m) ∧
        (∀ c ∈ digits, isDigitOf radix c = true) ∧ EndsDigits radix rest ∧ digitsValue radix digits = n ∧ n ≤
          bound := by
  constructor
  · intro h
    unfold readNumber at h
    simp only [Bool.not_true, Bool.false_and, Bool.false_eq_true, if_false] at h
    split at h
    · cases h
    · rename_i hlength
      split at h
      · rename_i hbound
        rw [Option.some.injEq, Prod.mk.injEq] at h
        obtain ⟨rfl, rfl⟩ := h
        simp only [Bool.or_eq_true, not_or, List.isEmpty_iff] at hlength
        have hsplit : s.takeWhile (isDigitOf radix) ++ s.dropWhile (isDigitOf radix) = s :=
          List.takeWhile_append_dropWhile
        have hdrop : s.drop (s.takeWhile (isDigitOf radix)).length = s.dropWhile (isDigitOf radix) :=
          (congrArg (List.drop _) hsplit.symm).trans List.drop_left
        refine ⟨s.takeWhile (isDigitOf radix), ?_, ⟨hlength.1, ?_⟩, fun c hc => List.mem_takeWhile_imp hc, ?_, rfl,
          hbound⟩
        · change s = _ ++ s.drop (s.takeWhile (isDigitOf radix)).length
          rw [hdrop, hsplit]
        · rintro m rfl
          have hmax := hlength.2
          rw [Option.any_some, decide_eq_true_eq, not_lt] at hmax
          exact hmax
        · change EndsDigits radix (s.drop (s.takeWhile (isDigitOf radix)).length)
          rw [hdrop]
          intro c hc
          have hhead := List.head?_dropWhile_not (isDigitOf radix) s
          rw [hc] at hhead
          exact hhead
      · cases h
  · rintro ⟨digits, rfl, ⟨hne, hmax⟩, hdigits, hrest, rfl, hbound⟩
    have htake : (digits ++ rest).takeWhile (fun c => (toDigit radix c).isSome) = digits :=
      takeWhile_isDigitOf hdigits hrest
    have hmax' : ¬ maxDigits.any (fun m => digits.length > m) = true := by
      cases maxDigits with
      | none => exact Bool.false_ne_true
      | some m =>
        rw [Option.any_some, decide_eq_true_eq, not_lt]
        exact hmax m rfl
    unfold readNumber
    simp only [htake, Bool.not_true, Bool.false_and, Bool.false_eq_true, if_false]
    rw [if_neg, List.drop_left]
    · exact if_pos hbound
    · rw [Bool.or_eq_true, List.isEmpty_iff]
      rintro (hempty | hlong)
      · exact hne hempty
      · exact hmax' hlong

/-! ## Groups -/

theorem toDigit_hex {c : Char} (h : isAsciiHexdigit c = true) : toDigit 16 c = some (hexDigit c) := by
  simp only [isAsciiHexdigit, Bool.or_eq_true, Bool.and_eq_true, decide_eq_true_eq, char_le_iff, isDigit_iff] at h
  have ha : 'a'.toNat = 97 := rfl
  have hf : 'f'.toNat = 102 := rfl
  have hA : 'A'.toNat = 65 := rfl
  have hF : 'F'.toNat = 70 := rfl
  have h0 : '0'.toNat = 48 := rfl
  unfold toDigit hexDigit
  simp only [isDigit_iff, isLower_iff, isUpper_iff]
  split
  · rw [if_pos (by omega), h0]
  · split
    · rw [if_pos (by omega), ha]
      congr 1
      omega
    · have hupper : 65 ≤ c.toNat ∧ c.toNat ≤ 90 := by omega
      rw [if_pos hupper, if_pos (by omega), hA]
      congr 1
      omega

theorem isDigitOf_hex (c : Char) : isDigitOf 16 c = isAsciiHexdigit c := by
  rw [Bool.eq_iff_iff]
  constructor
  · exact isAsciiHexdigit_of_toDigit (le_refl 16)
  · intro h
    rw [isDigitOf, toDigit_hex h]
    rfl

theorem digitsValue_hex {s : Str} (h : ∀ c ∈ s, isAsciiHexdigit c = true) :
    digitsValue 16 s = Nat.ofDigits 16 (s.map hexDigit).reverse := by
  induction s using List.reverseRecOn with
  | nil => rfl
  | append_singleton s c ih =>
    rw [List.forall_mem_append, List.forall_mem_singleton] at h
    rw [digitsValue_append, ih h.1, toDigit_hex h.2, List.map_append, List.map_singleton, List.reverse_append,
      List.reverse_singleton, List.singleton_append, Nat.ofDigits_cons, Option.getD_some]
    ring

theorem hexDigit_lt {c : Char} (h : isAsciiHexdigit c = true) : hexDigit c < 16 := by
  simp only [isAsciiHexdigit, Bool.or_eq_true, Bool.and_eq_true, decide_eq_true_eq, char_le_iff, isDigit_iff] at h
  have ha : 'a'.toNat = 97 := rfl
  have hf : 'f'.toNat = 102 := rfl
  have hA : 'A'.toNat = 65 := rfl
  have hF : 'F'.toNat = 70 := rfl
  unfold hexDigit
  simp only [isDigit_iff, isLower_iff]
  split_ifs <;> omega

theorem value_le (h : H16) : h.value ≤ 65535 := by
  have hdigits : ∀ d ∈ (h.digits.map hexDigit).reverse, d < 16 := by
    intro d hd
    obtain ⟨c, hc, rfl⟩ := List.mem_map.1 (List.mem_reverse.1 hd)
    exact hexDigit_lt (List.all_eq_true.1 h.hex c hc)
  have hlt := Nat.ofDigits_lt_base_pow_length (by decide) hdigits
  rw [List.length_reverse, List.length_map] at hlt
  have hpow : 16 ^ h.digits.length ≤ 16 ^ 4 := Nat.pow_le_pow_right (by decide) h.length_le
  unfold H16.value
  omega

/-- A group is read exactly where its digits end. -/
theorem readGroup_eq_some {s rest : Str} {n : Nat} : readNumber 16 (some 4) true 65535 s = some (n, rest) ↔
    ∃ h : H16, s = h.digits ++ rest ∧ h.value = n ∧ EndsDigits 16 rest := by
  rw [readNumber_eq_some]
  constructor
  · rintro ⟨digits, rfl, ⟨hne, hmax⟩, hdigits, hrest, rfl, -⟩
    have hhex : ∀ c ∈ digits, isAsciiHexdigit c = true := fun c hc => isDigitOf_hex c ▸ hdigits c hc
    exact ⟨⟨digits, hne, hmax 4 rfl, List.all_eq_true.2 hhex⟩, rfl, (digitsValue_hex hhex).symm, hrest⟩
  · rintro ⟨h, rfl, rfl, hrest⟩
    have hhex := List.all_eq_true.1 h.hex
    refine ⟨h.digits, rfl, ⟨h.ne, ?_⟩, fun c hc => isDigitOf_hex c ▸ hhex c hc, hrest, digitsValue_hex hhex, value_le h⟩
    rintro m ⟨⟩
    exact h.length_le

theorem readSeparator_eq_some {α : Type} {first : Bool} {inner : Reader α} {s : Str} {r : α × Str} :
    readSeparator ':' first inner s = some r ↔ ∃ t, s = (if first then t else ':' :: t) ∧ inner t = some r := by
  cases first with
  | true => simp only [if_true, exists_eq_left']; exact Iff.rfl
  | false =>
    show (readGivenChar ':' >>= fun _ => inner) s = some r ↔ _
    rw [bind_eq_some]
    simp only [Bool.false_eq_true, if_false]
    constructor
    · rintro ⟨_, t, hsep, hinner⟩
      exact ⟨t, readGivenChar_eq_some.1 hsep, hinner⟩
    · rintro ⟨t, hs, hinner⟩
      exact ⟨(), t, readGivenChar_eq_some.2 hs, hinner⟩

/-! ## Pieces -/

/-- Texts with a colon before each of them, except perhaps the first. -/
def separated : Bool → List Str → Str
  | _, [] => []
  | first, t :: ts => (if first then t else ':' :: t) ++ separated false ts

theorem separated_false : ∀ ts : List Str, separated false ts = ts.flatMap (':' :: ·)
  | [] => rfl
  | t :: ts => by
    rw [separated, List.flatMap_cons, separated_false ts]
    rfl

theorem separated_true (ts : List Str) : separated true ts = [':'].intercalate ts := by
  cases ts with
  | nil => rfl
  | cons t ts =>
    rw [separated, separated_false, Str.intercalate_cons_eq]
    rfl

theorem length_values (p : Ipv6Pieces) : p.values.length = p.length := by
  rw [Ipv6Pieces.values, Ipv6Pieces.length, List.length_append, List.length_map]
  cases p.v4 <;> rfl

/-- What is read are pieces. -/
theorem readGroups_sound : ∀ {limit : Nat} {first v4 : Bool} {s rest : Str} {groups : List Nat},
    readGroups first limit s = ((groups, v4), rest) → ∃ p : Ipv6Pieces, s = separated first p.texts ++ rest ∧
      p.values = groups ∧ p.length ≤ limit ∧ p.v4.isSome = v4
  | 0, _, _, _, _, _, h => by
    cases h
    exact ⟨⟨[], none⟩, rfl, rfl, le_refl 0, rfl⟩
  | limit + 1, first, v4, s, rest, groups, h => by
    rw [readGroups] at h
    split at h
    · rename_i a rest' hv4
      cases h
      split at hv4
      · rename_i hlimit
        obtain ⟨t, rfl, hread⟩ := readSeparator_eq_some.1 hv4
        obtain ⟨rfl, -⟩ := readIpv4Addr_eq_some.1 hread
        refine ⟨⟨[], some a⟩, ?_, rfl, ?_, rfl⟩
        · cases first <;> simp [Ipv6Pieces.texts, separated]
        · show 0 + 2 ≤ limit + 1
          omega
      · cases hv4
    · split at h
      · cases h
        exact ⟨⟨[], none⟩, rfl, rfl, Nat.zero_le _, rfl⟩
      · rename_i group rest' hgroup
        obtain ⟨t, rfl, hread⟩ := readSeparator_eq_some.1 hgroup
        obtain ⟨g, rfl, rfl, -⟩ := readGroup_eq_some.1 hread
        rcases hmore : readGroups false limit rest' with ⟨⟨more, v4'⟩, rest''⟩
        rw [hmore] at h
        cases h
        obtain ⟨p, rfl, rfl, hlength, hv4⟩ := readGroups_sound hmore
        refine ⟨⟨g :: p.groups, p.v4⟩, ?_, rfl, ?_, hv4⟩
        · cases first <;> simp [Ipv6Pieces.texts, separated]
        · simp only [Ipv6Pieces.length, List.length_cons] at hlength ⊢
          omega

/-- Nothing of an address follows but, perhaps, a gap. -/
def Stops (rest : Str) : Prop := rest = [] ∨ ∃ more, rest = ':' :: ':' :: more

theorem Stops.ends {rest : Str} (h : Stops rest) : rest = [] ∨ ∃ more, rest = ':' :: more := by
  rcases h with rfl | ⟨more, rfl⟩
  · exact .inl rfl
  · exact .inr ⟨_, rfl⟩

theorem endsDigits_of_ends {rest : Str} (h : rest = [] ∨ ∃ more, rest = ':' :: more) : EndsDigits 16 rest := by
  rcases h with rfl | ⟨more, rfl⟩
  · exact nofun
  · rintro c ⟨⟩
    rfl

theorem isAsciiHexdigit_of_isDigit {c : Char} (h : c.isDigit = true) : isAsciiHexdigit c = true := by
  rw [isAsciiHexdigit, h]
  rfl

/-- Digits with a colon behind them, or nothing, do not begin an IPv4 address. -/
theorem readIpv4Addr_hex {digits rest : Str} (hdigits : ∀ c ∈ digits, isAsciiHexdigit c = true)
    (hrest : rest = [] ∨ ∃ more, rest = ':' :: more) : readIpv4Addr (digits ++ rest) = none := by
  cases hread : readIpv4Addr (digits ++ rest) with
  | none => rfl
  | some r =>
    obtain ⟨a, rest'⟩ := r
    obtain ⟨heq, -⟩ := readIpv4Addr_eq_some.1 hread
    have hoctet : ∀ c ∈ decimal (octet a 0), isDigitOf 16 c = true := by
      intro c hc
      rw [decimal_nat] at hc
      rw [isDigitOf_hex, isAsciiHexdigit_of_isDigit (isDigit_of_mem_toDigits hc)]
    have hdot : ∀ s, EndsDigits 16 ('.' :: s) := by
      rintro s c ⟨⟩
      rfl
    -- both sides begin with all their digits, and only one goes on with a dot
    have htake := congrArg (List.takeWhile (isDigitOf 16)) heq
    rw [takeWhile_isDigitOf (fun c hc => isDigitOf_hex c ▸ hdigits c hc) (endsDigits_of_ends hrest), dottedQuad,
      List.append_assoc, List.cons_append, takeWhile_isDigitOf hoctet (hdot _)] at htake
    rw [htake, dottedQuad, List.append_assoc, List.cons_append, List.append_cancel_left_eq] at heq
    rcases hrest with rfl | ⟨more, rfl⟩
    · cases heq
    · cases heq

theorem readGroups_stops {first : Bool} {rest : Str} (h : Stops rest) (limit : Nat) :
    readGroups first limit rest = (([], false), rest) := by
  cases limit with
  | zero => rfl
  | succ limit =>
    have hv4 : readSeparator ':' first readIpv4Addr rest = none := by
      cases hread : readSeparator ':' first readIpv4Addr rest with
      | none => rfl
      | some r =>
        obtain ⟨t, ht, hr⟩ := readSeparator_eq_some.1 hread
        have hends : t = [] ∨ ∃ more, t = ':' :: more := by
          cases first with
          | true =>
            rw [if_pos rfl] at ht
            rw [← ht]
            exact h.ends
          | false =>
            rcases h with rfl | ⟨more, rfl⟩
            · cases ht
            · cases ht
              exact .inr ⟨_, rfl⟩
        rw [show t = [] ++ t from rfl, readIpv4Addr_hex (by simp) hends] at hr
        cases hr
    have hgroup : readSeparator ':' first (readNumber 16 (some 4) true 65535) rest = none := by
      cases hread : readSeparator ':' first (readNumber 16 (some 4) true 65535) rest with
      | none => rfl
      | some r =>
        obtain ⟨t, ht, hr⟩ := readSeparator_eq_some.1 hread
        obtain ⟨g, rfl, -, -⟩ := readGroup_eq_some.1 hr
        obtain ⟨c, digits, hg⟩ := List.exists_cons_of_ne_nil g.ne
        have hc := List.all_eq_true.1 g.hex c (by rw [hg]; exact List.mem_cons_self ..)
        have hcolon : c = ':' := by
          rw [hg] at ht
          cases first with
          | true =>
            rw [if_pos rfl, List.cons_append] at ht
            rcases h with rfl | ⟨more, rfl⟩
            · cases ht
            · exact (List.cons.inj ht).1.symm
          | false =>
            rw [if_neg Bool.false_ne_true, List.cons_append] at ht
            rcases h with rfl | ⟨more, rfl⟩
            · cases ht
            · exact (List.cons.inj (List.cons.inj ht).2).1.symm
        rw [hcolon] at hc
        cases hc
    rw [readGroups, hv4, hgroup, ite_self]

theorem ends_separated (ts : List Str) {rest : Str} (h : Stops rest) :
    separated false ts ++ rest = [] ∨ ∃ more, separated false ts ++ rest = ':' :: more := by
  cases ts with
  | nil => exact h.ends
  | cons t ts => exact .inr ⟨_, rfl⟩

/-- Pieces are read, as many as there are. -/
theorem readGroups_complete (v4 : Option (BitVec 32)) : ∀ (groups : List H16) (first : Bool) (limit : Nat) (rest : Str),
    (⟨groups, v4⟩ : Ipv6Pieces).length ≤ limit → Stops rest →
      readGroups first limit (separated first (⟨groups, v4⟩ : Ipv6Pieces).texts ++ rest) =
        (((⟨groups, v4⟩ : Ipv6Pieces).values, v4.isSome), rest)
  | [], first, limit, rest, hlength, hstops => by
    cases v4 with
    | none => exact readGroups_stops hstops limit
    | some a =>
      have htwo : 2 ≤ limit := hlength
      obtain ⟨limit, rfl⟩ := Nat.exists_eq_add_of_le' (show 1 ≤ limit by omega)
      have hends : EndsNumber rest := by
        rcases hstops with rfl | ⟨more, rfl⟩
        · exact nofun
        · rintro c ⟨⟩
          rfl
      have hread : readSeparator ':' first readIpv4Addr
          (separated first (⟨[], some a⟩ : Ipv6Pieces).texts ++ rest) = some (a, rest) := by
        refine readSeparator_eq_some.2 ⟨dottedQuad a ++ rest, ?_, readIpv4Addr_eq_some.2 ⟨rfl, hends⟩⟩
        cases first <;> simp [Ipv6Pieces.texts, separated]
      rw [readGroups, if_pos (by omega), hread]
      rfl
  | g :: groups, first, limit, rest, hlength, hstops => by
    have hshorter : (⟨groups, v4⟩ : Ipv6Pieces).length + 1 ≤ limit := by
      simp only [Ipv6Pieces.length, List.length_cons] at hlength ⊢
      omega
    obtain ⟨limit, rfl⟩ := Nat.exists_eq_add_of_le' (show 1 ≤ limit by omega)
    have hmore := readGroups_complete v4 groups false limit rest (by omega) hstops
    generalize hts : (⟨groups, v4⟩ : Ipv6Pieces).texts = ts at hmore
    have htext : separated first (⟨g :: groups, v4⟩ : Ipv6Pieces).texts ++ rest =
        if first then g.digits ++ (separated false ts ++ rest) else ':' ::
          (g.digits ++ (separated false ts ++ rest)) := by
      rw [← hts]
      cases first <;> simp [Ipv6Pieces.texts, separated]
    have hends := ends_separated ts hstops
    have hv4 : readSeparator ':' first readIpv4Addr (separated first (⟨g :: groups, v4⟩ : Ipv6Pieces).texts ++ rest) =
        none := by
      rw [htext]
      cases hread : readSeparator ':' first readIpv4Addr _ with
      | none => rfl
      | some r =>
        obtain ⟨t, ht, hr⟩ := readSeparator_eq_some.1 hread
        have ht' : t = g.digits ++ (separated false ts ++ rest) := by
          cases first <;> simpa using ht.symm
        rw [ht', readIpv4Addr_hex (List.all_eq_true.1 g.hex) hends] at hr
        cases hr
    have hgroup : readSeparator ':' first (readNumber 16 (some 4) true 65535)
        (separated first (⟨g :: groups, v4⟩ : Ipv6Pieces).texts ++ rest) =
          some (g.value, separated false ts ++ rest) := by
      rw [htext]
      exact readSeparator_eq_some.2 ⟨_, rfl, readGroup_eq_some.2 ⟨g, rfl, rfl, endsDigits_of_ends hends⟩⟩
    rw [readGroups, hv4, ite_self, hgroup]
    simp only [hmore]
    rfl

/-! ## Addresses -/

theorem ofGroups_eq (groups : List Nat) :
    ofGroups groups = BitVec.ofNat 128 (Nat.ofDigits (2 ^ 16) groups.reverse) := by
  have hfold : groups.foldl (fun n g => n * 65536 + g) 0 = Nat.ofDigits (2 ^ 16) groups.reverse := by
    rw [Nat.ofDigits_eq_foldr, List.foldr_reverse]
    congr 1
    funext n g
    push_cast
    ring
  rw [ofGroups, hfold]

/-- The parser reads the addresses of the grammar. -/
theorem readIpv6Addr_text (a : Ipv6Address) : readIpv6Addr a.text = some (a.address, []) := by
  cases a with
  | full pieces h =>
    have hread := readGroups_complete pieces.v4 pieces.groups true 8 [] (le_of_eq h) (.inl rfl)
    rw [List.append_nil, separated_true] at hread
    unfold readIpv6Addr
    rw [bind_eq_some]
    refine ⟨_, _, congrArg some hread, ?_⟩
    simp only
    rw [if_pos ((length_values pieces).trans h), ofGroups_eq]
    rfl
  | gap before after h =>
    have hbefore := readGroups_complete none before true 8 (':' :: ':' :: [':'].intercalate after.texts)
      (by simp only [Ipv6Pieces.length]; simp; omega) (.inr ⟨_, rfl⟩)
    have hafter := readGroups_complete after.v4 after.groups true (8 - (before.length + 1)) []
      (by simp only [Ipv6Pieces.length] at h ⊢; omega) (.inl rfl)
    rw [List.append_nil, separated_true] at hafter
    rw [separated_true] at hbefore
    have htexts : (⟨before, none⟩ : Ipv6Pieces).texts = before.map H16.digits := by simp [Ipv6Pieces.texts]
    have hvalues : (⟨before, none⟩ : Ipv6Pieces).values = before.map H16.value := by simp [Ipv6Pieces.values]
    rw [htexts, hvalues] at hbefore
    have hlength : (before.map H16.value).length = before.length := List.length_map _
    unfold readIpv6Addr
    rw [bind_eq_some]
    refine ⟨_, _, congrArg some hbefore, ?_⟩
    simp only [Option.isSome_none]
    rw [if_neg (by rw [hlength]; omega), if_neg Bool.false_ne_true, bind_eq_some]
    refine ⟨(), _, readGivenChar_eq_some.2 rfl, bind_eq_some.2 ⟨(), _, readGivenChar_eq_some.2 rfl,
      bind_eq_some.2 ?_⟩⟩
    refine ⟨(after.values, after.v4.isSome), [], congrArg some (by rw [hlength]; exact hafter), ?_⟩
    show some (ofGroups _, _) = _
    rw [ofGroups_eq, hlength, length_values after]
    rfl

/-- And nothing else. -/
theorem text_of_readIpv6Addr {s : Str} {addr : BitVec 128} (h : readIpv6Addr s = some (addr, [])) :
    ∃ a : Ipv6Address, a.text = s ∧ a.address = addr := by
  unfold readIpv6Addr at h
  obtain ⟨⟨head, v4⟩, rest, hgroups, h⟩ := bind_eq_some.1 h
  obtain ⟨p, rfl, rfl, hlength, hv4⟩ := readGroups_sound (Option.some.inj hgroups)
  simp only [length_values] at h
  split at h
  · rename_i height
    cases h
    refine ⟨.full p height, ?_, ?_⟩
    · rw [Ipv6Address.text, List.append_nil, separated_true]
    · rw [ofGroups_eq]
      rfl
  · rename_i hfew
    split at h
    · cases h
    · rename_i hno
      obtain ⟨_, s₁, h₁, h⟩ := bind_eq_some.1 h
      obtain ⟨_, s₂, h₂, h⟩ := bind_eq_some.1 h
      obtain ⟨⟨tail, v4'⟩, s₃, h₃, h⟩ := bind_eq_some.1 h
      rw [readGivenChar_eq_some] at h₁ h₂
      obtain ⟨q, rfl, rfl, hlength', -⟩ := readGroups_sound (Option.some.inj h₃)
      cases h
      obtain ⟨groups, v4''⟩ := p
      have hnone : v4'' = none := by
        rw [← Option.not_isSome_iff_eq_none]
        exact fun hsome => hno (hv4.symm.trans hsome)
      subst hnone
      simp only [Ipv6Pieces.length] at hlength hfew hlength'
      refine ⟨.gap groups q (by simp only [Ipv6Pieces.length]; simp at hlength hfew hlength'; omega), ?_, ?_⟩
      · rw [Ipv6Address.text, h₁, h₂, separated_true, separated_true, List.append_nil]
        simp [Ipv6Pieces.texts]
      · rw [ofGroups_eq, Ipv6Address.address, Ipv6Address.values, length_values q]
        simp [Ipv6Pieces.values, Ipv6Pieces.length]

/-- The characters of an address, two colons among them. -/
theorem ipv6Part_text (a : Ipv6Address) : Ipv6Part 2 a.text := by
  obtain ⟨used, hs, hpart⟩ := readIpv6Addr_used (readIpv6Addr_text a)
  rw [List.append_nil] at hs
  rwa [hs]

/-- The digits an address begins with, if any, have a colon behind them. -/
theorem exists_digits (a : Ipv6Address) : ∃ digits rest, a.text = digits ++ rest ∧
    (∀ c ∈ digits, isAsciiHexdigit c = true) ∧ (rest = [] ∨ ∃ more, rest = ':' :: more) := by
  have hjoin : ∀ (g : H16) (ts : List Str) (rest : Str), Stops rest → ∃ digits rest',
      [':'].intercalate (g.digits :: ts) ++ rest = digits ++ rest' ∧ (∀ c ∈ digits, isAsciiHexdigit c = true) ∧
        (rest' = [] ∨ ∃ more, rest' = ':' :: more) := by
    intro g ts rest h
    refine ⟨g.digits, separated false ts ++ rest, ?_, List.all_eq_true.1 g.hex, ends_separated ts h⟩
    rw [← separated_true, separated, if_pos rfl, List.append_assoc]
  cases a with
  | full pieces h =>
    obtain ⟨groups, v4⟩ := pieces
    cases groups with
    | nil =>
      cases v4 <;> simp [Ipv6Pieces.length] at h
    | cons g groups =>
      obtain ⟨digits, rest, heq, hdigits, hrest⟩ :=
        hjoin g ((⟨groups, v4⟩ : Ipv6Pieces).texts) [] (.inl rfl)
      rw [List.append_nil] at heq
      exact ⟨digits, rest, heq, hdigits, hrest⟩
  | gap before after h =>
    cases before with
    | nil => exact ⟨[], _, rfl, by simp, .inr ⟨_, rfl⟩⟩
    | cons g before => exact hjoin g (before.map H16.digits) _ (.inr ⟨_, rfl⟩)

theorem readIpv4Addr_text (a : Ipv6Address) : readIpv4Addr a.text = none := by
  obtain ⟨digits, rest, heq, hdigits, hrest⟩ := exists_digits a
  rw [heq, readIpv4Addr_hex hdigits hrest]

end Net

/-- The texts of addresses. -/
inductive AddressText : Str → IpAddr → Prop
  | v4 (a : BitVec 32) : AddressText (dottedQuad a) (.v4 a)
  | v6 (a : Ipv6Address) : AddressText a.text (.v6 a.address)

/-- Addresses are parsed from exactly their texts. -/
theorem IpAddr.parse_iff {s : Str} {ip : IpAddr} : IpAddr.parse s = some ip ↔ AddressText s ip := by
  have hread : Net.readIpAddr s = ((Net.readIpv4Addr s).bind (fun p => some (IpAddr.v4 p.1, p.2)) <|>
      (Net.readIpv6Addr s).bind fun p => some (IpAddr.v6 p.1, p.2)) := rfl
  rw [IpAddr.parse, Net.parseWith, hread]
  constructor
  · intro h
    split at h
    · rename_i addr hparse
      cases h
      rcases (Option.orElse_eq_some _ _ _).1 hparse with h | ⟨-, h⟩
      · obtain ⟨⟨a, rest⟩, hv4, heq⟩ := Option.bind_eq_some_iff.1 h
        cases heq
        obtain ⟨rfl, -⟩ := Net.readIpv4Addr_eq_some.1 hv4
        rw [List.append_nil]
        exact .v4 a
      · obtain ⟨⟨a, rest⟩, hv6, heq⟩ := Option.bind_eq_some_iff.1 h
        cases heq
        obtain ⟨a, rfl, rfl⟩ := Net.text_of_readIpv6Addr hv6
        exact .v6 a
    · cases h
  · intro h
    cases h with
    | v4 a =>
      have hv4 : Net.readIpv4Addr (dottedQuad a) = some (a, []) := by
        rw [Net.readIpv4Addr_eq_some, List.append_nil]
        exact ⟨rfl, Net.EndsNumber.nil⟩
      rw [hv4]
      rfl
    | v6 a =>
      rw [Net.readIpv4Addr_text a, Net.readIpv6Addr_text a]
      rfl

namespace AddressText

variable {s : Str} {ip : IpAddr}

theorem chars (h : AddressText s ip) : ∀ c ∈ s, Net.isIpv6Char c = true := by
  cases h with
  | v4 a => exact Net.chars_dottedQuad a
  | v6 a => exact (Net.ipv6Part_text a).chars

theorem not_mem (h : AddressText s ip) {c : Char} (hc : Net.isIpv6Char c = false) : c ∉ s := by
  intro hmem
  rw [h.chars c hmem] at hc
  cases hc

theorem ne_nil (h : AddressText s ip) : s ≠ [] := by
  cases h with
  | v4 a => exact List.append_ne_nil_of_right_ne_nil _ (List.cons_ne_nil _ _)
  | v6 a =>
    have hcount := (Net.ipv6Part_text a).le_count
    intro hnil
    rw [hnil] at hcount
    cases hcount

/-- A text is that of one address. -/
theorem unique {ip' : IpAddr} (h : AddressText s ip) (h' : AddressText s ip') : ip = ip' :=
  Option.some.inj ((IpAddr.parse_iff.2 h).symm.trans (IpAddr.parse_iff.2 h'))

end AddressText

end WorldInfra.Rust
