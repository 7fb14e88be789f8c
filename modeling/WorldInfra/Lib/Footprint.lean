/-
Operations on a table that stay within a set of keys, the rules by which they compose, and what
follows for a table shared by several parties with keys of their own: none sees the others' operations.
-/
import WorldInfra.Lib.Machine
import WorldInfra.Lib.Table

namespace WorldInfra.Lib

variable {K V α β : Type} [DecidableEq K]

/-- The tables hold the same under the keys of a set. -/
def AgreeOn (ks : Set K) (m n : Table K V) : Prop := ∀ k ∈ ks, m.get k = n.get k

/-- An operation that changes nothing outside a set of keys, and depends on nothing outside it. -/
structure Within (ks : Set K) (f : Table K V → α × Table K V) : Prop where
  frame : ∀ m k, k ∉ ks → (f m).2.get k = m.get k
  depends : ∀ m n, AgreeOn ks m n → (f m).1 = (f n).1 ∧ AgreeOn ks (f m).2 (f n).2

namespace Within

variable {ks ls : Set K} {f : Table K V → α × Table K V}

/-- The answer is read off the keys of the set, and the table stays as it is. -/
theorem read {g : Table K V → α} (hg : ∀ m n, AgreeOn ks m n → g m = g n) : Within ks fun m => (g m, m) where
  frame _ _ _ := rfl
  depends m n h := ⟨hg m n h, h⟩

theorem pure (a : α) : Within ks fun m : Table K V => (a, m) := read fun _ _ _ => rfl

theorem insert {k : K} (hk : k ∈ ks) (v : V) (a : α) : Within ks fun m : Table K V => (a, m.insert k v) where
  frame m k' hk' := Table.get_insert_ne m v fun h => hk' (h ▸ hk)
  depends m n h := by
    refine ⟨rfl, fun k' hk' => ?_⟩
    show (m.insert k v).get k' = (n.insert k v).get k'
    rw [Table.get_insert, Table.get_insert, h k' hk']

/-- A key is removed, the answer being read off before. -/
theorem remove {k : K} (hk : k ∈ ks) {g : Table K V → α} (hg : ∀ m n, AgreeOn ks m n → g m = g n) :
    Within ks fun m : Table K V => (g m, m.remove k) where
  frame m k' hk' := Table.get_remove_ne m fun h => hk' (h ▸ hk)
  depends m n h := by
    refine ⟨hg m n h, fun k' hk' => ?_⟩
    show (m.remove k).get k' = (n.remove k).get k'
    rw [Table.get_remove, Table.get_remove, h k' hk']

theorem erase {k : K} (hk : k ∈ ks) (a : α) : Within ks fun m : Table K V => (a, m.remove k) :=
  remove hk fun _ _ _ => rfl

theorem ite {p : Prop} [Decidable p] {g : Table K V → α × Table K V} (hf : Within ks f) (hg : Within ks g) :
    Within ks fun m => if p then f m else g m := by
  by_cases hp : p
  · simpa only [hp, if_true] using hf
  · simpa only [hp, if_false] using hg

/-- One operation after another, the second chosen by the answer of the first. -/
theorem bind {g : α → Table K V → β × Table K V} (hf : Within ks f) (hg : ∀ a, Within ks (g a)) :
    Within ks fun m => g (f m).1 (f m).2 where
  frame m k hk := by rw [(hg _).frame _ k hk, hf.frame m k hk]
  depends m n h := by
    obtain ⟨hanswer, hagree⟩ := hf.depends m n h
    simp only [hanswer]
    exact (hg _).depends _ _ hagree

/-- An operation on what is left when a key is removed. -/
theorem afterErase {k : K} (hk : k ∈ ks) (hf : Within ks f) : Within ks fun m => f (m.remove k) :=
  (erase hk ()).bind fun _ => hf

theorem map (hf : Within ks f) (g : α → β) : Within ks fun m => (g (f m).1, (f m).2) :=
  hf.bind fun a => pure (g a)

/-- An operation chosen by what the table holds under a key of the set. -/
theorem onGet {k : K} (hk : k ∈ ks) {h : Option V → Table K V → α × Table K V} (hh : ∀ v, Within ks (h v)) :
    Within ks fun m => h (m.get k) m :=
  (read fun _ _ hagree => hagree k hk).bind hh

theorem congr {g : Table K V → α × Table K V} (hf : Within ks f) (h : ∀ m, g m = f m) : Within ks g := by
  have hg : g = f := funext h
  rwa [hg]

/-- What stays within other keys leaves the keys of a set alone. -/
theorem agreeOn_of_disjoint (hf : Within ks f) (hdis : Disjoint ks ls) {m n : Table K V} (h : AgreeOn ls m n) :
    AgreeOn ls (f m).2 n := by
  intro k hk
  rw [hf.frame m k (Set.disjoint_right.1 hdis hk), h k hk]

end Within

/-! ## Sharing a table -/

/-- On a shared table, the inputs of one party are answered as if there were no others: its own stay
within keys that the others' do not touch. -/
theorem outputsOf_of_within {A B : Type} {M : Machine (Table K V) A B} (own : Set K) {mine : A → Bool}
    (hmine : ∀ a, mine a = true → Within own fun m => M.step m a)
    (hothers : ∀ a, mine a = false → ∃ ks, Disjoint ks own ∧ Within ks fun m => M.step m a)
    (l : List A) (m : Table K V) : M.outputsOf mine m l = M.outputs m (l.filter mine) := by
  -- the tables stay in agreement whatever the time
  have htimed : Machine.TimedFrom (fun _ : A => ()) () l :=
    Machine.timedFrom_of_pairwise (fun _ _ => le_refl _) (List.pairwise_of_forall fun _ _ => le_refl _)
  refine Machine.outputsOf_of_simulation (R := fun _ => AgreeOn own) (P := fun _ => True) (fun _ _ _ _ _ h => h)
    ?_ ?_ (fun _ _ => trivial) htimed fun _ _ => rfl
  · intro a m n ha _ h
    exact (hmine a ha).depends m n h
  · intro a m n ha _ h
    obtain ⟨ks, hdis, hwithin⟩ := hothers a ha
    exact hwithin.agreeOn_of_disjoint hdis h

end WorldInfra.Lib
