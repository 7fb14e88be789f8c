/-
world-identity-core: references to worlds, with or without an incarnation.
-/
import WorldInfra.Rust.Text

namespace WorldInfra.WorldIdentity

open WorldInfra.Rust

/-- `fmt::Display`, by what `to_string` makes of it. -/
class Display (α : Type) where
  display : α → Str

export Display (display)

instance : Display Str := ⟨id⟩

structure NoIncarnation where
  deriving DecidableEq, Repr

instance : Display NoIncarnation := ⟨fun _ => "none".toList⟩

structure IncarnationId (I : Type) where
  id : I

instance {I : Type} [Display I] : Display (IncarnationId I) := ⟨fun incarnation => display incarnation.id⟩

structure WorldRef (W I : Type) where
  worldId : W
  incarnation : I

end WorldInfra.WorldIdentity
