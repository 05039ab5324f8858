/-!
# Sizes of images

* `Size`, with `Size.fits` and `Size.scaleTo`: the size of an image that is to fit into a square.
-/

namespace Quotation

/-- Width and height, in pixels. -/
structure Size where
  width : Nat
  height : Nat
  deriving DecidableEq, Repr

namespace Size

/-- Whether neither edge is longer than the given one. -/
def fits (s : Size) (edge : Nat) : Bool :=
  s.width ≤ edge && s.height ≤ edge

/-- An edge made longer or shorter, rounded to whole pixels, a half away from zero. At least one
pixel is left. -/
def scaleEdge (ratio : Float) (edge : Nat) : Nat :=
  max (Float.ofNat edge * ratio).round.toUInt64.toNat 1

/-- The size made longer or shorter so that it just fits. -/
def scaleTo (s : Size) (edge : Nat) : Size :=
  let across := Float.ofNat edge / Float.ofNat s.width
  let down := Float.ofNat edge / Float.ofNat s.height
  let ratio := if across < down then across else down
  ⟨scaleEdge ratio s.width, scaleEdge ratio s.height⟩

end Size

end Quotation
