import FlowScript.Geometry

namespace FlowScript

/-- Zoom factor, scroll offset in scaled canvas units, and the window position of the canvas corner: in the
window, `(window - origin + scroll) / scale` is the canvas position. -/
structure Viewport (α : Type) where
  scale : α
  scroll : Point α
  origin : Point α
  deriving DecidableEq, Repr

namespace Viewport
variable {α : Type} [Scalar α]

def minScale : α := Scalar.ofNat 1 / Scalar.ofNat 2

def maxScale : α := Scalar.ofNat 2

def atOrigin (origin : Point α) : Viewport α := ⟨Scalar.ofNat 1, Point.origin, origin⟩

def initial : Viewport α := atOrigin Point.origin

def toCanvas (v : Viewport α) (window : Point α) : Point α :=
  (window - v.origin + v.scroll) / v.scale

def toWindow (v : Viewport α) (canvas : Point α) : Point α :=
  canvas * v.scale - v.scroll + v.origin

def pan (v : Viewport α) (dx dy : α) : Viewport α := { v with scroll := v.scroll + ⟨dx, dy⟩ }

def withOrigin (v : Viewport α) (origin : Point α) : Viewport α := { v with origin }

def zoomTo (v : Viewport α) (anchor : Point α) (scale : α) : Viewport α :=
  if Scalar.isFinite scale then
    let canvas := v.toCanvas anchor
    let scale := Scalar.clamp minScale maxScale scale
    { v with scale, scroll := canvas * scale - (anchor - v.origin) }
  else v

def zoomBy (v : Viewport α) (anchor : Point α) (factor : α) : Viewport α :=
  v.zoomTo anchor (v.scale * factor)

end Viewport
end FlowScript
