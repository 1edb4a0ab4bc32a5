import GeoAlmanac.Arithmetic

/-! Vectors of three-dimensional space. -/

namespace GeoAlmanac

/-- A vector by its three components. -/
structure Vector3 (α : Type) where
  x : α
  y : α
  z : α

namespace Vector3
variable {α : Type}

/-- The scalar product, summed from the first component to the last. -/
def dot [Arithmetic α] (a b : Vector3 α) : α :=
  a.x * b.x + a.y * b.y + a.z * b.z

/-- The Euclidean length. -/
def norm [Geometric α] (a : Vector3 α) : α :=
  sqrt (dot a a)

end Vector3
end GeoAlmanac
