import Mathlib.Data.Rat.Defs

/-!
Distances on the sphere, as both topology tools compute them (`tools/import_topology.py` has a copy
of `haversine_km` of `tools/fetch_topology.py`).

`math.sqrt` and `math.asin` raise `ValueError` outside of their domains, which is `none` here. The
argument of `asin` is at most 1 for all coordinates on paper, but with rounded values it exceeds 1
for places that are almost opposite each other.
-/

namespace MeshcoreSim

/-- What the tools use of `math`. -/
structure GeoLib where
  radians : ℚ → ℚ
  sin : ℚ → ℚ
  cos : ℚ → ℚ
  asin : ℚ → ℚ
  sqrt : ℚ → ℚ

namespace GeoLib

variable (lib : GeoLib)

def mathSqrt (x : ℚ) : Option ℚ := if x < 0 then none else some (lib.sqrt x)

def mathAsin (x : ℚ) : Option ℚ := if x < -1 ∨ 1 < x then none else some (lib.asin x)

/-- Great-circle distance in kilometres. -/
def haversineKm (lat1 lon1 lat2 lon2 : ℚ) : Option ℚ :=
  let dlat := lib.radians (lat2 - lat1)
  let dlon := lib.radians (lon2 - lon1)
  let a := lib.sin (dlat / 2) ^ 2 +
    lib.cos (lib.radians lat1) * lib.cos (lib.radians lat2) * lib.sin (dlon / 2) ^ 2
  ((lib.mathSqrt a).bind lib.mathAsin).map (6371 * 2 * ·)

end GeoLib

end MeshcoreSim
