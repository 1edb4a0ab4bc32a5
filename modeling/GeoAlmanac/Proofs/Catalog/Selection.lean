import GeoAlmanac.Catalog.Records
import GeoAlmanac.Proofs.Binary64.Neighbours

/-! Look-up in catalogs. The first entry of a name, in either case, decides alone: it is answered if
it is valid, and no later entry takes its place if it is not. A body that gives its radius in
kilometres only is valid in both units or in none. -/

namespace GeoAlmanac

namespace Binary64
open Float.Model

end Binary64

namespace Catalog
open Binary64 Text

section
variable {β : Type} {nameOf : β → String}

section
variable {catalog : List β} {name : String}

end

end

end Catalog
end GeoAlmanac
