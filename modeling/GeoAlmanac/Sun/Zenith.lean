import GeoAlmanac.Text.Blank

/-! The zenith distances at which day and the three twilights begin and end. -/

namespace GeoAlmanac

/-- Where the centre of the sun stands at the boundary of a phase: at sunrise and sunset with its
upper limb on the refracted horizon, and 6, 12 and 18 degrees below the horizon in the twilights. -/
inductive Zenith where
  | official
  | civil
  | nautical
  | astronomical
  deriving DecidableEq

namespace Zenith

def degrees {α : Type} [OfScientific α] : Zenith → α
  | .official => 90.8889
  | .civil => 96.0
  | .nautical => 102.0
  | .astronomical => 108.0

def name : Zenith → String
  | .official => "official"
  | .civil => "civil"
  | .nautical => "nautical"
  | .astronomical => "astronomical"

def all : List Zenith :=
  [.official, .civil, .nautical, .astronomical]

structure Unknown where
  text : String

/-- The wording of an error; it quotes the text as given. -/
def Unknown.message (e : Unknown) : String :=
  "unknown sun zenith \x60" ++ e.text
    ++ "\x60 (expected official, civil, nautical, or astronomical)"

/-- The zenith a text names. Blanks around the name and the case of ASCII letters do not count. -/
def ofText? (text : String) : Except Unknown Zenith :=
  let wanted := String.ofList ((Text.trim text.toList).map Char.toLower)
  match all.find? fun z => z.name == wanted with
  | some z => .ok z
  | none => .error ⟨text⟩

end Zenith
end GeoAlmanac
