import Docstore.Decimal.Layout
import Docstore.Failure
import Docstore.Term.Literal

/-!
# Distance criteria

A search around a place: an attribute with coordinates, the coordinates of the centre and a radius.
In JSON it is an object with a radius and exactly one other key, whose value is the pair of latitude
and longitude, as a list or as a text with a comma.  The radius loses its sign.
-/

namespace Docstore

/-- A circle around a place. -/
structure Distance where
  /-- The attribute that holds the coordinates of a record. -/
  path : String
  radius : Binary64
  latitude : Binary64
  longitude : Binary64
  deriving DecidableEq, Repr

namespace Distance

def radiusKey : String := "radius"

def coordinates (d : Distance) : String :=
  Layout.plain.render d.latitude ++ ", " ++ Layout.plain.render d.longitude

/-- The call that searches a collection around the centre. -/
def withinText (d : Distance) (collection : String) : String :=
  "WITHIN(" ++ collection ++ ", " ++ d.coordinates ++ ", " ++ Layout.plain.render d.radius ++ ")"

def coordinatePair? : Json → Option (Binary64 × Binary64)
  | .array [latitude, longitude] => do
      let a ← latitude.toBinary64?
      let b ← longitude.toBinary64?
      some (a, b)
  | .string s => do
      let (latitude, longitude) ← Text.cutAtFirst? ',' s
      let a ← Numeral.decimal? (Text.trim latitude)
      let b ← Numeral.decimal? (Text.trim longitude)
      some (a, b)
  | _ => none

/-- The distance criteria of the members of an object. -/
def ofMembers (members : Dictionary Json) : Except Failure Distance :=
  match (members.get? radiusKey).bind Json.toBinary64? with
  | none => .error (.invalidDistance "\x60radius\x60 must be a number")
  | some radius =>
      match members.filter fun m => m.1 ≠ radiusKey with
      | [(path, v)] =>
          match coordinatePair? v with
          | some (latitude, longitude) => .ok ⟨path, radius.abs, latitude, longitude⟩
          | none =>
              .error (.invalidDistance
                ("\x60" ++ path ++ "\x60 must be a [lat, lon] pair, got " ++ v.compact))
      | _ =>
          .error (.invalidDistance
            "expected exactly one coordinate attribute besides \x60radius\x60")

/-- The distance criteria of a JSON value. -/
def ofJson : Json → Except Failure Distance
  | .object members => ofMembers members
  | v => .error (.invalidDistance ("distance criteria must be an object, got " ++ v.typeName))

/-- The JSON form of distance criteria. -/
def toJson (d : Distance) : Json :=
  .object [("attrName", .string d.path), ("radius", .number (.float d.radius)),
    ("latitude", .number (.float d.latitude)), ("longitude", .number (.float d.longitude)),
    ("coordinates", .string d.coordinates)]

end Distance

end Docstore
