import Sieve.Filter.Basic
import Sieve.Json.Write

/-!
Filters as JSON, as values and as text. A native date is written as its text, a number that is not
finite as null, and an undecoded node as it came. The text of a node starts with its type.
-/

namespace Sieve

def DateValue.toJson : DateValue → Json
  | .native t => .string t.render
  | .text s => .string s

def Leaf.literalJson : Leaf → Json
  | .string c => .string c.literal
  | .number c => .ofBinary64 c.literal
  | .boolean c => .bool c.literal
  | .date c => c.literal.toJson

def Leaf.toJson (l : Leaf) : Json :=
  .object [("field", .string l.field), ("operation", .string l.operationName),
    ("type", .string l.kind.name), ("value", l.literalJson)]

def Leaf.write (l : Leaf) : List Char :=
  Json.bracket '{' '}'
    [Json.writeMember "type" (Json.quote l.kind.name.toList),
      Json.writeMember "field" (Json.quote l.field.toList),
      Json.writeMember "operation" (Json.quote l.operationName.toList),
      Json.writeMember "value" l.literalJson.write]

namespace Filter

mutual

/-- A filter as a value, the keys of every object in their order. -/
def toJson : Filter → Json
  | .leaf l => l.toJson
  | .combine c children =>
    .object [("filters", .array (toJsonAll children)), ("type", .string c.name)]
  | .unsupported _ raw => raw
termination_by structural f => f

def toJsonAll : List Filter → List Json
  | [] => []
  | f :: rest => toJson f :: toJsonAll rest
termination_by structural fs => fs

end

mutual

/-- The compact text of a filter. -/
def write : Filter → List Char
  | .leaf l => l.write
  | .combine c children =>
    Json.bracket '{' '}'
      [Json.writeMember "type" (Json.quote c.name.toList),
        Json.writeMember "filters" (Json.bracket '[' ']' (writeAll children))]
  | .unsupported _ raw => raw.write
termination_by structural f => f

def writeAll : List Filter → List (List Char)
  | [] => []
  | f :: rest => write f :: writeAll rest
termination_by structural fs => fs

end

def render (f : Filter) : String := String.ofList f.write

end Filter

end Sieve
