import Flowscript.Element.Basic
import Flowscript.Json.Writer

/-!
# Elements as JSON

An element is an object with its name and whatever else it has: attributes as an object in their
order, text, CDATA and children. Absent parts and empty lists leave no member.
-/

namespace Flowscript.Element

mutual

/-- The element as a JSON object. -/
def toJson : Element → Json String
  | ⟨name, attributes, text, cdata, children⟩ =>
    .obj <|
      [("name", .str name)] ++
      (if attributes.isEmpty then []
        else [("attributes", .obj (attributes.map fun (k, v) => (k, .str v)))]) ++
      (text.map fun t => ("text", .str t)).toList ++
      (cdata.map fun t => ("cdata", .str t)).toList ++
      (if children.isEmpty then [] else [("children", .arr (toJsons children))])

def toJsons : List Element → List (Json String)
  | [] => []
  | e :: es => toJson e :: toJsons es

end

end Flowscript.Element
