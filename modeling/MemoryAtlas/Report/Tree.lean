import MemoryAtlas.Json.Writer
import MemoryAtlas.Layout.View

namespace MemoryAtlas

/-!
Kinds, entries and observations as JSON.

A kind is written as its word alone or as an object whose one member is the
word with what belongs to it.
-/

def Reading.toJson : Reading -> Json
  | .foreignId table => .record [("ForeignId", .text table.name)]
  | reading => .text reading.name

def Scalar.toJson (s : Scalar) : Json :=
  .record [("width", .natural s.width), ("repr", s.reading.toJson)]

def Kind.toJson : Kind -> Json
  | .scalar s => .record [("Scalar", s.toJson)]
  | .pointerTo target => .record [("PointerTo", target.toJson)]
  | .ownedPointer name => .record [("OwnedPointer", .text name)]
  | .inlineStruct name => .record [("InlineStruct", .text name)]
  | .entity name => .record [("EntitySubclass", .text name)]
  | .composite name => .record [("Builtin", .text name)]
  | .fixedArray element count => .record [("FixedArray", .array [element.toJson, .natural count])]
  | .skip bytes => .record [("SkipPadding", .natural bytes)]
  | .dynamicArray element => .record [("DynamicArray", .text element)]
  | .orderedMap key value =>
    .record [("OrderedMap", .record [("key", .text key), ("value", .option .text value)])]
  | .foreignString width => .record [("ForeignString", .natural width)]
  | .slotTable owner => .record [("VTable", .text owner)]

def Entry.toJson (e : Entry) : Json :=
  .record [("path", .text e.path), ("address", .natural e.address.toNat), ("kind", e.kind.toJson)]

def OffsetMap.toJson (map : OffsetMap) : Json :=
  .list Entry.toJson map.toList

def Difference.toJson (d : Difference) : Json :=
  let bytes := Json.option (Json.list (fun (b : UInt8) => .natural b.toNat))
  .record [("path", .text d.path),
    ("primary_address", .natural d.first.toNat),
    ("other_address", .natural d.second.toNat),
    ("primary", bytes d.firstBytes),
    ("other", bytes d.secondBytes)]

def Observation.toJson (o : Observation) : Json :=
  .record [("offsets", o.offsets.toJson),
    ("comparison", .option OffsetMap.toJson o.comparison),
    ("differences", .list Difference.toJson o.differences)]

end MemoryAtlas
