import MemoryAtlas.Foreign.OrderedTree
import MemoryAtlas.Foreign.Vector
import MemoryAtlas.Layout.Placement
import MemoryAtlas.Types.Value

namespace MemoryAtlas
namespace Report

/-!
Values of offset map entries as text.

Flags and states are shown with the titles registered for the field that
declared them.  Which type that is follows from the entry above, so a value
reached through pointers, arrays or classes finds its titles too.
-/

def unresolvedText : String := "<unresolved>"

def unreadableText : String := "<unreadable>"

/-- How many elements of an array of scalars are shown. -/
def previewSize : Nat := 16

/-- The parts of a path before and after its last dot. -/
def splitLast? (path : String) : Option (String × String) :=
  let reversed := path.toList.reverse
  match reversed.dropWhile (· != '.') with
  | [] => none
  | _ :: before =>
    some (String.ofList before.reverse, String.ofList (reversed.takeWhile (· != '.')).reverse)

/-- The type whose fields stand directly below an entry of a kind. -/
def ownerName? : Kind -> Option String
  | .ownedPointer name => some name
  | .pointerTo target => target.structName?
  | kind => kind.structName?

/-- The type that declares the value at a path, and the name it has there.
The entry above says which type that is; where there is none it is the last
name of the path above. -/
def ownerOf (map : OffsetMap) (path : String) : String × String :=
  match splitLast? path with
  | none => ("", path)
  | some (above, field) =>
    match (map.entry? above).bind (fun entry => ownerName? entry.kind) with
    | some owner => (owner, field)
    | none => (((splitLast? above).map Prod.snd).getD above, field)

/-- The text of a result, or the text for what cannot be read. -/
def orUnreadable {α : Type} (render : α -> String) (result : Except MemoryFault α) : String :=
  match result with
  | .ok value => render value
  | .error _ => unreadableText

/-- The set flags of a word with their titles, flags being counted from 1. -/
def flagsText (c : Catalog) (owner field : String) (width : Nat) (bits : Int) : String :=
  let word := (bits % wordCount 64).toNat
  let set := (List.range (width * 8)).filter word.testBit
  let titled := set.map (fun bit =>
    toString (bit + 1) ++ ":" ++ c.flagTitle owner field (bit + 1 : Nat))
  Text.hex word ++ " [" ++ ", ".intercalate titled ++ "]"

/-- The text of a scalar value of a field. -/
def scalarText (c : Catalog) (owner field : String) (s : Scalar) (value : ScalarValue) : String :=
  match s.reading, value.asInt? with
  | .flags, some bits => flagsText c owner field s.width bits
  | .state, some state => toString state ++ " (" ++ c.stateTitle owner field state ++ ")"
  | .foreignId table, _ => value.text ++ " (" ++ table.name ++ ")"
  | _, _ => value.text

/-- The first elements of an array of scalars. -/
def arrayText (m : Memory) (a : Address) (s : Scalar) (count : Nat) : String :=
  let shown := min count previewSize
  let elements := (List.range shown).map (fun i =>
    orUnreadable ScalarValue.text (m.readScalar (a.shift (i * s.width)) s))
  let more := if shown < count then ["... " ++ toString (count - shown) ++ " more"] else []
  "[" ++ ", ".intercalate (elements ++ more) ++ "]"

/-- The value of an entry.  Structures have none of their own. -/
def valueText (decoders : Text.Decoders) (c : Catalog) (m : Memory) (map : OffsetMap)
    (entry : Entry) : String :=
  if entry.kind.structName?.isSome then ""
  else if entry.address = 0 then unresolvedText
  else
    let (owner, field) := ownerOf map entry.path
    match entry.kind with
    | .scalar s => orUnreadable (scalarText c owner field s) (m.readScalar entry.address s)
    | .pointerTo _ | .ownedPointer _ | .slotTable _ =>
      orUnreadable Address.text (m.readPointer entry.address)
    | .foreignString width =>
      orUnreadable Text.quoted ((ForeignString.of entry.address width).text decoders m)
    | .dynamicArray element =>
      let size := ((c.valueShape element).map (·.size)).getD 0
      orUnreadable (fun (length : Nat) => "[" ++ toString length ++ " x " ++ element ++ "]")
        ((ForeignVector.mk entry.address size).length m)
    | .orderedMap key value =>
      match NodeLayout.ofTypes c key value with
      | none => "<unknown element type>"
      | some layout =>
        orUnreadable (fun (size : Nat) => toString size ++ " entries")
          ((OrderedTree.mk entry.address layout).size m)
    | .fixedArray element count =>
      match element.scalar? with
      | some s => arrayText m entry.address s count
      | none => ""
    | _ => ""

end Report
end MemoryAtlas
