import EntityGraph.Property.Basic
import EntityGraph.Json.Writer

/-!
Descriptors: how a document writes a property type. A scalar is its bare tag or an object with
that tag; the other types are objects whose `type` is their tag, with `properties`, `items` or
`schema` beside it. A descriptor that is refused names the place of the fault by the keys of the
shapes around it.
-/

namespace EntityGraph

/-- What is wrong with a descriptor at its own level. -/
inductive DescriptorFault where
  | missingTag
  | notDescriptor (value : Json)
  | shapeWithoutProperties
  | arrayWithoutItems
  | referenceWithoutSchema
deriving Repr

/-- The text of a fault. -/
def DescriptorFault.message : DescriptorFault → String
  | .missingTag => "missing 'type' tag"
  | .notDescriptor v => "expected a type tag or table, got " ++ v.compact
  | .shapeWithoutProperties => "Shape requires a 'properties' table"
  | .arrayWithoutItems => "Array requires an 'items' descriptor"
  | .referenceWithoutSchema => "SchemaType requires a 'schema' alias"

/-- Why a descriptor is refused. The path holds the shape keys down to the fault. -/
inductive DescriptorError where
  | unknownType (tag : String)
  | malformed (path : List String) (fault : DescriptorFault)
deriving Repr

namespace DescriptorError

/-- The error seen from the shape that holds the descriptor under a key. -/
def under (key : String) : DescriptorError → DescriptorError
  | .unknownType tag => .unknownType tag
  | .malformed path fault => .malformed (key :: path) fault

/-- The path and the fault of a malformed descriptor. -/
def place (path : List String) (fault : DescriptorFault) : String :=
  ": ".intercalate (path ++ [fault.message])

/-- The text of an error. -/
def message : DescriptorError → String
  | .unknownType tag => "Unknown property type: " ++ tag
  | .malformed path fault => "Malformed property descriptor: " ++ place path fault

end DescriptorError

namespace PropertyType

/-! ### Reading -/

/-- The scalar kind of a tag. -/
def scalarOfTag? : String → Option ScalarKind
  | "String" => some .string
  | "Number" => some .number
  | "Boolean" => some .boolean
  | "Date" => some .date
  | _ => none

/-- The type of a bare tag. The composite types need more than their tag. -/
def ofTag (tag : String) : Except DescriptorError PropertyType :=
  match scalarOfTag? tag with
  | some k => .ok (.scalar k)
  | none =>
    if tag = "Shape" then .error (.malformed [] .shapeWithoutProperties)
    else if tag = "Array" then .error (.malformed [] .arrayWithoutItems)
    else if tag = "SchemaType" then .error (.malformed [] .referenceWithoutSchema)
    else .error (.unknownType tag)

/-- The tag of a descriptor that is an object. -/
def tagOf (fs : List (String × Json)) : Option String := (Fields.get? fs "type").bind Json.asString?

/-- The type of a reference descriptor. -/
def ofSchema (fs : List (String × Json)) : Except DescriptorError PropertyType :=
  match (Fields.get? fs "schema").bind Json.asString? with
  | some a => .ok (.reference a)
  | none => .error (.malformed [] .referenceWithoutSchema)

mutual

/-- The type that a descriptor denotes. -/
def ofDescriptor : Json → Except DescriptorError PropertyType
  | .str tag => ofTag tag
  | .obj fs =>
    match tagOf fs with
    | none => .error (.malformed [] .missingTag)
    | some tag =>
      if tag = "Shape" then ofProperties fs
      else if tag = "Array" then ofItems fs
      else if tag = "SchemaType" then ofSchema fs
      else ofTag tag
  | .null => .error (.malformed [] (.notDescriptor .null))
  | .bool b => .error (.malformed [] (.notDescriptor (.bool b)))
  | .int n => .error (.malformed [] (.notDescriptor (.int n)))
  | .float x => .error (.malformed [] (.notDescriptor (.float x)))
  | .arr xs => .error (.malformed [] (.notDescriptor (.arr xs)))

/-- The shape under the key `properties`. -/
def ofProperties : List (String × Json) → Except DescriptorError PropertyType
  | [] => .error (.malformed [] .shapeWithoutProperties)
  | (k, .obj ps) :: fs => if k = "properties" then (ofFields ps).map .shape else ofProperties fs
  | (k, _) :: fs =>
    if k = "properties" then .error (.malformed [] .shapeWithoutProperties) else ofProperties fs

/-- The array of the descriptor under the key `items`. -/
def ofItems : List (String × Json) → Except DescriptorError PropertyType
  | [] => .error (.malformed [] .arrayWithoutItems)
  | (k, d) :: fs => if k = "items" then (ofDescriptor d).map .array else ofItems fs

/-- The fields of a shape, in order. The first that is refused decides. -/
def ofFields : List (String × Json) → Except DescriptorError (List (String × PropertyType))
  | [] => .ok []
  | (k, d) :: fs =>
    match ofDescriptor d with
    | .error e => .error (e.under k)
    | .ok t => (ofFields fs).map ((k, t) :: ·)

end

/-! ### Writing -/

mutual

/-- The canonical descriptor of a type. -/
def toDescriptor : PropertyType → Json
  | .scalar k => .str k.tag
  | .shape fs => .obj [("type", .str "Shape"), ("properties", .obj (fieldDescriptors fs))]
  | .array t => .obj [("type", .str "Array"), ("items", toDescriptor t)]
  | .reference a => .obj [("type", .str "SchemaType"), ("schema", .str a)]

def fieldDescriptors : List (String × PropertyType) → List (String × Json)
  | [] => []
  | (k, t) :: fs => (k, toDescriptor t) :: fieldDescriptors fs

end

end PropertyType

end EntityGraph
