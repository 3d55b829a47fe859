import CodexInfo.Lib.JsonEquality
import CodexInfo.Lib.Verdicts
import CodexInfo.Threads.SchemaValidation
import Mathlib.Logic.Relation

/-!
# `CodexInfo.Threads.Draft07`: what a schema asks for

The meaning of the keywords that the vendored schemas use, as the draft has them. A node is a
schema with an instance. Its clauses say which nodes have to be valid with it.

* `clauses`: what a node asks for. A schema with a reference asks for its target alone.
* `Valid`, `Invalid`: the least verdicts. A reference that leads back to itself has none.
* `WellFormed`: the keyword values of all subschemas have their form, and references resolve.
-/

set_option autoImplicit false

namespace CodexInfo.Threads.Draft07

open CodexInfo.Lib (Clause JsonNumber JsonValue)
open CodexInfo.Lib.JsonValue (member Same)
open CodexInfo.Contract (Text)

/-- A schema and an instance. -/
abbrev Node := JsonValue × JsonValue

/-- The value of a keyword, where the schema has it. -/
def keyword (members : List (Text × JsonValue)) (name : String) : Option JsonValue :=
  member members name.toList

/-! ### References -/

/-- `~0` stands for `~`, and `~1` for `/`. -/
def unescape : Text → Text
  | '~' :: '0' :: rest => '~' :: unescape rest
  | '~' :: '1' :: rest => '/' :: unescape rest
  | c :: rest => c :: unescape rest
  | [] => []

/-- The value at a path of member names. -/
def follow : JsonValue → List Text → Option JsonValue
  | value, [] => some value
  | .object members, name :: names => (member members name).bind fun value => follow value names
  | _, _ :: _ => none

/-- The value a local pointer names. The root is `#`. -/
def target (root : JsonValue) : Text → Option JsonValue
  | ['#'] => some root
  | '#' :: '/' :: pointer => follow root ((pointer.splitOn '/').map unescape)
  | _ => none

/-! ### Facts -/

def HasType (value : JsonValue) (typeName : Text) : Prop :=
  typeName = "null".toList ∧ value = .null
    ∨ typeName = "boolean".toList ∧ (∃ b, value = .bool b)
    ∨ typeName = "object".toList ∧ (∃ members, value = .object members)
    ∨ typeName = "array".toList ∧ (∃ items, value = .array items)
    ∨ typeName = "string".toList ∧ (∃ s, value = .string s)
    ∨ typeName = "number".toList ∧ (∃ n, value = .number n)
    ∨ typeName = "integer".toList ∧ ∃ n, value = .number n ∧ ∃ z : ℤ, n.value = z

/-- One name, or a list of them. -/
def typeNames : JsonValue → List Text
  | .string typeName => [typeName]
  | .array names => names.filterMap JsonValue.asStr
  | _ => []

/-- The range of an integer format. Other formats have none. -/
def InFormat (format : Text) (z : ℤ) : Prop :=
  (format = "int32".toList → -2 ^ 31 ≤ z ∧ z < 2 ^ 31)
    ∧ (format = "int64".toList → -2 ^ 63 ≤ z ∧ z < 2 ^ 63)
    ∧ (format = "uint".toList → 0 ≤ z ∧ z < 2 ^ 64)
    ∧ (format = "uint16".toList → 0 ≤ z ∧ z < 2 ^ 16)
    ∧ (format = "uint32".toList → 0 ≤ z ∧ z < 2 ^ 32)
    ∧ (format = "uint64".toList → 0 ≤ z ∧ z < 2 ^ 64)

def typeFact (value typeValue : JsonValue) : Prop :=
  ∃ typeName ∈ typeNames typeValue, HasType value typeName

def enumFact (value enumValue : JsonValue) : Prop :=
  ∃ candidates, enumValue = .array candidates ∧ ∃ candidate ∈ candidates, Same candidate value

def requiredFact (value required : JsonValue) : Prop :=
  ∀ object names, value = .object object → required = .array names →
    ∀ name, .string name ∈ names → name ∈ object.map (·.1)

def minimumFact (value minimum : JsonValue) : Prop :=
  ∀ n m, value = .number n → minimum = .number m → m.value ≤ n.value

def minLengthFact (value minLength : JsonValue) : Prop :=
  ∀ s m, value = .string s → minLength = .number m → m.value ≤ s.length

def formatFact (value format : JsonValue) : Prop :=
  ∀ n (z : ℤ) name, value = .number n → n.value = z → format = .string name → InFormat name z

/-! ### Subschemas -/

/-- The schemas that stand in an array. -/
def branchesOf (value : JsonValue) : List JsonValue := value.asArray.getD []

/-- The properties a schema names. -/
def propertiesOf (members : List (Text × JsonValue)) : List (Text × JsonValue) :=
  ((keyword members "properties").bind JsonValue.asObject).getD []

/-- The properties that the object has, each with its schema. -/
def propertyNodes (members object : List (Text × JsonValue)) : List Node :=
  (propertiesOf members).flatMap fun entry =>
    (member object entry.1).toList.map fun property => (entry.2, property)

/-- The other members of the object. -/
def additionalNodes (members object : List (Text × JsonValue)) (additional : JsonValue) :
    List Node :=
  (object.filter fun entry => (member (propertiesOf members) entry.1).isNone).map fun entry =>
    (additional, entry.2)

/-- One schema for all items, or one for each of the first items. -/
def itemNodes (items : JsonValue) (array : List JsonValue) : List Node :=
  match items with
  | .array tupleSchemas => tupleSchemas.zip array
  | _ => array.map fun item => (items, item)

def branchNodes (value branches : JsonValue) : List Node :=
  (branchesOf branches).map fun branch => (branch, value)

/-! ### Clauses -/

def onKeyword (members : List (Text × JsonValue)) (name : String)
    (clauses : JsonValue → List (Clause Node)) : List (Clause Node) :=
  (keyword members name).elim [] clauses

def objectClauses (members : List (Text × JsonValue)) (value : JsonValue) : List (Clause Node) :=
  match value.asObject with
  | some object =>
      onKeyword members "required" (fun required => [.holds (requiredFact value required)])
        ++ [.all (propertyNodes members object)]
        ++ onKeyword members "additionalProperties"
          (fun additional => [.all (additionalNodes members object additional)])
  | none => []

def arrayClauses (members : List (Text × JsonValue)) (value : JsonValue) : List (Clause Node) :=
  match value.asArray with
  | some array => onKeyword members "items" fun items => [.all (itemNodes items array)]
  | none => []

def keywordClauses (members : List (Text × JsonValue)) (value : JsonValue) : List (Clause Node) :=
  onKeyword members "type" (fun typeValue => [.holds (typeFact value typeValue)])
    ++ onKeyword members "enum" (fun enumValue => [.holds (enumFact value enumValue)])
    ++ objectClauses members value
    ++ arrayClauses members value
    ++ onKeyword members "oneOf" (fun branches => [.one (branchNodes value branches)])
    ++ onKeyword members "anyOf" (fun branches => [.any (branchNodes value branches)])
    ++ onKeyword members "allOf" (fun branches => [.all (branchNodes value branches)])
    ++ onKeyword members "minimum" (fun minimum => [.holds (minimumFact value minimum)])
    ++ onKeyword members "minLength" (fun minLength => [.holds (minLengthFact value minLength)])
    ++ onKeyword members "format" (fun format => [.holds (formatFact value format)])

/-- What a node asks for. The siblings of a reference say nothing. -/
def clauses (root : JsonValue) (node : Node) : List (Clause Node) :=
  match node.1 with
  | .bool true => []
  | .bool false => [.holds False]
  | .object members =>
      match keyword members "$ref" with
      | some reference =>
          match reference.asStr.bind (target root) with
          | some schema => [.all [(schema, node.2)]]
          | none => [.holds False]
      | none => keywordClauses members node.2
  | _ => [.holds False]

/-- The instance is valid under the schema. -/
def Valid (root value : JsonValue) : Prop := CodexInfo.Lib.Valid (clauses root) (root, value)

def Invalid (root value : JsonValue) : Prop := CodexInfo.Lib.Invalid (clauses root) (root, value)

/-! ### Well-formed schemas -/

/-- One schema for all items, or one for each of the first items. -/
def itemSchemas : JsonValue → List JsonValue
  | .array tupleSchemas => tupleSchemas
  | items => [items]

/-- The schemas a schema refers to. -/
def subschemas (root : JsonValue) : JsonValue → List JsonValue
  | .object members =>
      match keyword members "$ref" with
      | some reference => (reference.asStr.bind (target root)).toList
      | none =>
          (propertiesOf members).map (·.2)
            ++ (keyword members "additionalProperties").toList
            ++ (keyword members "items").toList.flatMap itemSchemas
            ++ ["oneOf", "anyOf", "allOf"].flatMap fun name =>
              (keyword members name).toList.flatMap branchesOf
  | _ => []

/-- The schemas that a walk from the root may come to. -/
def Reaches (root : JsonValue) : JsonValue → Prop :=
  Relation.ReflTransGen (fun schema schema' => schema' ∈ subschemas root schema) root

def IsSchema (value : JsonValue) : Prop := (∃ b, value = .bool b) ∨ ∃ members, value = .object members

def AreSchemas (value : JsonValue) : Prop :=
  ∃ schemas, value = .array schemas ∧ ∀ schema ∈ schemas, IsSchema schema

/-- The keyword values of a schema have their form. -/
structure KeywordShapes (members : List (Text × JsonValue)) : Prop where
  typeNames : ∀ value ∈ keyword members "type", (∃ name ∈ knownTypeNames, value = .string name) ∨
    ∃ names : List Text, names ≠ [] ∧ value = .array (names.map .string) ∧
      ∀ name ∈ names, name ∈ knownTypeNames
  enum : ∀ value ∈ keyword members "enum", ∃ items, value = .array items
  required : ∀ value ∈ keyword members "required", ∃ names : List Text,
    value = .array (names.map .string)
  properties : ∀ value ∈ keyword members "properties",
    ∃ properties, value = .object properties ∧ ∀ entry ∈ properties, IsSchema entry.2
  additionalProperties : ∀ value ∈ keyword members "additionalProperties", IsSchema value
  items : ∀ value ∈ keyword members "items", IsSchema value ∨ AreSchemas value
  branches : ∀ name ∈ ["oneOf", "anyOf", "allOf"], ∀ value ∈ keyword members name, AreSchemas value
  minimum : ∀ value ∈ keyword members "minimum", ∃ n, value = .number n
  minLength : ∀ value ∈ keyword members "minLength", ∃ n, value = .number (.posInt n)
  format : ∀ value ∈ keyword members "format", ∃ name, value = .string name

/-- A boolean, a reference that resolves, or keywords of the right form. -/
def ShapedSchema (root : JsonValue) : JsonValue → Prop
  | .bool _ => True
  | .object members =>
      match keyword members "$ref" with
      | some reference => ∃ pointer, reference = .string pointer ∧ (target root pointer).isSome
      | none => KeywordShapes members
  | _ => False

/-- All schemas that a walk may come to have the right form. -/
def WellFormed (root : JsonValue) : Prop :=
  ∀ schema, Reaches root schema → ShapedSchema root schema

/-- An integer literal that the binary format holds, other than a zero with a sign. -/
def IntegerLiteral : JsonNumber → Prop
  | .posInt n => n ≤ 2 ^ 53
  | .negInt n => -2 ^ 53 ≤ n ∧ n < 0
  | .float _ => False

end CodexInfo.Threads.Draft07
