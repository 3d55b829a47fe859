import CodexInfo.Lib.Checker
import CodexInfo.Lib.JsonValue
import CodexInfo.Threads.PageCycle

/-!
# `CodexInfo.Threads.SchemaValidation`: an instance against a schema

Model of `validate_instance_against_schema`. A schema and an instance are walked together, by the
keywords of the schema. The walk has a limit on its depth and one on the nodes it visits.

* `validateNode`: one node of the walk. `room` is how many levels are left.
* `validateSchemaKeywordShapes`: whether the keyword values have the right form.
* `resolveLocalReference`: the subschema that a pointer names.
* `validateInstanceAgainstSchema`: the walk from the root.

An integer beyond `2 ^ 53` is rounded where it is compared as a binary number. A float is a
rational.
-/

set_option autoImplicit false

namespace CodexInfo.Threads

open CodexInfo.Lib (Checker JsonNumber JsonValue)
open CodexInfo.Lib.JsonValue (member)
open CodexInfo.Contract (Text)

/-- `MAX_VALIDATION_DEPTH` -/
def maxValidationDepth : Nat := 64

/-- `MAX_VALIDATION_WORK` -/
def maxValidationWork : Nat := 100000

abbrev Validation := Checker ThreadContractError

/-- What is there, or a failure of the schema. -/
def orSchema {α : Type} : Option α → Validation α
  | some a => pure a
  | none => throw .invalidSchema

def schemaRequires (condition : Bool) : Validation Unit :=
  if condition then pure () else throw .invalidSchema

/-- The check of a keyword that may be absent. -/
def onKeyword (members : List (Text × JsonValue)) (keyword : String)
    (check : JsonValue → Validation Unit) : Validation Unit :=
  match member members keyword.toList with
  | some value => check value
  | none => pure ()

/-! ### Keyword shapes -/

def knownTypeNames : List Text :=
  ["null", "boolean", "object", "array", "string", "number", "integer"].map String.toList

def isKnownTypeName (typeName : Text) : Bool := typeName ∈ knownTypeNames

/-- A boolean or an object. -/
def ensureSchemaValue : JsonValue → Bool
  | .bool _ => true
  | .object _ => true
  | _ => false

def isTypeName (value : JsonValue) : Bool := value.asStr.any isKnownTypeName

/-- A keyword value that is absent or has the right form. -/
def shaped (members : List (Text × JsonValue)) (keyword : String) (shape : JsonValue → Bool) :
    Bool :=
  (member members keyword.toList).all shape

def shapedType : JsonValue → Bool
  | .string typeName => isKnownTypeName typeName
  | .array typeNames => !typeNames.isEmpty && typeNames.all isTypeName
  | _ => false

def shapedItems : JsonValue → Bool
  | .bool _ => true
  | .object _ => true
  | .array tupleSchemas => tupleSchemas.all ensureSchemaValue
  | _ => false

def shapedBranches (value : JsonValue) : Bool :=
  value.asArray.any fun branches => branches.all ensureSchemaValue

def validateSchemaKeywordShapes (members : List (Text × JsonValue)) : Bool :=
  shaped members "type" shapedType
    && shaped members "enum" (fun value => value.asArray.isSome)
    && shaped members "required" (fun value =>
      value.asArray.any fun names => names.all fun name => name.asStr.isSome)
    && shaped members "properties" (fun value =>
      value.asObject.any fun properties => properties.all fun entry => ensureSchemaValue entry.2)
    && shaped members "additionalProperties" ensureSchemaValue
    && shaped members "items" shapedItems
    && ["oneOf", "anyOf", "allOf"].all (fun keyword => shaped members keyword shapedBranches)
    && shaped members "minimum" (fun value => value.asNumber.isSome)
    && shaped members "minLength" (fun value => value.asU64.isSome)
    && shaped members "format" (fun value => value.asStr.isSome)

/-! ### References -/

/-- `str::replace` of two characters by one, from the left. -/
def replacePair (first second by_ : Char) : Text → Text
  | a :: b :: rest =>
      if a = first ∧ b = second then by_ :: replacePair first second by_ rest
      else a :: replacePair first second by_ (b :: rest)
  | rest => rest

def decodeToken (encoded : Text) : Text := replacePair '~' '0' '~' (replacePair '~' '1' '/' encoded)

/-- `Value::get` with a name. -/
def getMember (value : JsonValue) (name : Text) : Option JsonValue :=
  value.asObject.bind fun members => member members name

def resolveLocalReference (root : JsonValue) (reference : Text) : Option JsonValue :=
  if reference = "#".toList then some root
  else
    match reference with
    | '#' :: '/' :: pointer =>
        (pointer.splitOn '/').foldlM (fun current encoded => getMember current (decodeToken encoded))
          root
    | _ => none

/-! ### Types and numbers -/

def isIntegerInstance (value : JsonValue) : Bool := value.asI64.isSome || value.asU64.isSome

def matchesSingleType (value : JsonValue) (typeName : Text) : Validation Bool :=
  if typeName = "null".toList then pure value.isNull
  else if typeName = "boolean".toList then pure value.asBool.isSome
  else if typeName = "object".toList then pure value.asObject.isSome
  else if typeName = "array".toList then pure value.asArray.isSome
  else if typeName = "string".toList then pure value.asStr.isSome
  else if typeName = "number".toList then pure value.asNumber.isSome
  else if typeName = "integer".toList then pure (isIntegerInstance value)
  else throw .invalidSchema

/-- All names are looked at, also after a match. -/
def matchesAnyType (value : JsonValue) : List JsonValue → Bool → Validation Bool
  | [], matched => pure matched
  | typeName :: typeNames, matched => do
      let typeName ← orSchema typeName.asStr
      let single ← matchesSingleType value typeName
      matchesAnyType value typeNames (matched || single)

def matchesType (value : JsonValue) : JsonValue → Validation Bool
  | .string typeName => matchesSingleType value typeName
  | .array typeNames => matchesAnyType value typeNames false
  | _ => throw .invalidSchema

def matchesIntegerFormat (value : JsonValue) (format : Text) : Bool :=
  match value.asNumber with
  | none => false
  | some (.float _) => false
  | some _ =>
      if format = "int32".toList then
        value.asI64.any fun n => decide (-2147483648 ≤ n ∧ n ≤ 2147483647)
      else if format = "int64".toList then value.asI64.isSome
      else if format = "uint".toList ∨ format = "uint64".toList then value.asU64.isSome
      else if format = "uint16".toList then value.asU64.any fun n => decide (n ≤ 65535)
      else if format = "uint32".toList then value.asU64.any fun n => decide (n ≤ 4294967295)
      else true

/-- The binary number next to a count, of two as near the even one. -/
def roundCount (n : Nat) : Nat :=
  if n < 2 ^ 53 then n
  else
    let unit := 2 ^ (n.log2 - 52)
    let low := n / unit
    if 2 * (n % unit) < unit then low * unit
    else if unit < 2 * (n % unit) then (low + 1) * unit
    else (low + low % 2) * unit

/-- `Value::as_f64` -/
def f64Of : JsonNumber → ℚ
  | .posInt n => roundCount n
  | .negInt n => -roundCount n.natAbs
  | .float q => q

def numberAtLeast (value minimum : JsonValue) : Validation Bool := do
  let minimum ← orSchema minimum.asNumber
  match value.asNumber with
  | some number => pure (decide (f64Of minimum ≤ f64Of number))
  | none => throw .invalidItem

/-! ### Keywords -/

/-- The instance does not match where the condition fails. -/
def itemRequires (condition : Bool) : Validation Unit :=
  if condition then pure () else throw .invalidItem

def validateRequired (object : List (Text × JsonValue)) (required : JsonValue) : Validation Unit := do
  let required ← orSchema required.asArray
  Checker.forEach (fun name => do
    let name ← orSchema name.asStr
    itemRequires (member object name).isSome) required

def integerFormats : List Text :=
  ["int32", "int64", "uint", "uint16", "uint32", "uint64"].map String.toList

def validateFormat (value format : JsonValue) : Validation Unit := do
  let format ← orSchema format.asStr
  itemRequires !(isIntegerInstance value && decide (format ∈ integerFormats)
    && !matchesIntegerFormat value format)

def validateMinLength (value minLength : JsonValue) : Validation Unit :=
  match value.asStr with
  | some string => do
      let minimum ← orSchema minLength.asU64
      itemRequires !decide (string.length < minimum)
  | none => pure ()

def validateMinimum (value minimum : JsonValue) : Validation Unit :=
  if value.asNumber.isSome then do
    let atLeast ← numberAtLeast value minimum
    itemRequires atLeast
  else pure ()

section
variable (check : JsonValue → JsonValue → Validation Unit)

/-- A member without a property of its own. -/
def validateAdditional (additional : JsonValue) (property : JsonValue) : Validation Unit :=
  match additional with
  | .bool true => pure ()
  | .bool false => throw .invalidItem
  | .object _ => check property additional
  | _ => throw .invalidSchema

def validateProperties (object members : List (Text × JsonValue)) : Validation Unit :=
  match member members "properties".toList with
  | some properties => do
      let properties ← orSchema properties.asObject
      Checker.forEach (fun entry : Text × JsonValue =>
        match member object entry.1 with
        | some property => check property entry.2
        | none => pure ()) properties
      onKeyword members "additionalProperties" fun additional =>
        Checker.forEach (fun entry : Text × JsonValue =>
          if (member properties entry.1).isSome then pure ()
          else validateAdditional check additional entry.2) object
  | none =>
      onKeyword members "additionalProperties" fun additional =>
        Checker.forEach (fun entry : Text × JsonValue => validateAdditional check additional entry.2)
          object

def validateItems (array : List JsonValue) (items : JsonValue) : Validation Unit :=
  match items with
  | .object _ => Checker.forEach (fun item => check item items) array
  | .bool _ => Checker.forEach (fun item => check item items) array
  | .array tupleSchemas =>
      Checker.forEach (fun entry : JsonValue × Nat =>
        match tupleSchemas[entry.2]? with
        | some itemSchema => check entry.1 itemSchema
        | none => pure ()) array.zipIdx
  | _ => throw .invalidSchema

/-- How many branches match. A branch that does not match is left out, and any other failure ends
the count. -/
def matchingBranches (value branches : JsonValue) : Validation Nat := do
  let branches ← orSchema branches.asArray
  Checker.countSuccesses .invalidItem (fun branch => check value branch) branches

def validateOneOf (value branches : JsonValue) : Validation Unit := do
  let matching ← matchingBranches check value branches
  if matching = 1 then pure () else throw .invalidItem

def validateAnyOf (value branches : JsonValue) : Validation Unit := do
  let matching ← matchingBranches check value branches
  if matching = 0 then throw .invalidItem else pure ()

def validateAllOf (value branches : JsonValue) : Validation Unit := do
  let branches ← orSchema branches.asArray
  Checker.forEach (fun branch => check value branch) branches

def validateObject (members : List (Text × JsonValue)) (value : JsonValue) : Validation Unit :=
  match value.asObject with
  | some object => do
      onKeyword members "required" (validateRequired object)
      validateProperties check object members
  | none => pure ()

def validateArray (members : List (Text × JsonValue)) (value : JsonValue) : Validation Unit :=
  match value.asArray with
  | some array => onKeyword members "items" (validateItems check array)
  | none => pure ()

/-- All keywords of a schema without a reference. -/
def validateKeywords (members : List (Text × JsonValue)) (value : JsonValue) : Validation Unit := do
  schemaRequires (validateSchemaKeywordShapes members)
  onKeyword members "type" fun typeValue => do
    let matched ← matchesType value typeValue
    itemRequires matched
  onKeyword members "enum" fun enumValue => do
    let values ← orSchema enumValue.asArray
    itemRequires (values.any fun candidate => decide (candidate = value))
  validateObject check members value
  validateArray check members value
  onKeyword members "oneOf" (validateOneOf check value)
  onKeyword members "anyOf" (validateAnyOf check value)
  onKeyword members "allOf" (validateAllOf check value)
  onKeyword members "minimum" (validateMinimum value)
  onKeyword members "minLength" (validateMinLength value)
  onKeyword members "format" (validateFormat value)

end

/-! ### The walk -/

/-- One more node. The walk gives up beyond the limit. -/
def spendWork (maxWork : Nat) : Validation Unit := do
  let work ← get
  set (work + 1)
  if maxWork < work + 1 then throw .validationBudgetExceeded else pure ()

/-- Without room the walk gives up before it counts the node. -/
def validateNode (maxWork : Nat) (root : JsonValue) :
    Nat → JsonValue → JsonValue → Validation Unit
  | 0, _, _ => throw .validationBudgetExceeded
  | room + 1, value, schema => do
      spendWork maxWork
      match schema with
      | .bool true => pure ()
      | .bool false => throw .invalidItem
      | .object members =>
          match member members "$ref".toList with
          | some referenceValue => do
              let reference ← orSchema referenceValue.asStr
              let target ← orSchema (resolveLocalReference root reference)
              validateNode maxWork root room value target
          | none => validateKeywords (validateNode maxWork root room) members value
      | _ => throw .invalidSchema

/-- The walk with given limits. -/
def validateWithLimits (maxWork maxDepth : Nat) (value root : JsonValue) :
    Except ThreadContractError Unit :=
  ((validateNode maxWork root (maxDepth + 1) value root).outcome 0).1

def validateInstanceAgainstSchema (value schema : JsonValue) : Except ThreadContractError Unit :=
  validateWithLimits maxValidationWork maxValidationDepth value schema

end CodexInfo.Threads
