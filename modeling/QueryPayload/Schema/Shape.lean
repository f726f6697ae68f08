import QueryPayload.Schema.Problem

/-!
# Shapes of payload nodes

Which values a payload may have at which place, as data.  The readers of payloads are recursions
over this data, so that texts and trees are read by the same rules.

## Main definitions

* `Record` — the nodes with named fields; `Shape` — everything that can stand at a place.
* `Record.Val`, `Shape.Val` — what a record or a shape is read as.
* `Field`, `Record.fields` — the fields of a record, in order.
* `Tuple` — a value for each field; `Record.build` — the record made of them.

## Design

A record lists its fields and says how a value is built from theirs; building may still refuse, as
when a type reference lacks the child its kind needs.  Fields differ in what happens when they are
absent (`Presence`).  A record may also be given as an array of its fields, and there an optional
field has to be present.

The four records of selections share one type of values, since all of them are read as selections.
-/

set_option relaxedAutoImplicit false
set_option autoImplicit false

namespace QueryPayload

/-- The nodes of a payload that have named fields. -/
inductive Record where
  | typeRef
  | variable
  | argument
  | selectionSet
  | field
  | fragmentSpread
  | typeCondition
  | booleanCondition
  | fragment
  | operation
  | schemaField
  | schemaEnumValue
  | usedType
  | document
  deriving DecidableEq, Repr

namespace Record

/-- What a record is read as. -/
@[reducible] def Val : Record → Type
  | .typeRef => TypeRef
  | .variable => Variable
  | .argument => Argument
  | .selectionSet => SelectionSet
  | .field => Selection
  | .fragmentSpread => Selection
  | .typeCondition => Selection
  | .booleanCondition => Selection
  | .fragment => Fragment
  | .operation => Operation
  | .schemaField => SchemaField
  | .schemaEnumValue => SchemaEnumValue
  | .usedType => UsedType
  | .document => DocumentParts

/-- The name of a record in messages. -/
def label : Record → String
  | .typeRef => "RawTypeRef"
  | .variable => "Variable"
  | .argument => "Argument"
  | .selectionSet => "SelectionSet"
  | .field => "FieldSelection"
  | .fragmentSpread => "FragmentSpreadSelection"
  | .typeCondition => "TypeConditionSelection"
  | .booleanCondition => "BooleanConditionSelection"
  | .fragment => "Fragment"
  | .operation => "OperationDocument"
  | .schemaField => "SchemaField"
  | .schemaEnumValue => "SchemaEnumValue"
  | .usedType => "RawSchemaTypeUsage"
  | .document => "RawAstDocument"

end Record

/-- What can stand at a place of a payload. -/
inductive Shape where
  /-- A string. -/
  | text
  /-- A truth value. -/
  | flag
  /-- Nothing, that is, null. -/
  | nothing
  /-- A kind of the family: its spelling, or an object whose one key is its spelling. -/
  | kind (family : KindFamily)
  /-- Any tree, as the value of an argument. -/
  | argumentValue
  /-- A selection: an object whose key `kind` decides which record the other entries make up. -/
  | selection
  /-- A list of strings, of which each counts once. -/
  | names
  /-- A record: an object with its fields, or an array of them. -/
  | record (r : Record)
  /-- A list of values of one shape. -/
  | list (item : Shape)
  /-- A value of a shape, or null. -/
  | optional (inner : Shape)
  deriving DecidableEq, Repr

namespace Shape

/-- What a shape is read as. -/
@[reducible] def Val : Shape → Type
  | .text => String
  | .flag => Bool
  | .nothing => Unit
  | .kind family => family.Member
  | .argumentValue => ArgumentValue
  | .selection => Selection
  | .names => List String
  | .record r => r.Val
  | .list item => List item.Val
  | .optional inner => Option inner.Val

/-- What a shape is called in messages about values of another type. -/
def expectation : Shape → String
  | .text => "a string"
  | .flag => "a boolean"
  | .nothing => "unit"
  | .kind _ => "string or map"
  | .argumentValue => "any JSON value"
  | .selection => "a map"
  | .names => "a set"
  | .record r => "struct " ++ r.label
  | .list _ => "a sequence"
  | .optional inner => inner.expectation

/-- The value that stands for an absent one. -/
def blank? : (s : Shape) → Option s.Val
  | .optional _ => some none
  | .flag => some false
  | _ => none

/-- A string that may be missing. -/
abbrev optionalText : Shape := .optional .text

/-- A reference to a type. -/
abbrev typeRef : Shape := .record .typeRef

end Shape

/-- What happens when a field is absent. -/
inductive Presence where
  /-- It must be there. -/
  | required
  /-- It may be absent from an object, but not from an array. -/
  | omissible
  /-- It may be absent from both. -/
  | defaulted
  deriving DecidableEq, Repr

/-- A field of a record. -/
structure Field where
  /-- Its key. -/
  key : String
  /-- What it holds. -/
  shape : Shape
  /-- Whether it may be absent. -/
  presence : Presence
  /-- Another key it answers to. -/
  otherKey : Option String
  deriving DecidableEq, Repr

namespace Field

/-- A field that must be there. -/
def required (key : String) (shape : Shape) : Field := ⟨key, shape, .required, none⟩

/-- A field that an object may lack. -/
def omissible (key : String) (shape : Shape) : Field := ⟨key, .optional shape, .omissible, none⟩

/-- A field that may be absent. -/
def defaulted (key : String) (shape : Shape) : Field := ⟨key, shape, .defaulted, none⟩

/-- The type of something declared, which has two keys. -/
def declaredType : Field := ⟨"type", .typeRef, .required, some "typeNode"⟩

/-- Whether a key of an object means this field. -/
def answersTo (f : Field) (key : String) : Bool := key == f.key || f.otherKey == some key

/-- The value of a field that an object lacks. -/
def absentFromObject? (f : Field) : Option f.shape.Val :=
  match f.presence with
  | .required => none
  | _ => f.shape.blank?

/-- The value of a field that an array is too short for. -/
def absentFromArray? (f : Field) : Option f.shape.Val :=
  match f.presence with
  | .defaulted => f.shape.blank?
  | _ => none

end Field

/-- A value for each field. -/
@[reducible] def Tuple : List Field → Type
  | [] => Unit
  | f :: fs => f.shape.Val × Tuple fs

namespace Record

/-- The fields of a record, in order. -/
@[reducible] def fields : Record → List Field
  | .typeRef =>
    [.required "kind" (.kind .typeRef), .defaulted "value" .optionalText,
      .defaulted "name" (.optional .typeRef), .defaulted "type" (.optional .typeRef)]
  | .variable => [.required "name" .text, .declaredType]
  | .argument =>
    [.required "name" .text, .required "value" .argumentValue, .required "typeNode" .typeRef]
  | .selectionSet =>
    [.required "possibleTypes" .names, .required "selections" (.list .selection)]
  | .field =>
    [.required "name" .text, .required "typeNode" .typeRef, .omissible "responseKey" .text,
      .omissible "description" .text, .omissible "isDeprecated" .flag,
      .omissible "args" (.list (.record .argument)),
      .omissible "selectionSet" (.record .selectionSet)]
  | .fragmentSpread =>
    [.required "fragmentName" .text, .omissible "isConditional" .flag,
      .omissible "selectionSet" (.record .selectionSet)]
  | .typeCondition =>
    [.required "typeNode" .typeRef, .omissible "selectionSet" (.record .selectionSet)]
  | .booleanCondition =>
    [.required "variableName" .text, .required "inverted" .flag,
      .omissible "selectionSet" (.record .selectionSet)]
  | .fragment =>
    [.required "fragmentName" .text, .required "filePath" .text, .required "source" .text,
      .required "selectionSet" (.record .selectionSet)]
  | .operation =>
    [.required "operationName" .text, .required "operationType" (.kind .operation),
      .required "rootType" .text, .required "filePath" .text, .required "source" .text,
      .required "variables" (.list (.record .variable)),
      .required "selectionSet" (.record .selectionSet)]
  | .schemaField =>
    [.required "name" .text, .declaredType, .omissible "description" .text,
      .defaulted "isDeprecated" .flag]
  | .schemaEnumValue =>
    [.required "name" .text, .omissible "description" .text, .defaulted "isDeprecated" .flag]
  | .usedType =>
    [.required "name" .text, .required "kind" (.kind .usedType),
      .defaulted "description" .optionalText,
      .defaulted "fields" (.optional (.list (.record .schemaField))),
      .defaulted "values" (.optional (.list (.record .schemaEnumValue)))]
  | .document =>
    [.required "operations" (.list (.record .operation)),
      .required "fragments" (.list (.record .fragment)),
      .required "typesUsed" (.list (.record .usedType))]

/-- What is said about an array with too few fields of a record. -/
def lengthExpectation (r : Record) : String :=
  "struct " ++ r.label ++ " with " ++ toString r.fields.length ++ " elements"

end Record

namespace TypeRef

/-- The reference of the given kind, from whichever of value, name and inner type its node
carries. -/
def ofParts (kind : Kind) (value : Option String) (name inner : Option TypeRef) :
    Except Problem TypeRef :=
  match kind with
  | .name =>
    match value with
    | some value => .ok (.name value)
    | none => .error (.lacksField Kind.name.spelling "value")
  | .namedType =>
    match name with
    | some child =>
      if child.isName then .ok (.namedType child)
      else .error (.malformedType (.missingRequiredChild .namedType))
    | none => .error (.malformedType (.missingRequiredChild .namedType))
  | .listType =>
    match inner with
    | some item => .ok (.listType item)
    | none => .error (.malformedType (.missingRequiredChild .listType))
  | .nonNullType =>
    match inner with
    | some t => .ok (.nonNullType t)
    | none => .error (.malformedType (.missingRequiredChild .nonNullType))

end TypeRef

namespace UsedType

/-- The members a type of the given kind has, from whichever its node carries. -/
def Members.ofParts (kind : Kind) (fields : Option (List SchemaField))
    (values : Option (List SchemaEnumValue)) : Except Problem Members :=
  match kind with
  | .enumType =>
    match values with
    | some values => .ok (.values values)
    | none => .error (.lacksField kind.spelling "values")
  | .inputObjectType | .interfaceType | .objectType =>
    match fields with
    | some fields => .ok (.fields fields)
    | none => .error (.lacksField kind.spelling "fields")
  | .scalarType | .unionType => .ok .neither

end UsedType

namespace Record

/-- The record made of a value for each of its fields. -/
def build : (r : Record) → Tuple r.fields → Except Problem r.Val
  | .typeRef, (kind, value, name, inner, ()) => TypeRef.ofParts kind value name inner
  | .variable, (name, type, ()) => .ok ⟨name, type⟩
  | .argument, (name, value, type, ()) => .ok ⟨name, value, type⟩
  | .selectionSet, (possibleTypes, selections, ()) => .ok ⟨possibleTypes, selections⟩
  | .field, (name, type, responseKey, description, isDeprecated, args, set, ()) =>
    .ok (.ofHead (.field ⟨name, type, responseKey, description, isDeprecated, args⟩) set)
  | .fragmentSpread, (name, isConditional, set, ()) =>
    .ok (.ofHead (.fragmentSpread ⟨name⟩ isConditional) set)
  | .typeCondition, (type, set, ()) => .ok (.ofHead (.typeCondition type) set)
  | .booleanCondition, (variableName, inverted, set, ()) =>
    .ok (.ofHead (.booleanCondition ⟨variableName⟩ inverted) set)
  | .fragment, (name, filePath, source, set, ()) => .ok ⟨name, filePath, source, set⟩
  | .operation, (name, kind, rootType, filePath, source, declared, set, ()) =>
    .ok ⟨name, kind, rootType, filePath, source, declared, set⟩
  | .schemaField, (name, type, description, isDeprecated, ()) =>
    .ok ⟨name, type, description, isDeprecated⟩
  | .schemaEnumValue, (name, description, isDeprecated, ()) =>
    .ok ⟨name, description, isDeprecated⟩
  | .usedType, (name, kind, description, fields, values, ()) =>
    (UsedType.Members.ofParts kind fields values).map fun members =>
      ⟨name, kind, description, members⟩
  | .document, (operations, fragments, typesUsed, ()) =>
    .ok ⟨operations, fragments, typesUsed⟩

end Record

end QueryPayload
