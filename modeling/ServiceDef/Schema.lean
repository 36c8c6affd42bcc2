import ServiceDef.Value

/-!
# Schema

What is known about the kinds of blocks: where a block of a kind may stand, whether it needs a
label or takes actions, and which attributes it has. Kinds that are not listed are not
checked against anything.
-/

namespace ServiceDef

/-- The shape that the value of an attribute is to have. -/
inductive Shape where
  | string
  | number
  | boolean
  | stringList
  | map
deriving DecidableEq, Repr

namespace Shape

/-- Whether a value has a shape. -/
def accepts : Shape → Value → Bool
  | .string, .scalar (.string _) => true
  | .number, .scalar (.number _) => true
  | .boolean, .scalar (.boolean _) => true
  | .stringList, .list items => items.all (·.string?.isSome)
  | .map, .map _ => true
  | _, _ => false

/-- How a shape is named in messages. -/
def describe : Shape → String
  | .string => "a string"
  | .number => "a number"
  | .boolean => "a boolean"
  | .stringList => "a list of strings"
  | .map => "a map"

end Shape

/-- What is known about an attribute of a kind. -/
structure AttributeSpec where
  key : String
  shape : Shape
  required : Bool := false
deriving DecidableEq, Repr

/-- Where the blocks of a kind may stand. -/
inductive Placement where
  | topLevel
  | within (kinds : List String)
  | topLevelOrWithin (kinds : List String)
  | anywhere
deriving DecidableEq, Repr

/-- Whether a block may stand inside of a block of the given kind, or at the top level. -/
def Placement.allows : Placement → Option String → Bool
  | .topLevel, none => true
  | .topLevel, some _ => false
  | .within _, none => false
  | .within kinds, some parent => kinds.contains parent
  | .topLevelOrWithin _, none => true
  | .topLevelOrWithin kinds, some parent => kinds.contains parent
  | .anywhere, _ => true

/-- What is known about a kind of blocks. -/
structure KindSpec where
  kind : String
  labelRequired : Bool
  placement : Placement
  acceptsActions : Bool
  /-- The attributes of the kind; nothing stands for any attributes at all. -/
  attributes : Option (List AttributeSpec)
deriving DecidableEq, Repr

namespace KindSpec

/-- The attributes that are listed for the kind. -/
def listed (spec : KindSpec) : List AttributeSpec :=
  spec.attributes.getD []

/-- What is known about the attribute with the given key. -/
def attribute? (spec : KindSpec) (key : String) : Option AttributeSpec :=
  spec.listed.find? (·.key = key)

/-- Whether blocks of the kind may have an attribute with the given key. -/
def declares (spec : KindSpec) (key : String) : Bool :=
  spec.attributes.isNone || (spec.attribute? key).isSome

/-- The attributes that every block of the kind has to have. -/
def required (spec : KindSpec) : List AttributeSpec :=
  spec.listed.filter (·.required)

end KindSpec

namespace Schema

/-- The attribute that names the labels of the blocks a block depends on. -/
def dependsOn : String := "depends_on"

/-- The methods of actions that are known. -/
def verbs : List String := ["GET", "POST", "PUT", "PATCH", "DELETE", "HEAD", "OPTIONS"]

/-- A service stands at the top level and takes actions. -/
def service : KindSpec where
  kind := "service"
  labelRequired := true
  placement := .topLevel
  acceptsActions := true
  attributes := some
    [{ key := "version", shape := .string, required := true },
     { key := "description", shape := .string },
     { key := "base_path", shape := .string },
     { key := dependsOn, shape := .stringList },
     { key := "tags", shape := .stringList },
     { key := "timeout", shape := .number },
     { key := "public", shape := .boolean },
     { key := "env", shape := .map }]

/-- A group gathers actions of a service or of another group. -/
def group : KindSpec where
  kind := "group"
  labelRequired := true
  placement := .within ["service", "group"]
  acceptsActions := true
  attributes := some
    [{ key := "base_path", shape := .string },
     { key := "description", shape := .string }]

/-- A resource is shared at the top level or belongs to one service. -/
def resource : KindSpec where
  kind := "resource"
  labelRequired := true
  placement := .topLevelOrWithin ["service"]
  acceptsActions := false
  attributes := some
    [{ key := "type", shape := .string, required := true },
     { key := "description", shape := .string },
     { key := dependsOn, shape := .stringList },
     { key := "options", shape := .map }]

/-- A configuration holds any attributes and stands anywhere. -/
def config : KindSpec where
  kind := "config"
  labelRequired := false
  placement := .anywhere
  acceptsActions := false
  attributes := none

/-- All kinds that are known. -/
def kinds : List KindSpec := [service, group, resource, config]

/-- What is known about a kind. -/
def kind? (kind : String) : Option KindSpec :=
  kinds.find? (·.kind = kind)

end Schema

end ServiceDef
