import SchemaOrder.Schema.Basic

/-!
# Links to type objects

In a schema that is complete a name leads to one type. While a schema is sorted there are
two types of a name, the one that is sorted and the one that takes its place, and a
reference leads to one of them and not to the other. This module holds what becomes of
references then: links to type objects, and the arguments, fields and directives that hold
them.
-/

namespace SchemaOrder

namespace Schema

/-- Whose a type object is. An owner has at most one object of a name. -/
inductive Owner where
  /-- The library's: a standard type, which all schemas share. -/
  | library
  /-- The schema's that is sorted. -/
  | original
  /-- The sorter's, made to take the place of the original. -/
  | sorter
deriving DecidableEq, Repr

/-- What a link leads to: the object that an owner has under a name. -/
structure Target where
  owner : Owner
  name : Text
deriving DecidableEq, Repr

namespace Target

/-- The library's object of a name. -/
def inLibrary (name : Text) : Target :=
  ⟨.library, name⟩

/-- What a name leads to in a schema that is to be sorted. Under a standard name there is
no other object than the library's. -/
def inOriginal (name : Text) : Target :=
  ⟨if isStandardType name then .library else .original, name⟩

/-- The object that takes the place of another one of its name. -/
def inPlace (name : Text) : Target :=
  ⟨if isStandardType name then .library else .sorter, name⟩

end Target

/-- A link to a type object, with the lists and the refusals of null around it. -/
inductive Link where
  | direct (target : Target)
  | list (inner : Link)
  | nonNull (inner : Link)
deriving DecidableEq, Repr

namespace Link

/-- What a link leads to. -/
def target : Link → Target
  | .direct target => target
  | .list inner => inner.target
  | .nonNull inner => inner.target

/-- The reference by name that a link is. -/
def reference : Link → TypeReference
  | .direct target => .named target.name
  | .list inner => .list inner.reference
  | .nonNull inner => .nonNull inner.reference

end Link

/-- An argument, or a field of an input object, whose type is a link. -/
structure LinkedInput where
  name : Text
  type : Link
  default? : Option Value
  description : Option Text
  deprecation : Option Text
deriving Repr

/-- A field of an object or an interface whose types are links. -/
structure LinkedField where
  name : Text
  type : Link
  arguments : List LinkedInput
  description : Option Text
  deprecation : Option Text
deriving Repr

/-- A directive whose arguments have links for types. -/
structure LinkedDirective where
  name : Text
  description : Option Text
  arguments : List LinkedInput
  isRepeatable : Bool
  locations : List Text
  deprecation : Option Text
deriving Repr

/-- The argument or input field with a reference by name. -/
def LinkedInput.unlinked (input : LinkedInput) : InputValue :=
  ⟨input.name, input.type.reference, input.default?, input.description, input.deprecation⟩

/-- The field with references by name. -/
def LinkedField.unlinked (field : LinkedField) : Field :=
  ⟨field.name, field.type.reference, field.arguments.map LinkedInput.unlinked, field.description,
    field.deprecation⟩

/-- The directive with references by name. -/
def LinkedDirective.unlinked (directive : LinkedDirective) : Directive :=
  ⟨directive.name, directive.description, directive.arguments.map LinkedInput.unlinked,
    directive.isRepeatable, directive.locations, directive.deprecation⟩

/-- What input fields or arguments lead to. -/
def inputTargets (inputs : List LinkedInput) : List Target :=
  inputs.map fun input => input.type.target

/-- What fields lead to: for every field its own type, then those of its arguments. -/
def fieldTargets (fields : List LinkedField) : List Target :=
  fields.flatMap fun field => field.type.target :: inputTargets field.arguments

end Schema

/-- The link that a reference is where names lead to certain objects. -/
def TypeReference.linked (leads : Text → Schema.Target) : TypeReference → Schema.Link
  | .named name => .direct (leads name)
  | .list inner => .list (inner.linked leads)
  | .nonNull inner => .nonNull (inner.linked leads)

namespace Schema

/-- The argument or input field with a link. -/
def InputValue.linked (leads : Text → Target) (input : InputValue) : LinkedInput :=
  ⟨input.name, input.type.linked leads, input.default?, input.description, input.deprecation⟩

/-- The field with links. -/
def Field.linked (leads : Text → Target) (field : Field) : LinkedField :=
  ⟨field.name, field.type.linked leads, field.arguments.map (InputValue.linked leads),
    field.description, field.deprecation⟩

/-- The directive with links. -/
def Directive.linked (leads : Text → Target) (directive : Directive) : LinkedDirective :=
  ⟨directive.name, directive.description, directive.arguments.map (InputValue.linked leads),
    directive.isRepeatable, directive.locations, directive.deprecation⟩

end Schema

end SchemaOrder
