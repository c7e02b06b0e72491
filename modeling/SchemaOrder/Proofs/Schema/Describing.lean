import SchemaOrder.Proofs.Schema.Defaults
import SchemaOrder.Schema.Introspection

/-!
# Describing schemas that mirror each other

Two schemas that differ in nothing but the order in which objects in defaults hold their fields
have the same introspection result, where both have one. Lists that a description works out
from the whole schema, such as the objects that implement an interface, follow the order of the
types and not that of any declaration. Whether there is a description at all also depends on
what validation said before, which is not compared.
-/

namespace SchemaOrder.Schema

open Outcome Describe

namespace Describe

variable {left right : Schema}

section SameKinds

variable (kinds : ∀ name, left.kind? name = right.kind? name)
include kinds

/-- One level of a reference is described in the same way where names lead to the same kinds. -/
theorem level_congr (type : TypeReference) : level left type = level right type := by
  cases type with
  | named name => simp only [level, kindOf, kinds name]
  | list inner => rfl
  | nonNull inner => rfl

/-- The levels inside a reference are described in the same way, however deep they go. -/
theorem inside_congr (remaining : Nat) (type : TypeReference) :
    inside left remaining type = inside right remaining type := by
  induction remaining generalizing type with
  | zero => cases type <;> rfl
  | succ remaining inductionHypothesis =>
      cases type with
      | named name => rfl
      | list inner | nonNull inner =>
          simp only [inside, level_congr kinds, inductionHypothesis]

/-- References are described in the same way. -/
theorem reference_congr (type : TypeReference) : reference left type = reference right type := by
  simp only [reference, level_congr kinds, inside_congr kinds]

/-- References by name are described in the same way. -/
theorem names_congr (listed : List Text) : names left listed = names right listed := by
  simp only [names, reference_congr kinds]

/-- The types that serve operations are described in the same way. -/
theorem root_congr (name : Option Text) : root left name = root right name := by
  cases name with
  | none => rfl
  | some name => simp only [root, kindOf, kinds name]

end SameKinds

/-- Types that agree say the same about how many fields are given. -/
theorem oneOf_sameResult {closeness : Closeness} {type type' : NamedType}
    (agree : type.Agrees closeness type') : SameResult (oneOf type) (oneOf type') := by
  obtain ⟨name, description, body⟩ := type
  obtain ⟨name', description', body'⟩ := type'
  obtain ⟨-, -, bodies, -⟩ := agree
  cases bodies with
  | inputObject related said => cases said <;> exact .refl _
  | scalar | object | interface | union | enum => exact .refl _

end Describe

namespace Mirrors

variable {left right : Schema} (mirrors : left.Mirrors right)
include mirrors

/-- The same objects implement an interface, in the same order. -/
theorem implementingObjects_eq (name : Text) :
    left.implementingObjects name = right.implementingObjects name := by
  apply Arrangement.Relates.flatMap_eq _ mirrors.types
  intro type type' agree
  obtain ⟨ownName, description, body⟩ := type
  obtain ⟨ownName', description', body'⟩ := type'
  obtain ⟨rfl, -, bodies, -⟩ := agree
  cases bodies with
  | object sameInterfaces _ => rw [Arrangement.Relates.inOrder_eq_iff_eq.mp sameInterfaces]
  | scalar | interface | union | enum | inputObject => rfl

/-- Arguments or input fields that agree are described in the same way. -/
theorem inputValues_sameResult {inputs inputs' : List InputValue}
    (related : Arrangement.inOrder.Relates (InputValue.Agrees .mirrored) inputs inputs') :
    SameResult (inputValues left inputs) (inputValues right inputs') := by
  refine (SameResult.mapM (related.imp ?_)).bind fun _ => .refl _
  intro input input' agree
  refine ((mirrors.defaultText_sameResult agree).mapError DescriptionFault.default).bind
    fun _ => ?_
  rw [agree.name, agree.type, agree.description, agree.deprecation, reference_congr mirrors.kind?]
  exact .refl _

/-- Fields that agree are described in the same way. -/
theorem fields_sameResult {listed listed' : List Field}
    (related : Arrangement.inOrder.Relates (Field.Agrees .mirrored) listed listed') :
    SameResult (fields left listed) (fields right listed') := by
  refine (SameResult.mapM (related.imp ?_)).bind fun _ => .refl _
  intro field field' agree
  refine (mirrors.inputValues_sameResult agree.arguments).bind fun _ => ?_
  rw [agree.name, agree.type, agree.description, agree.deprecation, reference_congr mirrors.kind?]
  exact .refl _

/-- Types that agree are described in the same way. -/
theorem namedType_sameResult {type type' : NamedType} (agree : type.Agrees .mirrored type')
    (isOneOf : Json) :
    SameResult (namedType left type isOneOf) (namedType right type' isOneOf) := by
  obtain ⟨name, description, body⟩ := type
  obtain ⟨name', description', body'⟩ := type'
  obtain ⟨rfl, rfl, bodies, -⟩ := agree
  cases bodies with
  | scalar specifiedBy => exact .refl _
  | object sameInterfaces related =>
      rw [Arrangement.Relates.inOrder_eq_iff_eq.mp sameInterfaces]
      refine (mirrors.fields_sameResult related).bind fun _ => ?_
      simp only [names_congr mirrors.kind?]
      exact .refl _
  | interface sameInterfaces related =>
      rw [Arrangement.Relates.inOrder_eq_iff_eq.mp sameInterfaces]
      refine (mirrors.fields_sameResult related).bind fun _ => ?_
      simp only [possibleTypes, names_congr mirrors.kind?, mirrors.implementingObjects_eq]
      exact .refl _
  | union sameMembers =>
      rw [Arrangement.Relates.inOrder_eq_iff_eq.mp sameMembers]
      simp only [namedType, possibleTypes, names_congr mirrors.kind?]
      exact .refl _
  | enum sameValues =>
      rw [Arrangement.Relates.inOrder_eq_iff_eq.mp sameValues]
      exact .refl _
  | inputObject related oneOf =>
      exact (SameResult.refl _).bind fun _ =>
        (mirrors.inputValues_sameResult related).bind fun _ => .refl _

/-- Directives that agree are described in the same way. -/
theorem directive_sameResult {described described' : Directive}
    (agree : described.Agrees .mirrored described') :
    SameResult (directive left described) (directive right described') := by
  refine (mirrors.inputValues_sameResult agree.arguments).bind fun _ => ?_
  rw [agree.name, agree.description, agree.deprecation, agree.isRepeatable,
    Arrangement.Relates.inOrder_eq_iff_eq.mp agree.locations]
  exact .refl _

omit mirrors in
/-- Entries that agree are types that agree. -/
theorem typeOf_corresponds {entry entry' : Entry} (agree : entry.Agrees .mirrored entry') :
    Corresponds (NamedType.Agrees .mirrored) (typeOf entry) (typeOf entry') := by
  cases agree with
  | defined types => exact .ok types
  | kindless name => exact .of_error_left _ _

/-- Where schemas that mirror each other are both described, they have the same description. -/
theorem introspection_corresponds :
    Corresponds Eq left.introspection right.introspection := by
  have agree := mirrors.agrees
  have typesOf := Corresponds.mapM (agree.index.imp fun _ _ agree => typeOf_corresponds agree)
  have directives := SameResult.mapM
    (agree.directives.imp fun _ _ agree => mirrors.directive_sameResult agree)
  simp only [introspection]
  split
  · exact .of_error_left _ _
  · split
    · exact .of_error_left _ _
    · split
      · exact .of_error_right _ _
      · split
        · exact .of_error_right _ _
        · refine typesOf.bind fun leftTypes rightTypes types => .of_sameResult ?_
          have flags := SameResult.mapM (types.imp fun _ _ agree => oneOf_sameResult agree)
          refine flags.bind fun said => directives.bind fun _ => ?_
          refine (SameResult.mapM ((Arrangement.Relates.zip types said).imp ?_)).bind fun _ => ?_
          · rintro ⟨type, isOneOf⟩ ⟨type', _⟩ ⟨agree, rfl⟩
            exact mirrors.namedType_sameResult agree isOneOf
          rw [agree.description, agree.query, agree.mutation, agree.subscription,
            root_congr mirrors.kind?, root_congr mirrors.kind?, root_congr mirrors.kind?]
          exact .refl _

/-- Where schemas that mirror each other are both described, they have the same text. -/
theorem toIntrospection_corresponds :
    Corresponds Eq left.toIntrospection right.toIntrospection :=
  mirrors.introspection_corresponds.bind fun _ _ same => .ok (same ▸ rfl)

end Mirrors

end SchemaOrder.Schema
