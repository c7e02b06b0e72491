import SchemaOrder.Text.Basic

/-!
# Collections of named things

This module holds the one operation by which collections grow in which every name
stands once: what is put in under a known name takes the place of what was there, and
everything else goes to the end. Where two things of one name are no collection, it finds
the name.
-/

namespace SchemaOrder.Named

/-- The things with one more put in. -/
def insert {α : Type} (name : α → Text) (thing : α) : List α → List α
  | [] => [thing]
  | known :: rest =>
    if name known = name thing then thing :: rest else known :: insert name thing rest

/-- The things put in one after the other. -/
def ofList {α : Type} (name : α → Text) (things : List α) : List α :=
  things.foldl (fun known thing => insert name thing known) []

/-- The thing with a name. -/
def find? {α : Type} (name : α → Text) (wanted : Text) (things : List α) : Option α :=
  things.find? fun thing => name thing = wanted

/-- The first name of several that stands among them a second time. -/
def repeated? : List Text → Option Text :=
  go []
where
  /-- The first name that was seen before. -/
  go (seen : List Text) : List Text → Option Text
    | [] => none
    | name :: names => if seen.contains name then some name else go (name :: seen) names

end SchemaOrder.Named
