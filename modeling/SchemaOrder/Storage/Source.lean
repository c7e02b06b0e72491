import SchemaOrder.Document.Parser
import SchemaOrder.Document.Rules
import SchemaOrder.Fault
import SchemaOrder.Schema.OfDocument
import SchemaOrder.Schema.OfIntrospection

/-!
# Sources of schemas

This module holds where a schema is read from: a document or an introspection result,
given as a text, as the path of a file, or as either of them. What cannot be opened as a
file is taken for the text itself; what can be opened is read, and is not tried as a text
when its content is bad.
-/

namespace SchemaOrder

/-- The formats that a schema is stored in. -/
inductive Format where
  | document
  | introspection
deriving DecidableEq, Repr

namespace Format

/-- The name of a format. -/
def name : Format → Text
  | .document => "sdl"
  | .introspection => "introspection"

/-- The end of the names of files that hold introspection results. -/
def introspectionExtension : Text := ".json"

/-- The format of the file that a path names. -/
def ofPath (path : Text) : Format :=
  if path.lower.endsWith introspectionExtension then .introspection else .document

end Format

namespace Source

/-- The schema that the text of a document defines. What is trusted is not held against
the rules of the schema language. -/
def readDocument (source : Text) (isTrusted : Bool) : Except Fault Schema := do
  let document ← (Document.parse source).mapError (.document · source)
  let breaches := if isTrusted then [] else Document.breaches document
  if breaches.isEmpty then
    (Schema.ofDocument source document isTrusted).mapError .schema
  else .error (.schema (.forbidden (breaches.map Document.Breach.message)))

/-- The part of a JSON value that describes a schema: a whole response, or its data. -/
def introspectionResult (value : Json) : Except Fault Json :=
  let data :=
    match value.get? "data" with
    | some (.object members) => .object members
    | _ => value
  if (data.get? "__schema").isSome then .ok data else .error .noIntrospection

/-- The schema that the text of an introspection result describes. -/
def readIntrospection (source : Text) : Except Fault Schema := do
  let value ← (Json.parse source).mapError (.json · source)
  (Schema.ofIntrospection (← introspectionResult value)).mapError .schema

/-- The text of a file. -/
def fileText (volume : Volume) (path : Text) : Except Fault Text := do
  let content ← (volume.read path).mapError .file
  (Text.ofFile content).mapError .decoding

/-- The text of the file that a text names, or else the text itself. -/
def pathOrText (volume : Volume) (text : Text) : Except Fault Text :=
  match volume.read text with
  | .ok content => (Text.ofFile content).mapError .decoding
  | .error _ => .ok text

end Source

/-- Where a schema is read from. -/
inductive Source where
  /-- A document, or the path of a file that holds one. -/
  | document (pathOrText : Text) (isTrusted : Bool)
  /-- An introspection result, or the path of a file that holds one. -/
  | introspection (pathOrText : Text)
  /-- A file whose format is known. -/
  | file (path : Text) (format : Format)
  /-- A file whose format is named, and otherwise follows from the path. -/
  | namedFormat (path : Text) (format : Option Text)
deriving Repr

namespace Source

/-- The format with a name; no name, or an empty one, leaves it to the path. -/
def formatOf (path : Text) (name : Option Text) : Except Fault Format :=
  let name := name.getD []
  if name.isEmpty then .ok (Format.ofPath path)
  else if name = Format.document.name then .ok .document
  else if name = Format.introspection.name then .ok .introspection
  else .error (.inputFormat name)

/-- The schema that a file of a format holds. -/
def readFile (volume : Volume) (path : Text) (format : Format) : Except Fault Schema := do
  let text ← fileText volume path
  match format with
  | .document => readDocument text false
  | .introspection => readIntrospection text

/-- The schema that is read from a source. -/
def read (volume : Volume) : Source → Except Fault Schema
  | .document text isTrusted => do readDocument (← pathOrText volume text) isTrusted
  | .introspection text => do readIntrospection (← pathOrText volume text)
  | .file path format => readFile volume path format
  | .namedFormat path name => do readFile volume path (← formatOf path name)

end Source

end SchemaOrder
