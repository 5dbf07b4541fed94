/-
  Documents in files.

  The extension of a file name tells the kind of document; files of unknown
  kinds are taken for JSON documents.

  * `Document.read?` reads a text of a known kind;
  * `Document.load` reads the file under a name.
-/
import ValueGraph.Document
import ValueGraph.Document.FileName
import ValueGraph.File
import ValueGraph.Json.Reading
import ValueGraph.Yaml.Reading

namespace ValueGraph

/-- Why there is no document: the file has no text, or the text is malformed. -/
inductive LoadError where
  | unreadable
  | malformed
deriving DecidableEq, Repr

namespace Document

/-- The document that a text of this kind denotes. -/
def read? (kind : DocumentKind) (text : String) : Option Document :=
  match kind with
  | .json => (Json.read? text).map json
  | .yaml => (Yaml.read? text).map yaml

/-- The document in the file under a name. -/
def load (name : String) (file : File) : Except LoadError Document :=
  match file.text? with
  | none => .error .unreadable
  | some text =>
    match read? ((FileName.kind? name).getD .json) text with
    | none => .error .malformed
    | some document => .ok document

end Document

end ValueGraph
