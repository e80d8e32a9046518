import EntityGraph.Descriptor.Reader
import EntityGraph.Config.Path

/-!
Descriptor files by their path. A file with the extension `json`, in any case, is JSON; every
other one is YAML.
-/

namespace EntityGraph

inductive LoadError where
  | unreadable (path : String)
  | invalid (path : String)
deriving DecidableEq, Repr

def LoadError.message : LoadError → String
  | .unreadable path => s!"Failed to read descriptor file {path}"
  | .invalid path => s!"Invalid descriptor file {path}"

namespace DescriptorFile

def isJsonPath (path : String) : Bool :=
  match Path.extension? path with
  | some e => e.toList.map Char.toLower = "json".toList
  | none => false

/-- The file at a path with the content, of which there is none if it cannot be read. -/
def load (path : String) (content : Option String) : Except LoadError DescriptorFile :=
  match content with
  | none => .error (.unreadable path)
  | some text =>
      let read := if isJsonPath path then ofJsonText text else ofYamlText text
      read.mapError fun _ => .invalid path

end DescriptorFile

end EntityGraph
