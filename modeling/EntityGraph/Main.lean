import EntityGraph.Blueprint
import EntityGraph.Config.Environment
import EntityGraph.Descriptor.Load

/-!
The command line. It prints the schema document of a descriptor file, whose path is given by an
option or by the environment.
-/

namespace EntityGraph

namespace CommandLine

inductive Command where
  | document (path : Option String)
deriving DecidableEq, Repr

def usage : String := "usage: entity-graph sdl [--entities PATH]"

def parse? : List String → Option Command
  | ["sdl"] => some (.document none)
  | ["sdl", "--entities", path] => some (.document (some path))
  | _ => none

/-- The schema document of a file, or the text of what is wrong with it. -/
def documentOf (path : String) (content : Option String) : Except String String := do
  let file ← (DescriptorFile.load path content).mapError LoadError.message
  let b ← (Blueprint.ofEntities file.entities file.options).mapError fun e => e.message?.getD ""
  return b.documentText

def environment (names : List String) : IO (String → Option String) := do
  let mut known : List (String × String) := []
  for name in names do
    if let some v ← IO.getEnv name then
      known := (name, v) :: known
  let table := known
  return fun name => table.lookup name

def readFile? (path : String) : IO (Option String) := do
  try
    return some (← IO.FS.readFile path)
  catch _ => return none

end CommandLine

end EntityGraph

open EntityGraph CommandLine in
def main (arguments : List String) : IO UInt32 := do
  match parse? arguments with
  | none =>
      IO.eprintln usage
      return 2
  | some (.document path) =>
      let names := ["PORT", "DATABASE_URL", "ENTITIES_PATH", "DATABASE_MAX_CONNECTIONS",
        "CREATE_TABLES"]
      match Config.ofEnvironment (← environment names) with
      | .error e =>
          IO.eprintln e.message
          return 1
      | .ok config =>
          let path := path.getD config.entitiesPath
          match documentOf path (← readFile? path) with
          | .ok text =>
              IO.print text
              return 0
          | .error message =>
              IO.eprintln message
              return 1
