import EntityGraph.Config.Path
import EntityGraph.Json.Reader

/-!
The configuration of a server, as environment variables give it. A variable that is not set has
a default; one that is set must make sense.
-/

namespace EntityGraph

structure Config where
  port : Nat
  databaseUrl : String
  entitiesPath : String
  maxConnections : Nat
  createTables : Bool
deriving DecidableEq, Repr

inductive ConfigError where
  | invalid (variableName : String)
deriving DecidableEq, Repr

def ConfigError.message : ConfigError → String
  | .invalid variableName => s!"Invalid {variableName}"

namespace Config

/-- A natural number below the bound, in digits with at most a plus in front. -/
def readNat? (bound : Nat) (s : String) : Option Nat :=
  let ds :=
    match s.toList with
    | '+' :: rest => rest
    | cs => cs
  if ds.isEmpty || !ds.all Json.isDigit then none
  else
    let n := Json.digitsValue ds
    if n < bound then some n else none

def readBool? (s : String) : Option Bool :=
  if s = "true" then some true else if s = "false" then some false else none

def readVariable {α : Type} (environment : String → Option String) (name usual : String)
    (read : String → Option α) : Except ConfigError α :=
  match read ((environment name).getD usual) with
  | some v => .ok v
  | none => .error (.invalid name)

def ofEnvironment (environment : String → Option String) : Except ConfigError Config := do
  let port ← readVariable environment "PORT" "3001" (readNat? (Nat.pow 2 16))
  let url := (environment "DATABASE_URL").getD "sqlite://./data/entity-graphql.db"
  let path := (environment "ENTITIES_PATH").getD "./entities.yaml"
  let connections ←
    readVariable environment "DATABASE_MAX_CONNECTIONS" "5" (readNat? (Nat.pow 2 32))
  let create ← readVariable environment "CREATE_TABLES" "true" readBool?
  return ⟨port, url, path, connections, create⟩

def afterStart? (start s : String) : Option String :=
  let cs := s.toList
  let ss := start.toList
  if ss.isPrefixOf cs then some (String.ofList (cs.drop ss.length)) else none

/-- The directory of the database file, if the address names one. -/
def databaseDir? (c : Config) : Option String := do
  let path ← (afterStart? "sqlite://" c.databaseUrl).or (afterStart? "sqlite:" c.databaseUrl)
  if path.toList.head? = some ':' then none
  Path.parent? (String.ofList (path.toList.takeWhile (· ≠ '?')))

end Config

end EntityGraph
