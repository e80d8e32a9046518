import EntityGraph.Http.Body

/-!
The two places at which the service is reached: one that says that it lives, and one that takes
submissions and shows a page to browsers. Every reply may be read from any origin, and every
question about what is allowed is answered without looking further.
-/

namespace EntityGraph

namespace Http

structure Message where
  method : String
  path : String
  headers : Dict String := []
  body : String := ""
deriving Repr

inductive Content where
  | nothing
  | json (v : Json)
  /-- The page on which requests can be tried out. -/
  | page
  | response (r : Response)
deriving Repr

structure Reply where
  status : Nat
  content : Content := .nothing
  /-- The methods that the place knows, where another one was used. -/
  allow : Option String := none
deriving Repr

def allowedOrigin : String := "*"

def Content.type? : Content → Option String
  | .nothing => none
  | .json _ => some "application/json"
  | .page => some "text/html; charset=utf-8"
  | .response _ => some "application/graphql-response+json"

inductive Place where
  | health
  | graph
deriving DecidableEq, Repr

/-- The place that a path leads to, whatever comes after a question mark. -/
def place? (path : String) : Option Place :=
  let path := String.ofList (path.toList.takeWhile fun c => c != '?' && c != '#')
  if path = "/health" then some .health
  else if path = "/graphql" then some .graph
  else none

def Place.methods : Place → String
  | .health => "GET,HEAD"
  | .graph => "GET,HEAD,POST"

def lowerAscii (s : String) : String := s.map Char.toLower

def Message.header? (m : Message) (name : String) : Option String :=
  (m.headers.find? fun e => lowerAscii e.1 = name).map (·.2)

def isVisible (c : Char) : Bool := c = '\t' || (32 ≤ c.toNat && c.toNat < 127)

def occursIn (needle : List Char) : List Char → Bool
  | [] => needle.isEmpty
  | c :: rest => needle.isPrefixOf (c :: rest) || occursIn needle rest

/-- Whether the sender is a browser that wants a page. -/
def Message.acceptsPage (m : Message) : Bool :=
  match m.header? "accept" with
  | some s => s.toList.all isVisible && occursIn "text/html".toList s.toList
  | none => false

def getRefusal : Json :=
  .object [("error", .string
    "GET requests are not supported for GraphQL queries. Use POST with Content-Type: application/json")]

def present (p : Place) (m : Message) : Reply :=
  match p with
  | .health => { status := 200, content := .json (.object [("status", .string "ok")]) }
  | .graph =>
      if m.acceptsPage then { status := 200, content := .page }
      else { status := 405, content := .json getRefusal }

variable {σ : Type}

/-- Carries out a submission. Its context is the role that the sender claims. -/
def submit (s : Service σ) (m : Message) : StateM (World σ) Reply :=
  match if isReadable (m.header? "content-type") then submission? m.body else none with
  | none => return { status := 400 }
  | some q => do
      let r ← s.answer q ((m.header? "x-role").map .string)
      return { status := 200, content := .response r }

def reply (s : Service σ) (m : Message) : StateM (World σ) Reply :=
  match place? m.path, m.method with
  | none, "OPTIONS" => return { status := 200 }
  | none, _ => return { status := 404 }
  | some p, "GET" | some p, "HEAD" => return present p m
  | some .graph, "POST" => submit s m
  | some p, "OPTIONS" => return { status := 200, allow := p.methods }
  | some p, _ => return { status := 405, allow := p.methods }

/-- What is sent of a reply: to a question for the head only, no body. -/
def Reply.body (r : Reply) (m : Message) : Content :=
  if m.method = "HEAD" then .nothing else r.content

end Http

end EntityGraph
