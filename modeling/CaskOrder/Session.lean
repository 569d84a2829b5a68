import CaskOrder.Config
import CaskOrder.OnSystem.Macos
import CaskOrder.Schema.Cask

/-!
# Sessions

A session keeps schemas, sets of block names and groups, each under a name; the three
kinds do not share their names.  A step keeps something there, looks at what is there, or
compares two things that are there.  What is kept comes from a source: plain data, a
JSON text, what is built in, or what the session keeps already.  Where a step is refused,
the session goes on as it is.
-/

namespace CaskOrder

inductive Kind where
  | schema
  | set
  | group
deriving DecidableEq, Repr

/-- What can be kept in a session. -/
inductive Kept where
  | schema (schema : Schema)
  | set (set : BlockNames)
  | group (group : Group)

def Kept.kind : Kept → Kind
  | schema _ => .schema
  | set _ => .set
  | group _ => .group

instance : BEq Kept where
  beq
    | .schema a, .schema b => a == b
    | .set a, .set b => a == b
    | .group a, .group b => a == b
    | _, _ => false

structure Session where
  schemas : Std.TreeMap String Schema := ∅
  sets : Std.TreeMap String BlockNames := ∅
  groups : Std.TreeMap String Group := ∅

/-- Why a session cannot do what it is asked for. -/
inductive Refusal where
  | missing (kind : Kind) (name : String)
  | unknownStanza
  | defective (defect : Defect)
  | misconfigured (error : ConfigError)
deriving Repr

def Refusal.message : Refusal → String
  | missing _ name => name
  | unknownStanza => "unknown stanza"
  | defective defect => defect.message
  | misconfigured error => error.message

inductive SchemaSource where
  | table (table : GroupTable)
  | json (text : String)
  | builtin
  | copied (name : String)
  | joined (names : List String)
  | reloaded (name : String)
  | groups (names : List String)

inductive SetSource where
  | targets (targets : List Target)
  | releases (symbols : List String)
  | json (text : String)
  | builtin
  | joined (names : List String)
  | releasesNamedIn (name : String)

inductive GroupSource where
  | stanzas (group : Group)
  | json (text : String)
  | declaring (schema : String) (stanza : Stanza)

inductive Source where
  | schema (source : SchemaSource)
  | set (source : SetSource)
  | group (source : GroupSource)

inductive Step where
  | keep (name : String) (source : Source)
  | look (kind : Kind) (name : String)
  | compare (kind : Kind) (name other : String)

inductive Answer where
  | kept (kept : Kept)
  | same (same : Bool)

namespace Session

def lookUp (kept : Std.TreeMap String α) (kind : Kind) (name : String) : Except Refusal α :=
  match kept[name]? with
  | some a => .ok a
  | none => .error (.missing kind name)

def schema (session : Session) (name : String) : Except Refusal Schema :=
  lookUp session.schemas .schema name

def set (session : Session) (name : String) : Except Refusal BlockNames :=
  lookUp session.sets .set name

def group (session : Session) (name : String) : Except Refusal Group :=
  lookUp session.groups .group name

def find (session : Session) (kind : Kind) (name : String) : Except Refusal Kept :=
  match kind with
  | .schema => (session.schema name).map .schema
  | .set => (session.set name).map .set
  | .group => (session.group name).map .group

def makeSchema (session : Session) : SchemaSource → Logged (Except Refusal Schema)
  | .table table => (Schema.build table).mapError .defective
  | .json text => (Schema.ofJson text).mapError .misconfigured
  | .builtin => .silent (.ok Schema.cask)
  | .copied name => .silent (session.schema name)
  | .joined names => .attempt (names.mapM session.schema) fun schemas =>
    (Schema.join schemas).mapError .defective
  | .reloaded name => .attempt (session.schema name) fun schema =>
    (Schema.ofJson schema.toValue.text).mapError .misconfigured
  | .groups names => .attempt (names.mapM session.group) fun groups =>
    (Schema.build groups).mapError .defective

def makeSet (session : Session) : SetSource → Logged (Except Refusal BlockNames)
  | .targets targets => (BlockNames.ofTargets targets).map .ok
  | .releases symbols => (BlockNames.ofReleases symbols).map .ok
  | .json text => (BlockNames.ofJson text).mapError fun error => .misconfigured (.unreadable error)
  | .builtin => .silent (.ok BlockNames.macos)
  | .joined names => .attempt (names.mapM session.set) fun sets => (BlockNames.join sets).map .ok
  | .releasesNamedIn name => .attempt (session.set name) fun set =>
    (BlockNames.ofReleases set.names).map .ok

def makeGroup (session : Session) : GroupSource → Except Refusal Group
  | .stanzas group => .ok group
  | .json text => (Group.reader.parse text).mapError fun error => .misconfigured (.unreadable error)
  | .declaring schema stanza => do
    let schema ← session.schema schema
    match schema.group? stanza with
    | some group => .ok group
    | none => .error .unknownStanza

def make (session : Session) : Source → Logged (Except Refusal Kept)
  | .schema source => (session.makeSchema source).map (Except.map .schema)
  | .set source => (session.makeSet source).map (Except.map .set)
  | .group source => .silent ((session.makeGroup source).map .group)

/-- Keeps something under a name, in place of what was there of its kind. -/
def put (session : Session) (name : String) : Kept → Session
  | .schema schema => { session with schemas := session.schemas.insert name schema }
  | .set set => { session with sets := session.sets.insert name set }
  | .group group => { session with groups := session.groups.insert name group }

/-- Whether two things of a kind are the same.  The first of them is looked up first. -/
def compare (session : Session) (kind : Kind) (name other : String) : Except Refusal Bool := do
  let kept ← session.find kind name
  let counterpart ← session.find kind other
  return kept == counterpart

/-- The session after a step, and the answer to it with what was logged. -/
def step (session : Session) : Step → Session × Logged (Except Refusal Answer)
  | .keep name source =>
    let made := session.make source
    match made.value with
    | .ok kept => (session.put name kept, ⟨.ok (.kept kept), made.events⟩)
    | .error refusal => (session, ⟨.error refusal, made.events⟩)
  | .look kind name => (session, .silent ((session.find kind name).map .kept))
  | .compare kind name other => (session, .silent ((session.compare kind name other).map .same))

/-- The session after some steps, and the answers to them. -/
def run (session : Session) : List Step → Session × List (Logged (Except Refusal Answer))
  | [] => (session, [])
  | step :: steps =>
    let (next, answer) := session.step step
    let (last, answers) := next.run steps
    (last, answer :: answers)

end Session
end CaskOrder
