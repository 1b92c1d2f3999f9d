import Depot.Condition.Reader
import Depot.Repository.Basic
import Depot.Repository.Definition
import Depot.Text.Quoted
/-!
# Configuring repositories

A tree is built from definitions, from the one with a given identifier on, and everything is checked
before the tree is used. The references among the definitions may be any graph, but a way along them
must not come to the same identifier twice: the ways are bounded by the number of definitions, so
building always ends.
-/

namespace Depot

/-- Why a repository cannot be configured. -/
inductive ConfigureError where
  /-- The references lead from an identifier back to it. -/
  | cycle (ids : List String)
  | undefined (id : String)
  | unknownType (id type : String)
  /-- Paths are required, and none of them may be blank. -/
  | pathsRequired (id type : String)
  | repositoriesRequired
  | childNotText
  | rootRequired (id : String)
  | delegateRequired (id : String)
  | filter (cause : Condition.Malformed)
  deriving DecidableEq, Repr

/-- Identifiers, joined by arrows. -/
def arrows : List String → String
  | [] => ""
  | [id] => id
  | id :: ids => id ++ " -> " ++ arrows ids

/-- The message that goes with an error. -/
def ConfigureError.message : ConfigureError → String
  | .cycle ids => "Repository reference cycle: " ++ arrows ids
  | .undefined id => "Repository " ++ Text.quoted id ++ " is not defined"
  | .unknownType id type =>
    "Repository " ++ Text.quoted id ++ " has unknown type " ++ Text.quoted type
  | .pathsRequired id type =>
    type ++ " repository " ++ Text.quoted id ++
      " expects configuration with one or more non-empty <path> elements"
  | .repositoriesRequired =>
    "compound repository expects configuration with exactly one child element: <repositories>"
  | .childNotText => "All children of <repositories> must be <repository> text nodes"
  | .rootRequired id => "jpp repository " ++ Text.quoted id ++ " requires a <root> property"
  | .delegateRequired id =>
    "depmap repository " ++ Text.quoted id ++ " expects exactly one <repository> text node"
  | .filter cause => cause.message

/-- What a tree is built from. -/
structure Configurator where
  definitions : List Definition
  /-- Where relative paths start. -/
  root : Path
  properties : Dictionary String := []
  loadTimeout : Option Binary64 := none

namespace Configurator

open Xml (Element)

/-- A property of a definition, if it is not empty. -/
def property? (d : Definition) (name : String) : Option String :=
  match Dictionary.get? d.properties name with
  | some value => if value = "" then none else some value
  | none => none

/-- The child elements of a definition's configuration. -/
def parts (d : Definition) : List Element :=
  match d.configuration with
  | some configuration => configuration.element.children
  | none => []

/-- The paths of a definition's configuration. -/
def paths (d : Definition) : Except ConfigureError (List String) :=
  let paths := ((parts d).filter fun e => e.tag == "path").map Definition.textOf
  if paths.isEmpty || paths.contains "" then .error (.pathsRequired d.id d.type) else .ok paths

/-- The identifier in an element that holds text alone. -/
def reference? (e : Element) : Option String :=
  if e.children.isEmpty then some (Definition.textOf e) else none

/-- The identifiers of the children of a compound repository; an element that is none is kept as
none. -/
def childReferences (d : Definition) : Except ConfigureError (List (Option String)) :=
  match parts d with
  | [e] =>
    if e.tag = "repositories" then
      .ok (e.children.map fun child => if child.tag = "repository" then reference? child else none)
    else .error .repositoriesRequired
  | _ => .error .repositoriesRequired

/-- The identifier of the delegate of a depmap repository. -/
def delegateReference (d : Definition) : Except ConfigureError String :=
  match (parts d).filter fun e => e.tag == "repository" with
  | [e] =>
    match reference? e with
    | some id => if id = "" then .error (.delegateRequired d.id) else .ok id
    | none => .error (.delegateRequired d.id)
  | _ => .error (.delegateRequired d.id)

/-- The filter of a definition. -/
def filterOf (d : Definition) : Except ConfigureError Condition :=
  match d.filter with
  | some filter => (Condition.ofElement filter.element).mapError .filter
  | none => .ok .always

/-- The types of repositories. -/
def types : List String := ["compound", "metadata", "jpp", "depmap"]

/-- What the node of a definition has, in a namespace, which may be empty. -/
def frameOf (k : Configurator) (d : Definition) (namespaceName : String) (filter : Condition) :
    Frame where
  namespaceName :=
    if namespaceName = "" then (Dictionary.get? d.properties "namespace").getD "" else namespaceName
  filter := filter
  properties := k.properties

/-- Builds the children of a compound repository, in order. -/
def buildAll (build : String → Except ConfigureError Repository) :
    List (Option String) → Except ConfigureError (List Repository)
  | [] => .ok []
  | none :: _ => .error .childNotText
  | some id :: ids => do
    let child ← build id
    let children ← buildAll build ids
    return child :: children

/-- Builds the node of a definition, given how to build those to which it refers. -/
def buildNode (k : Configurator) (build : String → Except ConfigureError Repository)
    (d : Definition) (frame : Frame) : Except ConfigureError Repository :=
  match d.type with
  | "compound" => do
    let references ← childReferences d
    let children ← buildAll build references
    return .compound frame ((property? d "prefix").map k.root.follow) children
  | "metadata" => do
    let paths ← paths d
    return .metadata frame (paths.map k.root.follow)
  | "jpp" =>
    match property? d "root" with
    | some root => .ok (.jpp frame (k.root.follow root))
    | none => .error (.rootRequired d.id)
  | "depmap" => do
    let paths ← paths d
    let id ← delegateReference d
    let delegate ← build id
    -- without a root of its own the map is looked for under the root of the system
    let root := ((property? d "root").map k.root.follow).getD k.root
    return .depmap frame ⟨root, paths, k.loadTimeout⟩ delegate
  | type => .error (.unknownType d.id type)

/-- Builds the tree of an identifier, to which the identifiers of `way` lead; `fuel` bounds the
length of the ways. -/
def build (k : Configurator) (namespaceName : String) :
    (fuel : Nat) → (way : List String) → (id : String) → Except ConfigureError Repository
  | 0, way, id => .error (.cycle (way ++ [id]))
  | fuel + 1, way, id =>
    if way.contains id then .error (.cycle (way ++ [id]))
    else match Definition.withId? k.definitions id with
      | none => .error (.undefined id)
      | some d =>
        if types.contains d.type then do
          let filter ← filterOf d
          let frame := k.frameOf d namespaceName filter
          k.buildNode (k.build namespaceName fuel (way ++ [id])) d frame
        else .error (.unknownType id d.type)

/-- Builds the tree of an identifier. A way without repetitions has at most as many identifiers as
there are definitions, and one more for an identifier that is not defined or that repeats. -/
def configure (k : Configurator) (id : String) (namespaceName : String := "") :
    Except ConfigureError Repository :=
  k.build namespaceName (k.definitions.length + 1) [] id

end Configurator

end Depot
