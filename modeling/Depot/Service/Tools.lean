import Depot.Resolver.BuildDocument
import Depot.Resolver.Chain
import Depot.Service.Tree
/-!
# The tools of the service

The service has three tools: one resolves an artifact, one tells the identities to which a
coordinate is mapped, and one writes the build dependencies for a list of coordinates. All share one
loader. The repositories are built at the first request that needs them; where they cannot be built,
the next request tries again.
-/

namespace Depot

/-- What the tools share. -/
structure Tools where
  settings : Settings
  loader : Loader
  /-- The repositories, once they are built. -/
  tree : Option ServedTree := none
  deriving Inhabited

/-- Why a tool cannot answer. -/
inductive ToolError where
  | coordinate (e : Coordinate.ParseError)
  | chain (e : ChainError)
  | failure (e : Failure)

/-- The identities to which a coordinate is mapped, in order. -/
structure MappingLookup where
  coordinate : Coordinate
  targets : List Identity
  deriving DecidableEq

namespace Tools

/-- Tools with these settings, which have not been used. -/
def new (settings : Settings) : Serving Tools := do
  return { settings, loader := ← Loader.new }

/-- Work of a tool that goes on whatever comes of it. -/
abbrev Using := StateT Tools (StateM Memory)

/-- Work of a tool that may fail. -/
abbrev Answering := ExceptT ToolError Using

/-- Work of the service, done by a tool. -/
def serve {α : Type} (work : Serving α) : Answering α := do
  let outcome ← (StateT.lift work.run : Using (Except Failure α))
  MonadExcept.ofExcept (outcome.mapError .failure)

/-- The coordinate that a text names. -/
def coordinateOf (s : String) : Answering Coordinate :=
  MonadExcept.ofExcept ((Coordinate.parse s).mapError .coordinate)

/-- The repositories of the system, built at first use. -/
def repositories : Answering ServedTree := do
  let tools ← get
  match tools.tree with
  | some tree => return tree
  | none =>
    let memory ← serve get
    let built := Chain.build memory.files tools.settings
    let repository ← MonadExcept.ofExcept (built.mapError .chain)
    let tree ← serve (ServedTree.new repository tools.loader)
    set { tools with tree := some tree }
    return tree

/-- Resolves an artifact. -/
def resolveArtifact (s : String) : Answering Resolution := do
  let c ← coordinateOf s
  let tree ← repositories
  serve (tree.answer c)

/-- Tells the identities to which a coordinate is mapped. -/
def lookupMapping (s : String) : Answering MappingLookup := do
  let c ← coordinateOf s
  let tools ← get
  let root := Path.ofText tools.settings.resolverRoot
  let map ← serve (tools.loader.loadMap root tools.settings.depmapPaths)
  return ⟨c, match map with
    | some map => (map.lookup c).toList
    | none => []⟩

/-- The values of outcomes, or the first error among them. -/
def allOf {ε α : Type} : List (Except ε α) → Except ε (List α)
  | [] => .ok []
  | outcome :: outcomes => do
    let a ← outcome
    let rest ← allOf outcomes
    return a :: rest

/-- Writes the build dependencies for coordinates. Every coordinate is resolved, also after one that
fails. -/
def buildDependencies (ss : List String) : Answering String := do
  let outcomes ← (ss.mapM fun s => (resolveArtifact s).run : Using _)
  let results ← MonadExcept.ofExcept (allOf outcomes)
  return BuildDocument.render results

end Tools

end Depot
