import Depot.FileTree.Basic
import Depot.Repository.Configure
import Depot.Settings.Basic
/-!
# The repositories of a system

The settings say which repositories a system has: those of a configuration document, or else the
chain that is built in, in which requests are mapped by the fragments of the system and then
answered from its metadata or from its installed files.
-/

namespace Depot

/-- Why the repositories of a system cannot be built. -/
inductive ChainError where
  /-- The configuration document cannot be found. -/
  | file (e : FileError)
  | definition (cause : Definition.Malformed)
  | configure (cause : ConfigureError)
  deriving DecidableEq, Repr

namespace Chain

/-- The chain that is built in. -/
def default (settings : Settings) : Repository :=
  let root := Path.ofText settings.resolverRoot
  .depmap {} ⟨root, settings.depmapPaths, settings.loadTimeout⟩
    (.compound {} (some root)
      [.metadata {} (settings.metadataPaths.map root.follow),
        .jpp {} (root.follow settings.javaRoot)])

/-- The repositories that a configuration document defines. -/
def ofDocument (settings : Settings) (bs : List UInt8) : Except ChainError Repository := do
  let definitions ← (Definition.ofDocument (.octets bs)).mapError .definition
  let configurator : Configurator :=
    { definitions, root := Path.ofText settings.resolverRoot, loadTimeout := settings.loadTimeout }
  (configurator.configure settings.repositoryId).mapError .configure

/-- The configuration document that the settings name, if they name one. -/
def documentPath? (settings : Settings) : Option Path :=
  match settings.repositoryConfig with
  | some s => if s = "" then none else some ((Path.ofText settings.resolverRoot).follow s)
  | none => none

/-- The repositories of a system. -/
def build (t : FileTree) (settings : Settings) : Except ChainError Repository :=
  match documentPath? settings with
  | none => .ok (default settings)
  | some path =>
    match t.read path with
    | .ok bs => ofDocument settings bs
    | .error e => .error (.file e)

end Chain

end Depot
