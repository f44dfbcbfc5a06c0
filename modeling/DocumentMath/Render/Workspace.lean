import DocumentMath.Files.Tree
import DocumentMath.Render.Engine

/-!
# Workspaces

A workspace is a tree of files together with the requests made of an engine so far. `Host.ofEngine`
makes a host of an engine that answers each request in one way: artifacts are written to the tree of
files, and every request is recorded.
-/

namespace DocumentMath

/-- A tree of files, and the requests made so far, in order. -/
structure Workspace where
  files : FileTree
  requests : List Request

namespace Workspace

/-- A workspace in which nothing has been asked yet. -/
def ofFiles (files : FileTree) : Workspace := ⟨files, []⟩

end Workspace

/-- The host that writes files and has no engine: every equation is rejected. -/
def Host.ofFiles : Host Workspace where
  typeset _ w := (.error (.engine "no engine"), w)
  createDirectory path w :=
    let (result, files) := w.files.createAll path
    (result, { w with files })
  writeFile path content w :=
    match w.files.write path content with
    | .ok files => (.ok (), { w with files })
    | .error e => (.error e, w)

/-- The host of an engine that answers each request in one way. -/
def Host.ofEngine (engine : Engine) : Host Workspace :=
  { Host.ofFiles with
    typeset := fun request w ↦ (engine request, { w with requests := w.requests ++ [request] }) }

end DocumentMath
