import ApiManifest.RenderError

/-!
Where artifacts go: into memory, or into files below a directory.
-/

namespace ApiManifest

/-- A place for artifacts whose state is a `σ`: the files that can be read meanwhile, and what comes of
storing a text under a name. -/
structure Sink (σ : Type) where
  files : σ → Reader
  write : String → String → σ → Except RenderError Path × σ

namespace Sink

def memory (files : Reader) : Sink (Dict String) where
  files := fun _ => files
  write := fun name text stored => (.ok name, Dict.setSorted name text stored)

def directory (root : Path) : Sink FileTree where
  files := FileTree.read
  write := fun name text tree =>
    match tree.makeDirectories root with
    | (false, tree) => (.error (.write root), tree)
    | (true, tree) =>
      match tree.write (Path.join root name) (Text.Utf8.encode text) with
      | (false, tree) => (.error (.write (Path.join root name)), tree)
      | (true, tree) => (.ok (Path.join root name), tree)

end Sink

end ApiManifest
