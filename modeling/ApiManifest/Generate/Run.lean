import ApiManifest.Generate.Artifact
import ApiManifest.Manifest.Load
import ApiManifest.Schema.Resolve
import ApiManifest.Settings

/-!
Whole runs: from the settings to the files.
-/

namespace ApiManifest

namespace Settings

def roots (s : Settings) : TemplateRoots :=
  { standard := s.templateRoot, custom := s.customRoot }

def binder (s : Settings) : Binder :=
  { roots := s.roots, extension := s.extension }

def load (s : Settings) (files : Reader) : Except ManifestError Manifest :=
  match files s.manifest with
  | .error _ => .error (.read s.manifest)
  | .ok bytes => Manifest.parse bytes

def run (s : Settings) (generatedAt : Instant) (tree : FileTree) : Except ManifestError Report × FileTree :=
  match s.load tree.read with
  | .error e => (.error e, tree)
  | .ok m =>
    let (report, tree) :=
      Generation.run { schema := m.resolve, generatedAt } s.binder (.directory s.outputPath) tree
    (.ok report, tree)

end Settings

end ApiManifest
