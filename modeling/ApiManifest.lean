import ApiManifest.Json.Reader
import ApiManifest.Main
import ApiManifest.Proofs.Generate.Outputs
import ApiManifest.Proofs.Generate.Renderable
import ApiManifest.Proofs.Schema.References
import ApiManifest.Proofs.Template.Sessions
import ApiManifest.Template.Shipped
import ApiManifest.Proofs.Text.Blank
import ApiManifest.Proofs.Text.Identifier
import ApiManifest.Proofs.Template.Grammar
import ApiManifest.Proofs.Template.Inlining
import ApiManifest.Proofs.Manifest.WellFormed
import ApiManifest.Proofs.Template.Printing
import ApiManifest.Proofs.Text.Utf8
import ApiManifest.Proofs.Template.Totality
import ApiManifest.Proofs.Template.Shipped
import ApiManifest.Proofs.Generate.Shipped
import ApiManifest.Proofs.Generate.Untimed
import ApiManifest.Proofs.Schema.Conditions
import ApiManifest.Proofs.Schema.Definitions
import ApiManifest.Proofs.Manifest.Strict
import ApiManifest.Proofs.Manifest.VersionGate
import ApiManifest.Proofs.Manifest.TypeShorthand
import ApiManifest.Proofs.Manifest.KeyFields
import ApiManifest.Proofs.Template.Embedding
import ApiManifest.Proofs.Schema.DerivedFields
import ApiManifest.Proofs.Schema.KeyArguments
import ApiManifest.Proofs.Schema.DeclaredBlocks
import ApiManifest.Proofs.Template.Overlay
import ApiManifest.Proofs.CommandLine.Configuration
import ApiManifest.Proofs.Manifest.AttributeParts
import ApiManifest.Proofs.Schema.Edits
import ApiManifest.Proofs.Manifest.KeyFieldText
