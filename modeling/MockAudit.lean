import MockAudit.Main
import MockAudit.Unit.Sketch
import MockAudit.Proofs.Unit.Preorder
import MockAudit.Proofs.Analysis.Walk
import MockAudit.Proofs.Json.Decoding
import MockAudit.Proofs.Unit.RoundTrip
import MockAudit.Proofs.Analysis.Selection
import MockAudit.Proofs.Idiom.Hierarchy
import MockAudit.Proofs.Idiom.MockDefinition
import MockAudit.Proofs.Idiom.RealMethod
import MockAudit.Proofs.Idiom.Site
import MockAudit.Proofs.Rule.Scope
import MockAudit.Proofs.Analysis.Numbering
import MockAudit.Proofs.Analysis.Imports
import MockAudit.Proofs.Analysis.SourceText
import MockAudit.Proofs.Analysis.Schedule
import MockAudit.Proofs.Rule.Isolation
import MockAudit.Proofs.Json.Skipping
import MockAudit.Proofs.Workspace.Scope
import MockAudit.Proofs.Workspace.Path
import MockAudit.Proofs.Workspace.FileTree
import MockAudit.Proofs.Workspace.SettingsSource
import MockAudit.Proofs.Workspace.Addition
import MockAudit.Proofs.Workspace.Discovery
import MockAudit.Proofs.Command.Check
import MockAudit.Proofs.Unit.Assembly
import MockAudit.Proofs.Rule.Declarations
import MockAudit.Proofs.Rule.Reentrancy
import MockAudit.Proofs.Rule.Instances
import MockAudit.Proofs.Rule.Accessor
import MockAudit.Proofs.Rule.Gaps
import MockAudit.Proofs.Rule.Decoration
import MockAudit.Proofs.Diagnostic.Placement
import MockAudit.Proofs.Idiom.Decoration
import MockAudit.Proofs.Analysis.Remedy
import MockAudit.Proofs.Text.Position
import MockAudit.Proofs.Diagnostic.Exactness
import MockAudit.Proofs.Idiom.Classification
import MockAudit.Proofs.Idiom.Erasure
import MockAudit.Proofs.Idiom.Sweep
