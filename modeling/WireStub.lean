import WireStub.Code.CType
import WireStub.Code.Codec
import WireStub.Code.Error
import WireStub.Code.Identifier
import WireStub.Code.Item
import WireStub.Code.Layout
import WireStub.Code.Signature
import WireStub.Code.Statement
import WireStub.CommandLine.Invocation
import WireStub.CommandLine.Outcome
import WireStub.Configuration
import WireStub.Emission
import WireStub.FileTree
import WireStub.Generate.CUnit
import WireStub.Generate.Declaration
import WireStub.Generate.Dispatch
import WireStub.Generate.Handler
import WireStub.Generate.Signature
import WireStub.Generate.Stub
import WireStub.Import.Error
import WireStub.Import.Importer
import WireStub.Import.Ledger
import WireStub.Import.Schema
import WireStub.Json
import WireStub.Keyed
import WireStub.Linking.Basic
import WireStub.Linking.Error
import WireStub.Linking.SymbolTable
import WireStub.Main
import WireStub.Options
import WireStub.Proofs.Code.CNames
import WireStub.Proofs.Code.Cursor
import WireStub.Proofs.Code.Identifier
import WireStub.Proofs.Code.Items
import WireStub.Proofs.Code.Lines
import WireStub.Proofs.Code.Loops
import WireStub.Proofs.Code.Margins
import WireStub.Proofs.Code.Nesting
import WireStub.Proofs.Code.Typing
import WireStub.Proofs.Codec.Convention
import WireStub.Proofs.Codec.Extents
import WireStub.Proofs.Codec.Mirror
import WireStub.Proofs.Dispatch.Routing
import WireStub.Proofs.Emission
import WireStub.Proofs.Emission.Order
import WireStub.Proofs.Emission.Placement
import WireStub.Proofs.Emission.Writing
import WireStub.Proofs.Endpoint.Agreement
import WireStub.Proofs.Endpoint.Capture
import WireStub.Proofs.Endpoint.Convention
import WireStub.Proofs.Endpoint.Passes
import WireStub.Proofs.Endpoint.Roles
import WireStub.Proofs.Endpoint.Transfer
import WireStub.Proofs.Except
import WireStub.Proofs.FileTree
import WireStub.Proofs.Generate.CNames
import WireStub.Proofs.Generate.Comments
import WireStub.Proofs.Generate.Faults
import WireStub.Proofs.Generate.FileNames
import WireStub.Proofs.Generate.Includes
import WireStub.Proofs.Generate.Indentation
import WireStub.Proofs.Generate.Prototypes
import WireStub.Proofs.Generate.Spelling
import WireStub.Proofs.Generate.Success
import WireStub.Proofs.Generate.Units
import WireStub.Proofs.Import.Bookkeeping
import WireStub.Proofs.Import.Closure
import WireStub.Proofs.Import.Cycles
import WireStub.Proofs.Import.Graph
import WireStub.Proofs.Import.Growing
import WireStub.Proofs.Import.InMemory
import WireStub.Proofs.Import.Linking
import WireStub.Proofs.Import.Recording
import WireStub.Proofs.Linking.Acceptance
import WireStub.Proofs.Linking.Bindings
import WireStub.Proofs.Linking.CNames
import WireStub.Proofs.Linking.Containment
import WireStub.Proofs.Linking.Coverage
import WireStub.Proofs.Linking.Homes
import WireStub.Proofs.Linking.Imports
import WireStub.Proofs.Linking.InPlace
import WireStub.Proofs.Linking.Kinds
import WireStub.Proofs.Linking.Lifetime
import WireStub.Proofs.Linking.Obligations
import WireStub.Proofs.Linking.Paths
import WireStub.Proofs.Linking.Progress
import WireStub.Proofs.Linking.Rebinding
import WireStub.Proofs.Linking.Relinking
import WireStub.Proofs.Linking.Repeating
import WireStub.Proofs.Linking.Retracing
import WireStub.Proofs.Linking.Scopes
import WireStub.Proofs.Linking.Scoping
import WireStub.Proofs.Linking.TypeNames
import WireStub.Proofs.Linking.Visiting
import WireStub.Proofs.Linking.Widening
import WireStub.Proofs.Linking.WrittenNames
import WireStub.Proofs.Report
import WireStub.Proofs.Schema.RoundTrip
import WireStub.Proofs.Schema.Unlinked
import WireStub.Proofs.ScopedName
import WireStub.Proofs.Tree
import WireStub.Report
import WireStub.Role
import WireStub.Schema.Basic
import WireStub.Schema.Reading
import WireStub.Schema.Spelling
import WireStub.Schema.Writing
import WireStub.ScopedName
import WireStub.Text.Blank
import WireStub.Text.UpperCase
import WireStub.Tree
import WireStub.Yaml.Anchor
import WireStub.Yaml.BlockScalar
import WireStub.Yaml.Document
import WireStub.Yaml.FlowScalar
import WireStub.Yaml.Glyph
import WireStub.Yaml.Lexer
import WireStub.Yaml.Node
import WireStub.Yaml.Property
import WireStub.Yaml.Token
