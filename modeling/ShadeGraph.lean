import ShadeGraph.Channel.Compile
import ShadeGraph.Channel.Composite
import ShadeGraph.Channel.Correction
import ShadeGraph.Channel.Material
import ShadeGraph.Channel.Names
import ShadeGraph.Channel.Stage
import ShadeGraph.Channel.Texture
import ShadeGraph.Color.Basic
import ShadeGraph.Color.Conversion
import ShadeGraph.Constants
import ShadeGraph.Description.Call
import ShadeGraph.Description.Graph
import ShadeGraph.Description.Lookup
import ShadeGraph.Description.Record
import ShadeGraph.Description.Scene
import ShadeGraph.Description.Settings
import ShadeGraph.Description.Source
import ShadeGraph.Description.Tensor
import ShadeGraph.Exchange.Disk
import ShadeGraph.Exchange.Progress
import ShadeGraph.Exchange.Run
import ShadeGraph.Exchange.Scene
import ShadeGraph.Exchange.Textures
import ShadeGraph.Exchange.Timer
import ShadeGraph.Host
import ShadeGraph.Identity.Attachment
import ShadeGraph.Identity.Bytes
import ShadeGraph.Identity.Id
import ShadeGraph.Identity.Name
import ShadeGraph.Identity.Record
import ShadeGraph.Identity.Registry
import ShadeGraph.Identity.Resolve
import ShadeGraph.Network.Basic
import ShadeGraph.Network.Describe
import ShadeGraph.Network.Evaluate
import ShadeGraph.Network.Markup
import ShadeGraph.Network.Operators
import ShadeGraph.Network.Request
import ShadeGraph.Network.Sample
import ShadeGraph.Network.Triples
import ShadeGraph.Network.Walk
import ShadeGraph.Number.Binary
import ShadeGraph.Number.Decimal
import ShadeGraph.Number.Digit
import ShadeGraph.Number.Numeral
import ShadeGraph.Number.Scalar
import ShadeGraph.Scene.Compile
import ShadeGraph.Scene.Process
import ShadeGraph.Session.Context
import ShadeGraph.Session.Journal
import ShadeGraph.Session.LabelTable
import ShadeGraph.Session.Overrides
import ShadeGraph.Session.Proxies
import ShadeGraph.Session.Usage
import ShadeGraph.Source
import ShadeGraph.Table
import ShadeGraph.Text.CaseTable
import ShadeGraph.Text.Detail
import ShadeGraph.Text.Json
import ShadeGraph.Text.Lowercase
import ShadeGraph.Text.Path
import ShadeGraph.Text.Points
import ShadeGraph.Text.PrintableTable
import ShadeGraph.Text.Quoted
import ShadeGraph.Text.Reading
import ShadeGraph.Text.Value
import ShadeGraph.Network.Dimensions
import ShadeGraph.Proofs.Attachment.Fields
import ShadeGraph.Proofs.Attachment.Reader
import ShadeGraph.Proofs.Attachment.Layout
import ShadeGraph.Proofs.Attachment.RoundTrip
import ShadeGraph.Proofs.Registry.Slots
import ShadeGraph.Proofs.Registry.Steps
import ShadeGraph.Proofs.Registry.Registration
import ShadeGraph.Proofs.Registry.SlotTables
import ShadeGraph.Proofs.Compile.Frame
import ShadeGraph.Proofs.Compile.Tour
import ShadeGraph.Proofs.Compile.GeneratedTable
import ShadeGraph.Proofs.Compile.Growth
import ShadeGraph.Proofs.Compile.SceneRoundTrip
import ShadeGraph.Proofs.Exchange.FileNames
import ShadeGraph.Proofs.Exchange.TexturePaths
import ShadeGraph.Proofs.Exchange.Copying
import ShadeGraph.Proofs.Exchange.CopyLog
import ShadeGraph.Proofs.Exchange.CopiedChannels
import ShadeGraph.Proofs.Exchange.CopiedMaterials
import ShadeGraph.Proofs.Meaning.Correction
import ShadeGraph.Proofs.Meaning.Composite
import ShadeGraph.Proofs.Meaning.Source
import ShadeGraph.Proofs.Meaning.Evaluation
import ShadeGraph.Proofs.Network.Operators
import ShadeGraph.Proofs.Network.Values
import ShadeGraph.Proofs.Network.Walk
import ShadeGraph.Proofs.Number.Divisors
import ShadeGraph.Proofs.Registry.HostScene
import ShadeGraph.Proofs.Registry.Restore
import ShadeGraph.Proofs.Table
import ShadeGraph.Proofs.Running
import ShadeGraph.Proofs.Attachment.Refusal
import ShadeGraph.Proofs.Network.Order
import ShadeGraph.Proofs.Network.Turns
import ShadeGraph.Proofs.Network.Description
import ShadeGraph.Proofs.Registry.Growth
import ShadeGraph.Proofs.Registry.Reload
import ShadeGraph.Proofs.Registry.Sessions
import ShadeGraph.Proofs.Registry.FaceSlots
import ShadeGraph.Proofs.Number.Order
import ShadeGraph.Proofs.Exchange.Threads
import ShadeGraph.Proofs.Exchange.Reports
import ShadeGraph.Proofs.Exchange.Outcome
import ShadeGraph.Proofs.Compile.Foretelling
import ShadeGraph.Proofs.Compile.Completion
import ShadeGraph.Proofs.Network.Samples
import ShadeGraph.Proofs.Network.Twins
import ShadeGraph.Proofs.Compile.TwinSessions
import ShadeGraph.Proofs.Number.Exact
import ShadeGraph.Proofs.Composite.Layers
import ShadeGraph.Proofs.Composite.Flattening
import ShadeGraph.Proofs.Composite.SingleLayer
import ShadeGraph.Proofs.Composite.Shown
import ShadeGraph.Proofs.Composite.Invisible
import ShadeGraph.Proofs.Composite.Gamut
import ShadeGraph.Proofs.Meaning.Tiling
import ShadeGraph.Proofs.Number.Partial
import ShadeGraph.Proofs.Color.Hsl
import ShadeGraph.Proofs.Meaning.Neutral
import ShadeGraph.Proofs.Network.Failures
import ShadeGraph.Proofs.Compile.Remarks
import ShadeGraph.Proofs.Meaning.UnusedExposure
import ShadeGraph.Proofs.Compile.Fallbacks
import ShadeGraph.Proofs.Registry.TableCounts
import ShadeGraph.Proofs.Registry.Resolution
import ShadeGraph.Proofs.Registry.SlotCounts
import ShadeGraph.Proofs.Registry.Loading
import ShadeGraph.Proofs.Exchange.Attempts
import ShadeGraph.Proofs.Exchange.Retries
import ShadeGraph.Proofs.Exchange.Delays
import ShadeGraph.Proofs.Exchange.Targets
import ShadeGraph.Proofs.LabelTable
import ShadeGraph.Proofs.ProxyTable
import ShadeGraph.Proofs.Compile.Lockstep
import ShadeGraph.Proofs.Meaning.Gathering
import ShadeGraph.Proofs.Meaning.Bitmaps
import ShadeGraph.Proofs.Meaning.NotedTextures
import ShadeGraph.Proofs.Compile.Overrides
import ShadeGraph.Proofs.Compile.Opacity
import ShadeGraph.Proofs.Compile.Proxies
import ShadeGraph.Proofs.Compile.Lasting
import ShadeGraph.Proofs.Compile.NodeCounts
import ShadeGraph.Proofs.Compile.Sharing
import ShadeGraph.Proofs.Compile.MeshMaterials
import ShadeGraph.Proofs.Exchange.Merging
import ShadeGraph.Proofs.Network.Memo
import ShadeGraph.Proofs.Network.Blocks
import ShadeGraph.Proofs.Network.Computations
import ShadeGraph.Proofs.Registry.Directions
