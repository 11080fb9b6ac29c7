import Marionette.Animation.Basic
import Marionette.Animation.Channel
import Marionette.Animation.Check
import Marionette.Animation.Document
import Marionette.Bisection
import Marionette.Blueprint
import Marionette.Command.Basic
import Marionette.Command.Document
import Marionette.Compile
import Marionette.Config
import Marionette.Datapack
import Marionette.Datapack.Document
import Marionette.Datum.Basic
import Marionette.Datum.Decode
import Marionette.Datum.Printer
import Marionette.Decimal.Layout
import Marionette.Decimal.Shortest
import Marionette.Diagnostics
import Marionette.Disk
import Marionette.DispatchTree
import Marionette.Emission
import Marionette.Error
import Marionette.Frame
import Marionette.Frame.Document
import Marionette.Functions.Basic
import Marionette.Functions.Dispatch
import Marionette.Functions.Leaves
import Marionette.Functions.Playback
import Marionette.Functions.Rig
import Marionette.Geometry.Matrix
import Marionette.Geometry.Rotation
import Marionette.Geometry.Vec3
import Marionette.Json.Basic
import Marionette.Json.Decode
import Marionette.Json.Printer
import Marionette.Json.Reader
import Marionette.Json.Record
import Marionette.Names
import Marionette.Pose
import Marionette.Proofs.Bisection
import Marionette.Proofs.Blending
import Marionette.Proofs.Cleanup
import Marionette.Proofs.Compile
import Marionette.Proofs.Config
import Marionette.Proofs.Counters
import Marionette.Proofs.Datapack
import Marionette.Proofs.Datum.Compound
import Marionette.Proofs.Datum.Layouts
import Marionette.Proofs.Datum.Merging
import Marionette.Proofs.Datum.OneLine
import Marionette.Proofs.Datum.Parts
import Marionette.Proofs.Datum.Printer
import Marionette.Proofs.Datum.Unambiguous
import Marionette.Proofs.Decimal.Floats
import Marionette.Proofs.Decimal.Reading
import Marionette.Proofs.Decimal.Shortest
import Marionette.Proofs.Disk.Files
import Marionette.Proofs.Disk.Places
import Marionette.Proofs.DispatchTree.Leaves
import Marionette.Proofs.DispatchTree.Lookup
import Marionette.Proofs.DispatchTree.Merging
import Marionette.Proofs.DispatchTree.Order
import Marionette.Proofs.DispatchTree.Ranking
import Marionette.Proofs.DispatchTree.Shape
import Marionette.Proofs.DispatchTree.Tiling
import Marionette.Proofs.Emission
import Marionette.Proofs.Executors
import Marionette.Proofs.Floats.Differences
import Marionette.Proofs.Floats.Nearest
import Marionette.Proofs.Floats.Order
import Marionette.Proofs.Frame
import Marionette.Proofs.Functions.Basic
import Marionette.Proofs.Functions.Calls
import Marionette.Proofs.Functions.Data
import Marionette.Proofs.Functions.Dispatch
import Marionette.Proofs.Functions.Home
import Marionette.Proofs.Functions.Leaves
import Marionette.Proofs.Functions.Lookups
import Marionette.Proofs.Functions.Pack
import Marionette.Proofs.Functions.PackExists
import Marionette.Proofs.Functions.Paths
import Marionette.Proofs.Functions.Payload
import Marionette.Proofs.Functions.Scores
import Marionette.Proofs.Independence
import Marionette.Proofs.Inlining
import Marionette.Proofs.Instance.Advancing
import Marionette.Proofs.Instance.Alike
import Marionette.Proofs.Instance.Blending
import Marionette.Proofs.Instance.Changes
import Marionette.Proofs.Instance.Company
import Marionette.Proofs.Instance.Controls
import Marionette.Proofs.Instance.Crowd
import Marionette.Proofs.Instance.FrameLaws
import Marionette.Proofs.Instance.Frames
import Marionette.Proofs.Instance.Interpolation
import Marionette.Proofs.Instance.Places
import Marionette.Proofs.Instance.Playback
import Marionette.Proofs.Instance.Ranges
import Marionette.Proofs.Instance.Records
import Marionette.Proofs.Instance.Replay
import Marionette.Proofs.Instance.Resuming
import Marionette.Proofs.Instance.Scene
import Marionette.Proofs.Instance.Summon
import Marionette.Proofs.Instance.Takes
import Marionette.Proofs.Instance.Ticks
import Marionette.Proofs.Instance.Timeline
import Marionette.Proofs.Instance.Tweens
import Marionette.Proofs.Interpolation
import Marionette.Proofs.Isolation
import Marionette.Proofs.Isolation.Crews
import Marionette.Proofs.Isolation.Households
import Marionette.Proofs.Isolation.Removal
import Marionette.Proofs.Isolation.Roots
import Marionette.Proofs.Isolation.Summoning
import Marionette.Proofs.Isolation.Ticks
import Marionette.Proofs.Json.Texts
import Marionette.Proofs.Lifecycle
import Marionette.Proofs.Lines
import Marionette.Proofs.Lines.Commands
import Marionette.Proofs.Lines.Functions
import Marionette.Proofs.Lines.Rig
import Marionette.Proofs.Lines.Sampling
import Marionette.Proofs.Lines.Texts
import Marionette.Proofs.Manifest
import Marionette.Proofs.Names
import Marionette.Proofs.Names.Allocation
import Marionette.Proofs.Narrowing
import Marionette.Proofs.Numbers
import Marionette.Proofs.Outcome
import Marionette.Proofs.OutputPaths
import Marionette.Proofs.Pausing
import Marionette.Proofs.Ranges
import Marionette.Proofs.Refusals
import Marionette.Proofs.Results
import Marionette.Proofs.Ride.Beside
import Marionette.Proofs.Ride.Frames
import Marionette.Proofs.Ride.Playing
import Marionette.Proofs.Ride.Reach
import Marionette.Proofs.Ride.Takes
import Marionette.Proofs.Ride.Ticks
import Marionette.Proofs.Ride.Turns
import Marionette.Proofs.Ride.View
import Marionette.Proofs.Rig
import Marionette.Proofs.Rig.Cycles
import Marionette.Proofs.Rig.Hierarchy
import Marionette.Proofs.Rig.Ordering
import Marionette.Proofs.Rounding
import Marionette.Proofs.RuntimeNames
import Marionette.Proofs.Safety
import Marionette.Proofs.Sampling.Channels
import Marionette.Proofs.Sampling.Keys
import Marionette.Proofs.Sampling.Locators
import Marionette.Proofs.Sampling.Lossless
import Marionette.Proofs.Sampling.Markers
import Marionette.Proofs.Sampling.Poses
import Marionette.Proofs.Sampling.Reordering
import Marionette.Proofs.Sampling.Reports
import Marionette.Proofs.Sampling.Runs
import Marionette.Proofs.Sampling.Sparse
import Marionette.Proofs.Sampling.Tracks
import Marionette.Proofs.Sampling.Windows
import Marionette.Proofs.Seeking
import Marionette.Proofs.Silence
import Marionette.Proofs.Stopping
import Marionette.Proofs.Tweens
import Marionette.Proofs.Variants
import Marionette.Proofs.World.Agree
import Marionette.Proofs.World.Badges
import Marionette.Proofs.World.Bystanders
import Marionette.Proofs.World.Changes
import Marionette.Proofs.World.Commands
import Marionette.Proofs.World.Consistency
import Marionette.Proofs.World.Deeds
import Marionette.Proofs.World.Follows
import Marionette.Proofs.World.Footprint
import Marionette.Proofs.World.Home
import Marionette.Proofs.World.Limits
import Marionette.Proofs.World.Looks
import Marionette.Proofs.World.Mirrors
import Marionette.Proofs.World.Runs
import Marionette.Proofs.World.Spawning
import Marionette.Proofs.World.Sure
import Marionette.Proofs.World.Ties
import Marionette.Proofs.World.Twins
import Marionette.Proofs.Writing
import Marionette.Proofs.Writing.Functions
import Marionette.Rig.Basic
import Marionette.Rounding
import Marionette.RuntimeNames
import Marionette.Sampling
import Marionette.Text.Blank
import Marionette.Text.GraphemeExtend
import Marionette.Text.Quoted
import Marionette.Text.Unprintable
import Marionette.Uuid
import Marionette.World.Basic
import Marionette.World.Document
import Marionette.World.Entity
import Marionette.World.Run
