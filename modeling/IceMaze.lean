import IceMaze.Board
import IceMaze.Body
import IceMaze.Command.Arguments
import IceMaze.Command.Execute
import IceMaze.Command.Help
import IceMaze.Command.Picture
import IceMaze.Coord
import IceMaze.Files
import IceMaze.Game.Event
import IceMaze.Game.Loading
import IceMaze.Game.Move
import IceMaze.Game.State
import IceMaze.Game.Tick
import IceMaze.Json.Decode
import IceMaze.Json.Print
import IceMaze.Json.Token
import IceMaze.Json.Value
import IceMaze.Level.Basic
import IceMaze.Level.BuiltIn
import IceMaze.Level.Draft
import IceMaze.Level.Error
import IceMaze.Level.Record
import IceMaze.Level.Text.CellList
import IceMaze.Level.Text.Document
import IceMaze.Level.Text.Piece
import IceMaze.Level.Text.TileRow
import IceMaze.Level.TileMap
import IceMaze.Log
import IceMaze.Main
import IceMaze.Number.Layout
import IceMaze.Number.Numeral
import IceMaze.Number.Shortest
import IceMaze.Proofs.Board.Cells
import IceMaze.Proofs.Board.Drawing
import IceMaze.Proofs.Board.Layouts
import IceMaze.Proofs.Board.Portals
import IceMaze.Proofs.Board.Sweep
import IceMaze.Proofs.Json.Compact
import IceMaze.Proofs.Json.Grammar
import IceMaze.Proofs.Json.Pretty
import IceMaze.Proofs.Json.Records
import IceMaze.Proofs.Json.Tokens
import IceMaze.Proofs.Level.Acceptance
import IceMaze.Proofs.Level.Arrangement
import IceMaze.Proofs.Level.Bounds
import IceMaze.Proofs.Level.CellGrammar
import IceMaze.Proofs.Level.Filler
import IceMaze.Proofs.Level.Joining
import IceMaze.Proofs.Level.LineEnds
import IceMaze.Proofs.Level.MapCodes
import IceMaze.Proofs.Level.MapGrammar
import IceMaze.Proofs.Level.MapText
import IceMaze.Proofs.Level.Overlays
import IceMaze.Proofs.Level.PieceText
import IceMaze.Proofs.Level.Placement
import IceMaze.Proofs.Level.RecordText
import IceMaze.Proofs.Level.Repetition
import IceMaze.Proofs.Level.RoundTrip
import IceMaze.Proofs.Level.Sections
import IceMaze.Proofs.Level.Shape
import IceMaze.Proofs.Level.SingleFile
import IceMaze.Proofs.Number.Layout
import IceMaze.Proofs.Play.BlockNumbers
import IceMaze.Proofs.Play.Course
import IceMaze.Proofs.Play.DeadEnds
import IceMaze.Proofs.Play.Effects
import IceMaze.Proofs.Play.Events
import IceMaze.Proofs.Play.Finished
import IceMaze.Proofs.Play.Frame
import IceMaze.Proofs.Play.Idling
import IceMaze.Proofs.Play.Keys
import IceMaze.Proofs.Play.Landing
import IceMaze.Proofs.Play.Ledger
import IceMaze.Proofs.Play.Melting
import IceMaze.Proofs.Play.Mirror
import IceMaze.Proofs.Play.Occupancy
import IceMaze.Proofs.Play.Operations
import IceMaze.Proofs.Play.Pace
import IceMaze.Proofs.Play.Patches
import IceMaze.Proofs.Play.Payout
import IceMaze.Proofs.Play.Pickup
import IceMaze.Proofs.Play.Reachable
import IceMaze.Proofs.Play.Redrawing
import IceMaze.Proofs.Play.Setting
import IceMaze.Proofs.Play.Settling
import IceMaze.Proofs.Play.Slides
import IceMaze.Proofs.Play.Steering
import IceMaze.Proofs.Play.Step
import IceMaze.Proofs.Play.Teleporters
import IceMaze.Proofs.Play.Terrain
import IceMaze.Proofs.Play.Tick
import IceMaze.Proofs.Play.Timing
import IceMaze.Proofs.Rules.Partial
import IceMaze.Proofs.Rules.Saving
import IceMaze.Proofs.Rules.Validation
import IceMaze.Proofs.Text.Scanning
import IceMaze.Random
import IceMaze.Rules.Basic
import IceMaze.Rules.File
import IceMaze.Text.Blank
import IceMaze.Text.Numeric
import IceMaze.Text.Split
import IceMaze.TileKind
