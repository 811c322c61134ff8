import DocSplice.CommandLine.Session
import DocSplice.Datum.Numeral
import DocSplice.Datum.Policy
import DocSplice.FileTree.Prepare
import DocSplice.Main
import DocSplice.Proofs.Line
import DocSplice.Proofs.Marker
import DocSplice.Proofs.Replacing
import DocSplice.Proofs.Stacking
import DocSplice.Proofs.Series
import DocSplice.Proofs.Name
import DocSplice.Proofs.Block
import DocSplice.Proofs.FixedPoint
import DocSplice.Proofs.Walk
import DocSplice.Proofs.WalkFrame
import DocSplice.Proofs.Destination
import DocSplice.Proofs.Change
import DocSplice.Proofs.Replace
import DocSplice.Proofs.ReadBack
import DocSplice.Proofs.Update
import DocSplice.Proofs.Check
import DocSplice.Proofs.Repetition
import DocSplice.Proofs.Pile
import DocSplice.Proofs.Arguments
import DocSplice.Proofs.Unobstructed
import DocSplice.Proofs.Effect
import DocSplice.Proofs.Passage
import DocSplice.Proofs.Compacted
import DocSplice.Proofs.Stretches
import DocSplice.Proofs.Tiling
import DocSplice.Proofs.Patch
import DocSplice.Proofs.LastName
import DocSplice.Proofs.WalkEnd
import DocSplice.Proofs.Stored
import DocSplice.Proofs.Opened
import DocSplice.Proofs.Landing
import DocSplice.Proofs.AllOrNothing
import DocSplice.Proofs.Rerouted
import DocSplice.Proofs.Agreement
import DocSplice.Proofs.OpeningLine
import DocSplice.Proofs.Persistence
import DocSplice.Proofs.OneRegion
import DocSplice.Proofs.Rows
import DocSplice.Proofs.HunkHeader
import DocSplice.Proofs.Leftover
import DocSplice.Proofs.LinksKept
import DocSplice.Proofs.Interruption
import DocSplice.Proofs.Success
import DocSplice.Proofs.Grammar
import DocSplice.Proofs.WrittenLines
import DocSplice.Proofs.PrintedDiff
import DocSplice.Proofs.DiffColours
import DocSplice.Proofs.NamedFile
import DocSplice.Proofs.Separator
import DocSplice.Proofs.Distance
import DocSplice.Proofs.Furthest
import DocSplice.Proofs.Meeting
import DocSplice.Proofs.ShortestScript
import DocSplice.Proofs.LeastChange
