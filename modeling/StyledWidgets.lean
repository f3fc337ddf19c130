import StyledWidgets.Benchmark.Scene
import StyledWidgets.Fixture.Runner
import StyledWidgets.Inspect.Failure
import StyledWidgets.Inspect.Painting
import StyledWidgets.Inspect.Window
import StyledWidgets.Toolkit.Logging
import StyledWidgets.Toolkit.SettingsJson
import StyledWidgets.Proofs.ForestShape
import StyledWidgets.Proofs.PaintOrder
import StyledWidgets.Proofs.RepaintOrders
import StyledWidgets.Proofs.RepaintedPixels
import StyledWidgets.Proofs.RepaintClosure
import StyledWidgets.Proofs.PaintedPixels
import StyledWidgets.Proofs.ForestChanges
import StyledWidgets.Proofs.PartialRepaint
import StyledWidgets.Proofs.StyleMatching
import StyledWidgets.Proofs.StyleCache
import StyledWidgets.Proofs.StyleChanges
import StyledWidgets.Proofs.Operations
import StyledWidgets.Proofs.ForestLikeness
import StyledWidgets.Proofs.ApplicationRuns
import StyledWidgets.Proofs.FreshStyle
import StyledWidgets.Proofs.VisibleStack
import StyledWidgets.Proofs.AskedPixels
import StyledWidgets.Proofs.ScreenSteps
import StyledWidgets.Proofs.ScreenChanges
import StyledWidgets.Proofs.WindowChanges
import StyledWidgets.Proofs.ScreenMarks
import StyledWidgets.Proofs.DrawnStack
import StyledWidgets.Proofs.ScreenUpdate
import StyledWidgets.Proofs.RegionAlgebra
import StyledWidgets.Proofs.SheetReading
import StyledWidgets.Proofs.StyleLookups
import StyledWidgets.Proofs.StylistRuns
import StyledWidgets.Proofs.IndexedMatching
import StyledWidgets.Proofs.SharedInstances
import StyledWidgets.Proofs.QuerySheets
import StyledWidgets.Proofs.CascadeWinners
import StyledWidgets.Proofs.WindowEntries
import StyledWidgets.Proofs.SheetBlocks
import StyledWidgets.Proofs.PrintedSheets
import StyledWidgets.Proofs.ForestEdits
import StyledWidgets.Proofs.FailedCalls
import StyledWidgets.Proofs.LiveCaches
import StyledWidgets.Proofs.RepeatedLookups
import StyledWidgets.Proofs.PaintPasses
import StyledWidgets.Proofs.CleanWindows
import StyledWidgets.Proofs.GreedyMatching
import StyledWidgets.Proofs.IdleRules
import StyledWidgets.Proofs.RequestedRegion
import StyledWidgets.Proofs.ProbeAnswers
import StyledWidgets.Proofs.ExactClips
import StyledWidgets.Proofs.SheetContents
import StyledWidgets.Proofs.SpelledSelectors
import StyledWidgets.Proofs.ByteScans
import StyledWidgets.Proofs.ByteSelectors
import StyledWidgets.Proofs.ByteValues
import StyledWidgets.Proofs.ByteSheets
import StyledWidgets.Proofs.SeparateDeclarations
import StyledWidgets.Proofs.QuotedLocations
import StyledWidgets.Proofs.CommentPlaces
import StyledWidgets.Proofs.OlderInstances
import StyledWidgets.Proofs.ProbedWindows
import StyledWidgets.Proofs.PseudoChanges
import StyledWidgets.Proofs.SubtreeInvalidation
import StyledWidgets.Proofs.RequestPermutations
import StyledWidgets.Proofs.DirtyBounds
import StyledWidgets.Proofs.SubtreeRemoval
import StyledWidgets.Proofs.BoxNesting
import StyledWidgets.Proofs.LookupCounters
import StyledWidgets.Proofs.SortedSets
import StyledWidgets.Proofs.BareDeclarations
import StyledWidgets.Proofs.SettingsTexts
import StyledWidgets.Proofs.LenientNumbers
import StyledWidgets.Proofs.AncestorMarks
import StyledWidgets.Proofs.RequestQueue
import StyledWidgets.Proofs.CutPieces
import StyledWidgets.Proofs.ReckonedRepaints
import StyledWidgets.Proofs.ReckonedApplications
