import Hyperscript.Fragment.Parse
import Hyperscript.Renderer
import Hyperscript.Script
import Hyperscript.Trace
import Hyperscript.Proofs.Walk
import Hyperscript.Proofs.PostOrder
import Hyperscript.Proofs.StyleFaults
import Hyperscript.Proofs.EventRun
import Hyperscript.Proofs.WalkSimulation
import Hyperscript.Proofs.CallRecord
import Hyperscript.Proofs.Recording
import Hyperscript.Proofs.FailFast
import Hyperscript.Proofs.ElementPlaces
import Hyperscript.Proofs.FreshNodes
import Hyperscript.Proofs.CallChildren
import Hyperscript.Proofs.LinearUse
import Hyperscript.Proofs.CallsMade
import Hyperscript.Proofs.DocumentOrder
import Hyperscript.Proofs.GeneratedKeys
import Hyperscript.Proofs.SpacePaths
import Hyperscript.Proofs.FragmentSpaces
import Hyperscript.Proofs.StyleGrammar
import Hyperscript.Proofs.StyleReading
import Hyperscript.Proofs.StyleRun
import Hyperscript.Proofs.StyleLayout
import Hyperscript.Proofs.StyleWritten
import Hyperscript.Proofs.StyleUncommented
import Hyperscript.Proofs.StyleFound
import Hyperscript.Proofs.StyleRoundTrip
import Hyperscript.Proofs.StyleExtension
import Hyperscript.Proofs.StyleScope
import Hyperscript.Proofs.StyleValueFaults
import Hyperscript.Proofs.StylePlaces
import Hyperscript.Proofs.StyleFaultPlaces
import Hyperscript.Proofs.StyleNesting
import Hyperscript.Proofs.StandardTable
import Hyperscript.Proofs.StandardNames
import Hyperscript.Proofs.Placement
import Hyperscript.Proofs.StyleComposition
import Hyperscript.Proofs.StyleClosingBrace
import Hyperscript.Proofs.StandardPlacement
import Hyperscript.Proofs.DialectPlacement
import Hyperscript.Proofs.NamespaceTracking
import Hyperscript.Proofs.SameAttributes
import Hyperscript.Proofs.PropertyOrder
import Hyperscript.Proofs.ReorderedTrees
import Hyperscript.Proofs.OrderIndependence
import Hyperscript.Proofs.LetterCase
import Hyperscript.Proofs.DataNames
import Hyperscript.Proofs.DataSpellings
import Hyperscript.Proofs.FragmentNames
import Hyperscript.Proofs.TokenLists
import Hyperscript.Proofs.SelectorFolding
import Hyperscript.Proofs.FragmentValues
import Hyperscript.Proofs.RendersAlike
import Hyperscript.Proofs.SilentParts
import Hyperscript.Proofs.NumberedCalls
import Hyperscript.Proofs.PlainAgain
import Hyperscript.Proofs.NestedEntries
import Hyperscript.Proofs.HeldValues
import Hyperscript.Proofs.RetainedKeys
import Hyperscript.Proofs.SelectorReading
import Hyperscript.Proofs.StyleKeys
import Hyperscript.Proofs.CommaLists
import Hyperscript.Proofs.NumberedNodes
import Hyperscript.Proofs.TextReading
import Hyperscript.Proofs.TextPreservation
import Hyperscript.Proofs.StyleProgress
