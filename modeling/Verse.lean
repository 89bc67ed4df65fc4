import Verse.Main
import Verse.Proofs.Machine.Cursors
import Verse.Proofs.Machine.Conservation
import Verse.Proofs.Machine.Blocks
import Verse.Proofs.Engine.Observation
import Verse.Proofs.Machine.Ending
import Verse.Proofs.Machine.Termination
import Verse.Proofs.Engine.History
import Verse.Proofs.Number.Pass
import Verse.Proofs.Number.English
import Verse.Proofs.Token.Spelled
import Verse.Proofs.Token.Grammar
import Verse.Proofs.Lexicon.Format
import Verse.Proofs.Spacing
import Verse.Proofs.Token.Layout
import Verse.Proofs.Engine.Spelling
import Verse.Proofs.Engine.Demand
import Verse.Proofs.Engine.Grounding
import Verse.Proofs.Engine.Trace
import Verse.Proofs.Engine.Dump
import Verse.Proofs.Engine.Loading
import Verse.Proofs.Machine.Progress
import Verse.Proofs.CommandLine.Source
import Verse.Proofs.CommandLine.Stages
import Verse.Proofs.Machine.March
import Verse.Proofs.Number.Addends
import Verse.Proofs.Number.Saturation
import Verse.Proofs.Machine.Terminator
import Verse.Proofs.Machine.Operation
import Verse.Proofs.Machine.Growth
import Verse.Proofs.Machine.Stride
import Verse.Proofs.Machine.Rendering
import Verse.Proofs.Machine.Search
import Verse.Proofs.Lexicon.Canonical
import Verse.Proofs.Lexicon.Fixed
