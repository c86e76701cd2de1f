import Microcode.Debugger.Screen
import Microcode.Main
import Microcode.Proofs.Rejection
import Microcode.Proofs.Counters
import Microcode.Proofs.Execution
import Microcode.Proofs.Breakpoints
import Microcode.Proofs.Codes
import Microcode.Proofs.Text.Capitals
import Microcode.Proofs.Text.Words
import Microcode.Proofs.Listing.Columns
import Microcode.Proofs.Listing.Assembling
import Microcode.Proofs.Listing.Printable
import Microcode.Proofs.Listing.Reassembly
import Microcode.Proofs.BoundedRuns
import Microcode.Proofs.Placement
import Microcode.Proofs.Text.Numerals
import Microcode.Proofs.Listing.Relocation
import Microcode.Proofs.Listing.Grammar
import Microcode.Proofs.Listing.Program
import Microcode.Proofs.Listing.Meaning
import Microcode.Proofs.Listing.Offences
import Microcode.Proofs.Listing.Progress
import Microcode.Proofs.Listing.Resolving
import Microcode.Proofs.Listing.Verdict
import Microcode.Proofs.ContinuousRuns
import Microcode.Proofs.SequencerHistory
import Microcode.Proofs.FlagHistory
import Microcode.Proofs.Listing.Interpretation
import Microcode.Proofs.SavedState
import Microcode.Proofs.TableFiles
import Microcode.Proofs.Recoding
import Microcode.Proofs.Provenance
import Microcode.Proofs.Acceptance
import Microcode.Proofs.FreshStart
import Microcode.Proofs.SerialLine
import Microcode.Proofs.ChangedRegisters
import Microcode.Proofs.Loading
import Microcode.Proofs.LongNumbers
import Microcode.Proofs.StoreContents
import Microcode.Proofs.TableRows
import Microcode.Proofs.CounterHistory
import Microcode.Proofs.Encodings
import Microcode.Proofs.Window
import Microcode.Proofs.Listing.Retyping
import Microcode.Proofs.Listing.Bookkeeping
import Microcode.Proofs.TraceLines
import Microcode.Proofs.RunReports
import Microcode.Proofs.OutputFiles
