import Ditlang.Main
import Ditlang.Proofs.Guest.Attribution
import Ditlang.Proofs.Session.Typing
import Ditlang.Proofs.Heap.ListGraph
import Ditlang.Proofs.Heap.Definers
import Ditlang.Proofs.Heap.ClassSteps
import Ditlang.Proofs.Heap.Conflicts
import Ditlang.Proofs.Session.Inheritance
import Ditlang.Proofs.Guest.Conversation
import Ditlang.Proofs.Guest.Transcript
import Ditlang.Proofs.Guest.Course
import Ditlang.Proofs.Guest.Submission
import Ditlang.Proofs.Session.Talk
import Ditlang.Proofs.Session.Conversations
import Ditlang.Proofs.Token.Partition
import Ditlang.Proofs.Session.CopyOnWrite
import Ditlang.Proofs.Session.Incremental
import Ditlang.Proofs.Heap.Edits
import Ditlang.Proofs.Eval.Law
import Ditlang.Proofs.Eval.Runs
import Ditlang.Proofs.Eval.Soundness
import Ditlang.Proofs.Eval.Compositional
import Ditlang.Proofs.Eval.Throughout
import Ditlang.Proofs.Session.Fragments
import Ditlang.Proofs.Guest.Nesting
import Ditlang.Proofs.Guest.Fences
import Ditlang.Proofs.Guest.Passes
import Ditlang.Proofs.Guest.Recovery
import Ditlang.Proofs.Session.ExitReports
import Ditlang.Proofs.Session.Langs
import Ditlang.Proofs.Token.Resolution
import Ditlang.Proofs.Guest.Refusals
import Ditlang.Proofs.Heap.Bodies
import Ditlang.Proofs.History.Log
import Ditlang.Proofs.History.Law
import Ditlang.Proofs.History.Running
import Ditlang.Proofs.History.Calls
import Ditlang.Proofs.History.Bodies
import Ditlang.Proofs.Session.Driven
import Ditlang.Proofs.Session.Readiness
import Ditlang.Proofs.Session.Origins
import Ditlang.Proofs.Session.Internals
import Ditlang.Proofs.Heap.Merging
import Ditlang.Proofs.Heap.Assignment
import Ditlang.Proofs.Heap.SlotNames
import Ditlang.Proofs.Heap.Assignability
import Ditlang.Proofs.Heap.InstanceWrites
import Ditlang.Proofs.Heap.QualifiedNames
import Ditlang.Proofs.Session.Assignment
import Ditlang.Proofs.Session.InstanceWrites
import Ditlang.Proofs.Heap.ListSearch
import Ditlang.Proofs.Session.Lists
import Ditlang.Proofs.Heap.JsonPaths
import Ditlang.Proofs.Session.JsonPaths
import Ditlang.Proofs.Guest.Ledger
import Ditlang.Proofs.Heap.Signatures
import Ditlang.Proofs.Heap.Arguments
import Ditlang.Proofs.Eval.Yields
import Ditlang.Proofs.Session.Signatures
import Ditlang.Proofs.Session.Calls
import Ditlang.Proofs.Heap.Properties
import Ditlang.Proofs.Heap.Redefinition
import Ditlang.Proofs.Session.LangMerging
import Ditlang.Proofs.Host.Files
import Ditlang.Proofs.Guest.FileNames
import Ditlang.Proofs.Heap.GuestPaths
import Ditlang.Proofs.Files.Course
import Ditlang.Proofs.Files.Workers
import Ditlang.Proofs.Files.Law
import Ditlang.Proofs.Files.Calls
import Ditlang.Proofs.Session.GuestFiles
import Ditlang.Proofs.Session.Documents
import Ditlang.Proofs.Host.Imports
import Ditlang.Proofs.Heap.OwnNames
import Ditlang.Proofs.Heap.WellFormed
import Ditlang.Proofs.Cursor.Readings
import Ditlang.Proofs.Cursor.Proceeds
import Ditlang.Proofs.Cursor.Calls
import Ditlang.Proofs.Cursor.Paths
import Ditlang.Proofs.Cursor.Definitions
import Ditlang.Proofs.Cursor.Statements
import Ditlang.Proofs.Cursor.Outside
import Ditlang.Proofs.Cursor.Progress
import Ditlang.Proofs.Session.Arena
import Ditlang.Proofs.Token.Braces
import Ditlang.Proofs.Token.Safety
