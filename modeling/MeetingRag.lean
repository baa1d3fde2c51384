import MeetingRag.Library.Outcome
import MeetingRag.Library.Table
import MeetingRag.Library.Machine
import MeetingRag.Library.Lease
import MeetingRag.Library.Text
import MeetingRag.Domain.Models
import MeetingRag.Domain.Queue
import MeetingRag.Domain.Policies
import MeetingRag.Queue.Repository
import MeetingRag.Queue.Steps
import MeetingRag.Queue.Runs
import MeetingRag.Queue.Invariant
import MeetingRag.Queue.Fencing
import MeetingRag.Queue.Refinement
import MeetingRag.Activity.Policy
import MeetingRag.Activity.Service
import MeetingRag.Session.Tables
import MeetingRag.Session.Service
import MeetingRag.Generation.Repository
import MeetingRag.Generation.Worker
import MeetingRag.Queue.Progress
import MeetingRag.Generation.Suggestions
import MeetingRag.System.Calls
import MeetingRag.Session.Steps
import MeetingRag.System.Steps
import MeetingRag.System.Wellformed
import MeetingRag.System.Interference
import MeetingRag.System.Aggregate
import MeetingRag.System.Transitions
import MeetingRag.System.Snapshots
import MeetingRag.System.Retry
import MeetingRag.System.Ledger
import MeetingRag.System.Exclusions
import MeetingRag.System.Join
import MeetingRag.Library.Binary64
import MeetingRag.Library.Json
import MeetingRag.Library.JsonText
import MeetingRag.Library.Sha256
import MeetingRag.Ingestion.Normalization
import MeetingRag.Ingestion.Contract
import MeetingRag.Ingestion.Locators
import MeetingRag.Ingestion.Blocks
import MeetingRag.Ingestion.Protocol
import MeetingRag.Ingestion.Ipc
import MeetingRag.Library.JsonOrder
import MeetingRag.Library.JsonRoundTrip
import MeetingRag.Ingestion.Canonical
import MeetingRag.Ingestion.Parsing
import MeetingRag.System.SuggestionPoll
import MeetingRag.Documents.Blocks
import MeetingRag.Documents.Service
import MeetingRag.Documents.RoundTrip
import MeetingRag.Documents.Concurrency
import MeetingRag.System.Documents
import MeetingRag.Documents.Baseline
import MeetingRag.Extraction.Tables
import MeetingRag.Extraction.Submission
import MeetingRag.Extraction.Cells
import MeetingRag.Extraction.Operations
import MeetingRag.Extraction.Runs
import MeetingRag.Extraction.Correspondence
import MeetingRag.Extraction.Requeue
import MeetingRag.Queue.Attempts
import MeetingRag.System.Attempts
import MeetingRag.System.Recovery
import MeetingRag.Extraction.Blobs
import MeetingRag.Ingestion.CanonicalForms
import MeetingRag.Ingestion.Canonicalizers
import MeetingRag.System.RunsAndJobs
import MeetingRag.Generation.Grounding
import MeetingRag.Generation.Contents
import MeetingRag.Generation.Citations
import MeetingRag.Library.Lists
import MeetingRag.Library.Wire
import MeetingRag.Generation.Merging
import MeetingRag.Generation.Readable
import MeetingRag.Library.Url
import MeetingRag.Generation.Research
import MeetingRag.Auth.Login
import MeetingRag.Generation.Context
import MeetingRag.Activity.Lists
import MeetingRag.Activity.Comments
import MeetingRag.Activity.CommentRuns
import MeetingRag.Collaboration.Service
import MeetingRag.Collaboration.Members
import MeetingRag.Documents.Generations
import MeetingRag.Ingestion.XmlParts
import MeetingRag.Editor.Autosave
import MeetingRag.Editor.AutosaveRuns
import MeetingRag.Sidecar.Adapter
import MeetingRag.Sidecar.Agreement
import MeetingRag.Documents.Coverage
import MeetingRag.Documents.Selection
import MeetingRag.Generation.FairMerge
import MeetingRag.Generation.LiveGrounding
import MeetingRag.Generation.Retrieval
import MeetingRag.Documents.Comparison
import MeetingRag.Documents.Symmetry
import MeetingRag.Documents.Proposals
import MeetingRag.Library.Headers
import MeetingRag.Web.Gateway
import MeetingRag.Extraction.Sweeps
import MeetingRag.Documents.Isolation
import MeetingRag.Activity.EventKeys
import MeetingRag.Activity.Metadata
import MeetingRag.Ingestion.Docx
import MeetingRag.Ingestion.DocxText
import MeetingRag.Session.EventKeys
import MeetingRag.Library.Program
import MeetingRag.Lifecycle.Commands
import MeetingRag.Lifecycle.Safety
import MeetingRag.Sidecar.HwpxText
import MeetingRag.Lifecycle.Recovery
import MeetingRag.Ingestion.Pyhwp
import MeetingRag.Editor.Contract
import MeetingRag.Editor.Retry
import MeetingRag.Ingestion.Validators
import MeetingRag.Domain.CloseDecision
import MeetingRag.Extraction.MediaTypes
import MeetingRag.Ingestion.PdfBoxes
import MeetingRag.Library.Procedure
import MeetingRag.Extraction.Atomic
import MeetingRag.Ingestion.CellReferences
import MeetingRag.Ingestion.Xlsx
import MeetingRag.Extraction.Frames
import MeetingRag.Extraction.SessionLimit
import MeetingRag.Extraction.Tombstones
import MeetingRag.Ingestion.XlsxErrors
import MeetingRag.Activity.ProfileInvariant
import MeetingRag.Activity.ProfileRuns
import MeetingRag.Activity.Inbox
import MeetingRag.Extraction.RunnerRuns
import MeetingRag.Documents.ReviewRuns
import MeetingRag.Auth.Sessions
import MeetingRag.Extraction.Downloads
import MeetingRag.Documents.Versions
