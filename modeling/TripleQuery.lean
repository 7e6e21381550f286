import TripleQuery.Session.Run
import TripleQuery.Regex
import TripleQuery.Bindings.Workspace
import TripleQuery.Json.Settings
import TripleQuery.Proofs.Merging.Atoms
import TripleQuery.Proofs.Merging.Classes
import TripleQuery.Proofs.Merging.Filing
import TripleQuery.Proofs.Merging.Finding
import TripleQuery.Proofs.Merging.Following
import TripleQuery.Proofs.Merging.Growth
import TripleQuery.Proofs.Merging.Partition
import TripleQuery.Proofs.Merging.Sameness
import TripleQuery.Proofs.Merging.Store
import TripleQuery.Proofs.Json.Nesting
import TripleQuery.Proofs.Json.Reading
import TripleQuery.Proofs.Json.Terms
import TripleQuery.Proofs.Matching.Answering
import TripleQuery.Proofs.Matching.Drawing
import TripleQuery.Proofs.Matching.Mentioning
import TripleQuery.Proofs.Matching.Extension
import TripleQuery.Proofs.Matching.Planning
import TripleQuery.Proofs.Matching.Unifying
import TripleQuery.Proofs.Matching.Validation
import TripleQuery.Proofs.Joining.Agreement
import TripleQuery.Proofs.Joining.Answers
import TripleQuery.Proofs.Joining.Candidates
import TripleQuery.Proofs.Joining.Clauses
import TripleQuery.Proofs.Joining.Course
import TripleQuery.Proofs.Joining.Pursuit
import TripleQuery.Proofs.Joining.Generality
import TripleQuery.Proofs.Joining.Ground
import TripleQuery.Proofs.Joining.Quotient
import TripleQuery.Proofs.Joining.Reference
import TripleQuery.Proofs.Joining.Reordering
import TripleQuery.Proofs.Joining.Scanning
import TripleQuery.Proofs.Joining.Siblings
import TripleQuery.Proofs.Joining.Unmerged
import TripleQuery.Proofs.Joining.Yields
import TripleQuery.Proofs.Searching.Accounts
import TripleQuery.Proofs.Searching.Attended
import TripleQuery.Proofs.Searching.Attribution
import TripleQuery.Proofs.Searching.Balance
import TripleQuery.Proofs.Searching.Chronicle
import TripleQuery.Proofs.Searching.Confined
import TripleQuery.Proofs.Searching.Dwindling
import TripleQuery.Proofs.Searching.Ending
import TripleQuery.Proofs.Searching.Fixing
import TripleQuery.Proofs.Searching.Forecast
import TripleQuery.Proofs.Searching.Holding
import TripleQuery.Proofs.Searching.Junctions
import TripleQuery.Proofs.Searching.Lasting
import TripleQuery.Proofs.Searching.Ledger
import TripleQuery.Proofs.Searching.Origin
import TripleQuery.Proofs.Searching.Outcome
import TripleQuery.Proofs.Searching.Queueing
import TripleQuery.Proofs.Searching.Reckoning
import TripleQuery.Proofs.Searching.Reports
import TripleQuery.Proofs.Searching.Requesting
import TripleQuery.Proofs.Searching.Restrained
import TripleQuery.Proofs.Searching.Routes
import TripleQuery.Proofs.Searching.Resuming
import TripleQuery.Proofs.Searching.Scene
import TripleQuery.Proofs.Searching.Schedule
import TripleQuery.Proofs.Searching.Sound
import TripleQuery.Proofs.Searching.Sparing
import TripleQuery.Proofs.Searching.Stopped
import TripleQuery.Proofs.Searching.Truth
import TripleQuery.Proofs.Searching.Turn
import TripleQuery.Proofs.Searching.Waning
import TripleQuery.Proofs.Searching.Provenance
import TripleQuery.Proofs.Searching.Owning
import TripleQuery.Proofs.Fetching.History
import TripleQuery.Proofs.Fetching.Ahead
import TripleQuery.Proofs.Fetching.Promises
import TripleQuery.Proofs.Fetching.Requests
import TripleQuery.Proofs.Sessions.Agreeing
import TripleQuery.Proofs.Sessions.Answered
import TripleQuery.Proofs.Sessions.Asking
import TripleQuery.Proofs.Sessions.Bookkeeping
import TripleQuery.Proofs.Sessions.Called
import TripleQuery.Proofs.Sessions.Cancelled
import TripleQuery.Proofs.Sessions.Capped
import TripleQuery.Proofs.Sessions.Collecting
import TripleQuery.Proofs.Sessions.Crawled
import TripleQuery.Proofs.Sessions.Crawling
import TripleQuery.Proofs.Sessions.Deeds
import TripleQuery.Proofs.Sessions.Ending
import TripleQuery.Proofs.Sessions.InFlight
import TripleQuery.Proofs.Sessions.Joined
import TripleQuery.Proofs.Sessions.Limited
import TripleQuery.Proofs.Sessions.Listening
import TripleQuery.Proofs.Sessions.Merged
import TripleQuery.Proofs.Sessions.Moment
import TripleQuery.Proofs.Sessions.Naming
import TripleQuery.Proofs.Sessions.Offstage
import TripleQuery.Proofs.Sessions.Prompt
import TripleQuery.Proofs.Sessions.Reporting
import TripleQuery.Proofs.Sessions.Requesting
import TripleQuery.Proofs.Sessions.Restrained
import TripleQuery.Proofs.Sessions.Resumed
import TripleQuery.Proofs.Sessions.Returning
import TripleQuery.Proofs.Sessions.Soundness
import TripleQuery.Proofs.Sessions.Tame
import TripleQuery.Proofs.Sessions.Toil
import TripleQuery.Proofs.Sessions.Tracking
import TripleQuery.Proofs.Sessions.Underway
import TripleQuery.Proofs.Sessions.Unheeded
import TripleQuery.Proofs.Sessions.Waiting
