import ConsumerGroups.Canned
import ConsumerGroups.Progress.Json
import ConsumerGroups.Settings.Json
import ConsumerGroups.Simulated.Session
import ConsumerGroups.Proofs.Results
import ConsumerGroups.Proofs.Timed
import ConsumerGroups.Proofs.Range.Firsts
import ConsumerGroups.Proofs.Range.Share
import ConsumerGroups.Proofs.Range.Leaders
import ConsumerGroups.Proofs.Range.Hearing
import ConsumerGroups.Proofs.Range.Rows
import ConsumerGroups.Proofs.Range.Survey
import ConsumerGroups.Proofs.Canned.Noting
import ConsumerGroups.Proofs.Canned.Survey
import ConsumerGroups.Proofs.Canned.Progress
import ConsumerGroups.Proofs.Keeping
import ConsumerGroups.Proofs.Acknowledgement
import ConsumerGroups.Proofs.Simulated.Queries
import ConsumerGroups.Proofs.Simulated.Ranges
import ConsumerGroups.Proofs.Simulated.Reading
import ConsumerGroups.Proofs.Simulated.Storing
import ConsumerGroups.Proofs.Simulated.Changes
import ConsumerGroups.Proofs.Simulated.Steps
import ConsumerGroups.Proofs.Simulated.Histories
import ConsumerGroups.Proofs.Simulated.Commits
import ConsumerGroups.Proofs.Simulated.Coherence
import ConsumerGroups.Proofs.Text.Decimal
import ConsumerGroups.Proofs.Text.Utf8
import ConsumerGroups.Proofs.Json.Grammar
import ConsumerGroups.Proofs.Json.Lexing
import ConsumerGroups.Proofs.Json.Reading
import ConsumerGroups.Proofs.Json.Printing
import ConsumerGroups.Proofs.Json.Fields
import ConsumerGroups.Proofs.Settings
import ConsumerGroups.Proofs.Registry.Replies
import ConsumerGroups.Proofs.Registry.Paths
import ConsumerGroups.Proofs.Simulated.Tree
import ConsumerGroups.Proofs.Simulated.Chronicle
import ConsumerGroups.Proofs.Ownership.Claims
import ConsumerGroups.Proofs.Ownership.Scan
import ConsumerGroups.Proofs.Ownership.Agreement
import ConsumerGroups.Proofs.Ownership.Ledger
import ConsumerGroups.Proofs.Sharing.Room
import ConsumerGroups.Proofs.Sharing.Books
import ConsumerGroups.Proofs.Sharing.Lock
import ConsumerGroups.Proofs.Sharing.Attempts
import ConsumerGroups.Proofs.Sharing.Visits
import ConsumerGroups.Proofs.Sharing.Safety
import ConsumerGroups.Proofs.Recording
import ConsumerGroups.Proofs.Failures.Blame
import ConsumerGroups.Proofs.Failures.Accounts
import ConsumerGroups.Proofs.Failures.Fanout
import ConsumerGroups.Proofs.Failures.ClusterErrands
import ConsumerGroups.Proofs.Failures.Scans
import ConsumerGroups.Proofs.Failures.LinkedErrands
import ConsumerGroups.Proofs.Failures.Taxonomy
import ConsumerGroups.Proofs.Ownership.Course
import ConsumerGroups.Proofs.Canned.Earliest
import ConsumerGroups.Proofs.Polling
import ConsumerGroups.Proofs.Simulated.Footprints
import ConsumerGroups.Proofs.Threads
import ConsumerGroups.Proofs.Simulated.Costs
import ConsumerGroups.Proofs.Simulated.Calls
import ConsumerGroups.Proofs.Simulated.Independence
import ConsumerGroups.Proofs.Simulated.Uses
import ConsumerGroups.Proofs.Simulated.Company
import ConsumerGroups.Proofs.Simulated.Connections
import ConsumerGroups.Proofs.Simulated.Closing
import ConsumerGroups.Proofs.FetchedMarks
import ConsumerGroups.Proofs.Simulated.Omission
import ConsumerGroups.Proofs.Ownership.Single
import ConsumerGroups.Proofs.Registry.Chroots
import ConsumerGroups.Proofs.Ownership.Rooting
import ConsumerGroups.Proofs.SentBatches
import ConsumerGroups.Proofs.Simulated.Batches
import ConsumerGroups.Proofs.Progress
import ConsumerGroups.Proofs.Layers
import ConsumerGroups.Proofs.Simulated.Exchanges
import ConsumerGroups.Proofs.Message.Concerns
import ConsumerGroups.Proofs.Range.Positions
