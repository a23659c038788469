import NtripClient.Handles
import NtripClient.Session.Isolated
import NtripClient.Session.Progress
import NtripClient.Proofs.Session.Moves
import NtripClient.Proofs.Session.Teardown
import NtripClient.Address.Printer
import NtripClient.Proofs.Session.Shutdown
import NtripClient.Proofs.Search
import NtripClient.Proofs.Answer.Advance
import NtripClient.Proofs.Answer.Transcript
import NtripClient.Proofs.Session.Calls
import NtripClient.Proofs.Session.Opening
import NtripClient.Proofs.Session.Exchange
import NtripClient.Proofs.Chunk.Coding
import NtripClient.Proofs.Answer.Chunked
import NtripClient.Proofs.Session.Chunked
import NtripClient.Proofs.Chunk.Decoding
import NtripClient.Proofs.Answer.Whole
import NtripClient.Proofs.Session.Decoding
import NtripClient.Proofs.Session.Answer
import NtripClient.Proofs.Header.Block
import NtripClient.Proofs.Session.Sending
import NtripClient.Proofs.Session.Clock
import NtripClient.Proofs.Session.Closing
import NtripClient.Proofs.Session.Unlimited
import NtripClient.Proofs.Session.Pace
import NtripClient.Proofs.Session.IdleLimit
import NtripClient.Proofs.Session.SlowWrites
import NtripClient.Proofs.Session.Suspension
import NtripClient.Proofs.Answer.Intake
import NtripClient.Proofs.Session.Passage
import NtripClient.Proofs.Session.Intake
import NtripClient.Proofs.Answer.Route
import NtripClient.Proofs.Session.States
import NtripClient.Proofs.Header.RoundTrip
import NtripClient.Proofs.Session.Tally
import NtripClient.Proofs.Session.Headers
import NtripClient.Proofs.Request.Reading
import NtripClient.Proofs.Session.Request
import NtripClient.Proofs.Session.Fallback
import NtripClient.Proofs.Session.Limits
import NtripClient.Session.Select
import NtripClient.Proofs.Session.Selective
import NtripClient.Proofs.Session.Keeping
import NtripClient.Proofs.Session.Dropping
import NtripClient.Proofs.Session.Owner
import NtripClient.Proofs.Session.Timeless
import NtripClient.Proofs.Session.Downlink
import NtripClient.Proofs.Trim
import NtripClient.Proofs.Chunk.Length
import NtripClient.Proofs.Chunk.Grammar
import NtripClient.Proofs.Header.History
import NtripClient.Proofs.StatusLine
import NtripClient.Proofs.Builder
import NtripClient.Proofs.Header.Line
import NtripClient.Proofs.Watchdog
import NtripClient.Proofs.Request.Credentials
import NtripClient.Proofs.Request.Target
