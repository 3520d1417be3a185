import StreamingTemplate.Binary64.Text
import StreamingTemplate.Template.Compact
import StreamingTemplate.Script
import StreamingTemplate.Filter.Text
import StreamingTemplate.Filter.Scripted
import StreamingTemplate.Engine.Scripted
import StreamingTemplate.Engine.Drive
import StreamingTemplate.Settings.Load
import StreamingTemplate.Main
import StreamingTemplate.Proofs.Engine.Settled
import StreamingTemplate.Proofs.Engine.Tree
import StreamingTemplate.Proofs.Engine.Arrival
import StreamingTemplate.Proofs.Filter.Record
import StreamingTemplate.Proofs.Engine.Moment
import StreamingTemplate.Proofs.Engine.Blocks
import StreamingTemplate.Proofs.Engine.Agreement
import StreamingTemplate.Proofs.Engine.Skipping
import StreamingTemplate.Proofs.Engine.Forwarding
import StreamingTemplate.Proofs.Filter.Composition
import StreamingTemplate.Proofs.Engine.Propagation
import StreamingTemplate.Proofs.Engine.RejectedWrite
import StreamingTemplate.Proofs.Engine.Fuel
import StreamingTemplate.Proofs.Engine.Driving
import StreamingTemplate.Proofs.Filter.Quiet
import StreamingTemplate.Proofs.Engine.Stalling
import StreamingTemplate.Proofs.Template.Tagged
import StreamingTemplate.Proofs.Template.Compact
import StreamingTemplate.Proofs.Engine.Finished
import StreamingTemplate.Proofs.Engine.SinkProtocol
import StreamingTemplate.Proofs.CommandLine.Delays
import StreamingTemplate.Proofs.Engine.ChunkBoundaries
import StreamingTemplate.Proofs.Engine.MatchingClose
import StreamingTemplate.Proofs.Engine.Repetition
import StreamingTemplate.Proofs.Engine.AnswerOrder
import StreamingTemplate.Proofs.Engine.Timeouts
import StreamingTemplate.Proofs.Store.Rejection
import StreamingTemplate.Proofs.Store.Waking
import StreamingTemplate.Proofs.Store.Write
import StreamingTemplate.Proofs.Template.PathPlaces
import StreamingTemplate.Proofs.Value.Rendering
import StreamingTemplate.Proofs.PipeWait
import StreamingTemplate.Proofs.Filter.StallDetection
import StreamingTemplate.Proofs.Engine.Defects
import StreamingTemplate.Proofs.Engine.Blame
