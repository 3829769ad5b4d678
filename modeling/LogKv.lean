import LogKv.Client.Address
import LogKv.Client.Arguments
import LogKv.Cluster
import LogKv.Main
import LogKv.Replica.Rehearsed
import LogKv.Server
import LogKv.Proofs.LogFailures
import LogKv.Proofs.MapRefinement
import LogKv.Proofs.AcknowledgedWrites
import LogKv.Proofs.CommandRoundTrip
import LogKv.Proofs.ReplyRoundTrip
import LogKv.Proofs.FramingDecisions
import LogKv.Proofs.EncodedStreams
import LogKv.Proofs.HeldReplies
import LogKv.Proofs.MalformedFrames
import LogKv.Proofs.Conversations
import LogKv.Proofs.CutFrames
import LogKv.Proofs.AlteredFrames
import LogKv.Proofs.OutcomeReadings
import LogKv.Proofs.EchoedNames
import LogKv.Proofs.ReorderedLogs
import LogKv.Proofs.RoutedWrites
import LogKv.Proofs.Redirects
import LogKv.Proofs.GroupIsolation
import LogKv.Proofs.Admission
import LogKv.Proofs.FailingStores
import LogKv.Proofs.FollowedRedirects
import LogKv.Proofs.StreamBudgets
import LogKv.Proofs.StoreCalls
import LogKv.Proofs.LengthFields
