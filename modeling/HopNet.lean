import HopNet.Agreement
import HopNet.SignatureReplay
import HopNet.Applicability
import HopNet.PoolUnique
import HopNet.LineageOverlap
import HopNet.LineagePin
import HopNet.HostErrors
import HopNet.HostThresholds
import HopNet.ShellTimers
import HopNet.WalIntegrity
import HopNet.PlacementBalance
import HopNet.Refresh
import HopNet.Sweep
import HopNet.OrphanDelete
import HopNet.BlobSurvival
import HopNet.PutGet
import HopNet.Drive.FeedRuns
import HopNet.Drive.MountDelete
import HopNet.Node.Imports
import HopNet.Node.Jobs
import HopNet.Node.Devices
import HopNet.Reconcile
import HopNet.Registration
import HopNet.Planner
import HopNet.Node.Gallery
import HopNet.Mount.WriteBack
import HopNet.Mount.History
import HopNet.Mount.Recovery
import HopNet.Mount.CachedReads
import HopNet.Snapshot.RoundTrip
import HopNet.Ingress.Audience
import HopNet.SeatingGuards
import HopNet.Watermark
