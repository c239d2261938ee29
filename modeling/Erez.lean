import Erez.Lib.OnlineDescent
import Erez.Ebpf.Stickiness
import Erez.Ebpf.Accounting
import Erez.Ebpf.Feedback
import Erez.Ebpf.Interleaving
import Erez.Daemon.Agreement
import Erez.Daemon.Convergence
import Erez.Daemon.Interference
import Erez.Daemon.Peers
import Erez.Daemon.RibRefinement
import Erez.Daemon.StoredWeights
import Erez.Daemon.UpdateValidation
import Erez.Daemon.Sessions
import Erez.Daemon.SlidingWindow
import Erez.Wire.AddPath
import Erez.Daemon.NlriCodec
import Erez.Daemon.PrefixIdentity
import Erez.Daemon.Persistence
import Erez.Daemon.StepDirection
import Erez.Daemon.Projection
import Erez.Daemon.Rounding
import Erez.Ebpf.Checksum
import Erez.Ebpf.Untouched
import Erez.Ebpf.Tunnel
import Erez.Ebpf.AllOrNothing
import Erez.Ebpf.Tickets
import Erez.Ebpf.CostUnits
import Erez.Speaker.Collision
import Erez.Speaker.Announcement
import Erez.Speaker.Dialing
import Erez.Speaker.HoldTimer
import Erez.Speaker.Establishment
import Erez.Speaker.CapabilityCodec
import Erez.Speaker.OpenCodec
import Erez.Speaker.MessageCodec
import Erez.Speaker.Codec
