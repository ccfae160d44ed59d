import Bsdbridge.Proof.Claimed
import Bsdbridge.Proof.Converge
import Bsdbridge.Proof.Precedence
import Bsdbridge.Proof.Once
import Bsdbridge.Proof.Runnable
import Bsdbridge.Proof.Apply
import Bsdbridge.Proof.Announce
import Bsdbridge.Proof.Refused
import Bsdbridge.Proof.Foreign
import Bsdbridge.Proof.Refusal
import Bsdbridge.Proof.Acceptance
import Bsdbridge.Proof.Ports
import Bsdbridge.Proof.Conforms
import Bsdbridge.Proof.ServerView
import Bsdbridge.Proof.Spared
import Bsdbridge.Proof.Lock
import Bsdbridge.Proof.Permits
import Bsdbridge.Proof.Order
import Bsdbridge.L2Agent.Reader
import Bsdbridge.Proof.View
import Bsdbridge.Proof.Partial
import Bsdbridge.Machine
import Bsdbridge.Proof.Retry
import Bsdbridge.Proof.Blocks
import Bsdbridge.Proof.Listing
import Bsdbridge.Proof.States
import Bsdbridge.Host
import Bsdbridge.Jail
import Bsdbridge.DhcpAgent.Reconcile
import Bsdbridge.L3Agent.Agent
import Bsdbridge.L3Agent.Reconcile
import Bsdbridge.Proof.FipReports
import Bsdbridge.Proof.Inets
import Bsdbridge.Proof.RouterScope
import Bsdbridge.Proof.Netstat
import Bsdbridge.Proof.Misses
import Bsdbridge.Proof.Planes
import Bsdbridge.Proof.Readback
import Bsdbridge.Proof.Rendering
import Bsdbridge.Proof.Routes
import Bsdbridge.Lib.Ipv4
import Bsdbridge.L2Agent.Reconcile
import Bsdbridge.Proof.Wired
import Bsdbridge.Proof.Isolation
import Bsdbridge.Proof.Complete
import Bsdbridge.DhcpAgent.Sync
import Bsdbridge.Proof.DhcpPorts
import Bsdbridge.L3Agent.Sync
import Bsdbridge.Proof.RouterFiles
import Bsdbridge.Proof.RouterPf
import Bsdbridge.Proof.RouterRules
import Bsdbridge.Proof.FipRuns
