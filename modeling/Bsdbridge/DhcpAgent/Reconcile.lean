import Bsdbridge.DhcpAgent.Dnsmasq

/-!
# `dhcp_agent/reconcile.py` — dhcp jails, epairs, files and dnsmasq

One pass over the desired networks, then the collection of what is left over.

For each network: its jail, its epair, its addresses, its two files, and its dnsmasq, which is
started, restarted or reloaded by what has changed. A failure in one of these is a receipt, and the
next network is gone through all the same. Whether a process is alive is asked of the kernel, by
the commands the source uses; the pid file is a file of the disk.
-/

set_option autoImplicit false

namespace Bsdbridge

namespace Dhcp

open Actions Regex

def JAIL_RE : Regex := cat [lit "qdhcp-", times 12 Ifconfig.lowerHex, .atEnd]

/-- `"dnsmasq" in out`. -/
def seemsDnsmasq (out : String) : Bool := decide ("dnsmasq".toList <:+: out.toList)

section

variable {ρ : Type} (cmd : Command (Site ρ)) (pause : Prog (Site ρ) Unit)

/-- The hosts and opts files; whether one of them has changed. -/
def writeFiles (net : DhcpNetwork) : Prog (Pass (Site ρ)) Bool := do
  Files.makedirs pause net.networkId
  let dirtyHosts ← Files.writeIfChanged pause net.networkId "hosts" (Dnsmasq.hostsText net)
  (if dirtyHosts then
    note "WriteHosts" (net.networkId ++ ": " ++ toString net.hosts.length ++ " entries")
  else pure ())
  let dirtyOpts ← Files.writeIfChanged pause net.networkId "opts" (Dnsmasq.optsText net)
  (if dirtyOpts then
    note "WriteOpts" (net.networkId ++ ": " ++ toString net.subnets.length ++ " subnet(s)")
  else pure ())
  pure (dirtyHosts || dirtyOpts)

/-- The jail and its epair; none is the `continue` of either. -/
def plumb (net : DhcpNetwork) : Prog (Pass (Site ρ)) (Option String) := do
  if ← Jail.ensureJail cmd net.jail then
    Jail.ensureEpair cmd net.jail net.dhcpIf DHCP_JAIL_IF net.portId DHCP_GROUP
  else pure none

/-- The pid in the pid file; a zero is as good as none. -/
def readPid (net : DhcpNetwork) : Prog (Pass (Site ρ)) (Option Int) := do
  let text ← Files.read net.networkId "pid"
  pure ((text.bind fun s => Text.readInt (Text.strip s)).filter (· ≠ 0))

/-- Whether the process of the pid file is a dnsmasq, as far as ps(1) tells. -/
def isAlive : Option Int → Prog (Pass (Site ρ)) Bool
  | none => pure false
  | some pid => do
      let r ← run cmd [PS, "-p", toString pid, "-o", "command="]
      pure (r.ok && seemsDnsmasq r.out)

/-- Stop a dnsmasq whose command line is not the wanted one. -/
def stopStale (stale : Bool) (pid : Option Int) : Prog (Pass (Site ρ)) Unit :=
  match stale, pid with
  | true, some pid => act cmd "StopDnsmasq" [KILL, toString pid]
  | _, _ => pure ()

/-- Start a dnsmasq, its command line on record. -/
def startDnsmasq (net : DhcpNetwork) (wanted : Argv) : Prog (Pass (Site ρ)) Unit := do
  let _ ← Files.writeIfChanged pause net.networkId "cmd" (" ".intercalate wanted)
  act cmd "StartDnsmasq" (JEXEC :: net.jail :: wanted)

def reloadDnsmasq (pid : Option Int) : Prog (Pass (Site ρ)) Unit :=
  match pid with
  | some pid => act cmd "ReloadDnsmasq" [KILL, "-HUP", toString pid]
  | none => pure ()

/-- The dnsmasq: restart on a changed argv, HUP on changed files. -/
def serve (base path : String) (net : DhcpNetwork) (dirty : Bool) : Prog (Pass (Site ρ)) Unit :=
  match Dnsmasq.argv net base path with
  | none => Prog.stop
  | some wanted => do
      let stored ← Files.read net.networkId "cmd"
      let pid ← readPid net
      let alive ← isAlive cmd pid
      let stale := alive && stored.getD "" ≠ " ".intercalate wanted
      stopStale cmd stale pid
      if !alive || stale then startDnsmasq cmd pause net wanted
      else if dirty then reloadDnsmasq cmd pid
      else pure ()

/-- One network. -/
def network (base path : String) (net : DhcpNetwork) : Prog (Pass (Site ρ)) Unit := do
  let dirty ← writeFiles pause net
  match ← plumb cmd net with
  | none => pure ()
  | some text => do
      Jail.ensureAddrs cmd net.jail DHCP_JAIL_IF text net.mac net.ips
      serve cmd pause base path net dirty

/-- What is there before the pass. -/
def opening : Prog (Pass (Site ρ)) Unit := do
  let jails ← Jail.listJails cmd JAIL_RE
  let dhcpIfs ← Jail.listGroup cmd DHCP_GROUP
  Prog.update fun t => { t with jails := jails.toFinset, hostIfs := dhcpIfs.toFinset }

def desiredJails (desired : List DhcpNetwork) : Finset String :=
  (desired.map DhcpNetwork.jail).toFinset

def desiredIfs (desired : List DhcpNetwork) : Finset String :=
  (desired.map DhcpNetwork.dhcpIf).toFinset

/-- What nobody desires: processes, then epairs, then jails, then state directories. -/
def gc (desired : List DhcpNetwork) : Prog (Pass (Site ρ)) Unit := do
  Jail.collect cmd (desiredJails desired) (desiredIfs desired)
  Files.removeState pause (desired.map DhcpNetwork.networkId).toFinset

/-- Reconcile the dhcp plane to a list of DhcpNetwork specs. -/
def reconcile (base path : String) (desired : List DhcpNetwork) : Prog (Pass (Site ρ)) Unit := do
  opening cmd
  desired.forM (network cmd pause base path)
  gc cmd pause desired

end

end Dhcp

end Bsdbridge
