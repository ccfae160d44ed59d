import Bsdbridge.Proof.DhcpRuns

/-!
# The dhcp ports settle

Against a server that does what it answers, and that nobody else is busy with, one pass that
completes settles the dhcp ports: a served network has a port of this host on exactly its IPv4
subnets, any other has none. From there on a pass asks the server for nothing: it goes the same way
whatever the calls about ports would do (**`ports_settle`**).

The second half is stated without counting calls. `withPorts` replaces the three calls about ports
by any others, and a settled pass comes to the same result with them; it can so have made none.

`Faithful` is the server. A reply shows the networks it has, and each call that returns has done
what it says to the one network it names: a port created on the subnets asked for, a port moved to
them, the ports of a device released. A call that raises may have done anything, but then the pass
does not complete. The ids of networks are distinct in a reply, and the device id of this host's
port is its own.
-/

set_option autoImplicit false

namespace Bsdbridge

namespace Dhcp

open Prog DhcpRpc

open Daemon (below)

/-! ## 1. The server -/

/-- The networks, the ports of one of them changed. -/
def onNetwork (networkId : String) (f : List OwnPort → List OwnPort) (nets : List ActiveNetwork) :
    List ActiveNetwork :=
  nets.map fun net => if net.id = networkId then { net with ports := f net.ports } else net

section

variable {σ : Type} (view : σ → List ActiveNetwork)

/-- A program that leaves the server's networks as they are. -/
def Leaves {α : Type} (p : Prog (Site σ) α) : Prop := ∀ s, view (exec p s).2.rest = view s.rest

/-- A server that has the networks of `view`. A reply shows them, each call about ports that
returns has done to them what it says, and nothing else touches them. -/
structure Faithful (out : Outside σ) : Prop where
  fetch : Leaves view out.plugin.getActiveNetworksInfo
  reply : ∀ s s' r, exec out.plugin.getActiveNetworksInfo s = (some r, s') →
    r.networks = view s.rest
  create : ∀ body s s' answer, exec (out.plugin.createDhcpPort body) s = (some answer, s') →
    ∃ port : OwnPort, answer = some port ∧ port.deviceId = some body.deviceId ∧
      subnetsOf port = body.subnetIds.toFinset ∧
      view s'.rest = onNetwork body.networkId (fun ports => ports ++ [port]) (view s.rest)
  update : ∀ portId body s s' answer,
    exec (out.plugin.updateDhcpPort portId body) s = (some answer, s') →
    ∃ port : OwnPort, answer = some port ∧ subnetsOf port = body.subnetIds.toFinset ∧
      (∀ net ∈ view s.rest, net.id = body.networkId → ∀ p ∈ net.ports, p.id = portId →
        port.deviceId = p.deviceId) ∧
      view s'.rest = onNetwork body.networkId
        (fun ports => ports.map fun p => if p.id = portId then port else p) (view s.rest)
  release : ∀ networkId deviceId s s' u,
    exec (out.plugin.releaseDhcpPort networkId deviceId) s = (some u, s') →
    view s'.rest = onNetwork networkId
      (fun ports => ports.filter fun p => decide (p.deviceId ≠ some deviceId)) (view s.rest)
  ready : ∀ ports, Leaves view (out.plugin.dhcpReadyOnPorts ports)
  cmd : ∀ argv, Leaves view (out.cmd argv)
  pause : Leaves view out.pause

end

/-! ## 2. One port -/

section

variable [Uuid] {conf : Conf}

/-- The dhcp port of a network is as it should be. -/
def Settled (conf : Conf) (net : ActiveNetwork) : Prop :=
  if served net then
    ∃ port, ownPort conf net = some port ∧ fits port (wanted (v4Subnets net.toNetwork)) = true
  else ownPort conf net = none

omit [Uuid] in
theorem nodup_wanted (net : ActiveNetwork) : (wanted (v4Subnets net.toNetwork)).Nodup := by
  have hsub : ((v4Subnets net.toNetwork).map fun s => s.id).Sublist
      (net.subnets.map DhcpRpc.Subnet.id) := (List.filter_sublist (p := _)).map _
  exact (perm_sortedBy _ _).nodup_iff.mpr (hsub.nodup net.distinct)

omit [Uuid] in
/-- A port on the wanted subnets fits. -/
theorem fits_of_subnets {net : ActiveNetwork} {port : OwnPort}
    (h : subnetsOf port = (wanted (v4Subnets net.toNetwork)).toFinset) :
    fits port (wanted (v4Subnets net.toNetwork)) = true := by
  have hsorted : sortedSet (wanted (v4Subnets net.toNetwork)).toFinset =
      wanted (v4Subnets net.toNetwork) :=
    (sortedSet_toFinset (nodup_wanted net)).trans (sortedBy_eq_self (pairwise_sortedBy _ _))
  have hall : (subnetsOf port).filter (fun sid => sid ∈ wanted (v4Subnets net.toNetwork)) =
      subnetsOf port := by
    rw [h]
    exact Finset.filter_true_of_mem fun sid hsid => List.mem_toFinset.mp hsid
  unfold fits
  rw [hall, h, hsorted]
  simp

variable {net : ActiveNetwork} {port port' : OwnPort}

theorem ownPort_created (hnone : ownPort conf net = none)
    (hid : port.deviceId = some (Names.dhcpDeviceId net.id conf.host)) :
    ownPort conf { net with ports := net.ports ++ [port] } = some port := by
  unfold ownPort at hnone ⊢
  rw [List.find?_append, hnone]
  simp [hid]

theorem ownPort_updated (hown : ownPort conf net = some port)
    (hid : port'.deviceId = port.deviceId) :
    ownPort conf { net with ports := net.ports.map fun p => if p.id = port.id then port' else p } =
      some port' := by
  obtain ⟨hp, pre, post, hports, hpre⟩ := List.find?_eq_some_iff_append.mp hown
  have hmine : decide (port'.deviceId = some (Names.dhcpDeviceId net.id conf.host)) = true := by
    rw [hid]
    exact hp
  unfold ownPort
  show List.find? _ (net.ports.map _) = _
  rw [hports]
  clear hports
  induction pre with
  | nil => simp [hmine]
  | cons q rest ih =>
    rw [List.cons_append, List.map_cons]
    split
    · exact List.find?_cons_of_pos hmine
    · have hq := hpre q List.mem_cons_self
      rw [List.find?_cons_of_neg (by simpa using hq)]
      exact ih fun r hr => hpre r (List.mem_cons_of_mem _ hr)

theorem ownPort_released : ownPort conf { net with
      ports := net.ports.filter fun p =>
        decide (p.deviceId ≠ some (Names.dhcpDeviceId net.id conf.host)) } = none := by
  unfold ownPort
  refine List.find?_eq_none.mpr fun p hp => ?_
  have hne := (List.mem_filter.mp hp).2
  simpa using hne

end

/-! ## 3. A pass settles the ports

An induction over the networks of the reply: those gone through are settled, and the others are
as the reply showed them (`Halfway`). -/

section

variable {networkId : String} {f : List OwnPort → List OwnPort} {nets : List ActiveNetwork}

theorem onNetwork_same : onNetwork networkId (fun ports => ports) nets = nets := by
  unfold onNetwork
  simp

theorem map_id_onNetwork : (onNetwork networkId f nets).map ActiveNetwork.id =
    nets.map ActiveNetwork.id := by
  unfold onNetwork
  rw [List.map_map]
  refine List.map_congr_left fun net _ => ?_
  show (if net.id = networkId then { net with ports := f net.ports } else net).id = net.id
  split <;> rfl

theorem mem_onNetwork {net : ActiveNetwork} (hnd : (nets.map ActiveNetwork.id).Nodup)
    (hnet : net ∈ nets) {other : ActiveNetwork} (hother : other ∈ onNetwork net.id f nets) :
    other = { net with ports := f net.ports } ∨ other ∈ nets ∧ other.id ≠ net.id := by
  obtain ⟨n, hn, rfl⟩ := List.mem_map.mp hother
  by_cases hid : n.id = net.id
  · obtain rfl := List.inj_on_of_nodup_map hnd hn hnet hid
    exact .inl (if_pos rfl)
  · rw [if_neg hid]
    exact .inr ⟨hn, hid⟩

theorem onNetwork_other {net : ActiveNetwork} (hnet : net ∈ nets) (hid : net.id ≠ networkId) :
    net ∈ onNetwork networkId f nets := List.mem_map.mpr ⟨net, hnet, if_neg hid⟩

end

section

variable {σ : Type} {out : Outside σ} {view : σ → List ActiveNetwork} {V : List ActiveNetwork}

/-- The server has these networks. -/
def Shows (view : σ → List ActiveNetwork) (V : List ActiveNetwork) (w : World σ) : Prop :=
  view w.rest.outside = V

/-- What a call that returns does to the networks. -/
theorem waits_shows {α : Type} {p : Prog (Site σ) α} {G : α → List ActiveNetwork → Prop}
    (h : ∀ s s' a, view s.rest = V → exec p s = (some a, s') → G a (view s'.rest)) :
    Triple (Shows view V) (waits out p) (fun a w => G a (view w.rest.outside)) fun _ => True := by
  refine Daemon.triple_waits fun w hw => ?_
  rintro _ rfl
  exact ⟨fun a s' hrun => h (below w) s' a hw hrun, fun _ _ => trivial⟩

/-- What is fetched is what the server has. -/
theorem Faithful.shown (h : Faithful view out) {w w' : World σ} {reply : DhcpRpc.Reply}
    (hfetch : exec (waits out out.plugin.getActiveNetworksInfo) w = (some reply, w')) :
    reply.networks = view w.rest.outside := by
  obtain ⟨hanswer, -⟩ := Prod.mk.inj ((Daemon.exec_waits _ w).symm.trans hfetch)
  exact h.reply (below w) _ reply (eq_of_answer hanswer)

theorem leaves_shows {α : Type} {p : Prog (Site σ) α} (h : Leaves view p) :
    Keeps (Shows view V) (waits out p) := Daemon.keeps_waits fun w hw => (h (below w)).trans hw

variable [Uuid] {conf : Conf}

theorem settled_of_port {net : ActiveNetwork} {ports : List OwnPort} {port : OwnPort}
    (hserved : served net = true) (hown : ownPort conf { net with ports } = some port)
    (hfits : fits port (wanted (v4Subnets net.toNetwork)) = true) :
    Settled conf { net with ports } := by
  unfold Settled
  rw [if_pos (show served { net with ports } = true from hserved)]
  exact ⟨port, hown, hfits⟩

theorem settled_of_none {net : ActiveNetwork} {ports : List OwnPort}
    (hserved : served net = false) (hown : ownPort conf { net with ports } = none) :
    Settled conf { net with ports } := by
  unfold Settled
  rw [if_neg (show ¬ served { net with ports } = true by
    rw [show served { net with ports } = false from hserved]
    exact Bool.false_ne_true)]
  exact hown

variable (view V conf) in
/-- One network is settled, and the others are left alone. -/
def Settles (net : ActiveNetwork) (w : World σ) : Prop :=
  ∃ f, view w.rest.outside = onNetwork net.id f V ∧ Settled conf { net with ports := f net.ports }

theorem ensurePort_settles (h : Faithful view out) {net : ActiveNetwork} (hnet : net ∈ V)
    (hserved : served net = true) :
    Triple (Shows view V) (ensurePort out conf net (v4Subnets net.toNetwork))
      (fun _ => Settles view V conf net) fun _ => True := by
  unfold ensurePort
  split
  · rename_i hown
    refine waits_shows (G := fun _ V' => ∃ f, V' = onNetwork net.id f V ∧
      Settled conf { net with ports := f net.ports }) fun s s' answer hs hrun => ?_
    obtain ⟨port, -, hdev, hsub, hview⟩ := h.create _ s s' answer hrun
    rw [hs] at hview
    exact ⟨_, hview, settled_of_port hserved (ownPort_created hown hdev) (fits_of_subnets hsub)⟩
  · rename_i port hown
    split
    · rename_i hfits
      exact triple_pure fun w hw =>
        ⟨fun ports => ports, hw.trans onNetwork_same.symm, settled_of_port hserved hown hfits⟩
    · refine Triple.bind (waits_shows (G := fun _ V' => ∃ f, V' = onNetwork net.id f V ∧
        Settled conf { net with ports := f net.ports }) fun s s' answer hs hrun => ?_) fun _ =>
          triple_pure fun w hw => hw
      obtain ⟨port', -, hsub, hdev, hview⟩ := h.update _ _ s s' answer hrun
      rw [hs] at hview hdev
      have hin : port ∈ net.ports := List.mem_of_find?_eq_some hown
      exact ⟨_, hview, settled_of_port hserved
        (ownPort_updated hown (hdev net hnet rfl port hin rfl)) (fits_of_subnets hsub)⟩

theorem gatherOne_settles (h : Faithful view out) {net : ActiveNetwork} {all : Gathered}
    (hnet : net ∈ V) :
    Triple (Shows view V) (gatherOne out conf net all) (fun _ => Settles view V conf net)
      fun _ => True := by
  unfold gatherOne
  dsimp only
  split
  · rename_i hserved
    have hskip : served net = false := by simpa using hserved
    refine Triple.bind (Q := fun _ => Settles view V conf net) ?_ fun _ =>
      triple_pure fun _ hw => hw
    split
    · refine waits_shows (G := fun _ V' => ∃ f, V' = onNetwork net.id f V ∧
        Settled conf { net with ports := f net.ports }) fun s s' u hs hrun => ?_
      have hview := h.release _ _ s s' u hrun
      rw [hs] at hview
      exact ⟨_, hview, settled_of_none hskip ownPort_released⟩
    · rename_i hown
      have hnone : ownPort conf net = none := by simpa using hown
      exact triple_pure fun w hw =>
        ⟨fun ports => ports, hw.trans onNetwork_same.symm, settled_of_none hskip hnone⟩
  · rename_i hserved
    have hserves : served net = true := by simpa using hserved
    refine Triple.bind (ensurePort_settles h hnet hserves) fun port => ?_
    split
    · exact triple_pure fun _ hw => hw
    · split
      · exact triple_stop fun _ _ => trivial
      · exact triple_pure fun _ hw => hw

/-- What is settled, and what is still to be gone through. -/
structure Halfway (view : σ → List ActiveNetwork) (conf : Conf) (rest : List ActiveNetwork)
    (w : World σ) : Prop where
  apart : ((view w.rest.outside).map ActiveNetwork.id).Nodup
  shown : ∀ net ∈ rest, net ∈ view w.rest.outside
  settled : ∀ net ∈ view w.rest.outside,
    net.id ∈ rest.map ActiveNetwork.id ∨ Settled conf net

/-- Going through a network takes it off what is still to be gone through. -/
theorem Halfway.step {net : ActiveNetwork} {rest : List ActiveNetwork} {w w' : World σ}
    (h : Halfway view conf (net :: rest) w)
    (hnd : ((net :: rest).map ActiveNetwork.id).Nodup)
    (hstep : Settles view (view w.rest.outside) conf net w') : Halfway view conf rest w' := by
  obtain ⟨f, hview, hsettled⟩ := hstep
  have hnet := h.shown net List.mem_cons_self
  rw [List.map_cons, List.nodup_cons] at hnd
  refine ⟨?_, fun other hother => ?_, fun other hother => ?_⟩
  · rw [hview, map_id_onNetwork]
    exact h.apart
  · rw [hview]
    refine onNetwork_other (h.shown other (List.mem_cons_of_mem _ hother)) fun hid => ?_
    exact hnd.1 (hid ▸ List.mem_map_of_mem hother)
  · rw [hview] at hother
    rcases mem_onNetwork h.apart hnet hother with rfl | ⟨hin, hne⟩
    · exact .inr hsettled
    · refine (h.settled other hin).imp_left fun hid => ?_
      rw [List.map_cons] at hid
      exact (List.mem_cons.mp hid).resolve_left hne

theorem gather_settles (h : Faithful view out) {rest : List ActiveNetwork} {all : Gathered}
    (hnd : (rest.map ActiveNetwork.id).Nodup) :
    Triple (Halfway view conf rest) (gather out conf rest all) (fun _ => Halfway view conf [])
      fun _ => True := by
  induction rest generalizing all with
  | nil => exact triple_pure fun _ hw => hw
  | cons net rest ih =>
    refine triple_of_forall fun w hw => ?_
    have hnet := hw.shown net List.mem_cons_self
    refine Triple.bind ((gatherOne_settles h hnet).pre ?_) fun all' => ?_
    · rintro _ rfl
      rfl
    · exact (ih hnd.of_cons).pre fun w' hw' => hw.step hnd hw'

/-! ## 4. A settled pass asks for nothing -/

/-- The same outside, but for the calls about ports. -/
def Outside.withPorts (out : Outside σ)
    (create : CreateBody → Prog (Site σ) (Option OwnPort))
    (update : String → UpdateBody → Prog (Site σ) (Option OwnPort))
    (release : String → String → Prog (Site σ) Unit) : Outside σ :=
  { out with
    plugin :=
      { out.plugin with
        createDhcpPort := create, updateDhcpPort := update, releaseDhcpPort := release } }

variable {create : CreateBody → Prog (Site σ) (Option OwnPort)}
  {update : String → UpdateBody → Prog (Site σ) (Option OwnPort)}
  {release : String → String → Prog (Site σ) Unit}

theorem gatherOne_settled {net : ActiveNetwork} {all : Gathered} (h : Settled conf net) :
    gatherOne (out.withPorts create update release) conf net all = gatherOne out conf net all := by
  unfold Settled at h
  unfold gatherOne
  dsimp only
  split at h
  · rename_i hserved
    obtain ⟨port, hown, hfits⟩ := h
    have hport : ∀ out : Outside σ,
        ensurePort out conf net (v4Subnets net.toNetwork) = pure (some port) := by
      intro out
      unfold ensurePort
      rw [hown]
      exact if_pos hfits
    have hgo : ¬ (!served net) = true := by simp [hserved]
    rw [hport, hport, if_neg hgo, if_neg hgo]
  · rename_i hserved
    have hskip : (!served net) = true := by simpa using hserved
    rw [if_pos hskip, if_pos hskip, h]
    rfl

theorem gather_settled {nets : List ActiveNetwork} {all : Gathered}
    (h : ∀ net ∈ nets, Settled conf net) :
    gather (out.withPorts create update release) conf nets all = gather out conf nets all := by
  induction nets generalizing all with
  | nil => rfl
  | cons net rest ih =>
    unfold gather
    rw [gatherOne_settled (h net List.mem_cons_self)]
    refine congrArg _ (funext fun all' => ?_)
    exact ih fun n hn => h n (List.mem_cons_of_mem _ hn)

/-- A pass over settled networks goes the same way whatever the calls about ports do: it makes
none. -/
theorem sync_settled (h : Faithful view out) {w : World σ}
    (hsettled : ∀ net ∈ view w.rest.outside, Settled conf net) :
    exec (sync (out.withPorts create update release) conf) w = exec (sync out conf) w := by
  have hsame : waits (out.withPorts create update release)
      (out.withPorts create update release).plugin.getActiveNetworksInfo =
        waits out out.plugin.getActiveNetworksInfo := rfl
  unfold sync
  rw [exec_bind, exec_bind, hsame]
  cases hfetch : exec (waits out out.plugin.getActiveNetworksInfo) w with
  | mk answer w' =>
    cases answer with
    | none => rfl
    | some reply =>
      have hreply := h.shown hfetch
      dsimp only
      rw [gather_settled fun net hnet => hsettled net (hreply ▸ hnet)]
      rfl

omit [Uuid] in
/-- What a pass does after it has gone through the networks leaves them as they are. -/
theorem reconciled_shows (h : Faithful view out) {desired : List DhcpNetwork} :
    Keeps (Shows view V) (reconciled out conf desired) := by
  exact Daemon.keeps_reconciled (reconcile_keeps (fun argv => leaves_shows (h.cmd argv)) fun _ =>
    (leaves_shows h.pause).bind fun _ => keeps_update fun _ hw => hw)

omit [Uuid] in
theorem report_shows (h : Faithful view out) {ready : Finset String} :
    Keeps (Shows view V) (report out ready) := by
  unfold report
  refine keeps_look.bind fun known => Keeps.bind ?_ fun _ => keeps_update fun w hw => hw
  split
  · exact keeps_pure
  · exact leaves_shows (h.ready _)

/-- **The dhcp ports settle in one pass.** After a pass that completes, each served network has a
port of this host on exactly its IPv4 subnets, and no other network has one; and as long as the
server's networks stay as they are, a pass makes no call about ports. -/
theorem ports_settle (h : Faithful view out) {w w' : World σ}
    (hrun : exec (sync out conf) w = (some (), w')) :
    (∀ net ∈ view w'.rest.outside, Settled conf net) ∧
      ∀ w'' : World σ, view w''.rest.outside = view w'.rest.outside →
        ∀ create update release,
          exec (sync (out.withPorts create update release) conf) w'' =
            exec (sync out conf) w'' := by
  have hsettled : ∀ net ∈ view w'.rest.outside, Settled conf net := by
    unfold sync at hrun
    obtain ⟨reply, w₁, hfetch, hrun⟩ := exec_bind_some.mp hrun
    obtain ⟨all, w₂, hgather, hrun⟩ := exec_bind_some.mp hrun
    obtain ⟨receipts, w₃, hrec, hrun⟩ := exec_bind_some.mp hrun
    have hshown : view w₁.rest.outside = view w.rest.outside :=
      (leaves_shows h.fetch).of_some (show Shows view (view w.rest.outside) w from rfl) hfetch
    have hreply := h.shown hfetch
    -- at the start every network is still to be gone through, at the end none is
    have hstart : Halfway view conf reply.networks w₁ :=
      { apart := by rw [hshown, ← hreply]; exact reply.apart
        shown := fun net hnet => by rw [hshown, ← hreply]; exact hnet
        settled := fun net hnet => by
          rw [hshown, ← hreply] at hnet
          exact .inl (List.mem_map_of_mem hnet) }
    have hdone := (gather_settles h reply.apart w₁ hstart).1 all w₂ hgather
    have hkept : view w₃.rest.outside = view w₂.rest.outside :=
      (reconciled_shows h).of_some (show Shows view (view w₂.rest.outside) w₂ from rfl) hrec
    -- what follows reports and counts; it makes no port and changes none
    have hend : view w'.rest.outside = view w₃.rest.outside := by
      split at hrun
      · exact absurd (Prod.mk.inj hrun).1 (by simp)
      · obtain ⟨u, w₄, hcount, hrun⟩ := exec_bind_some.mp hrun
        obtain ⟨-, rfl⟩ := Prod.mk.inj hcount
        have hcounted : Shows view (view w₃.rest.outside) { w₃ with
            rest := { w₃.rest with
              memory := { w₃.rest.memory with networkCount := all.desired.length } } } := rfl
        exact (report_shows h).of_some hcounted hrun
    intro net hnet
    rw [hend, hkept] at hnet
    exact (hdone.settled net hnet).resolve_left List.not_mem_nil
  exact ⟨hsettled, fun w'' hview create update release =>
    sync_settled h fun net hnet => hsettled net (hview ▸ hnet)⟩

end

/-! ## 5. A server

A server that does what it is asked, over three networks: one has no dhcp port yet, the port of the
second is on none of its subnets, and the third is down and has a port left over. -/

/-- The networks of a reply, the ports of one of them changed. -/
def changed (r : DhcpRpc.Reply) (networkId : String) (f : List OwnPort → List OwnPort) :
    DhcpRpc.Reply :=
  { networks := onNetwork networkId f r.networks
    apart := by rw [map_id_onNetwork]; exact r.apart }

/-- An address in each of some subnets. -/
def placed (subnetIds : List String) : List FixedIp := subnetIds.map fun sid => ⟨sid, "10.99.0.2"⟩

/-- The port a server makes. -/
def madePort (body : CreateBody) : OwnPort :=
  { id := "dddd0000", deviceOwner := some DEVICE_OWNER_DHCP, deviceId := some body.deviceId
    macAddress := some "fa:16:3e:00:00:01", fixedIps := placed body.subnetIds }

/-- The port a server moves to other subnets. -/
def movedPort (port : OwnPort) (body : UpdateBody) : OwnPort :=
  { port with fixedIps := placed body.subnetIds }

/-- The ports of that id on a network. -/
def portsNamed (r : DhcpRpc.Reply) (networkId portId : String) : List OwnPort :=
  (r.networks.filter fun net => decide (net.id = networkId)).flatMap fun net =>
    net.ports.filter fun p => decide (p.id = portId)

/-- A server that makes the dhcp ports it is asked for, moves those it has, and releases those it
is to release. -/
def madeOutside : Outside DhcpRpc.Reply where
  plugin :=
    { getActiveNetworksInfo := look fun s => s.rest
      createDhcpPort := fun body => do
        update fun s =>
          { s with rest := changed s.rest body.networkId fun ports => ports ++ [madePort body] }
        pure (some (madePort body))
      updateDhcpPort := fun portId body => do
        match ← look fun s => portsNamed s.rest body.networkId portId with
        | [port] =>
            update fun s =>
              { s with
                rest := changed s.rest body.networkId fun ports =>
                  ports.map fun p => if p.id = portId then movedPort port body else p }
            pure (some (movedPort port body))
        | _ => stop
      releaseDhcpPort := fun networkId deviceId => update fun s =>
        { s with
          rest := changed s.rest networkId fun ports =>
            ports.filter fun p => decide (p.deviceId ≠ some deviceId) }
      dhcpReadyOnPorts := fun _ => pure () }
  cmd _ := pure { rc := .code 0 }
  pause := pure ()
  sleep := pure ()
  casts _ := []

theorem subnetsOf_placed {port : OwnPort} {subnetIds : List String}
    (h : port.fixedIps = placed subnetIds) : subnetsOf port = subnetIds.toFinset := by
  unfold subnetsOf placed at *
  rw [h, List.map_map]
  exact congrArg List.toFinset (List.map_id _)

theorem madeOutside_faithful : Faithful DhcpRpc.Reply.networks madeOutside where
  fetch _ := rfl
  reply s s' r hrun := by
    obtain ⟨hr, -⟩ := Prod.mk.inj hrun
    exact congrArg DhcpRpc.Reply.networks (Option.some.inj hr).symm
  create body s s' answer hrun := by
    obtain ⟨hanswer, rfl⟩ := Prod.mk.inj hrun
    exact ⟨madePort body, (Option.some.inj hanswer).symm, rfl, subnetsOf_placed rfl, rfl⟩
  update portId body s s' answer hrun := by
    obtain ⟨ports, s₁, hlook, hrun⟩ := exec_bind_some.mp hrun
    obtain ⟨hports, rfl⟩ := Prod.mk.inj hlook
    obtain rfl := Option.some.inj hports
    split at hrun
    · rename_i port hport
      obtain ⟨hanswer, rfl⟩ := Prod.mk.inj hrun
      refine ⟨movedPort port body, (Option.some.inj hanswer).symm, subnetsOf_placed rfl, ?_, rfl⟩
      intro net hnet hid p hp hpid
      have hin : p ∈ portsNamed s.rest body.networkId portId :=
        List.mem_flatMap.mpr ⟨net, List.mem_filter.mpr ⟨hnet, decide_eq_true hid⟩,
          List.mem_filter.mpr ⟨hp, decide_eq_true hpid⟩⟩
      have hone : portsNamed s.rest body.networkId portId = [port] := hport
      rw [hone] at hin
      obtain rfl := List.mem_singleton.mp hin
      rfl
    · exact absurd (Prod.mk.inj hrun).1 (by simp)
  release networkId deviceId s s' u hrun := by
    obtain ⟨-, rfl⟩ := Prod.mk.inj hrun
    rfl
  ready _ _ := rfl
  cmd _ _ := rfl
  pause _ := rfl

/-- A port of the host on a network, as an earlier pass left it. -/
def leftPort (portId networkId : String) : OwnPort :=
  { id := portId, deviceOwner := some DEVICE_OWNER_DHCP
    deviceId := some (@Names.dhcpDeviceId ⟨id⟩ networkId "testhost")
    macAddress := some "fa:16:3e:00:00:02" }

/-- Its port is on none of its subnets. -/
def strayNet : ActiveNetwork :=
  { id := "2b0c7d1e", subnets := [subnetA], ports := [leftPort "eeee0000" "2b0c7d1e"]
    plain := by decide +kernel
    distinct := sample_distinct }

/-- It is down, and its port is still there. -/
def downNet : ActiveNetwork :=
  { id := "3c1d8e2f", adminStateUp := false, subnets := [subnetA]
    ports := [leftPort "ffff0000" "3c1d8e2f"]
    plain := by decide +kernel
    distinct := sample_distinct }

/-- The first pass against this server. -/
def madePass : Option Unit × World DhcpRpc.Reply :=
  exec (@sync _ madeOutside ⟨id⟩ { host := "testhost", statePath := "/var" })
    (fresh ∅ { networks := [sampleNet, strayNet, downNet], apart := by decide +kernel })

/-- One port is made, one moved and one released, and then nothing is left to ask for. -/
theorem ports_settle_made :
    (madePass.2.rest.outside.networks.map fun net =>
      net.ports.map fun p => (p.id, p.fixedIps.map FixedIp.subnetId)) =
        [[("aaaa0000", ["daa048b5"]), ("dddd0000", ["daa048b5"])], [("eeee0000", ["daa048b5"])],
          []] ∧
    (∀ net ∈ madePass.2.rest.outside.networks,
      @Settled ⟨id⟩ { host := "testhost", statePath := "/var" } net) ∧
    ∀ w'' : World DhcpRpc.Reply, w''.rest.outside.networks = madePass.2.rest.outside.networks →
      ∀ create update release,
        exec (@sync _ (madeOutside.withPorts create update release) ⟨id⟩
          { host := "testhost", statePath := "/var" }) w'' =
        exec (@sync _ madeOutside ⟨id⟩ { host := "testhost", statePath := "/var" }) w'' := by
  have hdone : madePass.1 = some () := by decide +kernel
  exact ⟨by decide +kernel, @ports_settle _ madeOutside DhcpRpc.Reply.networks ⟨id⟩ _
    madeOutside_faithful _ madePass.2 (eq_of_answer hdone)⟩

end Dhcp

end Bsdbridge
