import Bsdbridge.L3Agent.Reconcile
import Bsdbridge.Proof.Plumbing

/-!
# What an l3 pass may do

The parts of `l3_agent/reconcile.py`, each with the commands it may issue. The epairs are left to
the caller: an invariant that has something to say about them says it of `ensureEpair`.

The commands of a router are those in its own jail, and the making of the jail. Its route step has
a scope of its own (`RouteScope`), because one invariant is about routing tables and all the others
are not. Names that are not the router's do not occur, so that a scope for one jail excludes every
other by what it contains.
-/

set_option autoImplicit false

namespace Bsdbridge

namespace L3

open Prog Actions

variable {ρ : Type} {cmd : Command (Site ρ)} {pause : Prog (Site ρ) Unit} {s : Scope (Site ρ)}
  {I : Pass (Site ρ) → Prop}

/-- The commands of a router outside its epairs, and what else it may do. -/
structure RouterScope (pause : Prog (Site ρ) Unit) (s : Scope (Site ρ)) (rtr : Router) : Prop where
  files : Files.Changes pause s
  jails : s.jails rtr.jail
  create : s.issues [JAIL, "-c", "name=" ++ rtr.jail, "vnet", "persist", "path=/"]
  ifconfig : ∀ args, s.issues (JEXEC :: rtr.jail :: IFCONFIG :: args)
  sysctl : ∀ args, s.issues (JEXEC :: rtr.jail :: SYSCTL :: args)
  pfctl : ∀ args, s.issues (JEXEC :: rtr.jail :: PFCTL :: args)

/-- The commands of the route step. -/
structure RouteScope (s : Scope (Site ρ)) (rtr : Router) : Prop where
  netstat : ∀ args, s.issues (JEXEC :: rtr.jail :: NETSTAT :: args)
  route : ∀ args, s.issues (JEXEC :: rtr.jail :: ROUTE :: args)

theorem forwarding_within {rtr : Router} (h : RouterScope pause s rtr) :
    Within cmd s (forwarding cmd rtr) :=
  (within_run (h.sysctl _)).bind fun _ => within_actIf (h.sysctl _)

theorem pf_within [Hashlib] {base : String} {rtr : Router} (h : RouterScope pause s rtr) :
    Within cmd s (pf cmd pause base rtr) := by
  unfold pf
  split
  · exact within_stop
  · rename_i text cfgHash _
    have hwrite : Within cmd s (writePf pause rtr text cfgHash) := by
      refine (Files.writeIfChanged_within h.files).bind fun dirty => ?_
      split
      · exact within_note
      · exact within_pure
    exact hwrite.bind fun _ => (within_run (h.pfctl _)).bind fun _ =>
      (within_actIf (h.pfctl _)).bind fun _ => (within_run (h.pfctl _)).bind fun _ =>
        within_actIf (h.pfctl _)

theorem routes_within {rtr : Router} (h : RouteScope s rtr) : Within cmd s (routes cmd rtr) := by
  unfold routes
  refine (within_run (h.netstat _)).bind fun r => ?_
  split
  · exact within_stop
  · exact (within_forM fun e _ => within_act (h.route _)).bind fun _ =>
      within_forM fun e _ => within_act (h.route _)

theorem portsFrom_keeps (hI : Closed cmd s I) {rtr : Router} (h : RouterScope pause s rtr)
    {ps : List (Port × Bool)} (hepair : ∀ p ∈ ps, Keeps I
      (Jail.ensureEpair cmd rtr.jail p.1.hostIf (Router.jailIf p) p.1.id L3_GROUP)) :
    Keeps I (portsFrom cmd rtr ps) := by
  induction ps with
  | nil => exact keeps_pure
  | cons p rest ih =>
    have hport : Keeps I (port cmd rtr p) := by
      refine (hepair p List.mem_cons_self).bind fun text => ?_
      cases text with
      | none => exact keeps_pure
      | some text =>
        exact (Jail.ensureAddrs_within (h.ifconfig _) (fun _ _ => h.ifconfig _) I hI).bind fun _ =>
          keeps_pure
    exact hport.bind fun _ =>
      (ih fun q hq => hepair q (List.mem_cons_of_mem _ hq)).bind fun _ => keeps_pure

theorem upToPorts_keeps (hI : Closed cmd s I) {rtr : Router} (h : RouterScope pause s rtr)
    (hepair : ∀ p ∈ rtr.ports, Keeps I
      (Jail.ensureEpair cmd rtr.jail p.1.hostIf (Router.jailIf p) p.1.id L3_GROUP)) :
    Keeps I (upToPorts cmd pause rtr) := by
  have hchange : Within cmd s (Files.makedirs pause rtr.id) := Files.change_within h.files _
  refine (hchange I hI).bind fun _ => ?_
  refine (Jail.ensureJail_within h.jails h.create (h.ifconfig _) I hI).bind fun ok => ?_
  split
  · exact (forwarding_within h I hI).bind fun _ =>
      (portsFrom_keeps hI h hepair).bind fun _ => keeps_pure
  · exact keeps_pure

theorem afterPorts_within [Hashlib] {base : String} {rtr : Router} {complete : Bool}
    (h : RouterScope pause s rtr) (hr : RouteScope s rtr) :
    Within cmd s (afterPorts cmd pause base rtr complete) := by
  refine Within.bind ?_ fun _ => pf_within h
  split
  · exact routes_within hr
  · exact within_pure

theorem router_keeps [Hashlib] (hI : Closed cmd s I) {base : String} {rtr : Router}
    (h : RouterScope pause s rtr) (hr : RouteScope s rtr) (hepair : ∀ p ∈ rtr.ports, Keeps I
      (Jail.ensureEpair cmd rtr.jail p.1.hostIf (Router.jailIf p) p.1.id L3_GROUP)) :
    Keeps I (router cmd pause base rtr) := by
  unfold router
  refine (upToPorts_keeps hI h hepair).bind fun complete => ?_
  cases complete with
  | none => exact keeps_pure
  | some complete => exact afterPorts_within h hr I hI

theorem opening_keeps (hI : Closed cmd s I) (hjls : s.issues [JLS, "name"])
    (hgroup : s.issues [IFCONFIG, "-g", L3_GROUP])
    (hset : ∀ t jails hostIfs, I t → I { t with jails, hostIfs }) : Keeps I (opening cmd) := by
  refine (Jail.listJails_within hjls I hI).bind fun jails => ?_
  refine (Jail.listGroup_within hgroup I hI).bind fun hostIfs => ?_
  exact keeps_update fun t ht => hset t _ _ ht

theorem gc_keeps (hI : Closed cmd s I) (hfiles : Files.Changes pause s) {desired : List Router}
    (hcollect : Keeps I (Jail.collect cmd (desiredJails desired) (desiredIfs desired))) :
    Keeps I (gc cmd pause desired) :=
  hcollect.bind fun _ => (Files.removeState_within hfiles : Within cmd s _) I hI

/-! ## Failures stay

A receipt that failed is never taken back, so a pass that ends without failures had none before. -/

/-- All there is to do. -/
def anything : Scope (Site ρ) where
  issues _ := True
  effects _ := True
  jails _ := True
  hostIfs _ := True

theorem anything_router (rtr : Router) : RouterScope pause anything rtr :=
  ⟨fun _ => trivial, trivial, trivial, fun _ => trivial, fun _ => trivial, fun _ => trivial⟩

theorem anything_routes (rtr : Router) : RouteScope (ρ := ρ) anything rtr :=
  ⟨fun _ => trivial, fun _ => trivial⟩

theorem router_failed [Hashlib] {base : String} {rtr : Router} :
    Keeps (fun t => ¬ Clean t) (router cmd pause base rtr) :=
  router_keeps (closed_failed anything) (anything_router rtr) (anything_routes rtr) fun _ _ =>
    Jail.ensureEpair_within ⟨trivial, trivial, trivial, trivial, trivial⟩
      ⟨trivial, fun _ => trivial, fun _ => trivial, fun _ => trivial, trivial⟩ _
      (closed_failed anything)

theorem gc_failed {desired : List Router} :
    Keeps (fun t => ¬ Clean t) (gc cmd pause desired) :=
  gc_keeps (closed_failed anything) (fun _ => trivial)
    (Jail.collect_within (fun _ => trivial) (fun _ => trivial) (fun _ _ => trivial)
      (fun _ _ => trivial) _ (closed_failed anything))

end L3

end Bsdbridge
