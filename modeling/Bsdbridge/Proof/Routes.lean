import Bsdbridge.L3Agent.Reconcile
import Bsdbridge.Lib.Drift
import Bsdbridge.Proof.RouterScope

/-!
# The gateway routes of a router

A pass takes the difference between the routes a jail has and the routes its router wants over
pairs, and deletes by destination. **`routes_exact_iff`** follows the table of one jail through a
whole pass: nothing but its own route step touches it, and that step brings it to the wanted routes
exactly when no destination has one nexthop that stays and one that goes.

The kernel is a parameter with a contract (`RouteKernel`). netstat(1) shows the gateway routes of a
jail, a successful `route add` inserts a pair, a successful `route delete` takes away *every* pair
of its destination, and no other command of an l3 pass changes the table. What a failed command
does is open, which is why the theorem is about passes without failures.

The table is a set of pairs, not a map by destination: a jail may have two default routes, and that
is where the two notions of key come apart. `Lib/Drift` has the set theory of it, with `Mixed` for
the condition.
-/

set_option autoImplicit false

namespace Bsdbridge

namespace L3

open Prog Actions

variable {ρ : Type}

/-! ## 1. Routing tables -/

/-- Gateway routes, as (destination, nexthop). -/
abbrev Table := Finset (String × String)

/-- The commands that may change the routing table of a jail: its route(8), and its removal. -/
def Touches (j : String) (argv : Argv) : Prop :=
  (∃ args, argv = JEXEC :: j :: ROUTE :: args) ∨ argv = [JAIL, "-r", j]

/-- A runner over the routing tables of the jails: netstat(1) shows the table, `route add d g`
inserts a pair, and `route delete d` removes every pair of the destination. A jail that is not
there has the table it will be created with. -/
structure RouteKernel (cmd : Command (Site ρ)) (pause : Prog (Site ρ) Unit)
    (table : ρ → String → Table) : Prop where
  shows : ∀ (j : String) (e : Site ρ), ∃ r e',
    exec (cmd [JEXEC, j, NETSTAT, "-rn", "-f", "inet"]) e = (some r, e') ∧ r.ok = true ∧
      parseRoutes r.out = some (table e.rest j)
  add : ∀ (j x d g : String) (e e' : Site ρ) (r : RunResult),
    Router.normalizeDestination x = some d →
      exec (cmd [JEXEC, j, ROUTE, "-n", "add", x, g]) e = (some r, e') → r.ok = true →
        table e'.rest j = insert (d, g) (table e.rest j)
  delete : ∀ (j x d : String) (e e' : Site ρ) (r : RunResult),
    Router.normalizeDestination x = some d →
      exec (cmd [JEXEC, j, ROUTE, "-n", "delete", x]) e = (some r, e') → r.ok = true →
        table e'.rest j = Drift.deleteKey (table e.rest j) d
  other : ∀ (j : String) (argv : Argv) (e : Site ρ), ¬ Touches j argv →
    table (exec (cmd argv) e).2.rest j = table e.rest j
  pause : ∀ (j : String) (e : Site ρ), table (exec pause e).2.rest j = table e.rest j

/-- A canonical destination is what route(8) takes it for. -/
theorem normalizeDestination_routeArg {d : String} (h : Router.Canonical d) :
    Router.normalizeDestination (routeArg d) = some d := by
  unfold routeArg
  split
  · rename_i hd
    rw [hd]
    rfl
  · exact h

theorem canonical_of_parseRoutes {text d g : String} {T : Table} (h : parseRoutes text = some T)
    (hm : (d, g) ∈ T) : Router.Canonical d := by
  unfold parseRoutes at h
  obtain ⟨l, hl, rfl⟩ := Option.map_eq_some_iff.mp h
  obtain ⟨e, -, he⟩ := Option.exists_of_mem_mapM hl (List.mem_toFinset.mp hm)
  obtain ⟨d', hd', heq⟩ := Option.map_eq_some_iff.mp he
  obtain ⟨rfl, -⟩ := Prod.mk.inj heq
  exact Router.canonical_of_normalizeDestination hd'

variable {cmd : Command (Site ρ)} {pause : Prog (Site ρ) Unit} {table : ρ → String → Table}

/-! ## 2. The route step -/

theorem deleteRoutes_table (m : RouteKernel cmd pause table) {rtr : Router}
    {l : List (Lex (String × String))} (hcan : ∀ e ∈ l, Router.Canonical (ofLex e).1)
    {t t' : Pass (Site ρ)} (hrun : exec (deleteRoutes cmd rtr l) t = (some (), t'))
    (hclean : Clean t') :
    Clean t ∧ table t'.env.rest rtr.jail =
      l.foldl (fun T e => Drift.deleteKey T (ofLex e).1) (table t.env.rest rtr.jail) := by
  refine forM_fold_of_some (o := fun t => table t.env.rest rtr.jail)
    (fun e he t t' hact hc => ?_) hrun hclean
  obtain ⟨r, e', hcmd, hok, rfl⟩ := act_clean hact hc
  refine ⟨fun r' hr' => hc r' (List.mem_append_left _ hr'), ?_⟩
  exact m.delete rtr.jail _ _ _ _ r (normalizeDestination_routeArg (hcan e he)) hcmd hok

theorem addRoutes_table (m : RouteKernel cmd pause table) {rtr : Router}
    {l : List (Lex (String × String))} (hcan : ∀ e ∈ l, Router.Canonical (ofLex e).1)
    {t t' : Pass (Site ρ)} (hrun : exec (addRoutes cmd rtr l) t = (some (), t'))
    (hclean : Clean t') :
    Clean t ∧ table t'.env.rest rtr.jail =
      l.foldl (fun T e => insert (ofLex e) T) (table t.env.rest rtr.jail) := by
  refine forM_fold_of_some (o := fun t => table t.env.rest rtr.jail)
    (fun e he t t' hact hc => ?_) hrun hclean
  obtain ⟨r, e', hcmd, hok, rfl⟩ := act_clean hact hc
  refine ⟨fun r' hr' => hc r' (List.mem_append_left _ hr'), ?_⟩
  exact m.add rtr.jail _ _ _ _ _ r (normalizeDestination_routeArg (hcan e he)) hcmd hok

/-- The table after the route step. -/
theorem routes_table (m : RouteKernel cmd pause table) {rtr : Router} {t t' : Pass (Site ρ)}
    (hrun : exec (routes cmd rtr) t = (some (), t')) (hclean : Clean t') (e : String × String) :
    e ∈ table t'.env.rest rtr.jail ↔
      (e ∈ table t.env.rest rtr.jail ∧
        ∀ s ∈ table t.env.rest rtr.jail \ rtr.gatewayRoutes, e.1 ≠ s.1) ∨
      e ∈ rtr.gatewayRoutes \ table t.env.rest rtr.jail := by
  obtain ⟨r, env, hcmd, hok, hparse⟩ := m.shows rtr.jail t.env
  have hkept : table env.rest rtr.jail = table t.env.rest rtr.jail := by
    have hother := m.other rtr.jail [JEXEC, rtr.jail, NETSTAT, "-rn", "-f", "inet"] t.env (by
      rintro (⟨args, h⟩ | h)
      · exact absurd (List.cons.inj (List.cons.inj (List.cons.inj h).2).2).1 (by decide)
      · exact absurd (congrArg List.length h) (by simp))
    rw [hcmd] at hother
    exact hother
  -- from here on the table read is only a set of routes: deletes of the stale, then adds
  generalize table t.env.rest rtr.jail = T at *
  unfold routes at hrun
  rw [exec_bind, exec_run, hcmd] at hrun
  dsimp only at hrun
  rw [if_pos hok, hparse] at hrun
  dsimp only at hrun
  obtain ⟨_, t₁, hdel, hadd⟩ := exec_bind_some.mp hrun
  obtain ⟨hclean₁, htable'⟩ := addRoutes_table m (fun e he => by
    simp only [mem_sortedSet, Finset.mem_image, Finset.mem_sdiff] at he
    obtain ⟨⟨d, g⟩, ⟨hm, -⟩, rfl⟩ := he
    exact Router.canonical_gatewayRoutes hm) hadd hclean
  obtain ⟨-, htable₁⟩ := deleteRoutes_table m (fun e he => by
    simp only [mem_sortedSet, Finset.mem_image, Finset.mem_sdiff] at he
    obtain ⟨⟨d, g⟩, ⟨hm, -⟩, rfl⟩ := he
    exact canonical_of_parseRoutes hparse hm) hdel hclean₁
  have hstale : (∀ a ∈ sortedSet ((T \ rtr.gatewayRoutes).image toLex), e.1 ≠ (ofLex a).1) ↔
      ∀ s ∈ T \ rtr.gatewayRoutes, e.1 ≠ s.1 := by
    simp only [mem_sortedSet, Finset.forall_mem_image]
    rfl
  have hmissing : (∃ a ∈ sortedSet ((rtr.gatewayRoutes \ T).image toLex), ofLex a = e) ↔
      e ∈ rtr.gatewayRoutes \ T := by
    simp only [mem_sortedSet, Finset.exists_mem_image]
    exact exists_eq_right
  rw [htable', htable₁, hkept, Drift.mem_foldl_insert,
    Drift.mem_foldl_deleteKey (f := fun a : Lex (String × String) => (ofLex a).1), hstale,
    hmissing]

/-! ## 3. Everything else

An l3 pass has many parts and one of them is about routes. `untouched` is what all the others
have in common, as a scope of commands, so the frame is proved once. -/

/-- All that leaves the table of a jail alone. -/
def untouched (pause : Prog (Site ρ) Unit) (j : String) : Scope (Site ρ) where
  issues argv := ¬ Touches j argv
  effects p := ∃ f : Disk → Disk, p = do pause; update fun e : Site ρ => { e with disk := f e.disk }
  jails _ := True
  hostIfs _ := True

theorem untouched_closed (m : RouteKernel cmd pause table) (j : String) (T : Table) :
    Closed cmd (untouched pause j) fun t => table t.env.rest j = T where
  run := by
    intro argv hargv
    refine keeps_iff.mpr fun t ht => ?_
    rw [exec_run]
    show table (exec (cmd argv) t.env).2.rest j = T
    rw [m.other j argv t.env hargv]
    exact ht
  effect := by
    rintro p ⟨f, rfl⟩
    refine keeps_iff.mpr fun t ht => ?_
    have hpause := m.pause j t.env
    rw [exec_zoom, exec_bind]
    generalize exec pause t.env = r at hpause ⊢
    obtain ⟨u, e⟩ := r
    cases u with
    | none => exact hpause.trans ht
    | some u => exact hpause.trans ht
  record := fun _ _ ht => ht
  addJail := fun _ _ _ ht => ht
  addHostIf := fun _ _ _ ht => ht
  discardHostIf := fun _ _ ht => ht

theorem not_touches_of_head {j c : String} {args : Argv} (hexec : c ≠ JEXEC) (hjail : c ≠ JAIL) :
    ¬ Touches j (c :: args) := by
  rintro (⟨_, h⟩ | h)
  · exact hexec (List.cons.inj h).1
  · exact hjail (List.cons.inj h).1

theorem not_touches_inside {j j' c : String} {args : Argv} (h : j' ≠ j ∨ c ≠ ROUTE) :
    ¬ Touches j (JEXEC :: j' :: c :: args) := by
  rintro (⟨_, heq⟩ | heq)
  · obtain ⟨-, heq⟩ := List.cons.inj heq
    obtain ⟨hj, heq⟩ := List.cons.inj heq
    obtain ⟨hc, -⟩ := List.cons.inj heq
    exact h.elim (fun hne => hne hj) fun hne => hne hc
  · exact absurd (List.cons.inj heq).1 (by decide)

theorem not_touches_ifconfig {j : String} {args : Argv} : ¬ Touches j (IFCONFIG :: args) :=
  not_touches_of_head (by decide) (by decide)

theorem untouched_router (j : String) (rtr : Router) :
    RouterScope pause (untouched pause j) rtr where
  files := fun f => ⟨f, rfl⟩
  jails := trivial
  create := by
    rintro (⟨_, h⟩ | h)
    · exact absurd (List.cons.inj h).1 (by decide)
    · exact absurd (congrArg List.length h) (by simp)
  ifconfig := fun _ => not_touches_inside (Or.inr (by decide))
  sysctl := fun _ => not_touches_inside (Or.inr (by decide))
  pfctl := fun _ => not_touches_inside (Or.inr (by decide))

theorem untouched_epair (j jail hostIf jailIf portId group : String) :
    Within cmd (untouched pause j) (Jail.ensureEpair cmd jail hostIf jailIf portId group) := by
  refine Jail.ensureEpair_within ⟨?_, ?_, ?_, ?_, ?_⟩ ⟨?_, ?_, ?_, ?_, trivial⟩
  · exact not_touches_ifconfig
  · exact not_touches_inside (Or.inr (by decide))
  · exact not_touches_ifconfig
  · exact not_touches_ifconfig
  · exact not_touches_inside (Or.inr (by decide))
  · exact not_touches_ifconfig
  · exact fun _ => not_touches_ifconfig
  · exact fun _ => not_touches_ifconfig
  · exact fun _ => not_touches_inside (Or.inr (by decide))

theorem untouched_collect {j : String} {desiredJails desiredIfs : Finset String}
    (hj : j ∈ desiredJails) :
    Within cmd (untouched pause j) (Jail.collect cmd desiredJails desiredIfs) := by
  refine Jail.collect_within ?_ ?_ ?_ ?_
  · exact fun _ => not_touches_of_head (by decide) (by decide)
  · exact fun _ => not_touches_of_head (by decide) (by decide)
  · exact fun _ _ => not_touches_ifconfig
  · intro j' hj' h
    rcases h with ⟨_, h⟩ | h
    · exact absurd (List.cons.inj h).1 (by decide)
    · obtain ⟨-, h⟩ := List.cons.inj h
      obtain ⟨-, h⟩ := List.cons.inj h
      exact hj' ((List.cons.inj h).1 ▸ hj)

/-- Another router leaves the table alone. -/
theorem router_table [Hashlib] (m : RouteKernel cmd pause table) {base j : String} {rtr : Router}
    (hne : rtr.jail ≠ j) (T : Table) :
    Keeps (fun t => table t.env.rest j = T) (router cmd pause base rtr) := by
  refine router_keeps (untouched_closed m j T) (untouched_router j rtr) ⟨?_, ?_⟩ fun p _ => ?_
  · exact fun _ => not_touches_inside (Or.inl hne)
  · exact fun _ => not_touches_inside (Or.inl hne)
  · exact untouched_epair j _ _ _ _ _ _ (untouched_closed m j T)

/-! ## 4. The pass

Other routers of the pass have other jails; before the step of this router and after it the table
is left alone. -/

/-- A pass that comes to a router finds its jail and every one of its ports complete. -/
def Complete [Hashlib] (cmd : Command (Site ρ)) (pause : Prog (Site ρ) Unit) (base : String)
    (pre : List Router) (rtr : Router) (e : Site ρ) : Prop :=
  (exec (do opening cmd; pre.forM (router cmd pause base); upToPorts cmd pause rtr)
    { env := e }).1 = some (some true)

instance [Hashlib] (base : String) (pre : List Router) (rtr : Router) (e : Site ρ) :
    Decidable (Complete cmd pause base pre rtr e) :=
  inferInstanceAs (Decidable (_ = some (some true)))

/-- **In a pass without failures that completes the ports of a router, the routes of its jail
become exactly the wanted ones if and only if no destination had a nexthop that stays and one that
goes.** -/
theorem routes_exact_iff [Hashlib] (m : RouteKernel cmd pause table) {base : String}
    {desired pre post : List Router} {rtr : Router} {e : Site ρ} {t' : Pass (Site ρ)}
    (hdesired : desired = pre ++ rtr :: post) (hjails : ∀ r ∈ pre ++ post, r.jail ≠ rtr.jail)
    (hcomplete : Complete cmd pause base pre rtr e)
    (hrun : exec (reconcile cmd pause base desired) { env := e } = (some (), t'))
    (hclean : Clean t') :
    table t'.env.rest rtr.jail = rtr.gatewayRoutes ↔
      ¬ Drift.Mixed (table e.rest rtr.jail) rtr.gatewayRoutes := by
  subst hdesired
  have hkeep := untouched_closed m rtr.jail (table e.rest rtr.jail)
  have hother : ∀ r ∈ pre ++ post, ∀ T,
      Keeps (fun t => table t.env.rest rtr.jail = T) (router cmd pause base r) :=
    fun r hr T => router_table m (hjails r hr) T
  obtain ⟨_, t₀, hopen, hrun⟩ := exec_bind_some.mp hrun
  obtain ⟨_, t₄, hloop, hgc⟩ := exec_bind_some.mp hrun
  obtain ⟨t₁, hpre, hloop⟩ := exec_forM_append_some.mp hloop
  obtain ⟨_, t₃, hrouter, hpost⟩ := exec_bind_some.mp hloop
  -- the pass up to the route step leaves the table alone
  have h₀ : table t₀.env.rest rtr.jail = table e.rest rtr.jail :=
    (opening_keeps hkeep (not_touches_of_head (by decide) (by decide)) not_touches_ifconfig
      fun _ _ _ ht => ht).of_some rfl hopen
  have h₁ : table t₁.env.rest rtr.jail = table e.rest rtr.jail :=
    Keeps.of_some (keeps_forM fun r hr => hother r (List.mem_append_left _ hr) _) h₀ hpre
  obtain ⟨complete, t₂, hports, hafter⟩ := exec_bind_some.mp hrouter
  have h₂ : table t₂.env.rest rtr.jail = table e.rest rtr.jail :=
    (upToPorts_keeps hkeep (untouched_router _ rtr) fun p _ =>
      untouched_epair _ _ _ _ _ _ _ hkeep).of_some h₁ hports
  have htrue : complete = some true := by
    unfold Complete at hcomplete
    rw [exec_bind, hopen] at hcomplete
    dsimp only at hcomplete
    rw [exec_bind, hpre] at hcomplete
    dsimp only at hcomplete
    rw [hports] at hcomplete
    exact Option.some.inj hcomplete
  subst htrue
  obtain ⟨_, s, hroutes, hpf⟩ := exec_bind_some.mp hafter
  -- and so does the rest of it
  have hs : table t'.env.rest rtr.jail = table s.env.rest rtr.jail := by
    have hrest := untouched_closed m rtr.jail (table s.env.rest rtr.jail)
    have h₃ : table t₃.env.rest rtr.jail = table s.env.rest rtr.jail :=
      (pf_within (untouched_router _ rtr) _ hrest).of_some rfl hpf
    have h₄ : table t₄.env.rest rtr.jail = table s.env.rest rtr.jail :=
      Keeps.of_some (keeps_forM fun r hr => hother r (List.mem_append_right _ hr) _) h₃ hpost
    refine (gc_keeps hrest (fun f => ⟨f, rfl⟩) (untouched_collect ?_ _ hrest)).of_some h₄ hgc
    exact List.mem_toFinset.mpr (List.mem_map.mpr ⟨rtr, by simp, rfl⟩)
  have hclean₁ : Clean s := by
    have hclean₄ := clean_of_keeps gc_failed hgc hclean
    have hclean₃ := clean_of_keeps (keeps_forM fun r _ => router_failed) hpost hclean₄
    exact clean_of_keeps (pf_within (anything_router rtr) _ (closed_failed anything)) hpf hclean₃
  rw [hs]
  refine Drift.delete_add_eq_iff fun p => ?_
  have htable := routes_table m hroutes hclean₁ p
  rw [h₂] at htable
  exact htable

/-! ## 5. One such kernel

Two runs on one jail: a stale destination that goes while a new one comes, and two default routes
of which one is wanted. -/

/-- The tables of one jail in the two runs below. -/
inductive Sample
  | double
  | stale
  | empty
  | fixed

namespace Sample

def routes : Sample → Table
  | double => {("0.0.0.0/0", "203.0.113.1"), ("0.0.0.0/0", "203.0.113.2")}
  | stale => {("192.168.7.0/24", "10.0.0.7")}
  | empty => ∅
  | fixed => {("0.0.0.0/0", "203.0.113.1")}

def text : Sample → String
  | double => "default 203.0.113.1 UGS qg-1\ndefault 203.0.113.2 UGS qg-1\n"
  | stale => "192.168.7.0/24 10.0.0.7 UGS qr-2\n"
  | empty => ""
  | fixed => "default 203.0.113.1 UGS qg-1\n"

theorem parseRoutes_text (st : Sample) : parseRoutes st.text = some st.routes := by
  cases st <;> decide +kernel

/-- The jail of router `1`. -/
def here : String := "qrouter-1"

/-- The table of every jail. -/
def tables (st : Sample) (j : String) : Table := if j = here then st.routes else ∅

/-- The route(8) of the two runs; `none` is a refusal. -/
def route : Sample → Argv → Option Sample
  | double, ["delete", "default"] => some empty
  | stale, ["delete", "192.168.7.0/24"] => some empty
  | empty, ["add", "default", "203.0.113.1"] => some fixed
  | _, _ => none

/-- What a command answers, by its first three words and the rest. -/
def answer (a j b : String) (rest : Argv) (e : Site Sample) : Option RunResult × Site Sample :=
  if a = JEXEC ∧ b = ROUTE then
    match if j = here then e.rest.route rest.tail else none with
    | some st => (some { rc := .code 0 }, { e with rest := st })
    | none => (some { rc := .code 1 }, e)
  else if a = JEXEC ∧ j = here ∧ b = NETSTAT then
    (some { rc := .code 0, out := e.rest.text }, e)
  else (some { rc := .code 0 }, e)

/-- A runner whose every other command answers well. -/
def runner : Command (Site Sample) := fun argv => OptionT.mk fun e =>
  match argv with
  | a :: j :: b :: rest => answer a j b rest e
  | _ => (some { rc := .code 0 }, e)

theorem route_table {st st' : Sample} {args : Argv} (h : st.route args = some st') :
    (∃ x, args = ["delete", x] ∧ ∀ d, Router.normalizeDestination x = some d →
      st'.routes = Drift.deleteKey st.routes d) ∨
    ∃ x g, args = ["add", x, g] ∧ ∀ d, Router.normalizeDestination x = some d →
      st'.routes = insert (d, g) st.routes := by
  have hdefault : Router.normalizeDestination "default" = some "0.0.0.0/0" := rfl
  unfold route at h
  split at h
  · obtain rfl := Option.some.inj h
    refine Or.inl ⟨_, rfl, fun d hd => ?_⟩
    obtain rfl := Option.some.inj (hdefault.symm.trans hd)
    decide +kernel
  · obtain rfl := Option.some.inj h
    have hstale : Router.normalizeDestination "192.168.7.0/24" = some "192.168.7.0/24" := by
      decide +kernel
    refine Or.inl ⟨_, rfl, fun d hd => ?_⟩
    obtain rfl := Option.some.inj (hstale.symm.trans hd)
    decide +kernel
  · obtain rfl := Option.some.inj h
    refine Or.inr ⟨_, _, rfl, fun d hd => ?_⟩
    obtain rfl := Option.some.inj (hdefault.symm.trans hd)
    decide +kernel
  · exact absurd h (by simp)

theorem exec_route {j : String} {args : Argv} {e e' : Site Sample} {r : RunResult}
    (h : exec (runner (JEXEC :: j :: ROUTE :: args)) e = (some r, e')) (hok : r.ok = true) :
    j = here ∧ e.rest.route args.tail = some e'.rest := by
  change answer JEXEC j ROUTE args e = (some r, e') at h
  unfold answer at h
  rw [if_pos ⟨rfl, rfl⟩] at h
  cases hst : (if j = here then e.rest.route args.tail else none) with
  | none =>
    rw [hst] at h
    obtain ⟨hr, -⟩ := Prod.mk.inj h
    obtain rfl := Option.some.inj hr
    exact absurd hok (by decide)
  | some st =>
    rw [hst] at h
    obtain ⟨-, rfl⟩ := Prod.mk.inj h
    split at hst
    · exact ⟨‹_›, hst⟩
    · exact absurd hst (by simp)

theorem runner_routeKernel : RouteKernel runner (pure ()) tables where
  shows := by
    intro j e
    by_cases hj : j = here
    · subst hj
      exact ⟨_, e, rfl, rfl, parseRoutes_text e.rest⟩
    · refine ⟨{ rc := .code 0 }, e, ?_, rfl, ?_⟩
      · show answer JEXEC j NETSTAT ["-rn", "-f", "inet"] e = _
        unfold answer
        rw [if_neg (by decide), if_neg fun h => hj h.2.1]
      · unfold tables
        rw [if_neg hj]
        decide +kernel
  add := by
    intro j x d g e e' r hd hcmd hok
    obtain ⟨rfl, hroute⟩ := exec_route hcmd hok
    rcases route_table hroute with ⟨x', hargs, -⟩ | ⟨x', g', hargs, htable⟩
    · exact absurd (List.cons.inj hargs).1 (by decide)
    · obtain ⟨rfl, rfl⟩ : x = x' ∧ g = g' := by simpa using hargs
      exact htable d hd
  delete := by
    intro j x d e e' r hd hcmd hok
    obtain ⟨rfl, hroute⟩ := exec_route hcmd hok
    rcases route_table hroute with ⟨x', hargs, htable⟩ | ⟨x', g', hargs, -⟩
    · obtain rfl : x = x' := by simpa using hargs
      exact htable d hd
    · exact absurd (List.cons.inj hargs).1 (by decide)
  other := by
    intro j argv e hnot
    match argv with
    | [] => rfl
    | [_] => rfl
    | [_, _] => rfl
    | a :: j' :: b :: rest =>
      show tables (answer a j' b rest e).2.rest j = tables e.rest j
      unfold answer
      split
      · rename_i hroute
        obtain ⟨rfl, rfl⟩ := hroute
        have hne : j' ≠ j := fun h => hnot (Or.inl ⟨rest, by rw [h]⟩)
        cases hst : (if j' = here then e.rest.route rest.tail else none) with
        | none => rfl
        | some st =>
          have hhere : j' = here := by
            by_contra hj'
            rw [if_neg hj'] at hst
            exact absurd hst (by simp)
          unfold tables
          rw [if_neg fun h => hne (hhere.trans h.symm), if_neg fun h => hne (hhere.trans h.symm)]
      · split
        · rfl
        · rfl
  pause := fun _ _ => rfl

/-- A router with a gateway and nothing else. -/
def gateway : Router where
  id := "1"
  gateway := some
    { id := "1", mac := "fa:16:3e:00:00:10", ips := [("203.0.113.10", 24)],
      cidrs := ["203.0.113.0/24"], gatewayIp := some "203.0.113.1" }
  interfaces := []
  floatingIps := []
  routes := []
  canonical := fun _ h => absurd h List.not_mem_nil

end Sample

/-- A pass over the router `1`. -/
def Sample.pass (st : Sample) : Option Unit × Pass (Site Sample) :=
  exec (@reconcile _ Sample.runner (pure ()) ⟨id⟩ "/var/db" [Sample.gateway]) { env := { rest := st } }

theorem Sample.pass_stale : Sample.pass .stale = (some (), (Sample.pass .stale).2) :=
  eq_of_answer (by decide +kernel)

/-- A stale destination goes, and a new one comes. -/
theorem routes_exact_iff_stale :
    Sample.tables (Sample.pass .stale).2.env.rest Sample.gateway.jail =
        Sample.gateway.gatewayRoutes ↔
      ¬ Drift.Mixed (Sample.tables .stale Sample.gateway.jail) Sample.gateway.gatewayRoutes :=
  @routes_exact_iff _ _ _ _ ⟨id⟩ Sample.runner_routeKernel "/var/db" [Sample.gateway] [] []
    Sample.gateway { rest := .stale } (Sample.pass .stale).2 rfl
    (fun _ h => absurd h List.not_mem_nil)
    (by decide +kernel) Sample.pass_stale (by decide +kernel)

/-- Two default routes of which one is wanted: after the pass there is none. -/
theorem kept_route_deleted :
    RouteKernel Sample.runner (pure ()) Sample.tables ∧
      @Complete _ ⟨id⟩ Sample.runner (pure ()) "/var/db" [] Sample.gateway { rest := .double } ∧
      (Sample.pass .double).1 = some () ∧ Clean (Sample.pass .double).2 ∧
      Sample.tables (Sample.pass .double).2.env.rest Sample.gateway.jail ≠
        Sample.gateway.gatewayRoutes := by
  refine ⟨Sample.runner_routeKernel, ?_, ?_, ?_, ?_⟩
  · decide +kernel
  · decide +kernel
  · decide +kernel
  · decide +kernel

end L3

end Bsdbridge
