import Bsdbridge.Proof.RouterFiles
import Bsdbridge.Proof.Routes

/-!
# The rules of a router are never stale

A pass tells by a digest in a label whether the rules a jail has loaded are those of its router.
The label is all it looks at: it does not remember what it loaded, and the translation rules do not
show in the listing. **`loaded_of_clean`** says that this is enough. After any pass without
failures, whatever came before it, pf is enabled in the jail of each desired router and has the
router's own rules. What carries it over a history is that every ruleset a jail has, and every
pf.conf on the disk, was rendered for some router (`Genuine`).

A history is any sequence of passes, each to its end or to wherever it stops, with outages in
between: a jail may lose its rules and a file may vanish, at any time, but neither comes to hold
something the agent did not render. What the agent's commands do to pf is the contract `PfJails`; a
load takes the text that is on the disk at that moment, whichever router's it is.

## The digest

`PfApart` asks that no two of the texts in question share a digest. It cannot be dropped, as the
label is a cut SHA-256 and is all the agent compares, and it is asked of the routers of the history
only. Of what pfctl(8) prints of the rules it is assumed that the label can be found in it, for the
texts that were rendered, and nothing else.
-/

set_option autoImplicit false

namespace Bsdbridge

namespace L3

open Prog Actions Files

/-- pf in a jail. -/
structure JailPf where
  loaded : Option String := none
  enabled : Bool := false

/-- A text that was rendered for one of the routers. -/
def Rendered [Hashlib] (known : Set Router) (text : String) : Prop :=
  ∃ rtr ∈ known, ∃ cfgHash, rtr.pfText = some (text, cfgHash)

/-- No two rulesets of the routers have one digest. -/
def PfApart [Hashlib] (known : Set Router) : Prop :=
  ∀ a ∈ known, ∀ b ∈ known, ∀ text text' cfgHash : String,
    a.pfText = some (text, cfgHash) → b.pfText = some (text', cfgHash) → text = text'

/-- `os.path.join(state_dir(base, router_id), "pf.conf")`. -/
def confPath (base dir : String) : String := pathJoin (pathJoin (pathJoin base "l3") dir) "pf.conf"

/-- The commands that may change pf in a jail: its pfctl(8), queries apart, and the making and
removing of the jail. -/
def Filters (j : String) (argv : Argv) : Prop :=
  (∃ a args, argv = JEXEC :: j :: PFCTL :: a :: args ∧ a ≠ "-si" ∧ a ≠ "-sr") ∨
    (∃ args, argv = JAIL :: "-c" :: ("name=" ++ j) :: args) ∨ argv = [JAIL, "-r", j]

theorem not_filters_of_head {j c : String} {args : Argv} (hexec : c ≠ JEXEC) (hjail : c ≠ JAIL) :
    ¬ Filters j (c :: args) := by
  rintro (⟨_, _, h, -⟩ | ⟨_, h⟩ | h)
  · exact hexec (List.cons.inj h).1
  · exact hjail (List.cons.inj h).1
  · exact hjail (List.cons.inj h).1

theorem not_filters_inside {j j' c : String} {args : Argv} (h : j' ≠ j ∨ c ≠ PFCTL) :
    ¬ Filters j (JEXEC :: j' :: c :: args) := by
  rintro (⟨_, _, heq, -⟩ | ⟨_, heq⟩ | heq)
  · obtain ⟨-, heq⟩ := List.cons.inj heq
    obtain ⟨hj, heq⟩ := List.cons.inj heq
    obtain ⟨hc, -⟩ := List.cons.inj heq
    exact h.elim (fun hne => hne hj) fun hne => hne hc
  · exact absurd (List.cons.inj heq).1 (by decide)
  · exact absurd (List.cons.inj heq).1 (by decide)

/-- A query does not change pf. -/
theorem not_filters_query {j j' a : String} (h : a = "-si" ∨ a = "-sr") :
    ¬ Filters j [JEXEC, j', PFCTL, a] := by
  rintro (⟨a', _, heq, hsi, hsr⟩ | ⟨_, heq⟩ | heq)
  · obtain ⟨-, heq⟩ := List.cons.inj heq
    obtain ⟨-, heq⟩ := List.cons.inj heq
    obtain ⟨-, heq⟩ := List.cons.inj heq
    obtain ⟨rfl, -⟩ := List.cons.inj heq
    exact h.elim hsi hsr
  · exact absurd (List.cons.inj heq).1 (by decide)
  · exact absurd (List.cons.inj heq).1 (by decide)

theorem not_filters_remove {j j' : String} (h : j' ≠ j) : ¬ Filters j [JAIL, "-r", j'] := by
  rintro (⟨_, _, heq, -⟩ | ⟨_, heq⟩ | heq)
  · exact absurd (List.cons.inj heq).1 (by decide)
  · obtain ⟨-, heq⟩ := List.cons.inj heq
    exact absurd (List.cons.inj heq).1 (by decide)
  · obtain ⟨-, heq⟩ := List.cons.inj heq
    obtain ⟨-, heq⟩ := List.cons.inj heq
    exact h (List.cons.inj heq).1

theorem not_filters_create {j j' : String} {args : Argv} (h : j' ≠ j) :
    ¬ Filters j (JAIL :: "-c" :: ("name=" ++ j') :: args) := by
  rintro (⟨_, _, heq, -⟩ | ⟨_, heq⟩ | heq)
  · exact absurd (List.cons.inj heq).1 (by decide)
  · obtain ⟨-, heq⟩ := List.cons.inj heq
    obtain ⟨-, heq⟩ := List.cons.inj heq
    have hname := congrArg String.toList (List.cons.inj heq).1
    rw [String.toList_append, String.toList_append] at hname
    exact h (String.toList_inj.mp (List.append_cancel_left hname))
  · obtain ⟨-, heq⟩ := List.cons.inj heq
    exact absurd (List.cons.inj heq).1 (by decide)

theorem not_filters_ifconfig {j : String} {args : Argv} : ¬ Filters j (IFCONFIG :: args) :=
  not_filters_of_head (by decide) (by decide)

/-- A runner over the pf of each jail. `pfctl -sr` lists the rules as `listing` prints them; a load
takes the text of the router's file; and no command loads a text that is not in a pf.conf of the
state directory, or writes one there. -/
structure PfJails {ρ : Type} [Hashlib] (known : Set Router) (base : String)
    (listing : String → String) (cmd : Command (Site ρ)) (pause : Prog (Site ρ) Unit)
    (view : ρ → String → JailPf) : Prop where
  status : ∀ (j : String) (e e' : Site ρ) (r : RunResult),
    exec (cmd [JEXEC, j, PFCTL, "-si"]) e = (some r, e') → r.ok = true →
      pfEnabled r.out = (view e.rest j).enabled
  rules : ∀ (j : String) (e e' : Site ρ) (r : RunResult),
    exec (cmd [JEXEC, j, PFCTL, "-sr"]) e = (some r, e') → r.ok = true →
      r.out = ((view e.rest j).loaded.map listing).getD ""
  enable : ∀ (j : String) (e e' : Site ρ) (r : RunResult),
    exec (cmd [JEXEC, j, PFCTL, "-e"]) e = (some r, e') → r.ok = true →
      view e'.rest j = { view e.rest j with enabled := true }
  load : ∀ rtr ∈ known, ∀ (e e' : Site ρ) (r : RunResult),
    exec (cmd [JEXEC, rtr.jail, PFCTL, "-f", confPath base rtr.id]) e = (some r, e') →
      r.ok = true → view e'.rest rtr.jail =
        { view e.rest rtr.jail with loaded := e.disk.file rtr.id "pf.conf" }
  tame : ∀ (argv : Argv) (j : String) (e : Site ρ),
    (view (exec (cmd argv) e).2.rest j).loaded = (view e.rest j).loaded ∨
    (view (exec (cmd argv) e).2.rest j).loaded = none ∨
    ∃ dir, (view (exec (cmd argv) e).2.rest j).loaded = e.disk.file dir "pf.conf"
  other : ∀ (j : String) (argv : Argv) (e : Site ρ), ¬ Filters j argv →
    view (exec (cmd argv) e).2.rest j = view e.rest j
  files : ∀ (argv : Argv) (dir : String), Spares (cmd argv) dir "pf.conf"
  pauseView : ∀ (j : String) (e : Site ρ), view (exec pause e).2.rest j = view e.rest j
  pauseFiles : ∀ dir : String, Spares pause dir "pf.conf"
  /-- The rules are listed with their label. -/
  shows : ∀ rtr ∈ known, ∀ text cfgHash, rtr.pfText = some (text, cfgHash) →
    (Regex.search CFG_RE (listing text)).bind (fun m => Regex.groupOf m "hash") = some cfgHash

section

variable [Hashlib] {ρ : Type} {known : Set Router} {base : String} {listing : String → String}
  {cmd : Command (Site ρ)} {pause : Prog (Site ρ) Unit} {view : ρ → String → JailPf}

/-- Every ruleset that is loaded, and every one on the disk, was rendered for a router. -/
structure Genuine (known : Set Router) (view : ρ → String → JailPf) (e : Site ρ) : Prop where
  loaded : ∀ j text, (view e.rest j).loaded = some text → Rendered known text
  files : ∀ dir text, e.disk.file dir "pf.conf" = some text → Rendered known text

/-- What is lost does not stop being genuine. -/
theorem Genuine.lost {e e' : Site ρ} (he : Genuine known view e)
    (hloaded : ∀ j, (view e'.rest j).loaded = (view e.rest j).loaded ∨
      (view e'.rest j).loaded = none)
    (hfiles : ∀ dir, e'.disk.file dir "pf.conf" = e.disk.file dir "pf.conf" ∨
      e'.disk.file dir "pf.conf" = none) : Genuine known view e' := by
  refine ⟨fun j text htext => ?_, fun dir text htext => ?_⟩
  · rcases hloaded j with hsame | hnone
    · exact he.loaded j text (hsame.symm.trans htext)
    · rw [hnone] at htext
      exact absurd htext (by simp)
  · rcases hfiles dir with hsame | hnone
    · exact he.files dir text (hsame.symm.trans htext)
    · rw [hnone] at htext
      exact absurd htext (by simp)

/-- pf in a router's jail is enabled, and has the router's rules. -/
def Loaded (view : ρ → String → JailPf) (rtr : Router) (e : Site ρ) : Prop :=
  ∃ text cfgHash, rtr.pfText = some (text, cfgHash) ∧
    view e.rest rtr.jail = { loaded := some text, enabled := true }

/-! ## 1. What is genuine stays so -/

variable (known) in
/-- The changes of the disk that leave every pf.conf, take one away, or write a rendered one. -/
def Renders (f : Disk → Disk) : Prop :=
  ∀ d dir text, (f d).file dir "pf.conf" = some text →
    d.file dir "pf.conf" = some text ∨ Rendered known text

theorem cmd_genuine (m : PfJails known base listing cmd pause view) (argv : Argv) :
    Keeps (Genuine known view) (cmd argv) := by
  refine keeps_iff.mpr fun e he => ⟨fun j text htext => ?_, fun dir text htext => ?_⟩
  · rcases m.tame argv j e with hsame | hnone | ⟨dir, hfile⟩
    · exact he.loaded j text (hsame.symm.trans htext)
    · rw [hnone] at htext
      exact absurd htext (by simp)
    · exact he.files dir text (hfile.symm.trans htext)
  · exact he.files dir text ((m.files argv dir e).symm.trans htext)

theorem change_genuine (m : PfJails known base listing cmd pause view) {f : Disk → Disk}
    (hf : Renders known f) :
    Keeps (Genuine known view)
      (do pause; update fun e : Site ρ => { e with disk := f e.disk }) := by
  refine Keeps.bind (keeps_iff.mpr fun e he => ⟨fun j text htext => ?_, fun dir text htext => ?_⟩)
    fun _ => keeps_update fun e he => ⟨he.loaded, fun dir text htext => ?_⟩
  · exact he.loaded j text ((congrArg JailPf.loaded (m.pauseView j e)).symm.trans htext)
  · exact he.files dir text ((m.pauseFiles dir e).symm.trans htext)
  · exact (hf e.disk dir text htext).elim (he.files dir text) id

theorem closed_genuine (m : PfJails known base listing cmd pause view) :
    Closed cmd (Calm pause (Renders known)) fun t => Genuine known view t.env :=
  closed_env (cmd_genuine m) fun _ hf => change_genuine m hf

theorem makedirs_renders {dir : String} : Renders known fun d => d.makedirs dir := by
  intro d dir' text htext
  rw [Disk.file_makedirs] at htext
  exact .inl htext

theorem write_renders {rtr : Router} {text cfgHash : String} (hrtr : rtr ∈ known)
    (h : rtr.pfText = some (text, cfgHash)) :
    Renders known fun d => d.write rtr.id "pf.conf" text := by
  intro d dir text' htext'
  rw [Disk.file_write] at htext'
  split at htext'
  · rw [← Option.some.inj htext']
    exact .inr ⟨rtr, hrtr, cfgHash, h⟩
  · exact .inl htext'

theorem erase_renders {dir : String} : Renders known fun d => d.erase dir := by
  intro d dir' text htext
  left
  unfold Disk.file at htext ⊢
  obtain ⟨fs, hfs, hget⟩ := Option.bind_eq_some_iff.mp htext
  have hentry := Dict.entry_erase.mp (Dict.get?_eq_some.mp hfs)
  exact Option.bind_eq_some_iff.mpr ⟨fs, Dict.get?_eq_some.mpr hentry.2, hget⟩

/-- A pass, to its end or to wherever it stops, loads and writes what it rendered only. -/
theorem reconcile_genuine (m : PfJails known base listing cmd pause view) {desired : List Router}
    (hknown : ∀ rtr ∈ desired, rtr ∈ known) :
    Keeps (fun t => Genuine known view t.env) (reconcile cmd pause base desired) :=
  reconcile_keeps (F := Renders known) (cmd_genuine m) (fun _ hf => change_genuine m hf)
    (fun _ _ => makedirs_renders) (fun rtr hrtr _ _ htext => write_renders (hknown rtr hrtr) htext)
    fun _ => erase_renders

/-! ## 2. Everything else -/

/-- All that leaves the pf of a jail alone. -/
def unfiltered (pause : Prog (Site ρ) Unit) (j : String) : Scope (Site ρ) where
  issues argv := ¬ Filters j argv
  effects p := ∃ f : Disk → Disk, p = do pause; update fun e : Site ρ => { e with disk := f e.disk }
  jails _ := True
  hostIfs _ := True

theorem unfiltered_closed (m : PfJails known base listing cmd pause view) (j : String)
    (v : JailPf) : Closed cmd (unfiltered pause j) fun t => view t.env.rest j = v where
  run argv hargv := keeps_zoom (J := fun e => view e.rest j = v)
    (keeps_iff.mpr fun e he => (m.other j argv e hargv).trans he)
  effect := by
    rintro _ ⟨f, rfl⟩
    refine keeps_zoom (J := fun e => view e.rest j = v) (Keeps.bind ?_ fun _ => ?_)
    · exact keeps_iff.mpr fun e he => (m.pauseView j e).trans he
    · exact keeps_update fun e he => he
  record _ _ ht := ht
  addJail _ _ _ ht := ht
  addHostIf _ _ _ ht := ht
  discardHostIf _ _ ht := ht

omit [Hashlib] in
theorem unfiltered_router {j : String} {rtr : Router} (hne : rtr.jail ≠ j) :
    RouterScope pause (unfiltered pause j) rtr where
  files f := ⟨f, rfl⟩
  jails := trivial
  create := not_filters_create hne
  ifconfig _ := not_filters_inside (.inl hne)
  sysctl _ := not_filters_inside (.inl hne)
  pfctl _ := not_filters_inside (.inl hne)

omit [Hashlib] in
theorem unfiltered_epair (j jail hostIf jailIf portId group : String) :
    Within cmd (unfiltered pause j) (Jail.ensureEpair cmd jail hostIf jailIf portId group) := by
  refine Jail.ensureEpair_within ⟨?_, ?_, ?_, ?_, ?_⟩ ⟨?_, ?_, ?_, ?_, trivial⟩
  · exact not_filters_ifconfig
  · exact not_filters_inside (.inr (by decide))
  · exact not_filters_ifconfig
  · exact not_filters_ifconfig
  · exact not_filters_inside (.inr (by decide))
  · exact not_filters_ifconfig
  · exact fun _ => not_filters_ifconfig
  · exact fun _ => not_filters_ifconfig
  · exact fun _ => not_filters_inside (.inr (by decide))

/-- Another router leaves the pf of a jail alone. -/
theorem router_view (m : PfJails known base listing cmd pause view) {j : String} {rtr : Router}
    (hne : rtr.jail ≠ j) (v : JailPf) :
    Keeps (fun t => view t.env.rest j = v) (router cmd pause base rtr) := by
  have hkeep := unfiltered_closed m j v
  refine router_keeps hkeep (unfiltered_router hne) ⟨fun _ => ?_, fun _ => ?_⟩ fun p _ =>
    unfiltered_epair j _ _ _ _ _ _ hkeep
  · exact not_filters_inside (.inl hne)
  · exact not_filters_inside (.inl hne)

/-- What nobody desires is collected without a change in a desired jail. -/
theorem gc_view (m : PfJails known base listing cmd pause view) {desired : List Router}
    {rtr : Router} (hrtr : rtr ∈ desired) (v : JailPf) :
    Keeps (fun t => view t.env.rest rtr.jail = v) (gc cmd pause desired) := by
  have hkeep := unfiltered_closed m rtr.jail v
  refine gc_keeps hkeep (fun f => ⟨f, rfl⟩) (Jail.collect_within ?_ ?_ ?_ ?_ _ hkeep)
  · exact fun _ => not_filters_of_head (by decide) (by decide)
  · exact fun _ => not_filters_of_head (by decide) (by decide)
  · exact fun _ _ => not_filters_ifconfig
  · intro j hj
    refine not_filters_remove fun heq => hj ?_
    rw [heq]
    exact List.mem_toFinset.mpr (List.mem_map_of_mem hrtr)

/-! ## 3. The pf step

Two queries and, where they say so, two commands. Each half of the step is a triple. -/

/-- A query leaves pf, and the files, as they are. -/
theorem query_some (m : PfJails known base listing cmd pause view) {j a : String}
    (ha : a = "-si" ∨ a = "-sr") {t t' : Pass (Site ρ)} {r : RunResult}
    (hrun : exec (run cmd [JEXEC, j, PFCTL, a]) t = (some r, t')) :
    exec (cmd [JEXEC, j, PFCTL, a]) t.env = (some r, t'.env) ∧
      view t'.env.rest j = view t.env.rest j ∧
      ∀ dir, t'.env.disk.file dir "pf.conf" = t.env.disk.file dir "pf.conf" := by
  obtain ⟨hans, rfl⟩ := Prod.mk.inj hrun
  exact ⟨eq_of_answer hans, m.other j _ _ (not_filters_query ha), fun dir => m.files _ dir _⟩

/-- The first half of the step: pf comes to be enabled, and nothing else changes. -/
theorem enabled_of_clean (m : PfJails known base listing cmd pause view) {j : String}
    {t t' : Pass (Site ρ)} (hrun : exec (do
      let status ← run cmd [JEXEC, j, PFCTL, "-si"]
      actIf cmd (!status.ok || !pfEnabled status.out) "EnablePf" [JEXEC, j, PFCTL, "-e"]) t =
        (some (), t')) (hclean : Clean t') :
    view t'.env.rest j = { view t.env.rest j with enabled := true } ∧
      ∀ dir, t'.env.disk.file dir "pf.conf" = t.env.disk.file dir "pf.conf" := by
  obtain ⟨r, t₁, hquery, hact⟩ := exec_bind_some.mp hrun
  obtain ⟨hcmd, hview, hfiles⟩ := query_some m (.inl rfl) hquery
  rcases actIf_clean hact hclean with ⟨-, r', hdo, hok⟩ | ⟨hdrift, rfl⟩
  · refine ⟨(m.enable j _ _ r' hdo hok).trans (by rw [hview]), fun dir => ?_⟩
    have hspare := m.files [JEXEC, j, PFCTL, "-e"] dir t₁.env
    rw [hdo] at hspare
    exact hspare.trans (hfiles dir)
  · obtain ⟨hok, hon⟩ : r.ok = true ∧ pfEnabled r.out = true := by simpa using hdrift
    have henabled := (m.status j _ _ r hcmd hok).symm.trans hon
    rw [hview]
    exact ⟨by rw [← henabled], hfiles⟩

/-- The second half: the rules that are loaded have the digest of the router's own, so they are
its own. -/
theorem loaded_of_listed (m : PfJails known base listing cmd pause view) (hapart : PfApart known)
    {rtr : Router} (hrtr : rtr ∈ known) {text cfgHash : String}
    (htext : rtr.pfText = some (text, cfgHash)) {t t' : Pass (Site ρ)}
    (hgenuine : Genuine known view t.env) (hfile : t.env.disk.file rtr.id "pf.conf" = some text)
    (hrun : exec (do
      let rules ← run cmd [JEXEC, rtr.jail, PFCTL, "-sr"]
      actIf cmd (loadedHash rules ≠ some cfgHash) "LoadPf"
        [JEXEC, rtr.jail, PFCTL, "-f", confPath base rtr.id]) t = (some (), t'))
    (hclean : Clean t') :
    view t'.env.rest rtr.jail = { view t.env.rest rtr.jail with loaded := some text } := by
  obtain ⟨r, t₁, hquery, hact⟩ := exec_bind_some.mp hrun
  obtain ⟨hcmd, hview, hfiles⟩ := query_some m (.inr rfl) hquery
  rcases actIf_clean hact hclean with ⟨-, r', hdo, hok⟩ | ⟨hdrift, rfl⟩
  · rw [m.load rtr hrtr _ _ r' hdo hok, hview, hfiles, hfile]
  · have hhash : loadedHash r = some cfgHash := by simpa using hdrift
    obtain ⟨hok, hfound⟩ : r.ok = true ∧
        ((Regex.search CFG_RE r.out).bind fun m => Regex.groupOf m "hash") = some cfgHash := by
      unfold loadedHash at hhash
      split at hhash
      · exact ⟨‹_›, hhash⟩
      · exact absurd hhash (by simp)
    rw [m.rules rtr.jail _ _ r hcmd hok] at hfound
    rw [hview]
    cases hloaded : (view t.env.rest rtr.jail).loaded with
    | none =>
      have hnone : ((Regex.search CFG_RE "").bind fun m => Regex.groupOf m "hash") = none := by
        decide +kernel
      rw [hloaded] at hfound
      exact absurd (hnone.symm.trans hfound) (by simp)
    | some old =>
      -- an old ruleset of this digest has this text
      rw [hloaded] at hfound
      obtain ⟨b, hb, h, hold⟩ := hgenuine.loaded rtr.jail old hloaded
      obtain rfl := Option.some.inj ((m.shows b hb old h hold).symm.trans hfound)
      rw [hapart rtr hrtr b hb text old h htext hold, ← hloaded]

omit [Hashlib] in
theorem writePf_holds {rtr : Router} {text cfgHash : String} {P : Pass (Site ρ) → Prop} :
    Triple P (writePf pause rtr text cfgHash)
      (fun _ t => Holds rtr.id "pf.conf" text t.env) fun _ => True := by
  unfold writePf
  refine Triple.bind writeIfChanged_holds fun dirty => ?_
  split
  · exact triple_update fun _ ht => ht
  · exact triple_pure fun _ ht => ht

/-- The pf step of a router. -/
theorem pf_loads (m : PfJails known base listing cmd pause view) (hapart : PfApart known)
    {rtr : Router} (hrtr : rtr ∈ known) {t t' : Pass (Site ρ)}
    (hgenuine : Genuine known view t.env)
    (hrun : exec (pf cmd pause base rtr) t = (some (), t')) (hclean : Clean t') :
    Loaded view rtr t'.env := by
  unfold pf at hrun
  split at hrun
  · exact absurd (Prod.mk.inj hrun).1 (by simp)
  · rename_i text cfgHash htext
    have hclosed := closed_genuine m
    obtain ⟨_, t₁, hwrite, hrun⟩ := exec_bind_some.mp hrun
    rw [← bind_assoc] at hrun
    obtain ⟨_, t₂, henable, hload⟩ := exec_bind_some.mp hrun
    have hclean₂ : Clean t₂ := by
      refine clean_of_keeps ?_ hload hclean
      exact ((within_run trivial).bind fun _ => within_actIf trivial) _ (closed_failed anything)
    have hgenuine₁ : Genuine known view t₁.env :=
      (writePf_calm (write_renders hrtr htext) _ hclosed).of_some hgenuine hwrite
    have hgenuine₂ : Genuine known view t₂.env :=
      (((within_run trivial).bind fun _ => within_actIf trivial) _ hclosed).of_some hgenuine₁
        henable
    have hfile : t₁.env.disk.file rtr.id "pf.conf" = some text :=
      (writePf_holds (P := fun _ => True) t trivial).1 () t₁ hwrite
    obtain ⟨hview, hfiles⟩ := enabled_of_clean m henable hclean₂
    refine ⟨text, cfgHash, htext, ?_⟩
    rw [loaded_of_listed m hapart hrtr htext hgenuine₂ ((hfiles _).trans hfile) hload hclean, hview]

/-! ## 4. The pass -/

omit [Hashlib] in
/-- A jail that could not be made leaves a failure. -/
theorem upToPorts_clean {rtr : Router} {t t' : Pass (Site ρ)}
    (hrun : exec (upToPorts cmd pause rtr) t = (some none, t')) : ¬ Clean t' := by
  obtain ⟨_, t₁, -, hrun⟩ := exec_bind_some.mp hrun
  obtain ⟨ok, t₂, hjail, hrun⟩ := exec_bind_some.mp hrun
  cases ok with
  | false =>
    obtain ⟨-, rfl⟩ := Prod.mk.inj hrun
    exact Jail.ensureJail_false hjail
  | true =>
    obtain ⟨_, t₃, -, hrun⟩ := exec_bind_some.mp hrun
    obtain ⟨_, t₄, -, hrun⟩ := exec_bind_some.mp hrun
    exact absurd (Prod.mk.inj hrun).1 (by simp)

/-- A router that was gone through without failures. -/
theorem router_loads (m : PfJails known base listing cmd pause view) (hapart : PfApart known)
    {rtr : Router} (hrtr : rtr ∈ known) {t t' : Pass (Site ρ)}
    (hgenuine : Genuine known view t.env)
    (hrun : exec (router cmd pause base rtr) t = (some (), t')) (hclean : Clean t') :
    Loaded view rtr t'.env := by
  have hclosed := closed_genuine m
  obtain ⟨complete, t₁, hports, hrun⟩ := exec_bind_some.mp hrun
  have hgenuine₁ : Genuine known view t₁.env :=
    (upToPorts_calm makedirs_renders _ hclosed).of_some hgenuine hports
  cases complete with
  | none =>
    obtain ⟨-, rfl⟩ := Prod.mk.inj hrun
    exact absurd hclean (upToPorts_clean hports)
  | some complete =>
    obtain ⟨_, t₂, hroutes, hpf⟩ := exec_bind_some.mp hrun
    have hkeep : Keeps (fun t => Genuine known view t.env)
        (if complete then routes cmd rtr else pure ()) := by
      split
      · exact routes_calm _ hclosed
      · exact keeps_pure
    exact pf_loads m hapart hrtr (hkeep.of_some hgenuine₁ hroutes) hpf hclean

/-- A pass without failures leaves each desired jail with the rules of its router. -/
theorem reconcile_loads (m : PfJails known base listing cmd pause view) (hapart : PfApart known)
    {desired : List Router} (hknown : ∀ rtr ∈ desired, rtr ∈ known)
    (hjails : (desired.map Router.jail).Nodup) {t t' : Pass (Site ρ)}
    (hgenuine : Genuine known view t.env)
    (hrun : exec (reconcile cmd pause base desired) t = (some (), t')) (hclean : Clean t') :
    ∀ rtr ∈ desired, Loaded view rtr t'.env := by
  obtain ⟨_, t₁, hopen, hrun⟩ := exec_bind_some.mp hrun
  obtain ⟨_, t₂, hloop, hgc⟩ := exec_bind_some.mp hrun
  have hclean₂ : Clean t₂ := clean_of_keeps gc_failed hgc hclean
  have hgenuine₁ : Genuine known view t₁.env :=
    (opening_calm (cmd_genuine m)).of_some hgenuine hopen
  have hmoved : ∀ {a b : Router} {t t' : Pass (Site ρ)}, a.jail ≠ b.jail →
      exec (router cmd pause base b) t = (some (), t') → (Clean t → Loaded view a t.env) →
        Clean t' → Loaded view a t'.env := by
    intro a b t t' hne hb ha hc
    obtain ⟨text, h, htext, hview⟩ := ha (clean_of_keeps router_failed hb hc)
    refine ⟨text, h, htext, ?_⟩
    rw [← hview]
    exact (router_view m hne.symm _).of_some rfl hb
  have hall := forM_each hgenuine₁ hloop
    (G := fun rtr t => Clean t → Loaded view rtr t.env) (I := fun t => Genuine known view t.env)
    ?_ ?_
  · intro rtr hrtr
    obtain ⟨text, h, htext, hview⟩ := hall.2 rtr hrtr hclean₂
    refine ⟨text, h, htext, ?_⟩
    rw [← hview]
    exact (gc_view m hrtr _).of_some rfl hgc
  · refine (List.pairwise_map.mp hjails).imp fun hne t ha _ t' hb hc => hmoved hne hb ha hc
  · intro rtr hrtr t t' ht hone
    refine ⟨?_, router_loads m hapart (hknown rtr hrtr) ht hone⟩
    refine (router_calm makedirs_renders ?_ _ (closed_genuine m)).of_some ht hone
    exact fun text h htext => write_renders (hknown rtr hrtr) htext

/-! ## 5. Histories -/

variable (known base cmd pause view) in
/-- The hosts of all histories that start without rules. A pass may end in any way, and between two
passes a jail may lose its rules and a pf.conf may go. -/
inductive Passed : Site ρ → Prop
  | start {e : Site ρ} (hloaded : ∀ j, (view e.rest j).loaded = none)
      (hfiles : ∀ dir, e.disk.file dir "pf.conf" = none) : Passed e
  | pass {e : Site ρ} {desired : List Router} (h : Passed e)
      (hknown : ∀ rtr ∈ desired, rtr ∈ known) :
      Passed (exec (reconcile cmd pause base desired) { env := e }).2.env
  | outage {e e' : Site ρ} (h : Passed e)
      (hloaded : ∀ j, (view e'.rest j).loaded = (view e.rest j).loaded ∨
        (view e'.rest j).loaded = none)
      (hfiles : ∀ dir, e'.disk.file dir "pf.conf" = e.disk.file dir "pf.conf" ∨
        e'.disk.file dir "pf.conf" = none) : Passed e'

theorem Passed.genuine (m : PfJails known base listing cmd pause view) {e : Site ρ}
    (h : Passed known base cmd pause view e) : Genuine known view e := by
  induction h with
  | start hloaded hfiles =>
    refine ⟨fun j text htext => ?_, fun dir text htext => ?_⟩
    · rw [hloaded j] at htext
      exact absurd htext (by simp)
    · rw [hfiles dir] at htext
      exact absurd htext (by simp)
  | pass _ hknown ih =>
    exact keeps_iff.mp (reconcile_genuine m hknown) _ ih
  | outage _ hloaded hfiles ih => exact ih.lost hloaded hfiles

/-- **The rules of a router are never stale**: after any history, a pass that ends without failures
leaves pf enabled in the jail of each desired router, with the rules of that router. -/
theorem loaded_of_clean (m : PfJails known base listing cmd pause view) (hapart : PfApart known)
    {e : Site ρ} (h : Passed known base cmd pause view e) {desired : List Router}
    (hknown : ∀ rtr ∈ desired, rtr ∈ known) (hjails : (desired.map Router.jail).Nodup)
    {t' : Pass (Site ρ)}
    (hrun : exec (reconcile cmd pause base desired) { env := e } = (some (), t'))
    (hclean : Clean t') : ∀ rtr ∈ desired, Loaded view rtr t'.env :=
  reconcile_loads m hapart hknown hjails (h.genuine m) hrun hclean

end

/-! ## 6. A router that loses its floating ip

A host with one jail, and two passes over it: with the floating ip and after it went away. -/

namespace Fronted

/-- The router `1` with a floating ip. -/
def before : Router :=
  { Sample.gateway with floatingIps := [⟨"f0", "203.0.113.9", "10.0.0.5"⟩] }

/-- A digest that tells the two rulesets apart. -/
def digest (text : String) : String :=
  if Text.hasChar text '>' then "feedfacefeedface" else "0123456789abcdef"

def known : Set Router := {before, Sample.gateway}

/-- `pfctl -sr` shows the filter rules. -/
def listing (text : String) : String :=
  Text.unlines ((Text.splitLines text).filter fun line => Text.startsWith line "pass")

def query (a : String) : Argv := [JEXEC, Sample.here, PFCTL, a]

def load : Argv := [JEXEC, Sample.here, PFCTL, "-f", confPath "/var/db" "1"]

/-- What pfctl(8) answers in the jail of the router `1`; `none` is a refusal. -/
def pfctl (argv : Argv) (e : Site JailPf) : Option (String × JailPf) :=
  if argv = query "-si" then
    some (if e.rest.enabled then "Status: Enabled" else "Status: Disabled", e.rest)
  else if argv = query "-sr" then some ((e.rest.loaded.map listing).getD "", e.rest)
  else if argv = query "-e" then some ("", { e.rest with enabled := true })
  else if argv = load then some ("", { e.rest with loaded := e.disk.file "1" "pf.conf" })
  else none

/-- A host with the jail of the router `1`, on which every other command answers well. -/
def runner : Command (Site JailPf) := fun argv => OptionT.mk fun e =>
  if argv[2]? = some PFCTL then
    match pfctl argv e with
    | some (out, rest) => (some { rc := .code 0, out }, { e with rest })
    | none => (some { rc := .code 1 }, e)
  else (some { rc := .code 0 }, e)

/-- The pf of every jail. -/
def view (s : JailPf) (j : String) : JailPf := if j = Sample.here then s else {}

theorem exec_pfctl {argv : Argv} {e e' : Site JailPf} {r : RunResult}
    (hat : argv[2]? = some PFCTL) (h : exec (runner argv) e = (some r, e')) (hok : r.ok = true) :
    ∃ rest, pfctl argv e = some (r.out, rest) ∧ e' = { e with rest } := by
  change (if argv[2]? = some PFCTL then _ else _) = _ at h
  rw [if_pos hat] at h
  cases hp : pfctl argv e with
  | none =>
    rw [hp] at h
    obtain ⟨hr, -⟩ := Prod.mk.inj h
    obtain rfl := Option.some.inj hr
    exact absurd hok (by decide)
  | some a =>
    obtain ⟨out, rest⟩ := a
    rw [hp] at h
    obtain ⟨hr, rfl⟩ := Prod.mk.inj h
    obtain rfl := Option.some.inj hr
    exact ⟨rest, rfl, rfl⟩

/-- What a command does to pf, it does by pfctl(8). -/
theorem after_runner (argv : Argv) (e : Site JailPf) : (exec (runner argv) e).2 = e ∨
    ∃ out rest, pfctl argv e = some (out, rest) ∧ (exec (runner argv) e).2 = { e with rest } := by
  show (if argv[2]? = some PFCTL then _ else _ : Option RunResult × Site JailPf).2 = e ∨
    ∃ out rest, pfctl argv e = some (out, rest) ∧
      (if argv[2]? = some PFCTL then _ else _ : Option RunResult × Site JailPf).2 = { e with rest }
  split
  · cases hp : pfctl argv e with
    | none => exact .inl rfl
    | some a => exact .inr ⟨a.1, a.2, rfl, rfl⟩
  · exact .inl rfl

section

variable (e : Site JailPf)

theorem pfctl_status : pfctl (query "-si") e =
    some (if e.rest.enabled then "Status: Enabled" else "Status: Disabled", e.rest) := if_pos rfl

theorem pfctl_rules : pfctl (query "-sr") e =
    some ((e.rest.loaded.map listing).getD "", e.rest) := by
  unfold pfctl
  rw [if_neg (by decide), if_pos (Eq.refl (query "-sr"))]

theorem pfctl_enable : pfctl (query "-e") e = some ("", { e.rest with enabled := true }) := by
  unfold pfctl
  rw [if_neg (by decide), if_neg (by decide), if_pos (Eq.refl (query "-e"))]

theorem pfctl_load : pfctl load e =
    some ("", { e.rest with loaded := e.disk.file "1" "pf.conf" }) := by
  unfold pfctl
  rw [if_neg (by decide), if_neg (by decide), if_neg (by decide), if_pos (Eq.refl load)]

end

theorem pfctl_cases {argv : Argv} {e : Site JailPf} {out : String} {rest : JailPf}
    (h : pfctl argv e = some (out, rest)) : argv[1]? = some Sample.here ∧ (rest = e.rest ∨
      (argv = query "-e" ∧ rest = { e.rest with enabled := true }) ∨
      (argv = load ∧ rest = { e.rest with loaded := e.disk.file "1" "pf.conf" })) := by
  unfold pfctl at h
  split at h
  · rename_i hargv
    obtain ⟨-, rfl⟩ := Prod.mk.inj (Option.some.inj h)
    exact ⟨by rw [hargv]; rfl, .inl rfl⟩
  · split at h
    · rename_i hargv
      obtain ⟨-, rfl⟩ := Prod.mk.inj (Option.some.inj h)
      exact ⟨by rw [hargv]; rfl, .inl rfl⟩
    · split at h
      · rename_i hargv
        obtain ⟨-, rfl⟩ := Prod.mk.inj (Option.some.inj h)
        exact ⟨by rw [hargv]; rfl, .inr (.inl ⟨hargv, rfl⟩)⟩
      · split at h
        · rename_i hargv
          obtain ⟨-, rfl⟩ := Prod.mk.inj (Option.some.inj h)
          exact ⟨by rw [hargv]; rfl, .inr (.inr ⟨hargv, rfl⟩)⟩
        · exact absurd h (by simp)

/-- The rules of a router are listed with their label. -/
def Listed (rtr : Router) : Prop := ((@Router.pfText ⟨digest⟩ rtr).all fun p =>
  decide ((Regex.search CFG_RE (listing p.1)).bind (fun m => Regex.groupOf m "hash") =
    some p.2)) = true

instance (rtr : Router) : Decidable (Listed rtr) :=
  inferInstanceAs (Decidable ((Option.all _ _ : Bool) = true))

theorem known_listed : ∀ rtr ∈ known, Listed rtr := by
  rintro rtr (rfl | rfl)
  · decide +kernel
  · decide +kernel

theorem known_apart : @PfApart ⟨digest⟩ known := by
  have hdiffer : (@Router.pfText ⟨digest⟩ before).map Prod.snd ≠
      (@Router.pfText ⟨digest⟩ Sample.gateway).map Prod.snd := by decide +kernel
  have hdigest : ∀ {rtr : Router} {text cfgHash : String},
      @Router.pfText ⟨digest⟩ rtr = some (text, cfgHash) →
        (@Router.pfText ⟨digest⟩ rtr).map Prod.snd = some cfgHash := fun h => by rw [h]; rfl
  rintro a (rfl | rfl) b (rfl | rfl) text text' cfgHash ha hb
  · exact (Prod.mk.inj (Option.some.inj (ha.symm.trans hb))).1
  · exact absurd ((hdigest ha).trans (hdigest hb).symm) hdiffer
  · exact absurd ((hdigest hb).trans (hdigest ha).symm) hdiffer
  · exact (Prod.mk.inj (Option.some.inj (ha.symm.trans hb))).1

theorem jail_known : ∀ rtr ∈ known, rtr.jail = Sample.here ∧ rtr.id = "1" := by
  rintro rtr (rfl | rfl)
  · exact ⟨by decide +kernel, rfl⟩
  · exact ⟨by decide +kernel, rfl⟩

/-- The jails of this host, for any versions of the router `1` that are listed with their label. -/
theorem runner_pfJails {known : Set Router}
    (hjail : ∀ rtr ∈ known, rtr.jail = Sample.here ∧ rtr.id = "1")
    (hlisted : ∀ rtr ∈ known, Listed rtr) :
    @PfJails JailPf ⟨digest⟩ known "/var/db" listing runner (pure ()) view := by
  refine @PfJails.mk JailPf ⟨digest⟩ known "/var/db" listing runner (pure ()) view
    ?_ ?_ ?_ ?_ ?_ ?_ ?_ (fun _ _ => rfl) (fun _ _ => rfl) ?_
  · intro j e e' r h hok
    obtain ⟨rest, hp, rfl⟩ := exec_pfctl rfl h hok
    obtain rfl : j = Sample.here := Option.some.inj (pfctl_cases hp).1
    obtain ⟨hout, -⟩ := Prod.mk.inj (Option.some.inj ((pfctl_status e).symm.trans hp))
    rw [← hout]
    unfold view
    rw [if_pos rfl]
    cases e.rest.enabled <;> decide +kernel
  · intro j e e' r h hok
    obtain ⟨rest, hp, rfl⟩ := exec_pfctl rfl h hok
    obtain rfl : j = Sample.here := Option.some.inj (pfctl_cases hp).1
    obtain ⟨hout, -⟩ := Prod.mk.inj (Option.some.inj ((pfctl_rules e).symm.trans hp))
    unfold view
    rw [if_pos rfl]
    exact hout.symm
  · intro j e e' r h hok
    obtain ⟨rest, hp, rfl⟩ := exec_pfctl rfl h hok
    obtain rfl : j = Sample.here := Option.some.inj (pfctl_cases hp).1
    obtain ⟨-, rfl⟩ := Prod.mk.inj (Option.some.inj ((pfctl_enable e).symm.trans hp))
    rfl
  · intro rtr hrtr e e' r h hok
    obtain ⟨hjail, hid⟩ := hjail rtr hrtr
    rw [hjail, hid] at h
    obtain ⟨rest, hp, rfl⟩ := exec_pfctl rfl h hok
    obtain ⟨-, rfl⟩ := Prod.mk.inj (Option.some.inj ((pfctl_load e).symm.trans hp))
    rw [hjail, hid]
    rfl
  · intro argv j e
    rcases after_runner argv e with hsame | ⟨out, rest, hp, hafter⟩
    · exact .inl (by rw [hsame])
    · rw [hafter]
      unfold view
      split
      · rcases (pfctl_cases hp).2 with rfl | ⟨-, rfl⟩ | ⟨-, rfl⟩
        · exact .inl rfl
        · exact .inl rfl
        · exact .inr (.inr ⟨"1", rfl⟩)
      · exact .inl rfl
  · intro j argv e hnot
    rcases after_runner argv e with hsame | ⟨out, rest, hp, hafter⟩
    · rw [hsame]
    · rw [hafter]
      unfold view
      split
      · rename_i hj
        rcases (pfctl_cases hp).2 with rfl | ⟨hargv, -⟩ | ⟨hargv, -⟩
        · rfl
        · refine absurd (.inl ⟨"-e", [], ?_, by decide, by decide⟩) hnot
          rw [hargv, hj]
          rfl
        · refine absurd (.inl ⟨"-f", [confPath "/var/db" "1"], ?_, by decide, by decide⟩) hnot
          rw [hargv, hj]
          rfl
      · rfl
  · intro argv dir e
    rcases after_runner argv e with hsame | ⟨out, rest, hp, hafter⟩
    · rw [hsame]
    · rw [hafter]
  · intro rtr hrtr text cfgHash htext
    have hshown := hlisted rtr hrtr
    unfold Listed at hshown
    rw [htext] at hshown
    exact of_decide_eq_true hshown

/-- A pass with the floating ip, and one after it went away. -/
def firstPass : Option Unit × Pass (Site JailPf) :=
  exec (@reconcile _ runner (pure ()) ⟨digest⟩ "/var/db" [before]) { env := { rest := {} } }

def secondPass : Option Unit × Pass (Site JailPf) :=
  exec (@reconcile _ runner (pure ()) ⟨digest⟩ "/var/db" [Sample.gateway])
    { env := firstPass.2.env }

theorem firstPass_passed : @Passed ⟨digest⟩ JailPf known "/var/db" runner (pure ()) view
    firstPass.2.env := by
  have hstart : @Passed ⟨digest⟩ JailPf known "/var/db" runner (pure ()) view { rest := {} } := by
    refine @Passed.start ⟨digest⟩ JailPf known "/var/db" runner (pure ()) view { rest := {} }
      (fun j => ?_) fun dir => rfl
    unfold view
    split <;> rfl
  unfold firstPass
  refine @Passed.pass ⟨digest⟩ JailPf known "/var/db" runner (pure ()) view { rest := {} } [before]
    hstart fun rtr hrtr => ?_
  rw [List.mem_singleton.mp hrtr]
  exact .inl rfl

end Fronted

/-- The binat rule goes with the floating ip. -/
theorem loaded_of_clean_fronted :
    @Loaded ⟨Fronted.digest⟩ JailPf Fronted.view Sample.gateway Fronted.secondPass.2.env := by
  have hran : Fronted.secondPass.1 = some () ∧ Clean Fronted.secondPass.2 := by decide +kernel
  have hknown : ∀ rtr ∈ [Sample.gateway], rtr ∈ Fronted.known := by
    intro rtr hrtr
    rw [List.mem_singleton.mp hrtr]
    exact .inr rfl
  exact @loaded_of_clean ⟨Fronted.digest⟩ JailPf Fronted.known "/var/db" Fronted.listing
    Fronted.runner (pure ()) Fronted.view
    (Fronted.runner_pfJails Fronted.jail_known Fronted.known_listed)
    Fronted.known_apart Fronted.firstPass.2.env Fronted.firstPass_passed [Sample.gateway] hknown
    (List.nodup_singleton _) Fronted.secondPass.2 (eq_of_answer hran.1) hran.2
    Sample.gateway List.mem_cons_self

end L3

end Bsdbridge
