import Bsdbridge.Proof.Disk
import Bsdbridge.Proof.RouterScope

/-!
# The changes of an l3 pass on the disk

Each part of `l3_agent/reconcile.py` with what it writes: the directory of a router, its pf.conf,
and, of the directories nobody desires, that they go.

A pf.conf is written before it is loaded, and only what was rendered is written. `Proof/RouterPf`
carries that over histories; here are the parts of one pass, each with the set of changes it may
make, so that an invariant about files is proved by looking at the changes and at no command.
-/

set_option autoImplicit false

namespace Bsdbridge

namespace L3

open Prog Actions Files

variable {ρ : Type} {cmd : Command (Site ρ)} {pause : Prog (Site ρ) Unit}
  {F : (Disk → Disk) → Prop} {base : String}

theorem forwarding_calm {rtr : Router} : Within cmd (Calm pause F) (forwarding cmd rtr) :=
  (within_run trivial).bind fun _ => within_actIf trivial

theorem portsFrom_calm {rtr : Router} {ps : List (Port × Bool)} :
    Within cmd (Calm pause F) (portsFrom cmd rtr ps) := by
  induction ps with
  | nil => exact within_pure
  | cons p rest ih =>
    have hport : Within cmd (Calm pause F) (port cmd rtr p) := by
      refine (Jail.ensureEpair_within ⟨trivial, trivial, trivial, trivial, trivial⟩
        ⟨trivial, fun _ => trivial, fun _ => trivial, fun _ => trivial, trivial⟩).bind fun text => ?_
      cases text with
      | none => exact within_pure
      | some text =>
        exact (Jail.ensureAddrs_within trivial fun _ _ => trivial).bind fun _ => within_pure
    exact hport.bind fun _ => ih.bind fun _ => within_pure

theorem upToPorts_calm {rtr : Router} (hdirs : F fun d => d.makedirs rtr.id) :
    Within cmd (Calm pause F) (upToPorts cmd pause rtr) := by
  refine (change_calm hdirs).bind fun _ => ?_
  refine (Jail.ensureJail_within trivial trivial trivial).bind fun ok => ?_
  split
  · exact forwarding_calm.bind fun _ => portsFrom_calm.bind fun _ => within_pure
  · exact within_pure

theorem routes_calm {rtr : Router} : Within cmd (Calm pause F) (routes cmd rtr) :=
  routes_within ⟨fun _ => trivial, fun _ => trivial⟩

theorem writePf_calm {rtr : Router} {text cfgHash : String}
    (hwrite : F fun d => d.write rtr.id "pf.conf" text) :
    Within cmd (Calm pause F) (writePf pause rtr text cfgHash) := by
  refine (writeIfChanged_calm hwrite).bind fun dirty => ?_
  split
  · exact within_note
  · exact within_pure

theorem gc_calm {desired : List Router}
    (herase : ∀ dir, dir ∉ (desired.map Router.id).toFinset → F fun d => d.erase dir) :
    Within cmd (Calm pause F) (gc cmd pause desired) :=
  (Jail.collect_within (fun _ => trivial) (fun _ => trivial) (fun _ _ => trivial)
    fun _ _ => trivial).bind fun _ => removeState_calm herase

/-- What is there before the pass is read without a change of the environment. -/
theorem opening_calm {J : Site ρ → Prop} (hcmd : ∀ argv, Keeps J (cmd argv)) :
    Keeps (fun t => J t.env) (opening cmd : Prog (Pass (Site ρ)) Unit) := by
  have hclosed : Closed cmd (Calm (pure ()) fun _ => False) fun t => J t.env :=
    closed_env hcmd fun _ hf => hf.elim
  exact opening_keeps hclosed trivial trivial fun _ _ _ ht => ht

variable [Hashlib]

theorem pf_calm {rtr : Router}
    (hwrite : ∀ text cfgHash, rtr.pfText = some (text, cfgHash) →
      F fun d => d.write rtr.id "pf.conf" text) :
    Within cmd (Calm pause F) (pf cmd pause base rtr) := by
  unfold pf
  split
  · exact within_stop
  · rename_i text cfgHash htext
    exact (writePf_calm (hwrite text cfgHash htext)).bind fun _ => (within_run trivial).bind fun _ =>
      (within_actIf trivial).bind fun _ => (within_run trivial).bind fun _ => within_actIf trivial

theorem router_calm {rtr : Router} (hdirs : F fun d => d.makedirs rtr.id)
    (hwrite : ∀ text cfgHash, rtr.pfText = some (text, cfgHash) →
      F fun d => d.write rtr.id "pf.conf" text) :
    Within cmd (Calm pause F) (router cmd pause base rtr) := by
  unfold router
  refine (upToPorts_calm hdirs).bind fun complete => ?_
  cases complete with
  | none => exact within_pure
  | some complete =>
    refine Within.bind ?_ fun _ => pf_calm hwrite
    split
    · exact routes_calm
    · exact within_pure

/-- What the commands keep, and the changes of the pass, is kept by the pass. -/
theorem reconcile_keeps {J : Site ρ → Prop} {desired : List Router}
    (hcmd : ∀ argv, Keeps J (cmd argv))
    (hchange : ∀ f, F f → Keeps J do pause; update fun e : Site ρ => { e with disk := f e.disk })
    (hdirs : ∀ rtr ∈ desired, F fun d => d.makedirs rtr.id)
    (hwrite : ∀ rtr ∈ desired, ∀ text cfgHash, rtr.pfText = some (text, cfgHash) →
      F fun d => d.write rtr.id "pf.conf" text)
    (herase : ∀ dir, F fun d => d.erase dir) :
    Keeps (fun t => J t.env) (reconcile cmd pause base desired) := by
  have hclosed : Closed cmd (Calm pause F) fun t => J t.env := closed_env hcmd hchange
  refine (opening_calm hcmd).bind fun _ => Keeps.bind ?_ fun _ => ?_
  · refine keeps_forM fun rtr hrtr => ?_
    have hone : Within cmd (Calm pause F) (router cmd pause base rtr) :=
      router_calm (hdirs rtr hrtr) (hwrite rtr hrtr)
    exact hone _ hclosed
  · have hgc : Within cmd (Calm pause F) (gc cmd pause desired) := gc_calm fun dir _ => herase dir
    exact hgc _ hclosed

end L3

end Bsdbridge
