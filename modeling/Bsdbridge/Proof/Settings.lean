import Bsdbridge.Lib.Run
import Bsdbridge.Machine
import Bsdbridge.Proof.Issued

/-!
# The settings of a bridge member

What a bridge keeps about one of its members: the static MAC, `ifmaxaddr 1` and stickiness. This
file says once what an accepted invocation of ifconfig(8) can do to them
(**`Host.ifconfig_settings`**), and carries it over the writer: an op changes the settings only by
the invocations it issues, and a lock whose receipt is ok has made all three.

`Settings` is a view of the host for one member of one bridge: four fields out of a record that
holds every interface. An invocation about something else leaves all four alone, and the proof that
it does is the same for each field, so `Turn` states the effect on the view as a relation with one
constructor for each kind of change. Later files do cases on `Turn` and never on the argument
vectors.

A member that leaves its bridge loses all settings with it (`bare`), and an interface that is made
under a free name has none. No invocation clears a single setting: there is no such op, and the
agent never issues the commands that would.
-/

set_option autoImplicit false

namespace Bsdbridge

/-- What a bridge keeps about one interface. -/
structure Settings where
  /-- Whether the interface is a member. -/
  present : Bool
  static : Option String
  capped : Bool
  sticky : Bool
  deriving DecidableEq

namespace Settings

/-- All three settings of a member are in place. -/
def Locked (e : Settings) (mac : String) : Prop :=
  e = { present := true, static := some mac, capped := true, sticky := true }

/-- A static MAC comes with the other two settings. -/
def Complete (e : Settings) : Prop :=
  ∀ mac, e.static = some mac → e.Locked mac

/-- An invocation that takes `m` off `b`. -/
def Drops (args : List String) (b m : String) : Prop :=
  args = [b, "deletem", m] ∨ args = [b, "destroy"] ∨ args = [m, "destroy"]

/-- What an accepted invocation does to the settings of `m` on `b`. -/
inductive Turn (args : List String) (b m : String) (e : Settings) : Settings → Prop
  | same : Turn args b m e e
  | joined (cause : args = [b, "addm", m]) : Turn args b m e { e with present := true }
  /-- The member goes, or a bridge is made under a free name. -/
  | bare (e' : Settings) (cause : Drops args b m ∨ e.present = false) (present : e'.present = false)
      (static : e'.static = none) : Turn args b m e e'
  | locked (mac : String) (cause : args = [b, "static", m, mac]) (present : e.present = true) :
      Turn args b m e { e with static := some mac }
  | capped (cause : args = [b, "ifmaxaddr", m, "1"]) : Turn args b m e { e with capped := true }
  | stuck (cause : args = [b, "sticky", m]) : Turn args b m e { e with sticky := true }

end Settings

namespace Host

variable {h h' : Host} {b m : String} {args : List String}

/-- The settings of `m` on `b`. -/
def settings (h : Host) (b m : String) : Settings where
  present := decide (m ∈ h.kernel.membersOf b)
  static := h.lock b m
  capped := decide ((b, m) ∈ h.capped)
  sticky := decide ((b, m) ∈ h.sticky)

/-! ## 1. One effect

One lemma for each effect of `Host`, in terms of the view. The names of the lemma's member and of
the effect's member are told apart inside, so the cases are the two of them being equal or not. -/

open Settings

theorem settings_modify (n : String) (f : Interface → Interface) :
    (h.modify n f).settings b m =
      { h.settings b m with present := decide (m ∈ (h.modify n f).kernel.membersOf b) } := by
  unfold settings
  rw [lock_modify]
  unfold modify
  cases h.look n <;> rfl

/-- A change of an interface that touches no members. -/
theorem settings_modify_still {n : String} {f : Interface → Interface}
    (hf : ∀ i, (f i).members = i.members) : (h.modify n f).settings b m = h.settings b m := by
  have hmem : (h.modify n f).kernel.membersOf b = h.kernel.membersOf b := by
    rw [membersOf_eq, membersOf_eq, look_modify]
    split
    next hb => rw [hb, Option.map_map, show Interface.members ∘ f = Interface.members from funext hf]
    next => rfl
  rw [settings_modify, hmem]
  rfl

theorem mem_membersOf_addm (b' m' : String) : m' ∈ (h.addm b m).kernel.membersOf b' ↔
    m' ∈ h.kernel.membersOf b' ∨ (b' = b ∧ m' = m ∧ (h.look b).isSome = true) := by
  rw [membersOf_eq, membersOf_eq, look_addm]
  by_cases hb : b' = b
  · subst hb
    cases hi : h.look b' with
    | none => simp
    | some i =>
      by_cases hm : m ∈ i.members
      · simp only [if_true, Option.map_some, if_pos hm, Option.getD_some]
        constructor
        · exact Or.inl
        · rintro (h' | ⟨-, rfl, -⟩)
          · exact h'
          · exact hm
      · simp [hm]
  · simp [hb]

theorem turn_addm (b' m' : String) :
    Turn [b', "addm", m'] b m (h.settings b m) ((h.addm b' m').settings b m) := by
  have hpresent := mem_membersOf_addm (h := h) (b := b') (m := m') b m
  have hset : (h.addm b' m').settings b m =
      { h.settings b m with present := decide (m ∈ (h.addm b' m').kernel.membersOf b) } :=
    settings_modify b' _
  rw [hset]
  by_cases hc : b = b' ∧ m = m' ∧ (h.look b').isSome = true
  · rw [decide_eq_true (hpresent.mpr (Or.inr hc))]
    exact .joined (by rw [hc.1, hc.2.1])
  · simp only [hpresent, hc, or_false]
    exact .same

theorem mem_membersOf_deletem (b' m' : String) :
    m' ∈ (h.deletem b m).kernel.membersOf b' ↔
      m' ∈ h.kernel.membersOf b' ∧ ¬ (b' = b ∧ m' = m) := by
  rw [membersOf_eq, membersOf_eq, look_deletem]
  by_cases hb : b' = b
  · subst hb
    cases h.look b' <;> simp [without]
  · simp [hb]

theorem mem_membersOf_destroy {n : String} :
    m ∈ (h.destroy n).kernel.membersOf b ↔ m ∈ h.kernel.membersOf b ∧ b ≠ n ∧ m ≠ n := by
  rw [membersOf_eq, membersOf_eq, look_destroy]
  by_cases hb : b = n
  · simp [hb]
  · rw [if_neg hb]
    cases h.look b <;> simp [without, hb]

theorem settings_forget (p : String → String → Bool) : (h.forget p).settings b m =
    if p b m then ⟨decide (m ∈ h.kernel.membersOf b), none, false, false⟩ else h.settings b m := by
  unfold settings
  rw [lock_forget]
  cases hp : p b m with
  | true =>
    simp [forget, hp]
    rfl
  | false =>
    simp [forget, hp]
    rfl

theorem turn_deletem (b' m' : String) :
    Turn [b', "deletem", m'] b m (h.settings b m) ((h.deletem b' m').settings b m) := by
  have hpresent := mem_membersOf_deletem (h := h) (b := b') (m := m') b m
  by_cases hc : b = b' ∧ m = m'
  · obtain ⟨rfl, rfl⟩ := hc
    refine .bare _ (.inl (.inl rfl)) ?_ ?_
    · simp [settings, hpresent]
    · simp [settings]
  · have hsame : (h.deletem b' m').settings b m = h.settings b m := by
      have hp : (decide (b = b') && decide (m = m')) = false := by simpa using hc
      have hold : m ∈ (h.modify b' (without · m')).kernel.membersOf b ↔
          m ∈ h.kernel.membersOf b := hpresent.trans (and_iff_left hc)
      unfold deletem
      rw [settings_forget, hp, if_neg Bool.false_ne_true, settings_modify]
      simp only [hold]
      rfl
    rw [hsame]
    exact .same

theorem turn_destroy (n : String) :
    Turn [n, "destroy"] b m (h.settings b m) ((h.destroy n).settings b m) := by
  have hpresent := mem_membersOf_destroy (h := h) (b := b) (m := m) (n := n)
  by_cases hc : b = n ∨ m = n
  · refine .bare _ ?_ ?_ ?_
    · rcases hc with rfl | rfl
      · exact .inl (.inr (.inl rfl))
      · exact .inl (.inr (.inr rfl))
    · have hgone : ¬ (b ≠ n ∧ m ≠ n) := by tauto
      simp [settings, hpresent, hgone]
    · simp [settings, hc]
  · have hsame : (h.destroy n).settings b m = h.settings b m := by
      have hp : (decide (b = n) || decide (m = n)) = false := by simpa using hc
      have hold : m ∈ (h.destroy n).kernel.membersOf b ↔ m ∈ h.kernel.membersOf b :=
        hpresent.trans (and_iff_left (not_or.mp hc))
      have hset : (h.destroy n).settings b m =
          { h.settings b m with present := decide (m ∈ (h.destroy n).kernel.membersOf b) } := by
        conv_lhs => unfold destroy
        rw [settings_forget, hp, if_neg Bool.false_ne_true]
        rfl
      rw [hset]
      simp only [hold]
      rfl
    rw [hsame]
    exact .same

/-- An interface made under a free name has no members. -/
theorem turn_clone {i : Interface} (hi : i.members = []) (he : h.clone i = some h') :
    Turn args b m (h.settings b m) (h'.settings b m) := by
  unfold clone at he
  split at he
  · exact absurd he (by simp)
  rename_i hfree
  rw [Bool.not_eq_true, Option.isSome_eq_false_iff, Option.isNone_iff_eq_none] at hfree
  obtain rfl := Option.some.inj he
  have hcreate : h.create i =
      { h with kernel :=
          { interfaces := h.kernel.interfaces.insert i.name i
            owned := h.kernel.owned ++ [i.name]
            addrs := h.kernel.addrs.erase i.name } } := by
    unfold create
    rw [hfree]
  by_cases hb : b = i.name
  · have hnone : m ∉ h.kernel.membersOf b := by
      rw [membersOf_eq, hb, hfree]
      exact List.not_mem_nil
    have hnone' : m ∉ (h.create i).kernel.membersOf b := by
      rw [membersOf_eq, look_create, if_pos ⟨hb, hfree⟩]
      simp [hi]
    refine .bare _ (.inr ?_) ?_ ?_
    · simp [settings, hnone]
    · simp [settings, hnone']
    · simp [settings, hb, hfree]
  · have hmem : (h.create i).kernel.membersOf b = h.kernel.membersOf b := by
      rw [membersOf_eq, membersOf_eq, look_create, if_neg fun hc => hb hc.1]
    have hsame : (h.create i).settings b m = h.settings b m := by
      unfold settings
      rw [hmem, lock_create, if_neg fun hc => hb hc.1, hcreate]
    rw [hsame]
    exact .same

theorem of_member {h₁ : Host} (he : h.ofMember b m h₁ = some h') :
    m ∈ h.kernel.membersOf b ∧ h₁ = h' := by
  unfold ofMember at he
  split at he
  · exact ⟨‹_›, Option.some.inj he⟩
  · exact absurd he (by simp)

/-- The setting an `ofMember` invocation makes is made on the member it names only. -/
theorem turn_ofMember {b' m' : String} {h₁ : Host} {e : Settings}
    (he : h.ofMember b' m' h₁ = some h')
    (hset : h₁.settings b m = if b = b' ∧ m = m' then e else h.settings b m)
    (hturn : b = b' → m = m' → (h.settings b m).present = true →
      Turn args b m (h.settings b m) e) :
    Turn args b m (h.settings b m) (h'.settings b m) := by
  obtain ⟨hm, rfl⟩ := of_member he
  rw [hset]
  split
  next hc =>
    obtain ⟨rfl, rfl⟩ := hc
    exact hturn rfl rfl (decide_eq_true hm)
  next => exact .same

theorem settings_setStatic (b' m' mac : String) : (h.setStatic b' m' mac).settings b m =
    if b = b' ∧ m = m' then { h.settings b m with static := some mac } else h.settings b m := by
  unfold settings
  rw [lock_setStatic]
  split <;> rfl

theorem settings_setCapped (b' m' : String) : (h.setCapped b' m').settings b m =
    if b = b' ∧ m = m' then { h.settings b m with capped := true } else h.settings b m := by
  have hmem : ((b, m) ∈ (h.setCapped b' m').capped) ↔ (b = b' ∧ m = m') ∨ (b, m) ∈ h.capped := by
    simp [setCapped]
  unfold settings
  simp only [hmem]
  by_cases hc : b = b' ∧ m = m'
  · simp only [hc, and_self, true_or, decide_true, if_true]
    rfl
  · simp only [hc, false_or, if_false]
    rfl

theorem settings_setSticky (b' m' : String) : (h.setSticky b' m').settings b m =
    if b = b' ∧ m = m' then { h.settings b m with sticky := true } else h.settings b m := by
  have hmem : ((b, m) ∈ (h.setSticky b' m').sticky) ↔ (b = b' ∧ m = m') ∨ (b, m) ∈ h.sticky := by
    simp [setSticky]
  unfold settings
  simp only [hmem]
  by_cases hc : b = b' ∧ m = m'
  · simp only [hc, and_self, true_or, decide_true, if_true]
    rfl
  · simp only [hc, false_or, if_false]
    rfl

/-- **What an accepted invocation does to the settings of a member.** -/
theorem ifconfig_settings (he : h.ifconfig args = some h') (b m : String) :
    Turn args b m (h.settings b m) (h'.settings b m) := by
  unfold ifconfig at he
  split at he
  next b' m' =>
    obtain rfl := Option.some.inj he
    exact turn_addm b' m'
  next b' m' =>
    obtain rfl := Option.some.inj he
    exact turn_deletem b' m'
  next b' m' =>
    refine turn_ofMember he (settings_setSticky b' m') ?_
    rintro rfl rfl -
    exact .stuck rfl
  next b' v =>
    obtain ⟨n, -, rfl⟩ := Option.map_eq_some_iff.mp he
    have hsame : (h.setMaxaddr b' n).settings b m = h.settings b m :=
      settings_modify_still (f := fun i => { i with maxaddr := some n }) fun _ => rfl
    rw [hsame]
    exact .same
  next b' m' mac =>
    refine turn_ofMember he (settings_setStatic b' m' mac) ?_
    rintro rfl rfl hp
    exact .locked mac rfl hp
  next b' m' =>
    refine turn_ofMember he (settings_setCapped b' m') ?_
    rintro rfl rfl -
    exact .capped rfl
  next n =>
    obtain rfl := Option.some.inj he
    exact turn_destroy n
  · exact turn_clone rfl he
  · exact turn_clone rfl he
  · exact turn_clone rfl he
  · exact turn_clone rfl he
  · exact turn_clone rfl he
  · obtain rfl := Option.some.inj he
    exact .same

end Host

namespace Settings

variable {args : List String} {b m mac : String} {e e' : Settings}

/-! ## 2. What an invocation keeps

What the history of `Proof/Retry` carries from state to state. -/

/-- Only a new static MAC can leave settings incomplete. -/
theorem Complete.turn (hc : e.Complete) (ht : Turn args b m e e')
    (hs : ∀ mac, args = [b, "static", m, mac] → e.capped = true ∧ e.sticky = true) :
    e'.Complete := by
  intro mac hl
  cases ht with
  | same => exact hc mac hl
  | joined cause =>
    have hfull : e.Locked mac := hc mac hl
    rw [hfull]
    rfl
  | bare e' cause present static =>
    rw [static] at hl
    exact absurd hl (by simp)
  | locked mac' cause present =>
    obtain ⟨hcap, hst⟩ := hs mac' cause
    obtain rfl := Option.some.inj hl
    show _ = _
    rw [present, hcap, hst]
  | capped cause =>
    have hfull : e.Locked mac := hc mac hl
    rw [hfull]
    rfl
  | stuck cause =>
    have hfull : e.Locked mac := hc mac hl
    rw [hfull]
    rfl

/-- A locked member stays so until it is taken off, or another MAC is set. -/
theorem Locked.turn (hl : e.Locked mac) (ht : Turn args b m e e') (hd : ¬ Drops args b m)
    (hs : ∀ mac', args = [b, "static", m, mac'] → mac' = mac) : e'.Locked mac := by
  have hpresent : e.present = true := by rw [hl]
  cases ht with
  | same => exact hl
  | joined cause =>
    rw [hl]
    rfl
  | bare e' cause present static =>
    rcases cause with hdrop | hgone
    · exact absurd hdrop hd
    · rw [hpresent] at hgone
      exact absurd hgone (by decide)
  | locked mac' cause present =>
    rw [hs mac' cause, hl]
    rfl
  | capped cause =>
    rw [hl]
    rfl
  | stuck cause =>
    rw [hl]
    rfl

/-- What is no unlocked member does not become one without `addm` or another MAC. -/
theorem Turn.present_locked (ht : Turn args b m e e') (hl : e.present = true → e.Locked mac)
    (hj : args ≠ [b, "addm", m]) (hs : ∀ mac', args ≠ [b, "static", m, mac']) :
    e'.present = true → e'.Locked mac := by
  intro hp
  cases ht with
  | same => exact hl hp
  | joined cause => exact absurd cause hj
  | bare e' cause present static =>
    rw [present] at hp
    exact absurd hp (by decide)
  | locked mac' cause present => exact absurd cause (hs mac')
  | capped cause =>
    have hfull : e.Locked mac := hl hp
    rw [hfull]
    rfl
  | stuck cause =>
    have hfull : e.Locked mac := hl hp
    rw [hfull]
    rfl

end Settings

end Bsdbridge
