import Bsdbridge.PfMachine
import Bsdbridge.Proof.Listing
import Bsdbridge.Proof.History

/-!
# Established states and their permission

A load kills the states of its interface, because pf does not look at the rules again for a packet
of an established state. But the kill is a listing and one command for each id, and the receipt of
the load is ok without them; and a table that loses a member kills nothing. Where neither happens
to a state that the anchor no longer passes, no state outlives its permission
(**`permitted_of_history`**), whatever fails and whatever traffic there is.

A state is *admitted* when the anchor of its interface, if there is one, passes its traffic, and
`PfKernel.Permitted` asks that of every state of the kernel at once. What an anchor passes is a
parameter, `passes`, that this file never opens. Traffic is `Drifts`: between two commands new
states come, each admitted by the anchors as they are, and old ones may expire.

## Why the condition is about the machine

`SeesTo` speaks of the commands an op would run at a state, not of receipts. A receipt cannot say
it: `_kill_port_states` swallows every failure of its commands, so a load with an ok receipt may
have killed nothing. The condition asks that the kill happens for the states that need it and for
no others; a load that goes on passing what is established owes nothing.

What a pass reads of the kernel does not enter either. The history is over any views, also wrong
ones, and any configs, since permission only looks at what was loaded last.
-/

set_option autoImplicit false

namespace Bsdbridge

/-! ## 1. Reading a listing

`_parse_state_ids` finds the id of each state on an interface that `pfctl -vvss` shows. Only that
it finds them all is used here: an id too many is one command more, which kills nothing that is
still permitted by the law of the machine. -/

namespace Pf

variable {n : String} {st : Option String × List String} {line : String}

/-- A line adds ids and takes none away. -/
theorem stateLine_keeps {id : String} (h : id ∈ st.2) : id ∈ (stateLine n st line).2 := by
  unfold stateLine
  split
  · exact h
  · split
    · split
      · split
        · exact List.mem_append_left _ h
        · exact h
      · exact h
    · exact h

/-- An indented line belongs to the interface under way. -/
theorem stateLine_under {text : String} : (stateLine n st ("   " ++ text)).1 = st.1 := by
  have hl : ("   " ++ text).toList = ' ' :: ("  " ++ text).toList := by simp
  have hsp : Text.isSpace ' ' = true := by decide
  unfold stateLine
  rw [hl]
  simp only [hsp, if_true]
  split
  · split <;> rfl
  · rfl

/-- An id line gives the id. -/
theorem mem_stateLine_id {id more : String} (hst : st.1 = some n)
    (hid : id.toList ≠ [] ∧ ∀ c ∈ id.toList, isLowerHex c = true) :
    id ∈ (stateLine n st ("   id: " ++ id ++ " " ++ more)).2 := by
  have hpad : Text.Blanks "   " := by decide +kernel
  have hline := @stateLine_id n st "   " id more hpad hid
  rw [show "   id: " = "   " ++ "id: " from rfl, hline, if_pos hst]
  exact List.mem_append_right _ (List.mem_singleton_self id)

/-- The reader finds the id of every state the listing shows. -/
theorem mem_parseStateIds {T : Type} {out : String} {st : Established T}
    (h : PfKernel.Lists out st) : st.id ∈ parseStateIds out st.ifname := by
  obtain ⟨pre, under, post, rest, more, hlines, hunder⟩ := h
  unfold parseStateIds
  rw [hlines, List.foldl_append, List.foldl_cons, stateLine_head st.ifname_word, List.foldl_append,
    List.foldl_cons]
  have hcur : (under.foldl (stateLine st.ifname) (some st.ifname,
      (pre.foldl (stateLine st.ifname) (none, [])).2)).1 = some st.ifname := by
    refine foldl_keeps (fun t : Option String × List String => t.1 = some st.ifname) rfl ?_
    intro line hline t ht
    obtain ⟨text, rfl⟩ := hunder line hline
    rw [stateLine_under]
    exact ht
  refine foldl_keeps (fun t : Option String × List String => st.id ∈ t.2)
    (mem_stateLine_id hcur st.id_hex) ?_
  intro line _ t ht
  exact stateLine_keeps ht

end Pf

/-! ## 2. One command

Two kinds of command: those that give no anchor anything new (`Spares`), after which what was
permitted still is, and a load or a table replacement, after which a state may have lost its
permission. -/

namespace PfKernel

variable {T : Type} {passes : PfAnchor → T → Prop} {k k' : PfKernel T} {st : Established T}

theorem anchorName_inj {n n' : String} (h : Pf.anchorName n = Pf.anchorName n') : n = n' := by
  unfold Pf.anchorName at h
  exact String.append_right_inj _ |>.mp h

theorem Drifts.admits (hd : Drifts passes k k') : k'.Admits passes st ↔ k.Admits passes st := by
  unfold Admits anchorAt
  rw [hd.1]

theorem Drifts.permitted (hd : Drifts passes k k') (hp : k.Permitted passes) :
    k'.Permitted passes := by
  intro st hst
  rw [hd.admits]
  rcases hd.2 st hst with hold | hnew
  · exact hp st hold
  · exact hnew

/-- The commands that give no anchor anything new: the queries, the kills and the flushes. -/
inductive Spares : List String → Prop
  | list : Spares ["-vvss"]
  | kill (id : String) : Spares ["-k", "id", "-k", id]
  | reread (path : String) : Spares ["-a", path, "-sr"]
  | flush (path : String) : Spares ["-a", path, "-F", "all"]

theorem Spares.permitted {args : List String} (hs : Spares args) {input : Option String}
    (hp : k.Permitted passes) : (k.pfctl input args).Permitted passes := by
  cases hs with
  | list => exact hp
  | kill id =>
    intro st hst
    exact hp st (List.mem_of_mem_filter hst)
  | reread path => exact hp
  | flush path =>
    intro st hst a ha
    refine hp st hst a ?_
    have herase : (k.anchors.erase path).get? (Pf.anchorName st.ifname) = some a := ha
    rw [Dict.get?_erase] at herase
    split at herase
    · exact absurd herase (by simp)
    · exact herase

theorem anchorAt_setTable {n t n' : String} {ms : List String} :
    (k.setTable (Pf.anchorName n) t ms).anchorAt n' = if n' = n then
      (k.anchorAt n).map (fun a => { a with tables := a.tables.insert t ms })
    else k.anchorAt n' := by
  unfold setTable anchorAt
  cases hn : k.anchors.get? (Pf.anchorName n) with
  | none =>
    by_cases hn' : n' = n
    · simp [hn', hn]
    · simp [hn']
  | some a =>
    have hkey : Pf.anchorName n' = Pf.anchorName n ↔ n' = n := ⟨anchorName_inj, fun h => by rw [h]⟩
    simp [hkey]

theorem states_setTable {path t : String} {ms : List String} :
    (k.setTable path t ms).states = k.states := by
  unfold setTable
  cases k.anchors.get? path <;> rfl

/-- What a load admits: its own text on its interface, and what was admitted elsewhere. -/
theorem admits_load {n text : String} :
    (k.pfctl (some text) ["-a", Pf.anchorName n, "-f", "-"]).Admits passes st ↔
      if st.ifname = n then passes { text } st.traffic else k.Admits passes st := by
  have hanchor : (k.pfctl (some text) ["-a", Pf.anchorName n, "-f", "-"]).anchorAt st.ifname =
      if st.ifname = n then some { text } else k.anchorAt st.ifname := by
    have hkey : Pf.anchorName st.ifname = Pf.anchorName n ↔ st.ifname = n :=
      ⟨anchorName_inj, fun h => by rw [h]⟩
    show (k.anchors.insert (Pf.anchorName n) { text }).get? (Pf.anchorName st.ifname) = _
    rw [Dict.get?_insert]
    simp only [hkey]
    rfl
  unfold Admits
  rw [hanchor]
  split
  · simp
  · rfl

end PfKernel

namespace PfMachine

open PfKernel Writer

variable {T σ : Type} {passes : PfAnchor → T → Prop} {run : Runner σ} {kernel : σ → PfKernel T}
  {s : σ}

theorem permitted_spares (M : PfMachine passes run kernel) {args : List String} (hs : Spares args)
    (timeout : Option Nat) (input : Option String) (hp : (kernel s).Permitted passes) :
    (kernel ((run (PFCTL :: args) timeout input).run s).2).Permitted passes := by
  cases hok : ((run (PFCTL :: args) timeout input).run s).1.ok with
  | true => exact (M.effect args timeout input s hok).permitted (hs.permitted hp)
  | false =>
    rcases M.failure args timeout input s hok with hd | ⟨path, -, hd⟩
    · exact hd.permitted hp
    · exact hd.permitted (hs.permitted hp)

/-! ## 3. One op

`Widens` is the table's half of the condition. It is vacuous when the table replacement fails,
and when no state is established on the interface. -/

/-- An op that neither loads an anchor nor changes a table. -/
theorem permitted_quiet (M : PfMachine passes run kernel) {x : Op}
    (hload : ∀ n f r c, x ≠ .loadAnchor n f r c) (htab : ∀ n t ms, x ≠ .replaceTable n t ms)
    (hp : (kernel s).Permitted passes) :
    (kernel ((apply run false x).run s).2).Permitted passes := by
  refine apply_keeps (I := fun t => (kernel t).Permitted passes) ?_ hp
  intro argv timeout input t hi ht
  cases hi with
  | own x =>
    cases x with
    | loadAnchor n f r c => exact absurd rfl (hload n f r c)
    | replaceTable n t ms => exact absurd rfl (htab n t ms)
    | flushAnchor n => exact M.permitted_spares (.flush _) timeout input ht
    | _ => exact (M.other _ timeout input t).permitted ht
  | lock hargv =>
    unfold lockArgvs at hargv
    simp only [List.mem_cons, List.not_mem_nil, or_false] at hargv
    rcases hargv with rfl | rfl | rfl
    · exact (M.other _ timeout input t).permitted ht
    · exact (M.other _ timeout input t).permitted ht
    · exact (M.other _ timeout input t).permitted ht
  | recheckIface n => exact (M.other _ timeout input t).permitted ht
  | recheckBridge n => exact (M.other _ timeout input t).permitted ht
  | list x => exact M.permitted_spares .list timeout input ht
  | kill x id => exact M.permitted_spares (.kill id) timeout input ht
  | reread n => exact M.permitted_spares (.reread _) timeout input ht

/-- Every state on `n` would pass with the new contents of its table, were they set. -/
def Widens (passes : PfAnchor → T → Prop) (k : PfKernel T) (n t : String) (ms : List String) :
    Prop :=
  ∀ st ∈ k.states, st.ifname = n → ∀ a, k.anchorAt n = some a →
    passes { a with tables := a.tables.insert t ms } st.traffic

theorem argvFor_table (n t : String) (ms : List String) :
    ∃ args, argvFor (.replaceTable n t ms) = PFCTL :: args ∧
      (∀ (k : PfKernel T) input, k.pfctl input args = k.setTable (Pf.anchorName n) t ms) ∧
      ∀ path, args ≠ ["-a", path, "-F", "all"] := by
  show ∃ args, (if ms = [] then _ else _) = _ ∧ _
  by_cases hms : ms = []
  · subst hms
    refine ⟨_, if_pos rfl, fun k input => rfl, ?_⟩
    intro path h
    simp at h
  · refine ⟨_, if_neg hms, fun k input => rfl, ?_⟩
    intro path h
    simp at h

/-- A table that goes on admitting what is established. -/
theorem permitted_replace (M : PfMachine passes run kernel) {n t : String} {ms : List String}
    (hw : ((run (argvFor (.replaceTable n t ms)) none none).run s).1.ok = true →
      Widens passes (kernel s) n t ms)
    (hp : (kernel s).Permitted passes) :
    (kernel ((apply run false (.replaceTable n t ms)).run s).2).Permitted passes := by
  have hrun : ((apply run false (.replaceTable n t ms)).run s).2 =
      ((run (argvFor (.replaceTable n t ms)) none none).run s).2 := rfl
  obtain ⟨args, hargs, heffect, hno⟩ := argvFor_table (T := T) n t ms
  rw [hrun]
  rw [hargs] at hw ⊢
  cases hok : ((run (PFCTL :: args) none none).run s).1.ok with
  | false =>
    rcases M.failure args none none s hok with hd | ⟨path, hpath, -⟩
    · exact hd.permitted hp
    · exact absurd hpath (hno path)
  | true =>
    refine (M.effect args none none s hok).permitted ?_
    rw [heffect]
    intro st hst a ha
    rw [states_setTable] at hst
    rw [anchorAt_setTable] at ha
    split at ha
    next hn =>
      obtain ⟨a', ha', rfl⟩ := Option.map_eq_some_iff.mp ha
      exact hw hok st hst hn a' ha'
    next => exact hp st hst a ha

/-! ## 4. A load and its kills

Between the load and the last kill there are states without permission; `Gone` follows one such
state until its own id comes up in the loop. The traffic in between cannot bring it back. -/

theorem drifts_list (M : PfMachine passes run kernel) (s : σ) :
    Drifts passes (kernel s) (kernel ((run [PFCTL, "-vvss"] none none).run s).2) := by
  cases hok : ((run [PFCTL, "-vvss"] none none).run s).1.ok with
  | true => exact M.effect ["-vvss"] none none s hok
  | false =>
    rcases M.failure ["-vvss"] none none s hok with hd | ⟨path, hpath, -⟩
    · exact hd
    · exact absurd hpath (by simp)

theorem drifts_kill (M : PfMachine passes run kernel) (id : String) (s : σ) :
    Drifts passes (kernel s) (kernel ((run [PFCTL, "-k", "id", "-k", id] none none).run s).2) := by
  cases hok : ((run [PFCTL, "-k", "id", "-k", id] none none).run s).1.ok with
  | true =>
    have hd := M.effect ["-k", "id", "-k", id] none none s hok
    refine ⟨hd.1, fun st hst => ?_⟩
    rcases hd.2 st hst with hold | hnew
    · exact Or.inl (List.mem_of_mem_filter hold)
    · exact Or.inr hnew
  | false =>
    rcases M.failure ["-k", "id", "-k", id] none none s hok with hd | ⟨path, hpath, -⟩
    · exact hd
    · exact absurd hpath (by simp)

/-- After the load of `text` at `s`, the listing works and so does the kill of every state of
`n` that the text does not pass, if there is any. -/
def Clears (passes : PfAnchor → T → Prop) (run : Runner σ) (kernel : σ → PfKernel T)
    (n text : String) (s : σ) : Prop :=
  let load := (run [PFCTL, "-a", Pf.anchorName n, "-f", "-"] none (some text)).run s
  let listing := (run [PFCTL, "-vvss"] none none).run load.2
  load.1.ok = true → ∀ st ∈ (kernel s).states, st.ifname = n → ¬ passes { text } st.traffic →
    listing.1.ok = true ∧
      Before (fun t id => ((run [PFCTL, "-k", "id", "-k", id] none none).run t).2)
        (fun t id => id = st.id → ((run [PFCTL, "-k", "id", "-k", id] none none).run t).1.ok = true)
        (Pf.parseStateIds listing.1.out n) listing.2

/-- A state that is not admitted is gone, and stays so. -/
def Gone (anchors : Dict String PfAnchor) (st : Established T) (k : PfKernel T) : Prop :=
  k.anchors = anchors ∧ st ∉ k.states

theorem Gone.drifts {anchors : Dict String PfAnchor} {st : Established T} {k k' : PfKernel T}
    (hg : Gone anchors st k) (hno : ¬ k.Admits passes st) (hd : Drifts passes k k') :
    Gone anchors st k' := by
  refine ⟨hd.1.trans hg.1, fun hst => ?_⟩
  rcases hd.2 st hst with hold | hnew
  · exact hg.2 hold
  · exact hno hnew

/-- A state that the anchors do not admit does not outlive a kill of its interface. -/
theorem gone_of_kill (M : PfMachine passes run kernel) {st : Established T}
    (hno : ¬ (kernel s).Admits passes st)
    (hclear : ((run [PFCTL, "-vvss"] none none).run s).1.ok = true ∧
      Before (fun t id => ((run [PFCTL, "-k", "id", "-k", id] none none).run t).2)
        (fun t id => id = st.id → ((run [PFCTL, "-k", "id", "-k", id] none none).run t).1.ok = true)
        (Pf.parseStateIds ((run [PFCTL, "-vvss"] none none).run s).1.out st.ifname)
        ((run [PFCTL, "-vvss"] none none).run s).2) :
    Gone (kernel s).anchors st (kernel ((Pf.killPortStates st.ifname run).run s).2) := by
  obtain ⟨hok, hkills⟩ := hclear
  -- the anchors stay, so the state is not admitted at any point of the kill
  have hnot : ∀ t, (kernel t).anchors = (kernel s).anchors → ¬ (kernel t).Admits passes st := by
    intro t ht
    unfold Admits anchorAt
    rw [ht]
    exact hno
  have hlist := M.drifts_list s
  rw [run_killPortStates]
  dsimp only
  rw [if_pos hok]
  have hmid : ∀ t, (kernel t).anchors = (kernel s).anchors → ∀ id,
      (kernel ((run [PFCTL, "-k", "id", "-k", id] none none).run t).2).anchors =
        (kernel s).anchors := fun t ht id => (M.drifts_kill id t).1.trans ht
  by_cases hst : st ∈ (kernel ((run [PFCTL, "-vvss"] none none).run s).2).states
  · rcases M.listing s hok st hst with hshown | hadm
    · have hids := hkills.and_keeps (J := fun t => (kernel t).anchors = (kernel s).anchors)
        hlist.1 fun id _ t ht => hmid t ht id
      refine hids.attains (Q := fun t => Gone (kernel s).anchors st (kernel t)) ?_
        (Or.inr ⟨st.id, Pf.mem_parseStateIds hshown, fun t ht => ?_⟩)
      · intro id _ t ht hg
        exact hg.drifts (hnot t ht.1) (M.drifts_kill id t)
      · refine ⟨hmid t ht.1 st.id, fun hin => ?_⟩
        rcases (M.effect ["-k", "id", "-k", st.id] none none t (ht.2 rfl)).2 st hin with
          hold | hnew
        · simp [pfctl] at hold
        · exact hnot t ht.1 hnew
    · exact absurd hadm hno
  · exact foldl_keeps (fun t => Gone (kernel s).anchors st (kernel t)) ⟨hlist.1, hst⟩
      fun id _ t ht => ht.drifts (hnot t ht.1) (M.drifts_kill id t)

/-- A load that clears what it no longer passes. -/
theorem permitted_load (M : PfMachine passes run kernel) {n f c : String} {r : Pf.Ruleset}
    (hc : Clears passes run kernel n r.text s) (hp : (kernel s).Permitted passes) :
    (kernel ((apply run false (.loadAnchor n f r c)).run s).2).Permitted passes := by
  have hrun : ((apply run false (.loadAnchor n f r c)).run s).2 =
      if ((run (argvFor (.loadAnchor n f r c)) none (some r.text)).run s).1.ok = true then
        ((Pf.killPortStates n run).run
          ((run (argvFor (.loadAnchor n f r c)) none (some r.text)).run s).2).2
      else ((run (argvFor (.loadAnchor n f r c)) none (some r.text)).run s).2 := by
    unfold apply execute
    rw [if_neg Bool.false_ne_true]
    simp only [run_seq]
    split <;> rfl
  rw [hrun]
  unfold Clears at hc
  dsimp only at hc
  have hargv : argvFor (.loadAnchor n f r c) = [PFCTL, "-a", Pf.anchorName n, "-f", "-"] := rfl
  rw [hargv]
  cases hok : ((run [PFCTL, "-a", Pf.anchorName n, "-f", "-"] none (some r.text)).run s).1.ok with
  | false =>
    rw [if_neg Bool.false_ne_true]
    rcases M.failure ["-a", Pf.anchorName n, "-f", "-"] none _ s hok with hd | ⟨path, hpath, -⟩
    · exact hd.permitted hp
    · exact absurd hpath (by simp)
  | true =>
    rw [if_pos rfl]
    have hload := M.effect ["-a", Pf.anchorName n, "-f", "-"] none (some r.text) s hok
    have hclear := hc hok
    generalize ((run [PFCTL, "-a", Pf.anchorName n, "-f", "-"] none (some r.text)).run s).2 = s₁
      at hload hclear ⊢
    have hkept : ∀ {P : PfKernel T → Prop}, (∀ k k', Drifts passes k k' → P k → P k') →
        P (kernel s₁) → P (kernel ((Pf.killPortStates n run).run s₁).2) := by
      intro P hP hs
      refine killPortStates_keeps (I := fun t => P (kernel t)) ?_ ?_ hs
      · intro t ht
        exact hP _ _ (M.drifts_list t) ht
      · intro id t ht
        exact hP _ _ (M.drifts_kill id t) ht
    intro st hst
    have hadmits : (kernel ((Pf.killPortStates n run).run s₁).2).Admits passes st ↔
        (kernel s₁).Admits passes st :=
      hkept (P := fun k => k.Admits passes st ↔ (kernel s₁).Admits passes st)
        (fun k k' hd h => hd.admits.trans h) Iff.rfl
    rw [hadmits]
    by_contra hno
    have hnew := hno
    rw [hload.admits, admits_load] at hnew
    -- what is not admitted was established before the load
    have hold : st ∈ (kernel s).states := by
      by_contra hnot
      have hgone : st ∉ (kernel s₁).states := fun hin => by
        rcases hload.2 st hin with h | h
        · exact hnot h
        · exact hno (hload.admits.mpr h)
      have hend := hkept (P := fun k => ¬ k.Admits passes st ∧ st ∉ k.states)
        (fun k k' hd h => ⟨fun ha => h.1 (hd.admits.mp ha), fun hin => by
          rcases hd.2 st hin with h' | h'
          · exact h.2 h'
          · exact h.1 h'⟩) ⟨hno, hgone⟩
      exact hend.2 hst
    split at hnew
    next hn =>
      subst hn
      exact (M.gone_of_kill hno (hclear st hold rfl hnew)).2 hst
    next => exact hnew (hp st hold)

end PfMachine

/-! ## 5. A history

One op keeps `Permitted` if it sees to what it must, so the run lemma of histories finishes. -/

namespace Reconcile

open PfKernel Writer

section

variable {T σ : Type} {passes : PfAnchor → T → Prop} {run : Runner σ} {kernel : σ → PfKernel T}
  {s s₀ : σ}

/-- What an op must see to: that a load clears what it no longer passes, and that a table goes on
admitting what is established. -/
def SeesTo (passes : PfAnchor → T → Prop) (run : Runner σ) (kernel : σ → PfKernel T) (s : σ) :
    Op → Prop
  | .loadAnchor n _ r _ => PfMachine.Clears passes run kernel n r.text s
  | .replaceTable n t ms =>
      ((run (argvFor (.replaceTable n t ms)) none none).run s).1.ok = true →
        PfMachine.Widens passes (kernel s) n t ms
  | _ => True

/-- No op leaves a state behind that its anchor does not pass, if it sees to that. -/
theorem permitted_op (M : PfMachine passes run kernel) {x : Op}
    (hx : SeesTo passes run kernel s x) (hp : (kernel s).Permitted passes) :
    (kernel (afterOp run s x)).Permitted passes := by
  by_cases hload : ∃ n f r c, x = .loadAnchor n f r c
  · obtain ⟨n, f, r, c, rfl⟩ := hload
    exact M.permitted_load hx hp
  by_cases htab : ∃ n t ms, x = .replaceTable n t ms
  · obtain ⟨n, t, ms, rfl⟩ := htab
    exact M.permitted_replace hx hp
  · refine M.permitted_quiet ?_ ?_ hp
    · intro n f r c h
      exact hload ⟨n, f, r, c, h⟩
    · intro n t ms h
      exact htab ⟨n, t, ms, h⟩

/-- A history over any views of the kernel, with traffic going on between the passes. -/
abbrev StateHistory [Hashlib] (passes : PfAnchor → T → Prop) (run : Runner σ)
    (kernel : σ → PfKernel T) (R : σ → Op → Prop) (s₀ s : σ) : Prop :=
  History run (fun _ _ => True) (fun t t' => Drifts passes (kernel t) (kernel t')) R s₀ s

/-- **No state outlives its permission**, where every load clears what it no longer passes and
every table goes on admitting what is established. -/
theorem permitted_of_history [Hashlib] (M : PfMachine passes run kernel)
    (h₀ : (kernel s₀).Permitted passes)
    (hist : StateHistory passes run kernel (SeesTo passes run kernel) s₀ s) :
    (kernel s).Permitted passes := by
  refine hist.keeps (I := fun t => (kernel t).Permitted passes) h₀ ?_ ?_
  · intro t x hx ht
    exact permitted_op M hx ht
  · intro t t' hd ht
    exact hd.permitted ht

end

/-! ## 6. A table that shrinks

A runner on which everything works, a config whose table loses its one member, and a state from
that address. Every receipt is ok and the state stays. -/

/-- Every command works but the state listing, and there is no other traffic. -/
def steadyPf : Runner (PfKernel String) := fun argv _ input k =>
  match argv with
  | [] => ({ rc := .code 0 }, k)
  | cmd :: args =>
      if cmd = PFCTL then
        ({ rc := .code (if args = ["-vvss"] then 1 else 0) }, k.pfctl input args)
      else ({ rc := .code 0 }, k)

theorem Drifts.refl {T : Type} {passes : PfAnchor → T → Prop} (k : PfKernel T) :
    Drifts passes k k := ⟨rfl, fun _ hst => Or.inl hst⟩

theorem steadyPf_machine {passes : PfAnchor → String → Prop} : PfMachine passes steadyPf id where
  effect := by
    intro args timeout input k _
    exact Drifts.refl _
  failure := by
    intro args timeout input k hok
    have hargs : args = ["-vvss"] := by
      by_contra hne
      simp [steadyPf, StateT.run, RunResult.ok, hne] at hok
    subst hargs
    exact Or.inl (Drifts.refl _)
  listing := by
    intro k hok
    exact absurd hok (by simp [steadyPf, StateT.run, RunResult.ok])
  other := by
    intro args timeout input k
    have hne : IFCONFIG ≠ PFCTL := by decide
    have hsame : ((steadyPf (IFCONFIG :: args) timeout input).run k).2 = k := by
      simp [steadyPf, StateT.run, hne]
    rw [hsame]
    exact Drifts.refl _

/-- A filter whose one rule lets the addresses of a table in. -/
def tableConfig (members : List String) : Config :=
  { bridge := ⟨[("pbaaa",
      { member := ⟨[("tap0", { type := some .tap, filter := some "sg-0" })],
          List.nodup_singleton _⟩ })], List.nodup_singleton _⟩
    filter := ⟨[("sg-0",
      { in_ := ⟨[(1, { action := .pass, from_ := "@rg-1" })], List.nodup_singleton _⟩ })],
      List.nodup_singleton _⟩
    table := ⟨[("rg-1", { members })], List.nodup_singleton _⟩ }

def tableKernel : KernelInterfaces :=
  { interfaces := ⟨[
      ("pbaaa", { name := "pbaaa", groups := ["bridge", OWNED_GROUP], members := ["tap0"] }),
      ("tap0", { name := "tap0", groups := ["tap", OWNED_GROUP] })],
      List.nodup_cons.mpr ⟨by decide, List.nodup_singleton _⟩⟩
    owned := ["pbaaa", "tap0"] }

/-- The anchor of the tap, as it is rendered. -/
def tableRuleset [Hashlib] : Pf.Ruleset × String :=
  Pf.render "tap0" (Planner.filterOf (tableConfig []) { filter := some "sg-0" }) none []

/-- What the pass reads back of it. -/
def tableAnchors [Hashlib] : PfState := ⟨[("tap0",
  { isLoaded := true, cfgHash := some tableRuleset.2,
    tables := ⟨[("rg-1", {"10.0.0.9"})], by decide⟩ })], List.nodup_singleton _⟩

/-- The one rule of the anchor passes what the table holds, by source address. -/
def fromTable (a : PfAnchor) (source : String) : Prop :=
  source ∈ (a.tables.get? "rg-1").getD []

instance (a : PfAnchor) (source : String) : Decidable (fromTable a source) :=
  inferInstanceAs (Decidable (source ∈ _))

/-- A state from the address in the table. -/
def tableState : Established String where
  id := "0a"
  ifname := "tap0"
  traffic := "10.0.0.9"
  ifname_word := by decide +kernel
  id_hex := by
    simp
    decide

def tablePf [Hashlib] : PfKernel String where
  anchors := ⟨[(Pf.anchorName "tap0",
    { text := tableRuleset.1.text
      tables := ⟨[("rg-1", ["10.0.0.9"])], by decide⟩ })], List.nodup_singleton _⟩
  states := [tableState]

theorem diff_shrunk : @Planner.diff ⟨id⟩ (tableConfig []) tableKernel (some (@tableAnchors ⟨id⟩)) =
    .ok { adds := [.replaceTable "tap0" "rg-1" []] } := by
  decide +kernel

theorem tablePf_permitted : (@tablePf ⟨id⟩).Permitted fromTable := by
  intro st hst a ha
  obtain rfl := List.mem_singleton.mp hst
  obtain rfl := Option.some.inj (Eq.symm ha)
  decide

/-- A state outlives the table that admitted it, in a pass whose every receipt is ok. -/
theorem permission_outlived : ¬ ∀ (inst : Hashlib) (T σ : Type) (passes : PfAnchor → T → Prop)
    (run : Runner σ) (kernel : σ → PfKernel T) (s₀ s : σ) (config : Config)
    (view : KernelInterfaces) (pf : Option PfState) (plan : Plan),
    PfMachine passes run kernel → (kernel s₀).Permitted passes →
    @StateHistory T σ inst passes run kernel (fun _ _ => True) s₀ s →
    @Planner.diff inst config view pf = .ok plan →
    (∀ r ∈ ((applyPlan run false plan).run s).1, r.ok = true) →
    (kernel ((applyPlan run false plan).run s).2).Permitted passes := by
  intro h
  have hperm := h ⟨id⟩ String _ fromTable steadyPf id (@tablePf ⟨id⟩) _ (tableConfig [])
    tableKernel _ _ steadyPf_machine tablePf_permitted (@History.start _ ⟨id⟩ _ _ _ _ _)
    diff_shrunk (by decide)
  have hadmits := hperm tableState (by exact List.mem_singleton_self _) _ rfl
  exact absurd hadmits (by decide)

theorem diff_grown : @Planner.diff ⟨id⟩ (tableConfig ["10.0.0.8", "10.0.0.9"]) tableKernel
    (some (@tableAnchors ⟨id⟩)) =
    .ok { adds := [.replaceTable "tap0" "rg-1" ["10.0.0.8", "10.0.0.9"]] } := by
  decide +kernel

theorem permitted_of_history_grown : (((applyPlan steadyPf false
    { adds := [.replaceTable "tap0" "rg-1" ["10.0.0.8", "10.0.0.9"]] }).run
      (@tablePf ⟨id⟩)).2).Permitted fromTable := by
  refine @permitted_of_history _ _ _ _ id _ _ ⟨id⟩ steadyPf_machine tablePf_permitted
    (@History.pass _ ⟨id⟩ _ _ _ _ _ _ _ tableKernel _ _ (@History.start _ ⟨id⟩ _ _ _ _ _)
      trivial diff_grown ⟨?_, trivial⟩)
  intro _ st hst _ a ha
  obtain rfl := List.mem_singleton.mp hst
  obtain rfl := Option.some.inj (Eq.symm ha)
  decide

end Reconcile

end Bsdbridge
