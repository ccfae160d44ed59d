import Bsdbridge.L2Agent.Plan
import Bsdbridge.Lib.Agree
import Bsdbridge.Proof.Total

/-!
# The order the server answers in

Ports, groups, rules and addresses arrive in no order at all, so the order they arrive in must not
show: a rule that changes its number changes the cfg hash of its anchor, and the anchor is loaded
again for nothing. Rules are numbered in the order of a derived key. It is total, as an int is
never held against a string, and it separates distinct bodies, so the numbering is canonical. The
rest is the port loop, whose rounds write under names of their own, and two ports of one bridge
describe the same segment. **`build_order_free`** puts the two together.

What does not differ is said by `SameOutcome`. Two configs can be equal as nested mappings and list
their entries differently, as a Python dict remembers insertion, and a diff walks in that order; so
it also says that every member's tables and the hash of its rules come out the same, which is what
decides about loads.

## The sort

Python's sort raises when it has to hold an int against a string, so "the bodies are sorted" is a
statement about exceptions too. `itemLess?` is the comparison as the interpreter makes it, stopping
at the first difference, and `SortCompares` says that it returns on every pair the sort could look
at, in agreement with the key. Ports need `Distinct`: a cut port id or a shortened digest can give
two ports one name, and then the later one wins, so the order does show.
-/

set_option autoImplicit false

namespace Bsdbridge

namespace PortConfig

/-! ## 1. The sort of the rule bodies

The type rank `isinstance(v, str)` stands in front of the value in each triple. That is what
keeps ints and strings from meeting. -/

/-- `v < w` of the modelled language, which does not compare an int with a string. -/
def Scalar.less? : Scalar → Scalar → Option Bool
  | .int m, .int n => some (decide (m < n))
  | .str s, .str t => some (decide (s < t))
  | _, _ => none

/-- `isinstance(v, str)`. -/
def Scalar.isStr : Scalar → Bool
  | .int _ => false
  | .str _ => true

/-- `(k, isinstance(v, str), v) < (j, isinstance(w, str), w)`: the first place where the two
differ decides, and nothing behind it is compared. -/
def itemLess? (a b : String × Scalar) : Option Bool :=
  if a.1 ≠ b.1 then some (decide (a.1 < b.1))
  else if a.2.isStr ≠ b.2.isStr then some (!a.2.isStr && b.2.isStr)
  else a.2.less? b.2

/-- `<` of two lists of such triples: the first place where they differ decides, else the
length. -/
def itemsLess? : Body → Body → Option Bool
  | _, [] => some false
  | [], _ :: _ => some true
  | a :: l, b :: m => if a = b then itemsLess? l m else itemLess? a b

def itemKey (kv : String × Scalar) : Lex (String × Lex (Int ⊕ String)) := toLex (kv.1, kv.2.key)

theorem itemKey_injective : Function.Injective itemKey := by
  intro ⟨j, v⟩ ⟨k, w⟩ h
  obtain ⟨rfl, hkey⟩ := Prod.mk.inj (toLex.injective h)
  cases v <;> cases w <;> simp_all [Scalar.key]

/-- An item is held against another without fail, as the type ranks before the value. -/
theorem itemLess?_eq (a b : String × Scalar) :
    itemLess? a b = some (decide (itemKey a < itemKey b)) := by
  obtain ⟨j, v⟩ := a
  obtain ⟨k, w⟩ := b
  unfold itemLess? itemKey
  simp only [Prod.Lex.toLex_lt_toLex]
  by_cases hjk : j = k
  · subst hjk
    cases v <;> cases w <;> simp [Scalar.isStr, Scalar.less?, Scalar.key]
  · simp [hjk]

/-- So is a body: the sort raises nothing, and orders by the key. -/
theorem itemsLess?_eq (l m : Body) :
    itemsLess? l m = some (decide (l.map itemKey < m.map itemKey)) := by
  induction l generalizing m with
  | nil => cases m <;> simp [itemsLess?]
  | cons a l ih =>
    cases m with
    | nil => simp [itemsLess?]
    | cons b m =>
      rw [itemsLess?, List.map_cons, List.map_cons]
      by_cases hab : a = b
      · subst hab
        rw [if_pos rfl, ih]
        simp
      · have hkey : itemKey a ≠ itemKey b := fun h => hab (itemKey_injective h)
        rw [if_neg hab, itemLess?_eq]
        simp [List.cons_lt_cons_iff, hkey]

theorem bodyKey_eq (b : Body) : bodyKey b = (sortedBy itemKey b).map itemKey :=
  sortedBy_map itemKey b

/-! ## 2. The numbers of the rules

Bodies are deduplicated, sorted and numbered; with an injective key the result depends on the
set. -/

/-- The place of a key in a body. -/
def rank (key : String) : Nat := ["action", "proto", "port", "from", "to"].idxOf key

theorem bodyOf_ranked (rule : SgRule) :
    (bodyOf rule).Pairwise fun x y => rank x.1 < rank y.1 := by
  unfold bodyOf
  cases rule.protocol.bind fun p => PROTO.lookup p <;> cases portValue rule <;>
    by_cases hrem : remote rule = "any" <;> cases rule.direction <;>
    simp [hrem] <;> decide

/-- The key separates distinct bodies. -/
theorem bodyOf_injective {r r' : SgRule} (h : bodyKey (bodyOf r) = bodyKey (bodyOf r')) :
    bodyOf r = bodyOf r' := by
  rw [bodyKey_eq, bodyKey_eq] at h
  have hsorted := List.map_injective_iff.mpr itemKey_injective h
  have hperm : (bodyOf r).Perm (bodyOf r') :=
    (perm_sortedBy itemKey (bodyOf r)).symm.trans
      (hsorted ▸ perm_sortedBy itemKey (bodyOf r'))
  refine hperm.eq_of_pairwise (fun a b _ _ hab hba => ?_) (bodyOf_ranked r) (bodyOf_ranked r')
  omega

/-- **Rules are numbered alike** in whatever order they arrive. -/
theorem numbered_perm {dir : SgDirection} {rules rules' : List SgRule} (h : rules.Perm rules') :
    numbered (bodies dir rules) = numbered (bodies dir rules') := by
  have hperm : (bodies dir rules).Perm (bodies dir rules') := ((h.filter _).filter _).map _
  unfold numbered
  rw [sortedBy_perm (fun x hx y hy hkey => ?_) hperm]
  obtain ⟨r, -, rfl⟩ := List.mem_map.mp hx
  obtain ⟨r', -, rfl⟩ := List.mem_map.mp hy
  exact bodyOf_injective hkey

/-- The same answer in another order: the groups of a port, the rules of a group, the
addresses of a group. -/
structure Reordered (a b : SgInfo) : Prop where
  devices : ∀ id, ((a.devices.get? id).getD []).Perm ((b.devices.get? id).getD [])
  groups : ∀ g, ((a.securityGroups.get? g).getD []).Perm ((b.securityGroups.get? g).getD [])
  members : ∀ g, ((a.sgMemberIps.get? g).getD {}).ipv4.Perm
    ((b.sgMemberIps.get? g).getD {}).ipv4

section

variable {a b : SgInfo} (h : Reordered a b)

include h

theorem Reordered.rulesOf (id : String) : (rulesOf id a).Perm (rulesOf id b) :=
  (h.devices id).flatMap fun g _ => h.groups g

theorem Reordered.filterTree (port : PortDetails) : filterTree port a = filterTree port b := by
  have hrules := h.rulesOf port.portId
  have hsg : sgRulesForPort port.portId a = sgRulesForPort port.portId b := by
    unfold sgRulesForPort
    rw [numbered_perm hrules, numbered_perm hrules]
  unfold PortConfig.filterTree
  rw [hsg]

theorem Reordered.tablesUsedBy (id : String) :
    (tablesUsedBy id a).toFinset = (tablesUsedBy id b).toFinset :=
  List.toFinset_eq_of_perm _ _ (((h.rulesOf id).filter _).filterMap _)

theorem Reordered.tables (used : Finset String) : tables used a = tables used b := by
  unfold PortConfig.tables
  congr 1
  refine List.map_congr_left fun g _ => ?_
  have hips : sortedBy id ((a.sgMemberIps.get? g).getD {}).ipv4 =
      sortedBy id ((b.sgMemberIps.get? g).getD {}).ipv4 :=
    sortedBy_perm (fun _ _ _ _ hxy => hxy) (h.members g)
  rw [hips]

variable [Hashlib]

/-- What the server sends about groups is built alike in whatever order it comes. -/
theorem Reordered.build (ports : List PortDetails) (mappings : Dict String String) :
    build ports a mappings = build ports b mappings := by
  have hround : addPort a mappings = addPort b mappings := by
    funext acc port
    unfold addPort
    rw [h.filterTree port, h.tablesUsedBy port.portId]
  unfold PortConfig.build document stanzas
  rw [hround, h.tables]

end

/-! ## 3. The names of the ports

A bridge's name digests its segment. Ports with the same name therefore describe the same
segment, up to collisions, which `Distinct` excludes. -/

theorem toString_int_ne_none (n : Int) : toString n ≠ "None" := by
  intro h
  have hmem : 'N' ∈ (toString n).toList := h ▸ by decide
  rcases Text.mem_toString_int hmem with hc | hd
  · exact absurd hc (by decide)
  · exact absurd hd (by decide)

/-- A segment id as a name spells it holds no slash. -/
theorem slash_notMem_spell (seg : Option Int) : '/' ∉ (Names.spell (seg.map toString)).toList := by
  intro h
  cases seg with
  | none => exact absurd h (by decide)
  | some n =>
    rcases Text.mem_toString_int h with hc | hd
    · exact absurd hc (by decide)
    · exact absurd hd (by decide)

theorem spell_injective {seg seg' : Option Int}
    (h : Names.spell (seg.map toString) = Names.spell (seg'.map toString)) : seg = seg' := by
  cases seg with
  | none =>
    cases seg' with
    | none => rfl
    | some n => exact absurd h.symm (toString_int_ne_none n)
  | some m =>
    cases seg' with
    | none => exact absurd h (toString_int_ne_none m)
    | some n => exact congrArg some (Int.repr_injective h)

/-- The last slash of a text splits it in one way. -/
theorem split_unique {l m s t : List Char} (hs : '/' ∉ s) (ht : '/' ∉ t)
    (h : l ++ '/' :: s = m ++ '/' :: t) : l = m ∧ s = t := by
  rcases List.append_eq_append_iff.mp h with ⟨k, rfl, hk⟩ | ⟨k, rfl, hk⟩
  · cases k with
    | nil => exact ⟨(List.append_nil l).symm, (List.cons.inj hk).2⟩
    | cons c k =>
      obtain ⟨-, rfl⟩ := List.cons.inj hk
      exact absurd (List.mem_append_right k List.mem_cons_self) hs
  · cases k with
    | nil => exact ⟨List.append_nil m, (List.cons.inj hk).2.symm⟩
    | cons c k =>
      obtain ⟨-, rfl⟩ := List.cons.inj hk
      exact absurd (List.mem_append_right k List.mem_cons_self) ht

/-- The text a port's bridge name digests. -/
def segmentKey (port : PortDetails) : String :=
  Names.bridgeKey port.networkType port.physicalNetwork port.segmentationId port.networkId

theorem segmentKey_vlan {port : PortDetails} (h : port.networkType = some "vlan") :
    (segmentKey port).toList = "vlan/".toList ++ ((Names.spell port.physicalNetwork).toList ++
      '/' :: (Names.spell (port.segmentationId.map toString)).toList) := by
  unfold segmentKey Names.bridgeKey
  rw [if_pos h]
  show ("vlan/" ++ Names.spell port.physicalNetwork ++ "/" ++
    Names.spell (port.segmentationId.map toString)).toList = _
  simp

theorem segmentKey_flat {port : PortDetails} (h : port.networkType = some "flat") :
    (segmentKey port).toList = "flat/".toList ++ (Names.spell port.physicalNetwork).toList := by
  have hvlan : port.networkType ≠ some "vlan" := by simp [h]
  unfold segmentKey Names.bridgeKey
  rw [if_neg hvlan, if_pos h]
  show ("flat/" ++ Names.spell port.physicalNetwork).toList = _
  simp

/-- Only a port of a vlan or flat network has a trunk. -/
theorem network_of_trunk {port : PortDetails} {mappings : Dict String String}
    {pt : String × String} (h : trunkFor port mappings = some pt) :
    port.networkType = some "vlan" ∨ port.networkType = some "flat" := by
  unfold trunkFor at h
  by_cases hn : port.networkType = some "vlan" ∨ port.networkType = some "flat"
  · exact hn
  · rw [if_neg hn] at h
    exact absurd h (by simp)

/-- Ports of one key that have a trunk describe one segment. -/
theorem segmentTree_eq {p q : PortDetails} {mappings : Dict String String}
    {pn pn' trunk trunk' : String} (hkey : segmentKey p = segmentKey q)
    (hp : trunkFor p mappings = some (pn, trunk))
    (hq : trunkFor q mappings = some (pn', trunk')) :
    segmentTree p pn = segmentTree q pn' := by
  have hpn := (trunkFor_eq hp).1
  have hqn := (trunkFor_eq hq).1
  have hlist : (segmentKey p).toList = (segmentKey q).toList := congrArg String.toList hkey
  have hnot : ∀ l m : List Char, "vlan/".toList ++ l ≠ "flat/".toList ++ m := by
    intro l m h
    exact absurd (List.cons.inj h).1 (by decide)
  rcases network_of_trunk hp with hpt | hpt <;> rcases network_of_trunk hq with hqt | hqt
  · rw [segmentKey_vlan hpt, segmentKey_vlan hqt] at hlist
    obtain ⟨hname, hseg⟩ := split_unique (slash_notMem_spell _) (slash_notMem_spell _)
      (List.append_cancel_left hlist)
    rw [hpn, hqn] at hname
    have hids := spell_injective (String.toList_injective hseg)
    obtain rfl : pn = pn' := String.toList_injective hname
    unfold segmentTree
    rw [hpt, hqt, hids]
  · rw [segmentKey_vlan hpt, segmentKey_flat hqt] at hlist
    exact absurd hlist (hnot _ _)
  · rw [segmentKey_flat hpt, segmentKey_vlan hqt] at hlist
    exact absurd hlist.symm (hnot _ _)
  · rw [segmentKey_flat hpt, segmentKey_flat hqt] at hlist
    have hname := List.append_cancel_left hlist
    rw [hpn, hqn] at hname
    obtain rfl : pn = pn' := String.toList_injective hname
    unfold segmentTree
    rw [hpt, hqt]
    rfl

/-- The filter name of a secured port is longer than its tap name. -/
theorem filterName_own {p q : PortDetails} (hp : secured p = true) (hq : secured q = true)
    (h : Names.filterName p.portId = Names.filterName q.portId) : ifName p = ifName q := by
  have htap : ∀ port, secured port = true → ifName port = Names.tapName port.portId := by
    intro port hs
    unfold secured at hs
    rw [Bool.and_eq_true, Option.isNone_iff_eq_none] at hs
    unfold ifName
    rw [hs.1]
    rfl
  have hcut : p.portId.toList.take 12 = q.portId.toList.take 12 := by
    have hlist := congrArg String.toList h
    simpa [Names.filterName, Text.take] using hlist
  have hcut' : p.portId.toList.take 11 = q.portId.toList.take 11 := by
    have htake := congrArg (List.take 11) hcut
    simpa [List.take_take] using htake
  rw [htap p hp, htap q hq, Names.tapName, Names.tapName, Text.take, Text.take, hcut']

/-! ## 4. The port loop

One round commutes with another, up to the order of dict entries, and a fold over commuting
rounds does not see the order of its list (`foldl_perm`). -/

structure Stanza.Agree (a b : Stanza) : Prop where
  segment : a.segment = b.segment
  member : Dict.Agree Eq a.member b.member

theorem Stanza.Agree.refl (a : Stanza) : Stanza.Agree a a :=
  ⟨rfl, Dict.Agree.refl (fun _ => rfl) _⟩

theorem Stanza.Agree.trans {a b c : Stanza} (hab : Stanza.Agree a b) (hbc : Stanza.Agree b c) :
    Stanza.Agree a c :=
  ⟨hab.segment.trans hbc.segment,
    hab.member.trans (fun _ _ _ huv hvw => huv.trans hvw) hbc.member⟩

/-- The dicts of the port loop, but for the order of their entries. -/
structure Stanzas.Agree (a b : Stanzas) : Prop where
  physnets : Dict.Agree Eq a.physnets b.physnets
  bridges : Dict.Agree Stanza.Agree a.bridges b.bridges
  filters : Dict.Agree Eq a.filters b.filters
  tablesUsed : a.tablesUsed = b.tablesUsed

theorem Stanzas.Agree.refl (a : Stanzas) : Stanzas.Agree a a :=
  ⟨Dict.Agree.refl (fun _ => rfl) _, Dict.Agree.refl Stanza.Agree.refl _,
    Dict.Agree.refl (fun _ => rfl) _, rfl⟩

theorem Stanzas.Agree.trans {a b c : Stanzas} (hab : Stanzas.Agree a b)
    (hbc : Stanzas.Agree b c) : Stanzas.Agree a c where
  physnets := hab.physnets.trans (fun _ _ _ huv hvw => huv.trans hvw) hbc.physnets
  bridges := hab.bridges.trans (fun _ _ _ huv hvw => huv.trans hvw) hbc.bridges
  filters := hab.filters.trans (fun _ _ _ huv hvw => huv.trans hvw) hbc.filters
  tablesUsed := hab.tablesUsed.trans hbc.tablesUsed

/-- The stanza a port leaves of the one it finds. -/
def stanzaWith (mappings : Dict String String) (port : PortDetails) (st : Stanza) : Stanza :=
  { segment := match trunkFor port mappings with
      | some (pn, _) => some (segmentTree port pn)
      | none => st.segment
    member := st.member.insert (ifName port) (memberTree port) }

theorem stanzaWith_agree {mappings : Dict String String} {port : PortDetails} {a b : Stanza}
    (h : Stanza.Agree a b) :
    Stanza.Agree (stanzaWith mappings port a) (stanzaWith mappings port b) := by
  constructor
  · unfold stanzaWith
    cases trunkFor port mappings with
    | none => exact h.segment
    | some pt => rfl
  · exact h.member.insert rfl

/-- Two ports of one bridge leave the same stanza in either order. -/
theorem stanzaWith_comm {mappings : Dict String String} {p q : PortDetails}
    (hkey : segmentKey p = segmentKey q) (htap : ifName p ≠ ifName q) (st : Stanza) :
    Stanza.Agree (stanzaWith mappings q (stanzaWith mappings p st))
      (stanzaWith mappings p (stanzaWith mappings q st)) := by
  constructor
  · unfold stanzaWith
    cases hp : trunkFor p mappings with
    | none => rfl
    | some pt =>
      cases hq : trunkFor q mappings with
      | none => rfl
      | some qt => exact congrArg some (segmentTree_eq hkey hp hq).symm
  · exact Dict.Agree.insert_comm (fun _ => rfl) htap

theorem getD_agree {a b : Dict String Stanza} (h : Dict.Agree Stanza.Agree a b) (k : String) :
    Stanza.Agree ((a.get? k).getD {}) ((b.get? k).getD {}) := by
  have hk := h k
  generalize a.get? k = x at hk
  generalize b.get? k = y at hk
  cases hk with
  | none => exact Stanza.Agree.refl _
  | some hR => exact hR

section

variable [Hashlib] {ports ports' : List PortDetails} {sgInfo : SgInfo}
  {mappings : Dict String String}

/-- No two ports share the name of their interface, and no two segments that of their bridge. -/
structure Distinct (ports : List PortDetails) : Prop where
  tap : ∀ p ∈ ports, ∀ q ∈ ports, ifName p = ifName q → p = q
  bridge : ∀ p ∈ ports, ∀ q ∈ ports, bridgeOf p = bridgeOf q → segmentKey p = segmentKey q

theorem bridges_addPort {acc : Stanzas} {port : PortDetails} :
    (addPort sgInfo mappings acc port).bridges = acc.bridges.insert (bridgeOf port)
      (stanzaWith mappings port ((acc.bridges.get? (bridgeOf port)).getD {})) := rfl

/-- A round of the loop does not see the order of the entries. -/
theorem addPort_agree (port : PortDetails) (a b : Stanzas) (h : Stanzas.Agree a b) :
    Stanzas.Agree (addPort sgInfo mappings a port) (addPort sgInfo mappings b port) := by
  constructor
  · unfold addPort
    cases trunkFor port mappings with
    | none => exact h.physnets
    | some pt => exact h.physnets.insert rfl
  · rw [bridges_addPort, bridges_addPort]
    exact h.bridges.insert (stanzaWith_agree (getD_agree h.bridges _))
  · unfold addPort
    by_cases hs : secured port = true
    · simp only [hs, if_true]
      exact h.filters.insert rfl
    · simp only [hs]
      exact h.filters
  · unfold addPort
    rw [h.tablesUsed]

/-- Two rounds of ports with names of their own can be exchanged. -/
theorem addPort_comm (hd : Distinct ports) {p q : PortDetails} (hp : p ∈ ports) (hq : q ∈ ports)
    (acc : Stanzas) :
    Stanzas.Agree (addPort sgInfo mappings (addPort sgInfo mappings acc p) q)
      (addPort sgInfo mappings (addPort sgInfo mappings acc q) p) := by
  by_cases hpq : p = q
  · subst hpq
    exact Stanzas.Agree.refl _
  have htap : ifName p ≠ ifName q := fun h => hpq (hd.tap p hp q hq h)
  constructor
  · unfold addPort
    cases hpt : trunkFor p mappings with
    | none => exact Dict.Agree.refl (fun _ => rfl) _
    | some pt =>
      cases hqt : trunkFor q mappings with
      | none =>
        simp only
        exact Dict.Agree.refl (fun _ => rfl) _
      | some qt =>
        obtain ⟨pn, trunk⟩ := pt
        obtain ⟨pn', trunk'⟩ := qt
        simp only
        by_cases hpn : pn = pn'
        · -- one physnet has one trunk
          subst hpn
          obtain rfl := Option.some.inj ((trunkFor_eq hpt).2.symm.trans (trunkFor_eq hqt).2)
          exact Dict.Agree.refl (fun _ => rfl) _
        · exact Dict.Agree.insert_comm (fun _ => rfl) hpn
  · -- one stanza for both, or two stanzas; in one, the ports keep their taps apart
    rw [bridges_addPort, bridges_addPort, bridges_addPort, bridges_addPort]
    by_cases hb : bridgeOf p = bridgeOf q
    · have hkey := hd.bridge p hp q hq hb
      rw [hb]
      simp only [Dict.get?_insert, if_true, Option.getD_some]
      exact Dict.Agree.insert_insert (Dict.Agree.refl Stanza.Agree.refl _)
        (stanzaWith_comm hkey htap _)
    · simp only [Dict.get?_insert, if_neg hb, if_neg (Ne.symm hb)]
      exact Dict.Agree.insert_comm Stanza.Agree.refl hb
  · unfold addPort
    by_cases hsp : secured p = true
    · by_cases hsq : secured q = true
      · simp only [hsp, hsq, if_true]
        exact Dict.Agree.insert_comm (fun _ => rfl) fun h => htap (filterName_own hsp hsq h)
      · simp only [hsp, hsq]
        exact Dict.Agree.refl (fun _ => rfl) _
    · simp only [hsp]
      exact Dict.Agree.refl (fun _ => rfl) _
  · unfold addPort
    by_cases hsp : secured p = true
    · by_cases hsq : secured q = true
      · simp only [hsp, hsq, if_true]
        exact Finset.union_right_comm _ _ _
      · simp [hsp, hsq]
    · simp [hsp]

/-- **The ports can be taken in any order.** -/
theorem stanzas_perm (hd : Distinct ports) (hp : ports.Perm ports') :
    Stanzas.Agree (stanzas ports sgInfo mappings) (stanzas ports' sgInfo mappings) :=
  foldl_perm Stanzas.Agree.refl (fun _ _ _ => Stanzas.Agree.trans) addPort_agree hp
    (fun _ ha _ hb acc => addPort_comm hd ha hb acc) {}

end

/-! ## 5. The config

`Agree` again, one level up, through the reading of the tree that the loop leaves. -/

/-- What is read off mappings that agree agrees, if so it does value by value. -/
theorem readAs_agree {α β : Type} {sub : Tree → String → Except SchemaError α}
    {R : β → β → Prop} {S : α → α → Prop} {D D' : Dict String β} {tree : β → Tree}
    {path : String} {d : Dict String α} (hD : Dict.Agree R D D')
    (hsub : ∀ b b' p a, R b b' → sub (tree b) p = .ok a → ∃ a', sub (tree b') p = .ok a' ∧ S a a')
    (h : List.Forall₂ (ReadAs sub path) (itemsOf D tree) d.entries) :
    ∃ d' : Dict String α, List.Forall₂ (ReadAs sub path) (itemsOf D' tree) d'.entries ∧
      Dict.Agree S d d' := by
  -- every value of `D'` has a twin in `D`, which was read
  have htwin : ∀ k b', D'.get? k = some b' → ∃ b a, R b b' ∧ d.get? k = some a ∧
      sub (tree b) (path ++ "." ++ k) = .ok a := by
    intro k b' hb'
    obtain ⟨b, hb, hR⟩ := hD.flip.left hb'
    obtain ⟨a, ha⟩ := Dict.mem_iff_get?.mp ((mem_of_readAs h).mpr (Dict.mem_of_get? hb))
    obtain ⟨b₀, hb₀, hread⟩ := (get?_of_readAs h).mp ha
    obtain rfl := Option.some.inj (hb.symm.trans hb₀)
    exact ⟨b, a, hR, ha, hread⟩
  obtain ⟨d', hd'⟩ := @nestedMapChild_total _ sub (itemsOf D' tree) path fun e he => by
    obtain ⟨⟨k, b'⟩, hm, rfl⟩ := List.mem_map.mp he
    obtain ⟨b, a, hR, -, hread⟩ := htwin k b' (Dict.get?_eq_some.mpr hm)
    obtain ⟨a', ha', -⟩ := hsub b b' _ a hR hread
    exact ⟨a', ha'⟩
  have hreads := (nestedMapChild_ok nodup_itemsOf).mp hd'
  refine ⟨d', hreads, Dict.agree_iff.mpr ⟨fun k a ha => ?_, fun k hk => ?_⟩⟩
  · obtain ⟨b, hb, hread⟩ := (get?_of_readAs h).mp ha
    obtain ⟨b', hb', hR⟩ := hD.left hb
    obtain ⟨a', ha', hS⟩ := hsub b b' _ a hR hread
    exact ⟨a', (get?_of_readAs hreads).mpr ⟨b', hb', ha'⟩, hS⟩
  · exact (mem_of_readAs h).mpr (hD.mem_iff.mpr ((mem_of_readAs hreads).mp hk))

end PortConfig

/-- Bridges that are equal as nested mappings. -/
structure Bridge.Agree (a b : Bridge) : Prop where
  description : a.description = b.description
  maxAddresses : a.maxAddresses = b.maxAddresses
  segment : a.segment = b.segment
  member : Dict.Agree Eq a.member b.member

/-- Configs that are equal as nested mappings. -/
structure Config.Agree (a b : Config) : Prop where
  physnet : Dict.Agree Eq a.physnet b.physnet
  bridge : Dict.Agree Bridge.Agree a.bridge b.bridge
  table : Dict.Agree Eq a.table b.table
  filter : Dict.Agree Eq a.filter b.filter

/-- What `render` and `wanted_tables` give for a member. -/
def policyOf [Hashlib] (config : Config) (bname mname : String) :
    Option (Except PlanExc (List (String × List String) × String)) := do
  let bridge ← config.bridge.get? bname
  let member ← bridge.member.get? mname
  let filt := Planner.filterOf config member
  some do
    let tables ← Pf.wantedTables filt config
    pure (tables, (Pf.render mname filt member.bind tables).2)

theorem Config.Agree.dangling {a b : Config} (h : Config.Agree a b) (ha : dangling a = none) :
    dangling b = none := by
  obtain ⟨hbridges, hfilters⟩ := (Option.orElse_eq_none _ _).mp ha
  rw [List.findSome?_eq_none_iff] at hbridges hfilters
  refine (Option.orElse_eq_none _ _).mpr
    ⟨List.findSome?_eq_none_iff.mpr fun e he => ?_, List.findSome?_eq_none_iff.mpr fun e he => ?_⟩
  · obtain ⟨br, hbr, hagree⟩ := h.bridge.flip.left (Dict.get?_eq_some.mpr he)
    have hold := hbridges (e.1, br) (Dict.get?_eq_some.mp hbr)
    obtain ⟨hseg, hmembers⟩ := (Option.orElse_eq_none _ _).mp hold
    rw [List.findSome?_eq_none_iff] at hmembers
    refine (Option.orElse_eq_none _ _).mpr ⟨?_, List.findSome?_eq_none_iff.mpr fun m hm => ?_⟩
    · refine Eq.trans ?_ hseg
      simp only [hagree.segment, h.physnet.mem_iff]
    · obtain ⟨m', hm', heq⟩ := hagree.member.flip.left (Dict.get?_eq_some.mpr hm)
      have hmem := hmembers (m.1, m') (Dict.get?_eq_some.mp hm')
      refine Eq.trans ?_ hmem
      simp only [heq, h.filter.mem_iff]
  · obtain ⟨filt, hfilt, heq⟩ := h.filter.flip.left (Dict.get?_eq_some.mpr he)
    have hold := hfilters (e.1, filt) (Dict.get?_eq_some.mp hfilt)
    refine Eq.trans ?_ hold
    simp only [danglingTable, heq, h.table.mem_iff]

/-- Equal configs give every member the same policy. -/
theorem Config.Agree.policy [Hashlib] {a b : Config} (h : Config.Agree a b) :
    policyOf a = policyOf b := by
  have hfilter : ∀ m, Planner.filterOf a m = Planner.filterOf b m := by
    intro m
    unfold Planner.filterOf
    rw [funext (Dict.agree_eq.mp h.filter)]
  have htables : ∀ filt, Pf.wantedTables filt a = Pf.wantedTables filt b := by
    intro filt
    unfold Pf.wantedTables Dict.getItem
    simp only [Dict.agree_eq.mp h.table]
  funext bname mname
  unfold policyOf
  cases hbr : a.bridge.get? bname with
  | none =>
    have hnone : b.bridge.get? bname = none :=
      Dict.get?_eq_none.mpr fun hm => Dict.get?_eq_none.mp hbr (h.bridge.mem_iff.mpr hm)
    rw [hnone]
    rfl
  | some br =>
    obtain ⟨br', hbr', hagree⟩ := h.bridge.left hbr
    rw [hbr']
    simp only [Option.bind_eq_bind, Option.bind_some, Dict.agree_eq.mp hagree.member, hfilter,
      htables]

namespace PortConfig

/-- What is read off stanzas that agree agrees. -/
theorem fromTree_agree {st st' : Stanza} {path : String} {br : Bridge} (h : Stanza.Agree st st')
    (hbr : Bridge.fromTree (stanzaTree st) path = .ok br) :
    ∃ br', Bridge.fromTree (stanzaTree st') path = .ok br' ∧ Bridge.Agree br br' := by
  obtain ⟨hlen, member, segment, hmember, hseg, rfl⟩ := fromTree_stanzaTree.mp hbr
  have hreads := (nestedMapChild_ok st.member.nodup).mp hmember
  rw [← itemsOf_id] at hreads
  obtain ⟨member', hreads', hagree⟩ := readAs_agree (S := Eq) h.member
    (fun _ _ _ a hR ha => ⟨a, hR ▸ ha, rfl⟩) hreads
  rw [itemsOf_id] at hreads'
  refine ⟨{ segment, member := member' }, fromTree_stanzaTree.mpr ⟨?_, member', segment,
    (nestedMapChild_ok st'.member.nodup).mpr hreads', ?_, rfl⟩, rfl, rfl, rfl, hagree⟩
  · intro n hn
    exact hlen n (hagree.mem_iff.mpr hn)
  · rw [← h.segment]
    exact hseg

section

variable [Hashlib] {ports ports' : List PortDetails} {sgInfo sgInfo' : SgInfo}
  {mappings : Dict String String}

/-- Ports that come in another order are built into the same nested mappings. -/
theorem build_perm (hd : Distinct ports) (hp : ports.Perm ports') {config : Config}
    {devices : List String} (hb : build ports sgInfo mappings = .ok (config, devices)) :
    ∃ config', build ports' sgInfo mappings = .ok (config', devices) ∧
      Config.Agree config config' := by
  obtain ⟨hsec, hdang, rfl⟩ := build_eq_ok.mp hb
  have hacc : Stanzas.Agree (stanzas ports sgInfo mappings) (stanzas ports' sgInfo mappings) :=
    stanzas_perm hd hp
  obtain ⟨physnet, hphysnet, hap⟩ := readAs_agree (S := Eq) hacc.physnets
    (fun _ _ _ a hR ha => ⟨a, hR ▸ ha, rfl⟩) hsec.physnet
  obtain ⟨bridge, hbridge, hab⟩ := readAs_agree (S := Bridge.Agree) hacc.bridges
    (fun _ _ _ _ hR ha => fromTree_agree hR ha) hsec.bridge
  obtain ⟨filter, hfilter, haf⟩ := readAs_agree (S := Eq) hacc.filters
    (fun _ _ _ a hR ha => ⟨a, hR ▸ ha, rfl⟩) hsec.filter
  have hagree : Config.Agree config { physnet, bridge, filter, table := config.table } :=
    ⟨hap, hab, Dict.Agree.refl (fun _ => rfl) _, haf⟩
  refine ⟨_, build_eq_ok.mpr ⟨⟨hphysnet, hbridge, hfilter, ?_⟩, hagree.dangling hdang, ?_⟩, hagree⟩
  · rw [← hacc.tablesUsed]
    exact hsec.table
  · exact sortedBy_perm (fun _ _ _ _ hxy => hxy) (hp.map _)

/-- The sort of the rule bodies raises nothing: the items of a body, and any two bodies of a
side, are compared without an int meeting a string, and in the order of their keys. -/
def SortCompares (sgInfo : SgInfo) : Prop :=
  ∀ id dir, ∀ a ∈ bodies dir (rulesOf id sgInfo),
    (∀ x ∈ a, ∀ y ∈ a, itemLess? x y = some (decide (itemKey x < itemKey y))) ∧
    ∀ b ∈ bodies dir (rulesOf id sgInfo), itemsLess? (sortedBy itemKey a) (sortedBy itemKey b) =
      some (decide (bodyKey a < bodyKey b))

/-- Two outcomes of `build` that do not differ: it refuses twice, or it returns, for the same
devices, configs that are equal as nested mappings and give every member the same policy. -/
def SameOutcome (x y : Except SchemaError (Config × List String)) : Prop :=
  Option.Rel (fun r s => Config.Agree r.1 s.1 ∧ r.2 = s.2 ∧ policyOf r.1 = policyOf s.1)
    x.toOption y.toOption

theorem Distinct.perm (hd : Distinct ports) (hp : ports.Perm ports') : Distinct ports' :=
  ⟨fun p hpm q hqm => hd.tap p (hp.mem_iff.mpr hpm) q (hp.mem_iff.mpr hqm),
    fun p hpm q hqm => hd.bridge p (hp.mem_iff.mpr hpm) q (hp.mem_iff.mpr hqm)⟩

/-- **The order of the server's answer does not show**: neither that of the ports, nor that of
the groups of a port, the rules of a group or the addresses of a group. And the sort that sees
to it compares whatever it compares, inside a body and between bodies. -/
theorem build_order_free (hd : Distinct ports) (hp : ports.Perm ports')
    (hs : Reordered sgInfo sgInfo') :
    SameOutcome (build ports sgInfo mappings) (build ports' sgInfo' mappings) ∧
      SortCompares sgInfo := by
  constructor
  · rw [← hs.build ports' mappings]
    unfold SameOutcome
    cases hb : build ports sgInfo mappings with
    | ok r =>
      obtain ⟨config, devices⟩ := r
      obtain ⟨config', hb', hagree⟩ := build_perm hd hp hb
      rw [hb']
      exact .some ⟨hagree, rfl, hagree.policy⟩
    | error e =>
      cases hb' : build ports' sgInfo mappings with
      | error e' => exact .none
      | ok r =>
        obtain ⟨config', hb₀, -⟩ := build_perm (hd.perm hp) hp.symm hb'
        exact absurd (hb.symm.trans hb₀) (by simp)
  · intro id dir a _
    refine ⟨fun x _ y _ => itemLess?_eq x y, fun b _ => ?_⟩
    rw [itemsLess?_eq, bodyKey_eq, bodyKey_eq]

end

/-! Two ports of one vlan, and a group of two rules and two addresses, in one order and the
other. -/

def vlanPort (id : String) : PortDetails :=
  { portId := id, networkId := "n0", networkType := some "vlan"
    physicalNetwork := some "physnet1", segmentationId := some 7 }

def openPorts (lo hi : Int) : SgRule :=
  { direction := .ingress, protocol := some "tcp", portRangeMin := some lo
    portRangeMax := some hi, remoteGroupId := some "g0" }

def answerOf (groups : List String) (rules : List SgRule) (ips : List String) : SgInfo :=
  { securityGroups := ⟨[("g0", rules)], List.nodup_singleton _⟩
    devices := ⟨[("p0", groups)], List.nodup_singleton _⟩
    sgMemberIps := ⟨[("g0", { ipv4 := ips })], List.nodup_singleton _⟩ }

theorem reordered_answers {groups groups' : List String} {rules rules' : List SgRule}
    {ips ips' : List String} (hg : groups.Perm groups') (hr : rules.Perm rules')
    (hi : ips.Perm ips') :
    Reordered (answerOf groups rules ips) (answerOf groups' rules' ips') := by
  constructor
  · intro id
    by_cases h : id = "p0"
    · subst h
      exact hg
    · simp [answerOf, Dict.get?, List.lookup, beq_eq_false_iff_ne.mpr h]
  · intro g
    by_cases h : g = "g0"
    · subst h
      exact hr
    · simp [answerOf, Dict.get?, List.lookup, beq_eq_false_iff_ne.mpr h]
  · intro g
    by_cases h : g = "g0"
    · subst h
      exact hi
    · simp [answerOf, Dict.get?, List.lookup, beq_eq_false_iff_ne.mpr h]

theorem build_order_free_two :
    @SameOutcome ⟨id⟩
      (@build ⟨id⟩ [vlanPort "p0", vlanPort "p1"]
        (answerOf ["g0", "g1"] [openPorts 22 22, openPorts 80 90] ["10.0.0.1", "10.0.0.2"])
        ⟨[("physnet1", "em0")], by decide⟩)
      (@build ⟨id⟩ [vlanPort "p1", vlanPort "p0"]
        (answerOf ["g1", "g0"] [openPorts 80 90, openPorts 22 22] ["10.0.0.2", "10.0.0.1"])
        ⟨[("physnet1", "em0")], by decide⟩) ∧
      SortCompares (answerOf ["g0", "g1"] [openPorts 22 22, openPorts 80 90]
        ["10.0.0.1", "10.0.0.2"]) :=
  @build_order_free ⟨id⟩ _ _ _ _ _
    (@Distinct.mk ⟨id⟩ _ (by decide +kernel) (by decide +kernel)) (List.Perm.swap _ _ _)
    (reordered_answers (List.Perm.swap _ _ _) (List.Perm.swap _ _ _) (List.Perm.swap _ _ _))

end PortConfig

end Bsdbridge
