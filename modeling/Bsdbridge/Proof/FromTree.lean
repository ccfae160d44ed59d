import Bsdbridge.L2Agent.PortConfig
import Bsdbridge.Lib.Except

/-!
# What `from_tree` reads off the builder's trees

One lemma for each kind of node `build` writes: which model it becomes, and the one check of its
fields that can still refuse it. A mapping of nested models is read entry by entry, so it becomes a
dictionary of the same keys in the same order.

The reader of `model.py` is general: it takes any tree, defaults what is left out, and refuses what
it does not know. The trees of `build` are of seven shapes with fields at known places, and on
those the general reader comes down to the checks of the values. What it does on other trees is
`Proof/Acceptance`; nothing there is used here.

A node that is optional in the source is optional here too, so the lemmas about rules and members
take the optional parts as arguments (`ruleItems`) and go over which of them are there. A field
that is left out gets its default, and the conclusion names it.
-/

set_option autoImplicit false

namespace Bsdbridge

/-! ## 1. Mappings

`ReadAs` for one entry and `List.Forall₂` for a mapping: keys are distinct in the input, so
nothing is overwritten. -/

section

variable {α : Type} {sub : Tree → String → Except SchemaError α} {items : List (String × Tree)}
  {path : String} {d : Dict String α}

/-- What a mapping of nested models is read into. -/
def ReadAs (sub : Tree → String → Except SchemaError α) (path : String) (e : String × Tree)
    (r : String × α) : Prop :=
  r.1 = e.1 ∧ sub e.2 (path ++ "." ++ e.1) = .ok r.2

theorem keys_of_readAs {pairs : List (String × α)}
    (h : List.Forall₂ (ReadAs sub path) items pairs) :
    pairs.map Prod.fst = items.map Prod.fst :=
  (map_eq_of_forall₂ h fun _ _ _ hr => hr.1.symm).symm

/-- A mapping of distinct keys is read entry by entry. -/
theorem nestedMapChild_ok (hnd : (items.map Prod.fst).Nodup) :
    nestedMapChild sub (.dict items) path = .ok d ↔
      List.Forall₂ (ReadAs sub path) items d.entries := by
  have hwalk : ∀ pairs : List (String × α),
      (items.mapM fun e => do
        let m ← sub e.2 (path ++ "." ++ e.1)
        pure (e.1, m)) = Except.ok pairs ↔ List.Forall₂ (ReadAs sub path) items pairs := by
    intro pairs
    rw [mapM_eq_ok]
    have hround : ∀ (e : String × Tree) (r : String × α), (do
        let m ← sub e.2 (path ++ "." ++ e.1)
        pure (e.1, m)) = Except.ok r ↔ ReadAs sub path e r := by
      intro e r
      rw [Except.bind_eq_ok, ReadAs]
      constructor
      · rintro ⟨m, hm, hr⟩
        obtain rfl := Except.pure_eq_ok.mp hr
        exact ⟨rfl, hm⟩
      · rintro ⟨hk, hm⟩
        exact ⟨r.2, hm, Except.pure_eq_ok.mpr (by rw [← hk])⟩
    simp only [hround]
  unfold nestedMapChild
  rw [Except.bind_eq_ok]
  constructor
  · rintro ⟨pairs, hpairs, hd⟩
    have hread := (hwalk pairs).mp hpairs
    obtain rfl := Except.pure_eq_ok.mp hd
    rwa [Dict.entries_ofList (keys_of_readAs hread ▸ hnd)]
  · intro h
    refine ⟨d.entries, (hwalk _).mpr h, Except.pure_eq_ok.mpr ?_⟩
    exact Dict.ext (Dict.entries_ofList d.nodup)

/-- A dictionary of the values a document writes. -/
def itemsOf {β : Type} (d : Dict String β) (tree : β → Tree) : List (String × Tree) :=
  d.entries.map fun e => (e.1, tree e.2)

theorem nodup_itemsOf {β : Type} {d : Dict String β} {tree : β → Tree} :
    ((itemsOf d tree).map Prod.fst).Nodup := by
  unfold itemsOf
  rw [List.map_map]
  exact d.nodup

theorem itemsOf_id {d : Dict String Tree} : itemsOf d id = d.entries := List.map_id _

/-- What is read under a key is what was written there. -/
theorem get?_of_readAs {β : Type} {D : Dict String β} {tree : β → Tree}
    (h : List.Forall₂ (ReadAs sub path) (itemsOf D tree) d.entries) {k : String} {a : α} :
    d.get? k = some a ↔ ∃ b, D.get? k = some b ∧ sub (tree b) (path ++ "." ++ k) = .ok a := by
  rw [Dict.get?_eq_some]
  constructor
  · intro hm
    obtain ⟨e, he, hk, hsub⟩ := exists_of_mem_right h hm
    obtain ⟨⟨key, b⟩, hb, rfl⟩ := List.mem_map.mp he
    obtain rfl : k = key := hk
    exact ⟨b, Dict.get?_eq_some.mpr hb, hsub⟩
  · rintro ⟨b, hb, hsub⟩
    obtain ⟨⟨key, a'⟩, hm, hk, hsub'⟩ := exists_of_mem_left h
      (List.mem_map_of_mem (Dict.get?_eq_some.mp hb))
    obtain rfl : key = k := hk
    obtain rfl := Except.ok.inj (hsub.symm.trans hsub')
    exact hm

theorem mem_of_readAs {β : Type} {D : Dict String β} {tree : β → Tree}
    (h : List.Forall₂ (ReadAs sub path) (itemsOf D tree) d.entries) {k : String} :
    k ∈ d ↔ k ∈ D := by
  have hkeys : d.entries.map Prod.fst = D.entries.map Prod.fst := by
    rw [keys_of_readAs h, itemsOf, List.map_map]
    rfl
  show k ∈ d.entries.map Prod.fst ↔ k ∈ D.entries.map Prod.fst
  rw [hkeys]

/-- It can be read when each of its entries can. -/
theorem nestedMapChild_total
    (h : ∀ e ∈ items, ∃ m, sub e.2 (path ++ "." ++ e.1) = .ok m) :
    ∃ d, nestedMapChild sub (.dict items) path = .ok d := by
  unfold nestedMapChild
  obtain ⟨pairs, hpairs⟩ := exists_mapM_ok (f := fun e : String × Tree => do
    let m ← sub e.2 (path ++ "." ++ e.1)
    pure (e.1, m)) (l := items) fun e he => by
      obtain ⟨m, hm⟩ := h e he
      exact ⟨(e.1, m), Except.bind_eq_ok.mpr ⟨m, hm, rfl⟩⟩
  exact ⟨Dict.ofList pairs, Except.bind_eq_ok.mpr ⟨pairs, hpairs, rfl⟩⟩

end

/-! ## 2. Rules

A rule's protocol and port are the fields that can still be refused. -/

theorem checkStr_any {label s : String} : checkStr label 0 none (.str s) = .ok s := by
  simp [checkStr]

/-- `raise SchemaError(f"{where}: {exc}")` around a constructor. -/
def under {α : Type} (path : String) (x : Except SchemaError α) : Except SchemaError α :=
  match x with
  | .ok m => .ok m
  | .error e => .error (.under path e)

theorem under_eq_ok {α : Type} {path : String} {x : Except SchemaError α} {m : α} :
    under path x = .ok m ↔ x = .ok m := by
  unfold under
  cases x <;> simp

/-- `PROTO_RE`. -/
def protoWords : List (String × Proto) :=
  [("tcp", .tcp), ("udp", .udp), ("icmp", .icmp), ("icmp6", .icmp6)]

/-- A rule whose items are written in the order `action`, `proto`, `port`, `from`, `to`. -/
def ruleItems (proto : Option String) (port : Option Tree) (from_ to_ : Option String) :
    List (String × Tree) :=
  [("action", .str "pass")] ++
    (match proto with | some w => [("proto", .str w)] | none => []) ++
    (match port with | some v => [("port", v)] | none => []) ++
    (match from_ with | some r => [("from", .str r)] | none => []) ++
    (match to_ with | some r => [("to", .str r)] | none => [])

theorem fromTree_ruleItems {proto : Option String} {port : Option Tree}
    {from_ to_ : Option String} {path : String} {pr : Option Proto}
    (hproto : proto.map (protoWords.lookup ·) = pr.map some) :
    FilterRule.fromTree (.dict (ruleItems proto port from_ to_)) path =
      under path ((canonicalPort (port.getD .null)).map fun p =>
        { action := .pass, proto := pr, port := p, from_ := from_.getD "any",
          to_ := to_.getD "any" }) := by
  -- the items are read in the order they are written, whichever of them there are
  have hread : FilterRule.fromTree (.dict (ruleItems proto port from_ to_)) path =
      under path (do
        let proto ← optionalField (checkWord "FilterRule.proto" "tcp|udp|icmp|icmp6" protoWords)
          (proto.map .str)
        let port ← canonicalPort (port.getD .null)
        let from_ ← checkStr "FilterRule.from_" 0 none (.str (from_.getD "any"))
        let to_ ← checkStr "FilterRule.to" 0 none (.str (to_.getD "any"))
        pure { action := .pass, proto, port, from_, to_ }) := by
    cases proto <;> cases port <;> cases from_ <;> cases to_ <;> rfl
  have hword : optionalField (checkWord "FilterRule.proto" "tcp|udp|icmp|icmp6" protoWords)
      (proto.map .str) = .ok pr := by
    cases proto with
    | none =>
      cases pr with
      | none => rfl
      | some w => exact absurd hproto (by simp)
    | some w =>
      cases pr with
      | none => exact absurd hproto (by simp)
      | some x =>
        have hx : protoWords.lookup w = some x := by simpa using hproto
        simp only [Option.map_some, optionalField, checkWord, hx]
        rfl
  rw [hread, hword]
  simp only [Except.ok_bind, checkStr_any]
  cases canonicalPort (port.getD .null) <;> rfl

/-! ## 3. Filters -/

/-- Rule numbers are read in order, and must be numerals of distinct numbers. -/
theorem intRules_ok {rules : Dict String FilterRule} {out : Dict Int FilterRule} :
    intRules rules = .ok out ↔
      List.Forall₂ (fun e o => Text.readInt e.1 = some o.1 ∧ o.2 = e.2) rules.entries
        out.entries := by
  -- a round, by what its key reads as
  have hgen : ∀ (f : Dict Int FilterRule → String × FilterRule →
        Except SchemaError (Dict Int FilterRule)),
      (∀ acc e, Text.readInt e.1 = none → ∀ r, f acc e ≠ .ok r) →
      (∀ acc e key, Text.readInt e.1 = some key → key ∈ acc → ∀ r, f acc e ≠ .ok r) →
      (∀ acc e key, Text.readInt e.1 = some key → key ∉ acc →
        f acc e = .ok (acc.insert key e.2)) →
      ∀ (l : List (String × FilterRule)) (acc : Dict Int FilterRule),
        l.foldlM f acc = .ok out ↔
        ∃ tail, List.Forall₂ (fun e o => Text.readInt e.1 = some o.1 ∧ o.2 = e.2) l tail ∧
          out.entries = acc.entries ++ tail := by
    intro f hbad htwice hnew l
    induction l with
    | nil =>
      intro acc
      rw [List.foldlM_nil, Except.pure_eq_ok]
      constructor
      · rintro rfl
        exact ⟨[], .nil, (List.append_nil _).symm⟩
      · rintro ⟨tail, htail, hout⟩
        cases htail
        exact Dict.ext (by rw [hout, List.append_nil])
    | cons e rest ih =>
      intro acc
      rw [List.foldlM_cons, Except.bind_eq_ok]
      cases hread : Text.readInt e.1 with
      | none =>
        refine iff_of_false (fun ⟨r, hr, _⟩ => hbad acc e hread r hr) ?_
        rintro ⟨tail, htail, -⟩
        cases htail with
        | cons ho _ => exact absurd (hread.symm.trans ho.1) (by simp)
      | some key =>
        by_cases hin : key ∈ acc
        · refine iff_of_false (fun ⟨r, hr, _⟩ => htwice acc e key hread hin r hr) ?_
          rintro ⟨tail, htail, hout⟩
          cases htail with
          | @cons _ o _ tail ho _ =>
            obtain rfl := Option.some.inj (hread.symm.trans ho.1)
            have hnd := out.nodup
            rw [hout, List.map_append, List.nodup_append] at hnd
            exact hnd.2.2 _ hin _ List.mem_cons_self rfl
        · simp only [hnew acc e key hread hin, Except.ok.injEq, exists_eq_left']
          rw [ih, show (acc.insert key e.2).entries = acc.entries ++ [(key, e.2)] from
            Dict.insertEntries_new hin]
          constructor
          · rintro ⟨tail, htail, hout⟩
            exact ⟨(key, e.2) :: tail, .cons ⟨hread, rfl⟩ htail, by rw [hout]; simp⟩
          · rintro ⟨tail, htail, hout⟩
            cases htail with
            | @cons _ o _ tail ho htail =>
              obtain ⟨num, rule⟩ := o
              obtain rfl := Option.some.inj (hread.symm.trans ho.1)
              obtain rfl := ho.2
              exact ⟨tail, htail, by rw [hout]; simp⟩
  refine (hgen _ (fun acc e hread r => ?_) (fun acc e key hread hin r => ?_)
    (fun acc e key hread hin => ?_) rules.entries ∅).trans ?_
  · simp [hread]
  · simp [hread, hin]
  · simp [hread, hin]
  constructor
  · rintro ⟨tail, htail, hout⟩
    rw [Dict.entries_empty, List.nil_append] at hout
    exact hout ▸ htail
  · exact fun h => ⟨_, h, rfl⟩

theorem fromTree_filter {ins outs : Tree} {path : String} {filt : Filter} :
    Filter.fromTree (.dict [("in", ins), ("out", outs)]) path = .ok filt ↔
      ∃ di do_, nestedMapChild FilterRule.fromTree ins (path ++ "." ++ "in") = .ok di ∧
        nestedMapChild FilterRule.fromTree outs (path ++ "." ++ "out") = .ok do_ ∧
        intRules di = .ok filt.in_ ∧ intRules do_ = .ok filt.out := by
  have hread : Filter.fromTree (.dict [("in", ins), ("out", outs)]) path = (do
      let di ← nestedMapChild FilterRule.fromTree ins (path ++ "." ++ "in")
      let do_ ← nestedMapChild FilterRule.fromTree outs (path ++ "." ++ "out")
      under path (Filter.make ⟨di, do_⟩)) := by
    simp only [Filter.fromTree, Schema.fromTree, Filter.schema, List.foldlM_cons,
      List.foldlM_nil, Schema.step]
    cases hi : nestedMapChild FilterRule.fromTree ins (path ++ "." ++ "in") with
    | error e => rfl
    | ok di =>
      cases ho : nestedMapChild FilterRule.fromTree outs (path ++ "." ++ "out") with
      | error e => rfl
      | ok do_ => rfl
  rw [hread]
  simp only [Except.bind_eq_ok, under_eq_ok, Filter.make, Except.pure_eq_ok]
  constructor
  · rintro ⟨di, hdi, do_, hdo, i, hi, o, ho, rfl⟩
    exact ⟨di, do_, hdi, hdo, hi, ho⟩
  · rintro ⟨di, do_, hdi, hdo, hi, ho⟩
    exact ⟨di, hdi, do_, hdo, _, hi, _, ho, rfl⟩

/-! ## 4. Bridges

Members come in four kinds, by whether they are secured and whether they have an address to be
bound to. -/

namespace PortConfig

/-- The bind of a secured port with an IPv4 address and a MAC. -/
def bindOf (port : PortDetails) : Except SchemaError (Option Bind) :=
  if secured port then
    match ipv4Of port, truthy port.macAddress with
    | some ip, some mac => (canonicalMac (.str mac)).map fun m => some ⟨m, ip⟩
    | _, _ => .ok none
  else .ok none

/-- The member of a port. -/
def memberOf (port : PortDetails) (bind : Option Bind) : Member :=
  { type := if (serviceIf port).isSome then none else some .tap
    filter := if secured port then some (Names.filterName port.portId) else none
    description := DESCRIPTION_PREFIX ++ port.portId
    bind }

/-- A mapping of two plain fields, whatever the constructor checks. -/
theorem fromTree_pair {α : Type} {f : Kwargs → Except SchemaError α} {cls a b path : String}
    {u v : Tree} (hab : b ≠ a) :
    Schema.fromTree ⟨cls, [(a, true), (b, true)], [], fun _ => none, rawChild, f⟩
        (.dict [(a, u), (b, v)]) path =
      under path (f fun n => if n = b then some v else if n = a then some u else none) := by
  have hba : (b == a) = false := by simpa using hab
  simp [Schema.fromTree, Schema.step, rawChild, List.lookup, hab, hba, Ne.symm hab]
  rfl

theorem fromTree_bind {mac ip path : String} :
    Bind.fromTree (.dict [("mac", .str mac), ("address", .str ip)]) path =
      under path ((canonicalMac (.str mac)).map fun m => ⟨m, ip⟩) := by
  refine (fromTree_pair (by decide)).trans ?_
  rw [Bind.make]
  simp only [String.reduceEq, if_false, if_true, Option.getD_some, checkStr_any]
  cases canonicalMac (.str mac) <;> rfl

/-- The member of a secured port without a bind. -/
theorem fromTree_unboundItems {desc filter path : String} {member : Member} :
    Member.fromTree (.dict [("description", .str desc), ("type", .str "tap"),
        ("filter", .str filter)]) path = .ok member ↔
      member = { description := desc, type := some .tap, filter := some filter } := by
  have hread : Member.fromTree (.dict [("description", .str desc), ("type", .str "tap"),
      ("filter", .str filter)]) path =
      .ok { description := desc, type := some .tap, filter := some filter } := rfl
  rw [hread]
  simp [eq_comm]

/-- The member of a secured port with a bind. -/
theorem fromTree_boundItems {desc filter mac ip path : String} {member : Member} :
    Member.fromTree (.dict [("description", .str desc), ("type", .str "tap"),
        ("filter", .str filter), ("bind", .dict [("mac", .str mac), ("address", .str ip)])])
        path = .ok member ↔
      ∃ m, canonicalMac (.str mac) = .ok m ∧ member =
        { description := desc, type := some .tap, filter := some filter,
          bind := some ⟨m, ip⟩ } := by
  have hread : Member.fromTree (.dict [("description", .str desc), ("type", .str "tap"),
      ("filter", .str filter), ("bind", .dict [("mac", .str mac), ("address", .str ip)])])
      path = (do
        let b ← Bind.fromTree (.dict [("mac", .str mac), ("address", .str ip)])
          (path ++ "." ++ "bind")
        pure { description := desc, type := some .tap, filter := some filter,
               bind := some b }) := by
    unfold Member.fromTree Member.schema
    generalize Bind.fromTree = sub
    simp only [Schema.fromTree, List.foldlM_cons, List.foldlM_nil, Schema.step, nestedChild]
    cases hb : sub (.dict [("mac", .str mac), ("address", .str ip)])
        (path ++ "." ++ "bind") with
    | error e => rfl
    | ok b => rfl
  rw [hread, fromTree_bind]
  simp only [Except.bind_eq_ok, under_eq_ok, Except.pure_eq_ok]
  cases canonicalMac (.str mac) with
  | error e => simp [Except.map]
  | ok m => simp [Except.map, eq_comm]

theorem fromTree_memberTree {port : PortDetails} {path : String} {member : Member} :
    Member.fromTree (memberTree port) path = .ok member ↔
      ∃ bind, bindOf port = .ok bind ∧ member = memberOf port bind := by
  have hservice : ∀ desc, Member.fromTree (.dict [("description", .str desc)]) path =
      .ok { description := desc } := fun _ => rfl
  have hopen : ∀ desc,
      Member.fromTree (.dict [("description", .str desc), ("type", .str "tap")]) path =
        .ok { description := desc, type := some .tap } := fun _ => rfl
  unfold memberTree bindOf memberOf
  by_cases hs : (serviceIf port).isSome = true
  · have hsec : secured port = false := by
      cases hp : serviceIf port with
      | none => rw [hp] at hs; exact absurd hs (by simp)
      | some f => simp [secured, hp]
    rw [if_pos hs, List.append_nil, hservice]
    simp [hsec, hs, eq_comm]
  · have hnone : (serviceIf port).isNone = true := by simpa using hs
    by_cases hopt : port.portSecurityEnabled = some false
    · have hsec : secured port = false := by simp [secured, hopt]
      rw [if_neg hs, if_pos hopt, List.singleton_append, hopen]
      simp [hsec, hs, eq_comm]
    · have hsec : secured port = true := by simp [secured, hnone, hopt]
      rw [if_neg hs, if_neg hopt]
      unfold bindItems
      cases hip : ipv4Of port with
      | none =>
        rw [List.append_nil]
        refine fromTree_unboundItems.trans ?_
        simp [hsec, hs]
      | some ip =>
        cases hmac : truthy port.macAddress with
        | none =>
          rw [List.append_nil]
          refine fromTree_unboundItems.trans ?_
          simp [hsec, hs]
        | some mac =>
          refine fromTree_boundItems.trans ?_
          simp only [hsec, hs, if_true]
          cases canonicalMac (.str mac) with
          | error e => simp [Except.map]
          | ok m => simp [Except.map]

/-- The segment of a port with a trunk. -/
def segmentOf (port : PortDetails) (physnet : String) : Segment :=
  { physnet := some physnet
    vlan := if port.networkType = some "vlan" then port.segmentationId else none }

/-- A vlan port's id is a vlan id. -/
def VlanId (port : PortDetails) : Prop :=
  port.networkType = some "vlan" → ∀ n, port.segmentationId = some n → 1 ≤ n ∧ n ≤ 4094

theorem fromTree_segmentTree {port : PortDetails} {physnet path : String} {seg : Segment} :
    Segment.fromTree (segmentTree port physnet) path = .ok seg ↔
      physnet ≠ "" ∧ VlanId port ∧ seg = segmentOf port physnet := by
  -- `Segment.check` wants a physnet that counts as set
  have hcheck : ∀ vlan : Option Int, Segment.check { physnet := some physnet, vlan } = .ok seg ↔
      physnet ≠ "" ∧ seg = { physnet := some physnet, vlan } := by
    intro vlan
    by_cases hp : physnet = ""
    · subst hp
      cases vlan <;> simp [Segment.check, truthy]
    · have ht : truthy (some physnet) = some physnet := truthy_eq_some.mpr ⟨rfl, hp⟩
      cases vlan <;> simp [Segment.check, ht, hp, eq_comm]
  have hflat : Segment.fromTree (.dict [("physnet", .str physnet)]) path =
      under path (Segment.check { physnet := some physnet }) := rfl
  have hvlan : ∀ v, Segment.fromTree (.dict [("physnet", .str physnet), ("vlan", v)]) path =
      under path (do
        let vlan ← optionalField (checkInt "Segment.vlan" 1 (some 4094)) (some v)
        Segment.check { physnet := some physnet, vlan }) := fun v => rfl
  unfold segmentTree segmentOf VlanId
  by_cases hv : port.networkType = some "vlan"
  · simp only [hv, if_true, List.singleton_append, forall_const]
    rw [hvlan, under_eq_ok, Except.bind_eq_ok]
    cases hseg : port.segmentationId with
    | none =>
      simp only [optionalField, Except.ok.injEq, exists_eq_left', hcheck]
      simp
    | some n =>
      have hint : ∀ o, optionalField (checkInt "Segment.vlan" 1 (some 4094)) (some (.int n)) =
          .ok o ↔ (1 ≤ n ∧ n ≤ 4094) ∧ o = some n := by
        intro o
        unfold optionalField checkInt
        by_cases h1 : n < 1
        · simp [h1]
        · by_cases h2 : 4094 < n
          · simp [h1, h2]
          · simp [h1, h2, eq_comm]
            omega
      simp only [hint, hcheck]
      constructor
      · rintro ⟨o, ⟨hn, rfl⟩, hp, hs⟩
        exact ⟨hp, fun m hm => Option.some.inj hm ▸ hn, hs⟩
      · rintro ⟨hp, hn, hs⟩
        exact ⟨some n, ⟨hn n rfl, rfl⟩, hp, hs⟩
  · simp only [hv, if_false, List.append_nil, false_implies, true_and]
    rw [hflat, under_eq_ok, hcheck]

theorem fromTree_stanzaTree {st : Stanza} {path : String} {br : Bridge} :
    Bridge.fromTree (stanzaTree st) path = .ok br ↔
      (∀ n ∈ br.member, n.length ≤ IFNAME_MAX) ∧
      (∃ member segment, nestedMapChild Member.fromTree (.dict st.member.entries)
          (path ++ "." ++ "member") = .ok member ∧
        (match st.segment with
          | none => segment = none
          | some t => nestedChild Segment.fromTree t (path ++ "." ++ "segment") = .ok segment) ∧
        br = { segment, member }) := by
  have hmake : ∀ (segment : Option Segment) (member : Dict String Member),
      Bridge.make ⟨fun _ => none, segment, member⟩ = .ok br ↔
        (∀ n ∈ member, n.length ≤ IFNAME_MAX) ∧ br = { segment, member } := by
    intro segment member
    have hread : Bridge.make ⟨fun _ => none, segment, member⟩ =
        match member.keys.find? fun name => IFNAME_MAX < name.length with
        | some name => .error (.memberName name)
        | none => .ok { segment, member } := rfl
    rw [hread]
    cases hf : member.keys.find? fun name => decide (IFNAME_MAX < name.length) with
    | some n =>
      refine iff_of_false (by simp) ?_
      rintro ⟨hall, -⟩
      have hn := List.find?_some hf
      have hle := hall n (List.mem_of_find?_eq_some hf)
      rw [decide_eq_true_eq] at hn
      omega
    | none =>
      have hall : ∀ n ∈ member, n.length ≤ IFNAME_MAX := fun n hn => by
        have hno := List.find?_eq_none.mp hf n hn
        rw [decide_eq_true_eq] at hno
        omega
      exact ⟨fun h => ⟨hall, (Except.ok.inj h).symm⟩, fun h => by rw [h.2]⟩
  have hbare : ∀ items, Bridge.fromTree (.dict [("member", .dict items)]) path = (do
      let member ← nestedMapChild Member.fromTree (.dict items) (path ++ "." ++ "member")
      under path (Bridge.make ⟨fun _ => none, none, member⟩)) := by
    intro items
    unfold Bridge.fromTree Bridge.schema
    generalize Member.fromTree = sub
    simp only [Schema.fromTree, List.foldlM_cons, List.foldlM_nil, Schema.step]
    cases hb : nestedMapChild sub (.dict items) (path ++ "." ++ "member") with
    | error e => rfl
    | ok member => rfl
  have hseg : ∀ items t, Bridge.fromTree (.dict [("member", .dict items), ("segment", t)]) path =
      (do
        let member ← nestedMapChild Member.fromTree (.dict items) (path ++ "." ++ "member")
        let segment ← nestedChild Segment.fromTree t (path ++ "." ++ "segment")
        under path (Bridge.make ⟨fun _ => none, segment, member⟩)) := by
    intro items t
    unfold Bridge.fromTree Bridge.schema
    generalize Member.fromTree = sub
    generalize Segment.fromTree = subSeg
    simp only [Schema.fromTree, List.foldlM_cons, List.foldlM_nil, Schema.step]
    cases hb : nestedMapChild sub (.dict items) (path ++ "." ++ "member") with
    | error e => rfl
    | ok member =>
      cases hs : nestedChild subSeg t (path ++ "." ++ "segment") with
      | error e => rfl
      | ok segment => rfl
  unfold stanzaTree
  cases hst : st.segment with
  | none =>
    rw [List.append_nil, hbare]
    simp only [Except.bind_eq_ok, under_eq_ok, hmake]
    constructor
    · rintro ⟨member, hm, hlen, rfl⟩
      exact ⟨hlen, member, none, hm, rfl, rfl⟩
    · rintro ⟨hlen, member, segment, hm, rfl, rfl⟩
      exact ⟨member, hm, hlen, rfl⟩
  | some t =>
    rw [List.singleton_append, hseg]
    simp only [Except.bind_eq_ok, under_eq_ok, hmake]
    constructor
    · rintro ⟨member, hm, segment, hs, hlen, rfl⟩
      exact ⟨hlen, member, segment, hm, hs, rfl⟩
    · rintro ⟨hlen, member, segment, hm, hs, rfl⟩
      exact ⟨member, hm, segment, hs, hlen, rfl⟩

/-! ## 5. The document

The whole document, and the fields of it that `build` leaves out. -/

theorem fromTree_physnet {trunk path : String} {p : Physnet} :
    Physnet.fromTree (.dict [("trunk", .str trunk)]) path = .ok p ↔
      (1 ≤ trunk.length ∧ trunk.length ≤ IFNAME_MAX) ∧ p = { trunk } := by
  have hread : Physnet.fromTree (.dict [("trunk", .str trunk)]) path = under path (do
      let trunk ← checkStr "Physnet.trunk" 1 (some IFNAME_MAX) (.str trunk)
      pure { trunk }) := rfl
  rw [hread, under_eq_ok]
  unfold checkStr
  by_cases h1 : trunk.length < 1
  · simp [h1]
  · by_cases h2 : IFNAME_MAX < trunk.length
    · simp [h1, h2]
    · simp only [h1, h2, if_false, Except.ok_bind, Except.pure_eq_ok]
      constructor
      · rintro rfl
        exact ⟨⟨by omega, by omega⟩, rfl⟩
      · rintro ⟨-, rfl⟩
        rfl

theorem fromTree_table {ips : List String} {path : String} :
    Table.fromTree (.dict [("members", .list (ips.map .str))]) path =
      .ok { members := sortedSet ips.toFinset } := by
  have hlist : checkStrList "Table.members" (.list (ips.map .str)) = .ok ips := by
    unfold checkStrList
    rw [mapM_eq_ok]
    induction ips with
    | nil => exact .nil
    | cons ip rest ih => exact .cons rfl ih
  have hread : Table.fromTree (.dict [("members", .list (ips.map .str))]) path = under path (do
      let members ← checkStrList "Table.members" (.list (ips.map .str))
      pure { members := sortedSet members.toFinset }) := rfl
  rw [hread, hlist]
  rfl

/-- A section of the document that is left out is read as empty. -/
theorem fromTree_document {acc : Stanzas} {sgInfo : SgInfo} {config : Config} :
    Config.fromTree (document acc sgInfo) = .ok config ↔
      nestedMapChild Physnet.fromTree
        (.dict (itemsOf acc.physnets fun trunk => .dict [("trunk", .str trunk)])) "Config.physnet" =
          .ok config.physnet ∧
      nestedMapChild Bridge.fromTree (.dict (itemsOf acc.bridges stanzaTree)) "Config.bridge" =
        .ok config.bridge ∧
      nestedMapChild Filter.fromTree (.dict (itemsOf acc.filters id)) "Config.filter" =
        .ok config.filter ∧
      nestedMapChild Table.fromTree (.dict (itemsOf (tables acc.tablesUsed sgInfo) fun ips =>
        .dict [("members", .list (ips.map .str))])) "Config.table" = .ok config.table ∧
      Config.dangling config = none := by
  have hread : Config.fromTree (document acc sgInfo) = (do
      let physnet ← nestedMapChild Physnet.fromTree
        (.dict (itemsOf acc.physnets fun trunk => .dict [("trunk", .str trunk)])) "Config.physnet"
      let bridge ← nestedMapChild Bridge.fromTree (.dict (itemsOf acc.bridges stanzaTree))
        "Config.bridge"
      let filter ← nestedMapChild Filter.fromTree (.dict (itemsOf acc.filters id)) "Config.filter"
      let table ← nestedMapChild Table.fromTree (.dict (itemsOf (tables acc.tablesUsed sgInfo)
        fun ips => .dict [("members", .list (ips.map .str))])) "Config.table"
      under "Config" (Config.make { physnet, bridge, table, filter })) := by
    unfold document part Config.fromTree Config.schema
    generalize Physnet.fromTree = sp
    generalize Bridge.fromTree = sb
    generalize Filter.fromTree = sf
    generalize Table.fromTree = st
    generalize tables acc.tablesUsed sgInfo = tabs
    generalize Config.make = make
    -- a section that is left out keeps its empty default
    have hempty : ∀ {α : Type} (sub : Tree → String → Except SchemaError α) (path : String),
        nestedMapChild sub (.dict []) path = .ok ∅ := fun _ _ => rfl
    by_cases h1 : acc.physnets.entries = [] <;> by_cases h2 : acc.bridges.entries = [] <;>
      by_cases h3 : acc.filters.entries = [] <;> by_cases h4 : tabs.entries = [] <;>
      simp [h1, h2, h3, h4, hempty, itemsOf, Schema.fromTree, Schema.step, List.lookup] <;>
      rfl
  have hmake : ∀ c : Config, Config.make c = .ok config ↔
      Config.dangling config = none ∧ c = config := by
    intro c
    unfold Config.make
    cases hd : Config.dangling c with
    | none =>
      constructor
      · intro h
        obtain rfl := Except.ok.inj h
        exact ⟨hd, rfl⟩
      · rintro ⟨-, rfl⟩
        rfl
    | some e =>
      refine iff_of_false (by simp) ?_
      rintro ⟨hn, rfl⟩
      rw [hn] at hd
      exact absurd hd (by simp)
  rw [hread]
  simp only [Except.bind_eq_ok, under_eq_ok, hmake]
  constructor
  · rintro ⟨p, hp, b, hb, f, hf, t, ht, hd, rfl⟩
    exact ⟨hp, hb, hf, ht, hd⟩
  · rintro ⟨hp, hb, hf, ht, hd⟩
    exact ⟨_, hp, _, hb, _, hf, _, ht, hd, rfl⟩

end PortConfig

end Bsdbridge
