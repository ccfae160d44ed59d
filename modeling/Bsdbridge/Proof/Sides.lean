import Bsdbridge.Proof.FromTree

/-!
# One side of a port's filter

What the rules of a port's security groups become, rule by rule: a rule pf can express becomes a
pass rule, unless its port cannot be spelled, and then the whole filter is refused. The numbers
only order the rules; they have to stay distinct and within what `int` reads.

Between a rule of a group and a rule of a filter stand a body, a number as text, and a tree. This
file closes over all three: `rule_of_entry` and `entry_of_rule` say what the side of a filter that
was read contains, in terms of the rules of the groups, and no later file mentions bodies again but
`Proof/Order`, which is about their sort.

Duplicate rules become one body, so the entries of a side do not correspond to rules one to one.
Both statements are therefore about existence: an entry is an allowance or comes from *some* rule,
and an expressible rule has *some* entry.
-/

set_option autoImplicit false

namespace Bsdbridge

namespace PortConfig

/-! ## 1. One rule

`filterRule` takes the port as an argument, since it is what may be refused. -/

/-- The protocol of a rendered rule. -/
def protoOf (rule : SgRule) : Option Proto :=
  (rule.protocol.bind fun p => PROTO.lookup p).bind fun w => protoWords.lookup w

/-- The port of a rendered rule, as the tree builder checks it. -/
def portOf (rule : SgRule) : Except SchemaError (Option PortSpec) :=
  canonicalPort (((portValue rule).map Scalar.tree).getD .null)

/-- The filter rule of an SG rule. -/
def filterRule (rule : SgRule) (port : Option PortSpec) : FilterRule :=
  { action := .pass
    proto := protoOf rule
    port
    from_ := if rule.direction = .ingress then remote rule else "any"
    to_ := if rule.direction = .egress then remote rule else "any" }

/-- An expressible protocol renders as one of pf's words. -/
theorem protoOf_word {rule : SgRule} :
    (rule.protocol.bind fun p => PROTO.lookup p).map (protoWords.lookup ·) =
      (protoOf rule).map some := by
  have hwords : ∀ p w, PROTO.lookup p = some w → ∃ x, protoWords.lookup w = some x := by
    intro p w hw
    unfold PROTO at hw
    simp only [List.lookup_cons, List.lookup_nil] at hw
    repeat' split at hw
    all_goals first
      | (obtain rfl := Option.some.inj hw; exact ⟨_, rfl⟩)
      | exact absurd hw (by simp)
  unfold protoOf
  cases hw : rule.protocol.bind fun p => PROTO.lookup p with
  | none => rfl
  | some w =>
    obtain ⟨p, -, hp⟩ := Option.bind_eq_some_iff.mp hw
    obtain ⟨x, hx⟩ := hwords p w hp
    simp [hx]

theorem fromTree_bodyOf {rule : SgRule} {path : String} :
    FilterRule.fromTree (bodyTree (bodyOf rule)) path =
      under path ((portOf rule).map (filterRule rule)) := by
  -- the body, item by item
  have hitems : ∃ from_ to_, bodyTree (bodyOf rule) = .dict (ruleItems
      (rule.protocol.bind fun p => PROTO.lookup p) ((portValue rule).map Scalar.tree) from_ to_) ∧
      from_.getD "any" = (if rule.direction = .ingress then remote rule else "any") ∧
      to_.getD "any" = (if rule.direction = .egress then remote rule else "any") := by
    unfold bodyTree bodyOf ruleItems
    by_cases hany : remote rule = "any"
    · refine ⟨none, none, ?_, by simp [hany], by simp [hany]⟩
      cases (rule.protocol.bind fun p => PROTO.lookup p) <;> cases portValue rule <;>
        simp [hany, Scalar.tree]
    · cases hd : rule.direction with
      | ingress =>
        refine ⟨some (remote rule), none, ?_, by simp, by simp⟩
        cases (rule.protocol.bind fun p => PROTO.lookup p) <;> cases portValue rule <;>
          simp [hany, Scalar.tree]
      | egress =>
        refine ⟨none, some (remote rule), ?_, by simp, by simp⟩
        cases (rule.protocol.bind fun p => PROTO.lookup p) <;> cases portValue rule <;>
          simp [hany, Scalar.tree]
  obtain ⟨from_, to_, htree, hfrom, hto⟩ := hitems
  rw [htree, fromTree_ruleItems protoOf_word, hfrom, hto]
  rfl

/-- The ports a rule names: a missing end is the other one. -/
def portRange (rule : SgRule) : Option (Int × Int) :=
  rule.portRangeMin.map fun lo => (lo, rule.portRangeMax.getD lo)

theorem readInt_port {n : Nat} (h : n ≤ 65535) : Text.readInt (toString n) = some (n : Int) := by
  apply Text.readInt_toString_nat
  have hpow : 10 ^ 5 ≤ 10 ^ Text.maxStrDigits :=
    Nat.pow_le_pow_right (by decide) (by decide)
  omega

/-- A port can be spelled exactly when it is a range of ports. -/
theorem portOf_ok {rule : SgRule} {port : Option PortSpec} :
    portOf rule = .ok port ↔
      match portRange rule with
      | none => port = none
      | some (lo, hi) => 1 ≤ lo ∧ lo ≤ hi ∧ hi ≤ 65535 ∧
          port = some (if lo = hi then .one lo else .range lo hi) := by
  have hspec : ∀ v lo hi, portSpec v lo hi = .ok port ↔ 1 ≤ lo ∧ lo ≤ hi ∧ hi ≤ 65535 ∧
      port = some (if lo = hi then .one lo else .range lo hi) := by
    intro v lo hi
    unfold portSpec
    by_cases h : 1 ≤ lo ∧ lo ≤ 65535 ∧ lo ≤ hi ∧ hi ≤ 65535
    · rw [if_pos h, Except.ok.injEq]
      constructor
      · rintro rfl
        exact ⟨h.1, h.2.2.1, h.2.2.2, rfl⟩
      · rintro ⟨-, -, -, rfl⟩
        rfl
    · rw [if_neg h]
      refine iff_of_false (by simp) ?_
      rintro ⟨h1, h2, h3, -⟩
      exact h ⟨h1, by omega, h2, h3⟩
  have hrange : ∀ lo hi : Int, canonicalPort (.str (toString lo ++ "-" ++ toString hi)) =
      .ok port ↔ 1 ≤ lo ∧ lo ≤ hi ∧ hi ≤ 65535 ∧
        port = some (if lo = hi then .one lo else .range lo hi) := by
    intro lo hi
    cases lo with
    | ofNat n =>
      have hpart : Text.partition (toString n ++ "-" ++ toString hi) '-' =
          (toString n, true, toString hi) := by
        have htext : toString n ++ "-" ++ toString hi =
            toString n ++ String.ofList ('-' :: (toString hi).toList) := by
          rw [String.append_assoc]
          congr 1
          exact String.toList_injective (by simp)
        rw [htext, Text.partition_append (Text.not_mem_toString_nat (by decide))]
      show canonicalPort (.str (toString n ++ "-" ++ toString hi)) = .ok port ↔ _
      rw [canonicalPort, hpart]
      simp only [if_true]
      cases hn : Text.readInt (toString n) with
      | none =>
        refine iff_of_false (by simp) fun hr => ?_
        have h1 : (n : Int) ≤ hi := hr.2.1
        have h2 := hr.2.2.1
        rw [readInt_port (n := n) (by omega)] at hn
        exact absurd hn (by simp)
      | some m =>
        obtain rfl := (Text.eq_of_readInt_toString hn).2
        cases hh : Text.readInt (toString hi) with
        | none =>
          refine iff_of_false (by simp) fun hr => ?_
          obtain ⟨k, rfl⟩ := Int.eq_ofNat_of_zero_le (show 0 ≤ hi by omega)
          rw [show toString (k : Int) = toString k from rfl, readInt_port (n := k) (by omega)] at hh
          exact absurd hh (by simp)
        | some m =>
          obtain rfl := Text.eq_of_readInt_toString_int hh
          exact hspec _ n m
    | negSucc n =>
      -- a minus sign in front is taken for the separator
      have hpart : Text.partition (toString (Int.negSucc n) ++ "-" ++ toString hi) '-' =
          ("", true, toString (n + 1) ++ "-" ++ toString hi) := by
        have htext : toString (Int.negSucc n) ++ "-" ++ toString hi =
            "" ++ String.ofList ('-' :: (toString (n + 1) ++ "-" ++ toString hi).toList) := by
          show "-" ++ toString (n + 1) ++ "-" ++ toString hi = _
          exact String.toList_injective (by simp)
        rw [htext, Text.partition_append (by simp)]
      have hempty : Text.readInt "" = none := by decide
      rw [canonicalPort, hpart]
      simp only [hempty]
      refine iff_of_false (by simp) fun hr => ?_
      have h1 := hr.1
      omega
  unfold portOf portRange portValue
  cases hmin : rule.portRangeMin with
  | none =>
    simp [canonicalPort, eq_comm]
  | some lo =>
    cases hmax : rule.portRangeMax with
    | none => exact hspec _ lo lo
    | some hi =>
      by_cases heq : lo = hi
      · subst heq
        simpa [Scalar.tree, canonicalPort] using hspec (.int lo) lo lo
      · simpa [Scalar.tree, heq] using hrange lo hi

/-! ## 2. The numbers

Rule numbers are written with `str` and read with `int`, which refuses numerals beyond its limit
of digits. A side of fewer rules than that is `Numberable`; no host has more, but the theorem
says so where it matters. -/

/-- Every number of a side can be read back. -/
def Numberable (count : Nat) : Prop :=
  ∀ i < count, SG_RULE_BASE + 10 * i < 10 ^ Text.maxStrDigits

theorem mem_numbered {bs : List Body} {item : String × Tree} :
    item ∈ numbered bs ↔ ∃ i b, (sortedBy bodyKey bs)[i]? = some b ∧
      item = (toString (SG_RULE_BASE + 10 * i), bodyTree b) := by
  unfold numbered
  rw [List.mem_map]
  constructor
  · rintro ⟨⟨b, i⟩, hb, rfl⟩
    exact ⟨i, b, List.mk_mem_zipIdx_iff_getElem?.mp hb, rfl⟩
  · rintro ⟨i, b, hb, rfl⟩
    exact ⟨(b, i), List.mk_mem_zipIdx_iff_getElem?.mpr hb, rfl⟩

/-- The numbers of a side with `count` rules of security groups. -/
def sideNums (count : Nat) : List Nat :=
  [10, 20] ++ (List.range count).map fun i => SG_RULE_BASE + 10 * i

theorem nodup_sideNums {count : Nat} : (sideNums count).Nodup := by
  unfold sideNums
  rw [List.nodup_append]
  refine ⟨by decide, List.Nodup.map (fun i j h => ?_) List.nodup_range, ?_⟩
  · unfold SG_RULE_BASE at h
    omega
  · intro a ha b hb
    obtain ⟨i, -, rfl⟩ := List.mem_map.mp hb
    have ha' : a ≤ 20 := by
      simp only [List.mem_cons, List.not_mem_nil, or_false] at ha
      omega
    unfold SG_RULE_BASE
    omega

theorem keys_numbered {bs : List Body} : (numbered bs).map Prod.fst =
    (List.range bs.length).map fun i => toString (SG_RULE_BASE + 10 * i) := by
  have hlen : (sortedBy bodyKey bs).length = bs.length := (perm_sortedBy bodyKey bs).length_eq
  unfold numbered
  rw [← hlen, List.map_map]
  apply List.ext_getElem
  · simp
  · intro i _ _
    simp

/-! ## 3. One side

The allowances first, under the numbers 10 and 20, then the rules of the groups. -/

/-- The allowances every filter begins with. -/
def infraOf : SgDirection → List (Int × FilterRule)
  | .ingress =>
      [(10, { action := .pass, proto := some .udp, port := some (.one 68) }),
        (20, { action := .pass, proto := some .icmp6 })]
  | .egress =>
      [(10, { action := .pass, proto := some .udp, port := some (.one 67) }),
        (20, { action := .pass, proto := some .icmp6 })]

/-- The items of one side of a filter. -/
def sideItems (dir : SgDirection) (rules : List SgRule) : List (String × Tree) :=
  (match dir with | .ingress => infraRules.1 | .egress => infraRules.2) ++
    numbered (bodies dir rules)

/-- How an item of a side is read. -/
def SideRead (path : String) (e : String × Tree) (o : Int × FilterRule) : Prop :=
  Text.readInt e.1 = some o.1 ∧ FilterRule.fromTree e.2 (path ++ "." ++ e.1) = .ok o.2

theorem keys_sideItems {dir : SgDirection} {rules : List SgRule} :
    (sideItems dir rules).map Prod.fst = (sideNums (bodies dir rules).length).map toString := by
  unfold sideItems sideNums
  rw [List.map_append, List.map_append, keys_numbered, List.map_map]
  cases dir <;> rfl

theorem nodup_sideItems {dir : SgDirection} {rules : List SgRule} :
    ((sideItems dir rules).map Prod.fst).Nodup := by
  rw [keys_sideItems]
  exact List.Nodup.map (fun _ _ h => Nat.repr_injective h) nodup_sideNums

/-- A side of a filter is read item by item. -/
theorem side_ok {dir : SgDirection} {rules : List SgRule} {path : String}
    {out : Dict Int FilterRule} :
    (∃ d, nestedMapChild FilterRule.fromTree (.dict (sideItems dir rules)) path = .ok d ∧
        intRules d = .ok out) ↔
      List.Forall₂ (SideRead path) (sideItems dir rules) out.entries := by
  simp only [nestedMapChild_ok nodup_sideItems, intRules_ok]
  constructor
  · rintro ⟨d, hread, hint⟩
    refine (forall₂_exists_mid.mpr ⟨d.entries, hread, hint⟩).imp ?_
    rintro e o ⟨r, ⟨hk, hsub⟩, hnum, hrule⟩
    exact ⟨hk ▸ hnum, hrule ▸ hsub⟩
  · intro h
    have hmid : List.Forall₂ (fun e o => ∃ r : String × FilterRule,
        ReadAs FilterRule.fromTree path e r ∧
          Text.readInt r.1 = some o.1 ∧ o.2 = r.2) (sideItems dir rules) out.entries :=
      h.imp fun e o ho => ⟨(e.1, o.2), ⟨rfl, ho.2⟩, ho.1, rfl⟩
    obtain ⟨pairs, hread, hint⟩ := forall₂_exists_mid.mp hmid
    exact ⟨⟨pairs, keys_of_readAs hread ▸ nodup_sideItems⟩, hread, hint⟩

section

variable {dir : SgDirection} {rules : List SgRule} {path : String} {out : Dict Int FilterRule}

theorem mem_bodies {b : Body} : b ∈ bodies dir rules ↔
    ∃ rule ∈ rules, expressible rule = true ∧ rule.direction = dir ∧ b = bodyOf rule := by
  unfold bodies
  simp only [List.mem_map, List.mem_filter, decide_eq_true_eq]
  constructor
  · rintro ⟨rule, ⟨⟨hr, he⟩, hd⟩, rfl⟩
    exact ⟨rule, hr, he, hd, rfl⟩
  · rintro ⟨rule, hr, he, hd, rfl⟩
    exact ⟨rule, ⟨⟨hr, he⟩, hd⟩, rfl⟩

/-- The allowances are read as they are. -/
theorem sideRead_infra {e : String × Tree} {o : Int × FilterRule}
    (he : e ∈ (match dir with | .ingress => infraRules.1 | .egress => infraRules.2))
    (h : SideRead path e o) : o ∈ infraOf dir := by
  obtain ⟨hnum, hrule⟩ := h
  obtain ⟨num, fr⟩ := o
  have hread : ∀ n : Nat, ∀ (t : Tree) (r : FilterRule), e = (toString n, t) →
      FilterRule.fromTree t (path ++ "." ++ toString n) = .ok r → (num, fr) = ((n : Int), r) := by
    rintro n t r rfl hr
    obtain rfl := Except.ok.inj (hr.symm.trans hrule)
    exact Prod.ext (Text.eq_of_readInt_toString hnum).2 rfl
  cases dir with
  | ingress =>
    rcases List.mem_cons.mp he with he | he
    · exact hread 10 _ _ he rfl ▸ List.mem_cons_self
    · obtain he := List.mem_singleton.mp he
      exact hread 20 _ _ he rfl ▸ List.mem_cons_of_mem _ List.mem_cons_self
  | egress =>
    rcases List.mem_cons.mp he with he | he
    · exact hread 10 _ _ he rfl ▸ List.mem_cons_self
    · obtain he := List.mem_singleton.mp he
      exact hread 20 _ _ he rfl ▸ List.mem_cons_of_mem _ List.mem_cons_self

/-- A numbered body is read as the filter rule of its SG rule. -/
theorem sideRead_body {i : Nat} {rule : SgRule} {o : Int × FilterRule} :
    SideRead path (toString (SG_RULE_BASE + 10 * i), bodyTree (bodyOf rule)) o ↔
      SG_RULE_BASE + 10 * i < 10 ^ Text.maxStrDigits ∧
        o.1 = ((SG_RULE_BASE + 10 * i : Nat) : Int) ∧
        ∃ port, portOf rule = .ok port ∧ o.2 = filterRule rule port := by
  unfold SideRead
  rw [fromTree_bodyOf, under_eq_ok]
  have hmap : (portOf rule).map (filterRule rule) = .ok o.2 ↔
      ∃ port, portOf rule = .ok port ∧ o.2 = filterRule rule port := by
    cases portOf rule <;> simp [Except.map, eq_comm]
  rw [hmap]
  constructor
  · rintro ⟨hnum, hport⟩
    exact ⟨(Text.eq_of_readInt_toString hnum).1, (Text.eq_of_readInt_toString hnum).2, hport⟩
  · rintro ⟨hlt, hnum, hport⟩
    exact ⟨by rw [Text.readInt_toString_nat hlt, hnum], hport⟩

/-- **Every rule of a side** is an allowance, or an expressible rule of the port's groups. -/
theorem rule_of_entry (h : List.Forall₂ (SideRead path) (sideItems dir rules) out.entries)
    {o : Int × FilterRule} (ho : o ∈ out.entries) :
    o ∈ infraOf dir ∨ (SG_RULE_BASE : Int) ≤ o.1 ∧
      ∃ rule ∈ rules, expressible rule = true ∧ rule.direction = dir ∧
        ∃ port, portOf rule = .ok port ∧ o.2 = filterRule rule port := by
  obtain ⟨e, he, hread⟩ := exists_of_mem_right h ho
  rcases List.mem_append.mp he with he | he
  · exact Or.inl (sideRead_infra he hread)
  · obtain ⟨i, b, hb, rfl⟩ := mem_numbered.mp he
    have hmem := mem_sortedBy.mp (List.mem_of_getElem? hb)
    obtain ⟨rule, hr, hexp, hd, rfl⟩ := mem_bodies.mp hmem
    obtain ⟨-, hnum, hport⟩ := sideRead_body.mp hread
    refine Or.inr ⟨?_, rule, hr, hexp, hd, hport⟩
    rw [hnum]
    omega

/-- Every expressible rule of the port's groups has its place. -/
theorem entry_of_rule (h : List.Forall₂ (SideRead path) (sideItems dir rules) out.entries)
    {rule : SgRule} (hr : rule ∈ rules) (hexp : expressible rule = true)
    (hd : rule.direction = dir) :
    ∃ o ∈ out.entries, (SG_RULE_BASE : Int) ≤ o.1 ∧
      ∃ port, portOf rule = .ok port ∧ o.2 = filterRule rule port := by
  have hmem : bodyOf rule ∈ sortedBy bodyKey (bodies dir rules) :=
    mem_sortedBy.mpr (mem_bodies.mpr ⟨rule, hr, hexp, hd, rfl⟩)
  obtain ⟨i, hi⟩ := List.mem_iff_getElem?.mp hmem
  obtain ⟨o, ho, hread⟩ := exists_of_mem_left h
    (List.mem_append_right _ (mem_numbered.mpr ⟨i, _, hi, rfl⟩))
  obtain ⟨-, hnum, hport⟩ := sideRead_body.mp hread
  refine ⟨o, ho, ?_, hport⟩
  rw [hnum]
  omega

/-- **A side can be built** exactly when its ports can be spelled and its rules numbered. -/
theorem side_total :
    (∃ out : Dict Int FilterRule,
        List.Forall₂ (SideRead path) (sideItems dir rules) out.entries) ↔
      (∀ rule ∈ rules, expressible rule = true → rule.direction = dir →
        ∃ port, portOf rule = .ok port) ∧ Numberable (bodies dir rules).length := by
  have hlen : (sortedBy bodyKey (bodies dir rules)).length = (bodies dir rules).length :=
    (perm_sortedBy bodyKey _).length_eq
  constructor
  · rintro ⟨out, h⟩
    refine ⟨fun rule hr hexp hd => ?_, fun i hi => ?_⟩
    · obtain ⟨-, -, -, port, hport, -⟩ := entry_of_rule h hr hexp hd
      exact ⟨port, hport⟩
    · have hget := List.getElem?_eq_getElem (hlen ▸ hi)
      obtain ⟨o, -, hread⟩ := exists_of_mem_left h
        (List.mem_append_right _ (mem_numbered.mpr ⟨i, _, hget, rfl⟩))
      exact (Text.eq_of_readInt_toString hread.1).1
  · rintro ⟨hports, hnums⟩
    have hall : ∀ e ∈ sideItems dir rules, ∃ o, SideRead path e o := by
      intro e he
      rcases List.mem_append.mp he with he | he
      · have hten : Text.readInt "10" = some 10 := by decide
        have htwenty : Text.readInt "20" = some 20 := by decide
        cases dir with
        | ingress =>
          rcases List.mem_cons.mp he with rfl | he
          · exact ⟨(10, _), hten, rfl⟩
          · obtain rfl := List.mem_singleton.mp he
            exact ⟨(20, _), htwenty, rfl⟩
        | egress =>
          rcases List.mem_cons.mp he with rfl | he
          · exact ⟨(10, _), hten, rfl⟩
          · obtain rfl := List.mem_singleton.mp he
            exact ⟨(20, _), htwenty, rfl⟩
      · obtain ⟨i, b, hb, rfl⟩ := mem_numbered.mp he
        have hi : i < (bodies dir rules).length := by
          rw [← hlen]
          exact (List.getElem?_eq_some_iff.mp hb).1
        obtain ⟨rule, hr, hexp, hd, rfl⟩ :=
          mem_bodies.mp (mem_sortedBy.mp (List.mem_of_getElem? hb))
        obtain ⟨port, hport⟩ := hports rule hr hexp hd
        exact ⟨(_, filterRule rule port), sideRead_body.mpr ⟨hnums i hi, rfl, port, hport, rfl⟩⟩
    obtain ⟨pairs, hpairs⟩ := exists_forall₂ hall
    -- the numbers read are the numbers printed, so they stay distinct
    have hkeys : (sideItems dir rules).map Prod.fst = pairs.map fun o => toString o.1 := by
      refine map_eq_of_forall₂ hpairs fun e he o hread => ?_
      have hkey : e.1 ∈ (sideItems dir rules).map Prod.fst := List.mem_map_of_mem he
      rw [keys_sideItems] at hkey
      obtain ⟨n, -, hn⟩ := List.mem_map.mp hkey
      have hread' : Text.readInt (toString n) = some o.1 := hn ▸ hread.1
      rw [← hn, (Text.eq_of_readInt_toString hread').2]
      rfl
    have hnd : (pairs.map Prod.fst).Nodup := by
      have hall : ((sideItems dir rules).map Prod.fst).Nodup := nodup_sideItems
      rw [hkeys] at hall
      exact List.Nodup.of_map (fun n : Int => toString n) (by rwa [List.map_map])
    exact ⟨⟨pairs, hnd⟩, hpairs⟩

end

end PortConfig

end Bsdbridge
