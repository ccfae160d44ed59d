import Bsdbridge.Proof.Acceptance
import Bsdbridge.Proof.Reading
import Bsdbridge.Proof.Sides

/-!
# Ports have one spelling

A port reaches the model as an integer, as a numeral of any script, padded and signed, or as two of
these around a dash. `canonical_port` brings them to one form, so that two spellings of a range
never make two rule lines, and `render_rule` spells the form for pf. What a value means is said
apart from both, as the set of the ports it stands for (**`portLaw_iff`**).

One kind of value is left out: an integer that `repr` cannot print is refused with the `ValueError`
of the message.

`Denotes` is the meaning. It reads a text with Python's own `int`, which takes digits of any script
with blanks and underscores around and between them, and cuts at the first dash; it does not call
`canonical_port`. The law has four parts: a value is refused as the schema refuses or becomes
canonical, two values have one result exactly when they denote one range, a result stays as it is,
and it is spelled for pf as the range it stands for. The value may be of any kind, a list or a
mapping included.
-/

set_option autoImplicit false

namespace Bsdbridge

open Pf

/-! ## 1. What a value stands for -/

/-- The ports a value stands for; `null` restricts nothing. A text is one number, or two around
its first dash. -/
inductive Denotes : Tree → Option (Set Int) → Prop
  | null : Denotes .null none
  | int (n : Int) : Denotes (.int n) (some (Set.Icc n n))
  | number {s : String} {n : Int} (hs : '-' ∉ s.toList) (hn : Text.readInt s = some n) :
      Denotes (.str s) (some (Set.Icc n n))
  | range {a b : String} {lo hi : Int} (ha : '-' ∉ a.toList) (hlo : Text.readInt a = some lo)
      (hhi : Text.readInt b = some hi) : Denotes (.str (a ++ "-" ++ b)) (some (Set.Icc lo hi))

theorem partition_dash {a b : String} (ha : '-' ∉ a.toList) :
    Text.partition (a ++ "-" ++ b) '-' = (a, true, b) := by
  have htext : a ++ "-" ++ b = a ++ String.ofList ('-' :: b.toList) := by
    rw [String.append_assoc]
    congr 1
    exact String.toList_injective (by simp)
  rw [htext, Text.partition_append ha]

/-- A text before a dash, and what follows it. -/
theorem exists_dash {s : String} (h : '-' ∈ s.toList) :
    ∃ a b, '-' ∉ a.toList ∧ s = a ++ "-" ++ b := by
  obtain ⟨a, b, hs, ha⟩ := List.eq_append_cons_of_mem h
  refine ⟨String.ofList a, String.ofList b, by simpa using ha, ?_⟩
  exact String.toList_injective (by simp [hs])

/-- A value stands for one set at most. -/
theorem Denotes.unique {v : Tree} {R R' : Option (Set Int)} (h : Denotes v R)
    (h' : Denotes v R') : R = R' := by
  have hdash : ∀ {a b : String}, '-' ∈ (a ++ "-" ++ b).toList := by
    intro a b
    simp
  cases h with
  | null =>
    cases h'
    rfl
  | int n =>
    cases h'
    rfl
  | number hs hn =>
    cases h' with
    | number hs' hn' => rw [Option.some.inj (hn.symm.trans hn')]
    | range ha hlo hhi => exact absurd hdash hs
  | @range a b lo hi ha hlo hhi =>
    generalize hs : a ++ "-" ++ b = s at h'
    cases h' with
    | number hs' hn' =>
      subst hs
      exact absurd hdash hs'
    | @range a' b' lo' hi' ha' hlo' hhi' =>
      have hpart := partition_dash (b := b) ha
      rw [hs, partition_dash ha'] at hpart
      obtain ⟨rfl, -, rfl⟩ := Prod.mk.injEq .. ▸ hpart
      rw [Option.some.inj (hlo.symm.trans hlo'), Option.some.inj (hhi.symm.trans hhi')]

/-! ## 2. What `canonical_port` makes of it -/

/-- The ports a result stands for. -/
def spans (p : Option PortSpec) : Option (Set Int) :=
  p.map fun p => Set.Icc (boundsOf p).1 (boundsOf p).2

theorem portSpec_spans {v : Tree} {lo hi : Int} {p : Option PortSpec}
    (h : portSpec v lo hi = .ok p) : spans p = some (Set.Icc lo hi) := by
  unfold portSpec at h
  split at h
  · obtain rfl := Except.ok.inj h
    by_cases heq : lo = hi
    · subst heq
      simp [spans, boundsOf]
    · simp [spans, boundsOf, heq]
  · exact absurd h (by simp)

/-- An accepted value stands for what its result stands for. -/
theorem denotes_of_canonicalPort {v : Tree} {p : Option PortSpec} (h : canonicalPort v = .ok p) :
    Denotes v (spans p) := by
  cases v with
  | null =>
    obtain rfl := Except.ok.inj h
    exact Denotes.null
  | int n =>
    rw [portSpec_spans h]
    exact Denotes.int n
  | str s =>
    by_cases hs : '-' ∈ s.toList
    · obtain ⟨a, b, ha, rfl⟩ := exists_dash hs
      rw [canonicalPort, partition_dash ha] at h
      dsimp only at h
      split at h
      · rename_i lo hi hlo hhi
        rw [portSpec_spans h]
        exact Denotes.range ha hlo hhi
      · exact absurd h (by simp)
    · rw [canonicalPort, Text.partition_none hs] at h
      dsimp only at h
      split at h
      · rename_i lo hi hlo hhi
        obtain rfl := Option.some.inj (hlo.symm.trans hhi)
        rw [portSpec_spans h]
        exact Denotes.number hs hlo
      · exact absurd h (by simp)
  | _ => exact absurd h (by simp [canonicalPort])

/-- Two ranges that are not empty are the same set only with the same bounds. -/
theorem icc_inj {a b c d : Int} (hab : a ≤ b) (h : Set.Icc a b = Set.Icc c d) :
    a = c ∧ b = d := by
  have ha : a ∈ Set.Icc c d := h ▸ Set.left_mem_Icc.mpr hab
  have hb : b ∈ Set.Icc c d := h ▸ Set.right_mem_Icc.mpr hab
  have hc : c ∈ Set.Icc a b := h ▸ Set.left_mem_Icc.mpr (ha.1.trans ha.2)
  have hd : d ∈ Set.Icc a b := h ▸ Set.right_mem_Icc.mpr (ha.1.trans ha.2)
  exact ⟨le_antisymm hc.1 ha.1, le_antisymm hb.2 hd.2⟩

theorem bounds_le {p : PortSpec} (h : CanonicalSpec p) : (boundsOf p).1 ≤ (boundsOf p).2 := by
  cases p with
  | one n => exact le_refl n
  | range lo hi => exact h.2.1.le

/-- A canonical result is told by its bounds. -/
theorem boundsOf_inj {p q : PortSpec} (hp : CanonicalSpec p) (hq : CanonicalSpec q)
    (h : boundsOf p = boundsOf q) : p = q := by
  cases p with
  | one n =>
    cases q with
    | one m => rw [(Prod.mk.inj h).1]
    | range lo hi =>
      obtain ⟨hlo, hhi⟩ := Prod.mk.inj h
      have := hq.2.1
      omega
  | range lo hi =>
    cases q with
    | one m =>
      obtain ⟨hlo, hhi⟩ := Prod.mk.inj h
      have := hp.2.1
      omega
    | range lo' hi' =>
      obtain ⟨rfl, rfl⟩ := Prod.mk.inj h
      rfl

/-- **One range, one result.** -/
theorem spans_inj {v w : Tree} {p q : Option PortSpec} (hv : canonicalPort v = .ok p)
    (hw : canonicalPort w = .ok q) (h : spans p = spans q) : p = q := by
  cases p with
  | none =>
    cases q with
    | none => rfl
    | some q => exact absurd h (by simp [spans])
  | some p =>
    cases q with
    | none => exact absurd h (by simp [spans])
    | some q =>
      have hp := canonicalPort_canonical hv
      obtain ⟨hlo, hhi⟩ := icc_inj (bounds_le hp) (Option.some.inj h)
      rw [boundsOf_inj hp (canonicalPort_canonical hw) (Prod.ext hlo hhi)]

/-- A result, as the value it is. -/
def resultTree : Option PortSpec → Tree
  | none => .null
  | some (.one n) => .int n
  | some (.range lo hi) => .str (PortSpec.range lo hi).text

/-- **A result stays as it is.** -/
theorem canonicalPort_resultTree {v : Tree} {p : Option PortSpec} (h : canonicalPort v = .ok p) :
    canonicalPort (resultTree p) = .ok p := by
  cases p with
  | none => rfl
  | some p =>
    have hp := canonicalPort_canonical h
    cases p with
    | one n =>
      show portSpec (.int n) n n = _
      unfold portSpec
      rw [if_pos ⟨hp.1, hp.2, le_refl n, hp.2⟩, if_pos rfl]
    | range lo hi =>
      obtain ⟨h1, h2, h3⟩ := hp
      obtain ⟨k, rfl⟩ := Int.eq_ofNat_of_zero_le (show 0 ≤ lo by omega)
      obtain ⟨l, rfl⟩ := Int.eq_ofNat_of_zero_le (show 0 ≤ hi by omega)
      show canonicalPort (.str (toString k ++ "-" ++ toString l)) = _
      rw [canonicalPort, partition_dash (Text.not_mem_toString_nat (by decide))]
      dsimp only
      rw [if_pos rfl, PortConfig.readInt_port (n := k) (by omega),
        PortConfig.readInt_port (n := l) (by omega)]
      dsimp only
      unfold portSpec
      rw [if_pos ⟨h1, by omega, by omega, h3⟩, if_neg (by omega)]

/-! ## 3. What pf is given -/

/-- The line of a rule with a port spells it in two words of its own. -/
theorem renderRule_port {ifname : String} {direction : Direction} {rule : FilterRule}
    {p : PortSpec} (h : rule.port = some p) : ∃ before after,
      renderRule ifname direction rule = " ".intercalate
        (before ++ ["port", Text.replaceChar p.text '-' ':'] ++ after) := by
  have hends : endsText rule = ["from", renderRef rule.from_, "to", renderRef rule.to_] ++
      ["port", Text.replaceChar p.text '-' ':'] := by
    unfold endsText portText
    rw [if_pos (by simp [h]), h]
  refine ⟨(if rule.action = .pass then "pass" else "block drop") ::
    ([(DIRECTION direction).word, "quick", "on", ifname] ++ (protoText rule ++
      ["from", renderRef rule.from_, "to", renderRef rule.to_])), labelText ifname rule, ?_⟩
  rw [renderRule_eq, hends]
  simp only [List.append_assoc, List.cons_append]

/-! ## 4. The law -/

/-- What is asked of a value: it is refused in the way of the schema or becomes canonical, its
result is that of every other spelling of its range and of no other range, stays as it is, and
is spelled for pf as that range. -/
structure PortLaw (v : Tree) : Prop where
  outcome : (∃ err, canonicalPortExc v = .error (.schemaError err)) ∨
    (canonicalPortExc v = .ok none ∧ v = .null) ∨
    ∃ p, canonicalPortExc v = .ok (some p) ∧ CanonicalSpec p
  same : ∀ w p q, canonicalPortExc v = .ok p → canonicalPortExc w = .ok q →
    ((∃ R, Denotes v R ∧ Denotes w R) ↔ p = q)
  again : ∀ p, canonicalPortExc v = .ok p → canonicalPortExc (resultTree p) = .ok p
  rendered : ∀ p, canonicalPortExc v = .ok (some p) → ∀ ifname direction rule,
    rule.port = some p → ∃ before text after lo hi,
      renderRule ifname direction rule = " ".intercalate (before ++ ["port", text] ++ after) ∧
        PacketFilter.readPort text = some (lo, hi) ∧ Denotes v (some (Set.Icc lo hi))

theorem canonicalPortExc_ok {v : Tree} {p : Option PortSpec} :
    canonicalPortExc v = .ok p ↔ canonicalPort v = .ok p := by
  unfold canonicalPortExc
  cases canonicalPort v <;> simp [Except.mapError]

/-- What cannot be printed is no port. -/
theorem canonicalPort_unprintable {v : Tree} (h : v.prints = false) :
    ∃ err, canonicalPort v = .error err := by
  cases v with
  | null => exact absurd h (by simp [Tree.prints])
  | bool b => exact absurd h (by simp [Tree.prints])
  | str s => exact absurd h (by simp [Tree.prints])
  | int n =>
    have hlong : 10 ^ Text.maxStrDigits ≤ n.natAbs := by
      simpa [Tree.prints] using h
    have hpow : 10 ^ 5 ≤ 10 ^ Text.maxStrDigits :=
      Nat.pow_le_pow_right (by decide) (by decide)
    refine ⟨.badPort (.int n), ?_⟩
    show portSpec (.int n) n n = _
    unfold portSpec
    rw [if_neg]
    rintro ⟨h1, h2, -⟩
    omega
  | list items => exact ⟨_, rfl⟩
  | dict items => exact ⟨_, rfl⟩

/-- **Canonicalisation is lawful** exactly on what can be printed: everything but an integer of
too many digits, or a container of one. -/
theorem portLaw_iff {v : Tree} : PortLaw v ↔ v.prints = true := by
  constructor
  · intro h
    by_contra hno
    rw [Bool.not_eq_true] at hno
    obtain ⟨err, herr⟩ := canonicalPort_unprintable hno
    have hexc : canonicalPortExc v = .error (.valueError v) := by
      simp [canonicalPortExc, herr, Except.mapError, hno]
    rcases h.outcome with ⟨err', h'⟩ | ⟨h', -⟩ | ⟨p, h', -⟩
    · exact absurd (hexc.symm.trans h') (by simp)
    · exact absurd (hexc.symm.trans h') (by simp)
    · exact absurd (hexc.symm.trans h') (by simp)
  · intro hprints
    refine ⟨?_, ?_, ?_, ?_⟩
    · cases hv : canonicalPort v with
      | error err =>
        left
        exact ⟨err, by simp [canonicalPortExc, hv, Except.mapError, hprints]⟩
      | ok p =>
        cases p with
        | none =>
          right; left
          refine ⟨canonicalPortExc_ok.mpr hv, ?_⟩
          cases denotes_of_canonicalPort hv
          rfl
        | some p =>
          right; right
          exact ⟨p, canonicalPortExc_ok.mpr hv, canonicalPort_canonical hv⟩
    · intro w p q hv hw
      have hvp := canonicalPortExc_ok.mp hv
      have hwq := canonicalPortExc_ok.mp hw
      constructor
      · rintro ⟨R, hR, hR'⟩
        have hp := hR.unique (denotes_of_canonicalPort hvp)
        have hq := hR'.unique (denotes_of_canonicalPort hwq)
        exact spans_inj hvp hwq (hp.symm.trans hq)
      · rintro rfl
        exact ⟨spans p, denotes_of_canonicalPort hvp, denotes_of_canonicalPort hwq⟩
    · intro p hv
      exact canonicalPortExc_ok.mpr (canonicalPort_resultTree (canonicalPortExc_ok.mp hv))
    · intro p hv ifname direction rule hrule
      have hvp := canonicalPortExc_ok.mp hv
      obtain ⟨before, after, hline⟩ := @renderRule_port ifname direction rule p
        hrule
      exact ⟨before, _, after, _, _, hline, (port_word (canonicalPort_canonical hvp)).2,
        denotes_of_canonicalPort hvp⟩

/-- An integer of 4301 digits is refused with a plain `ValueError`. -/
theorem hugeInt_no_port : ¬ ∀ v, PortLaw v := by
  intro h
  exact absurd (prints_hugeInt.symm.trans (portLaw_iff.mp (h (.int hugeInt)))) (by decide)

end Bsdbridge
