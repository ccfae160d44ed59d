import Bsdbridge.L2Agent.Pf
import Bsdbridge.Lib.QuickRules

/-!
# What a filter says, and its lines

The reading of a filter and a bind (`means`), which says what they are for without any of pf's
words; and the text `renderRule` spells a rule in, which pf reads back as that one rule
(**`readRule_renderRule`**).

The two halves meet in `Proof/Verdict` and must not know of each other before. The reading is
written from what a rule's fields mean: a protocol with the family pf ties it to, two ends, a port
range, and among the rules that match, the one of least number. It does not sort, does not render a
reference, and uses no function of the renderer. The lines are the renderer's, and what is proved
of them is proved through `PacketFilter.readRule`, the grammar of pf's rules as far as the agent
writes it.

How an address text is to be read (`lies`) and what a table holds are parameters of the reading.
The workload's view decides on directions: what is inbound to it leaves the host through the tap,
and `DIRECTION` turns that around for pf.

## What the lines need

A rule line is a list of words, so every part of it must be one word. `Spelled` says that of the
references and the port of a rule; what `Filter` holds may have blanks in it, since the model's
constructors do not look.
-/

set_option autoImplicit false

namespace Bsdbridge

open PacketFilter (Addr Ends Family Protocol Meaning Way End Target)

namespace Pf

/-! ## 1. The reading of a filter

`deciding` looks for an entry whose number is least among those that match. That a walk over
numbered lines stops at this one is `deciding_walk`, and it is the only place where order enters. -/

/-- A packet, from the workload's view. -/
structure Flow where
  direction : Direction
  ends : Ends
  protocol : Protocol
  port : Option Int
  deriving DecidableEq

/-- The way of a pf direction. -/
def wayOf : Direction → Way
  | .in_ => .in_
  | .out => .out

/-- The host side of the tap sees the reverse. -/
def Flow.packet (f : Flow) (ifname : String) : PacketFilter.Packet :=
  { iface := ifname, way := wayOf (DIRECTION f.direction), ends := f.ends, protocol := f.protocol,
    port := f.port }

/-- tcp, udp and icmp rules match IPv4 only, icmp6 rules IPv6 only. -/
def protoHolds (f : Flow) : Proto → Bool
  | .tcp => decide (f.ends.family = .inet ∧ f.protocol = .tcp)
  | .udp => decide (f.ends.family = .inet ∧ f.protocol = .udp)
  | .icmp => decide (f.ends.family = .inet ∧ f.protocol = .icmp)
  | .icmp6 => decide (f.ends.family = .inet6 ∧ f.protocol = .icmp6)

def portHolds (d : Int) : PortSpec → Bool
  | .one n => decide (d = n)
  | .range lo hi => decide (lo ≤ d ∧ d ≤ hi)

section

variable (lies : String → Addr → Bool) (tables : List (String × List String))

/-- The addresses a rule's end admits: those of the table named after an `@`, or any, or those of
an address text. -/
def refHolds (ref : String) (a : Addr) : Bool :=
  match ref.toList with
  | '@' :: t => ((tables.lookup (String.ofList t)).getD []).any fun m => lies m a
  | _ => decide (ref = "any") || lies ref a

def ruleHolds (f : Flow) (rule : FilterRule) : Bool :=
  rule.proto.all (protoHolds f) && refHolds lies tables rule.from_ f.ends.src &&
    refHolds lies tables rule.to_ f.ends.dst &&
    rule.port.all fun p => f.port.any fun d => portHolds d p

/-- The rules of a direction. -/
def side (filt : Filter) : Direction → Dict Int FilterRule
  | .in_ => filt.in_
  | .out => filt.out

/-- The rules that match a packet, in no order. -/
def matching (filt : Filter) (f : Flow) : List (Int × FilterRule) :=
  (side filt f.direction).entries.filter fun e => ruleHolds lies tables f e.2

/-- Whether the number of an entry is at most that of each of `found`. -/
def least (found : List (Int × FilterRule)) (e : Int × FilterRule) : Bool :=
  found.all fun o => decide (e.1 ≤ o.1)

/-- The rule that decides: the one of the least number among those that match. Nothing is sorted
here; that a walk over the lines of an anchor comes to the same rule first is `deciding_walk`. -/
def deciding (filt : Filter) (f : Flow) : Option (Int × FilterRule) :=
  (matching lies tables filt f).find? (least (matching lies tables filt f))

/-- What a filter says of a packet; what nothing matches is blocked. -/
def filterMeans (filt : Option Filter) (f : Flow) : Action :=
  match filt.bind (deciding lies tables · f) with
  | some e => e.2.action
  | none => .block

/-- A DHCP client packet, before the port has its address. -/
def dhcpRequest (f : Flow) : Bool :=
  decide (f.ends = .v4 0 (BitVec.allOnes 32) ∧ f.protocol = .udp ∧ f.port = some 67)

/-- What a filter and a bind say of a packet: the lock of an outbound IPv4 packet, then the
rules. -/
def means (filt : Option Filter) (bind : Option Bind) (f : Flow) : Action :=
  match bind with
  | some b =>
      if f.direction = .out ∧ f.ends.family = .inet then
        if dhcpRequest f then .pass
        else if lies b.address f.ends.src then filterMeans lies tables filt f
        else .block
      else filterMeans lies tables filt f
  | none => filterMeans lies tables filt f

variable {lies tables}

/-- The reading of an end, in the words of the source. -/
theorem refHolds_eq {ref : String} {a : Addr} : refHolds lies tables ref a =
    match Config.tableRef ref with
    | some t => ((tables.lookup t).getD []).any fun m => lies m a
    | none => decide (ref = "any") || lies ref a := by
  unfold refHolds Config.tableRef Text.startsWith Text.drop
  cases hl : ref.toList with
  | nil => simp
  | cons c cs =>
    by_cases hc : c = '@'
    · subst hc
      simp
    · have hne : ¬ '@' = c := fun h => hc h.symm
      simp [hc, hne]

/-- The number of a rule tells it from the others of its side. -/
theorem side_injective {filt : Filter} {d : Direction} :
    ∀ x ∈ (side filt d).entries, ∀ y ∈ (side filt d).entries, x.1 = y.1 → x = y := by
  rintro ⟨n, r⟩ hx ⟨m, q⟩ hy heq
  obtain rfl : n = m := heq
  rw [(side filt d).entry_unique hx hy]

/-- The deciding rule is the one of least number among those that match. -/
theorem deciding_iff {filt : Filter} {f : Flow} {e : Int × FilterRule} :
    deciding lies tables filt f = some e ↔
      e ∈ (side filt f.direction).entries ∧ ruleHolds lies tables f e.2 = true ∧
        ∀ o ∈ (side filt f.direction).entries, o.1 < e.1 →
          ruleHolds lies tables f o.2 = false := by
  have hfound : ∀ o, o ∈ matching lies tables filt f ↔
      o ∈ (side filt f.direction).entries ∧ ruleHolds lies tables f o.2 = true :=
    fun o => List.mem_filter
  have hleast : ∀ x, least (matching lies tables filt f) x = true ↔
        ∀ o ∈ (side filt f.direction).entries, ruleHolds lies tables f o.2 = true → x.1 ≤ o.1 := by
    intro x
    simp only [least, List.all_eq_true, hfound, decide_eq_true_eq, and_imp]
  unfold deciding
  constructor
  · intro he
    obtain ⟨hmem, hholds⟩ := (hfound e).mp (List.mem_of_find?_eq_some he)
    have hle := (hleast e).mp (List.find?_some he)
    refine ⟨hmem, hholds, fun o ho hlt => Bool.eq_false_iff.mpr fun hoh => ?_⟩
    exact absurd hlt (not_lt.mpr (hle o ho hoh))
  · rintro ⟨hmem, hholds, hnone⟩
    have hle : ∀ o ∈ (side filt f.direction).entries, ruleHolds lies tables f o.2 = true →
        e.1 ≤ o.1 := by
      refine fun o ho hoh => not_lt.mp fun hlt => ?_
      rw [hnone o ho hlt] at hoh
      exact absurd hoh (by decide)
    -- no other rule has the number of `e`, so the one that is found is `e`
    obtain ⟨x, hx⟩ := Option.isSome_iff_exists.mp
      (List.find?_isSome.mpr ⟨e, (hfound e).mpr ⟨hmem, hholds⟩, (hleast e).mpr hle⟩)
    obtain ⟨hxmem, hxholds⟩ := (hfound x).mp (List.mem_of_find?_eq_some hx)
    have hxle := (hleast x).mp (List.find?_some hx)
    rw [hx, side_injective x hxmem e hmem (le_antisymm (hxle e hmem hholds) (hle x hxmem hxholds))]

/-- A walk over the rules in the order they are numbered stops at the deciding one. -/
theorem deciding_walk {filt : Filter} {f : Flow} : deciding lies tables filt f =
    (numbered (side filt f.direction)).find? fun e => ruleHolds lies tables f e.2 := by
  refine Option.ext fun e => ?_
  rw [deciding_iff, numbered, find?_sortedBy side_injective]

/-- Nothing decides where nothing matches. -/
theorem deciding_eq_none {filt : Filter} {f : Flow} : deciding lies tables filt f = none ↔
    ∀ o ∈ (side filt f.direction).entries, ruleHolds lies tables f o.2 = false := by
  rw [deciding_walk, List.find?_eq_none]
  simp only [numbered, mem_sortedBy, Bool.not_eq_true]

end

/-! ## 2. Texts -/

/-- An address text: a word that pf takes for nothing else. -/
structure HostText (s : String) : Prop where
  word : Text.Word s
  notAny : s ≠ "any"
  notNot : s ≠ "!"
  notTable : Text.startsWith s "<" = false

/-- What an end of a rule may be: `any`, a table, or an address text. -/
def Reference (ref : String) : Prop :=
  ref = "any" ∨ (∃ t, Config.tableRef ref = some t ∧ ∀ c ∈ t.toList, Text.isSpace c = false) ∨
    (Config.tableRef ref = none ∧ HostText ref)

/-- The ports a rule may carry, as `canonicalPort` makes them. -/
def CanonicalSpec : PortSpec → Prop
  | .one n => 1 ≤ n ∧ n ≤ 65535
  | .range lo hi => 1 ≤ lo ∧ lo < hi ∧ hi ≤ 65535

/-- A rule whose line pf can read: references at both ends, and a port of the builder's. -/
structure Spelled (rule : FilterRule) : Prop where
  from_ : Reference rule.from_
  to_ : Reference rule.to_
  port : ∀ p, rule.port = some p → CanonicalSpec p

theorem portSpec_canonical {v : Tree} {lo hi : Int} {p : PortSpec}
    (h : portSpec v lo hi = .ok (some p)) : CanonicalSpec p := by
  unfold portSpec at h
  split at h
  · rename_i hb
    obtain rfl := Option.some.inj (Except.ok.inj h)
    split
    · exact ⟨hb.1, hb.2.1⟩
    · exact ⟨hb.1, by omega, hb.2.2.2⟩
  · exact absurd h (by simp)

/-- Every port that the builder of a rule lets through is canonical. -/
theorem canonicalPort_canonical {t : Tree} {p : PortSpec} (h : canonicalPort t = .ok (some p)) :
    CanonicalSpec p := by
  cases t with
  | null => exact absurd h (by simp [canonicalPort])
  | int n => exact portSpec_canonical h
  | str s =>
    unfold canonicalPort at h
    dsimp only at h
    split at h
    · exact portSpec_canonical h
    · exact absurd h (by simp)
  | _ => exact absurd h (by simp [canonicalPort])

/-! ## 3. Lines

The parts of a line one by one, each read back by the reader of that part. -/

def verdictOf : Action → PacketFilter.Verdict
  | .pass => .pass
  | .block => .block

def protocolOf : Proto → Protocol
  | .tcp => .tcp
  | .udp => .udp
  | .icmp => .icmp
  | .icmp6 => .icmp6

def familyNamed : Proto → Family
  | .tcp | .udp | .icmp => .inet
  | .icmp6 => .inet6

def boundsOf : PortSpec → Int × Int
  | .one n => (n, n)
  | .range lo hi => (lo, hi)

def targetOf (ref : String) : Target :=
  match Config.tableRef ref with
  | some t => .table t
  | none => if ref = "any" then .any else .host ref

/-- A filter rule as a rule of pf. -/
def ruleOf (ifname : String) (direction : Direction) (rule : FilterRule) : PacketFilter.Rule :=
  { verdict := verdictOf rule.action
    way := wayOf (DIRECTION direction)
    iface := ifname
    family := rule.proto.map familyNamed
    protocol := rule.proto.map protocolOf
    from_ := ⟨false, targetOf rule.from_⟩
    to_ := ⟨false, targetOf rule.to_⟩
    port := rule.port.map boundsOf }

theorem readTarget_host {s : String} (h : HostText s) : PacketFilter.readTarget s = .host s := by
  unfold PacketFilter.readTarget
  rw [if_neg h.notAny]
  cases hs : s.toList with
  | nil => rfl
  | cons c cs =>
    have hne : c ≠ '<' := by
      intro hc
      have hstart : Text.startsWith s "<" = true :=
        Text.startsWith_iff.mpr ⟨cs, by rw [hs, hc]; rfl⟩
      exact absurd hstart (by simp [h.notTable])
    split
    · rename_i hcons
      exact absurd (List.cons.inj hcons).1 hne
    · rfl

theorem readTarget_table {t : String} :
    PacketFilter.readTarget ("<" ++ t ++ ">") = .table t := by
  have hl : ("<" ++ t ++ ">").toList = '<' :: (t.toList ++ ['>']) := by simp
  have hne : "<" ++ t ++ ">" ≠ "any" := by
    intro h
    have := congrArg String.toList h
    rw [hl] at this
    exact absurd (List.cons.inj this).1 (by decide)
  unfold PacketFilter.readTarget
  rw [if_neg hne, hl]
  simp

/-- An end is spelled as one word, which is read back. -/
theorem reference_word {ref : String} (h : Reference ref) :
    Text.Word (renderRef ref) ∧ renderRef ref ≠ "!" ∧
      PacketFilter.readTarget (renderRef ref) = targetOf ref := by
  unfold renderRef targetOf
  rcases h with rfl | ⟨t, ht, hspace⟩ | ⟨ht, hh⟩
  · have hany : Config.tableRef "any" = none := by decide
    rw [hany]
    exact ⟨by decide +kernel, by decide, rfl⟩
  · rw [ht]
    have hl : ("<" ++ t ++ ">").toList = '<' :: (t.toList ++ ['>']) := by simp
    refine ⟨⟨?_, ?_⟩, ?_, readTarget_table⟩
    · intro hnil
      have := congrArg String.toList hnil
      rw [hl] at this
      exact absurd this (by simp)
    · intro c hc
      rw [hl, List.mem_cons, List.mem_append, List.mem_singleton] at hc
      rcases hc with rfl | hc | rfl
      · decide
      · exact hspace c hc
      · decide
    · intro hbang
      have := congrArg String.toList hbang
      rw [hl] at this
      exact absurd (List.cons.inj this).1 (by decide)
  · rw [ht]
    refine ⟨hh.word, hh.notNot, ?_⟩
    show PacketFilter.readTarget ref = if ref = "any" then _ else _
    rw [readTarget_host hh, if_neg hh.notAny]

/-- A port is spelled as one word, with a colon for a range, and is read back. -/
theorem port_word {p : PortSpec} (h : CanonicalSpec p) :
    Text.Word (Text.replaceChar p.text '-' ':') ∧
      PacketFilter.readPort (Text.replaceChar p.text '-' ':') = some (boundsOf p) := by
  have hdigit : ∀ {n : Nat} {c : Char}, c ∈ (toString n).toList → c.isDigit = true := by
    intro n c hc
    rw [Text.toList_toString_nat] at hc
    exact Text.isDigit_of_mem_toDigits hc
  have hspace : ∀ {c : Char}, c.isDigit = true → Text.isSpace c = false := by
    intro c hc
    simp only [Char.isDigit, Bool.and_eq_true, decide_eq_true_eq] at hc
    have : 48 ≤ c.toNat ∧ c.toNat ≤ 57 := hc
    simp [Text.isSpace]
    omega
  have hword : ∀ n : Nat, Text.Word (toString n) := by
    intro n
    constructor
    · intro hnil
      have hl := Text.toList_toString_nat n
      rw [hnil] at hl
      exact Nat.toDigits_ne_nil hl.symm
    · intro c hc
      exact hspace (hdigit hc)
  have hcolon : ∀ n : Nat, ':' ∉ (toString n).toList := fun n =>
    Text.not_mem_toString_nat (by decide)
  have hkeep : ∀ n : Nat, (toString n).toList.map (fun c => if c = '-' then ':' else c) =
      (toString n).toList := by
    intro n
    refine (List.map_congr_left fun c hc => if_neg ?_).trans (List.map_id _)
    rintro rfl
    exact absurd (hdigit hc) (by decide)
  have hread : ∀ n : Nat, n ≤ 65535 → Text.readInt (toString n) = some (n : Int) := by
    intro n hn
    refine Text.readInt_toString_nat (hn.trans_lt ?_)
    exact lt_of_lt_of_le (by norm_num) (Nat.pow_le_pow_right (n := 10) (by decide)
      (show 5 ≤ Text.maxStrDigits by decide))
  cases p with
  | one n =>
    obtain ⟨k, rfl⟩ := Int.eq_ofNat_of_zero_le (by have := h.1; omega : 0 ≤ n)
    have htext : Text.replaceChar (PortSpec.one (k : Int)).text '-' ':' = toString k := by
      show String.ofList ((toString k).toList.map _) = _
      rw [hkeep, String.ofList_toList]
    have hk : k ≤ 65535 := by have := h.2; omega
    rw [htext]
    refine ⟨hword k, ?_⟩
    unfold PacketFilter.readPort
    rw [Text.partition_none (hcolon k)]
    simp only [Bool.false_eq_true, if_false, hread k hk]
    rfl
  | range lo hi =>
    obtain ⟨h1, h2, h3⟩ := h
    obtain ⟨k, rfl⟩ := Int.eq_ofNat_of_zero_le (by omega : 0 ≤ lo)
    obtain ⟨l, rfl⟩ := Int.eq_ofNat_of_zero_le (by omega : 0 ≤ hi)
    have htext : Text.replaceChar (PortSpec.range (k : Int) (l : Int)).text '-' ':' =
        toString k ++ String.ofList (':' :: (toString l).toList) := by
      show String.ofList (((toString k ++ "-" ++ toString l).toList).map _) = _
      rw [String.toList_append, String.toList_append, List.map_append, List.map_append, hkeep,
        hkeep]
      exact String.toList_injective (by simp)
    rw [htext]
    constructor
    · refine (hword k).append fun c hc => ?_
      rw [String.toList_ofList, List.mem_cons] at hc
      rcases hc with rfl | hc
      · decide
      · exact hspace (hdigit hc)
    · unfold PacketFilter.readPort
      rw [Text.partition_append (hcolon k)]
      simp only [if_true, hread k (by omega), hread l (by omega)]
      rfl

/-! ### The parts of a rule line -/

def protoText (rule : FilterRule) : List String :=
  match rule.proto with
  | some p => [familyOf p, "proto", p.word]
  | none => []

def portText (rule : FilterRule) : List String :=
  match rule.port with
  | some p => ["port", Text.replaceChar p.text '-' ':']
  | none => []

def endsText (rule : FilterRule) : List String :=
  if rule.proto.isSome || renderRef rule.from_ ≠ "any" || renderRef rule.to_ ≠ "any" ||
      rule.port.isSome then
    ["from", renderRef rule.from_, "to", renderRef rule.to_] ++ portText rule
  else ["all"]

def labelText (ifname : String) (rule : FilterRule) : List String :=
  if rule.action = .pass then
    ["keep", "state", "(if-bound)", "label", "\"" ++ stateLabel ifname ++ "\""]
  else []

theorem renderRule_eq {ifname : String} {direction : Direction} {rule : FilterRule} :
    renderRule ifname direction rule = " ".intercalate
      ((if rule.action = .pass then "pass" else "block drop") ::
        ([(DIRECTION direction).word, "quick", "on", ifname] ++
          (protoText rule ++ (endsText rule ++ labelText ifname rule)))) := by
  unfold renderRule protoText endsText portText labelText
  cases rule.proto <;> cases rule.port <;> simp only [List.cons_append, List.nil_append]

section

variable {ifname : String} {direction : Direction} {rule : FilterRule}

theorem stateLabel_word (hif : Text.Word ifname) :
    Text.Word ("\"" ++ stateLabel ifname ++ "\"") := by
  have hhead : Text.Word ("\"" ++ "l2-neutron:") := by decide +kernel
  have hquote : ∀ c ∈ "\"".toList, Text.isSpace c = false := fun c hc => by
    rw [List.mem_singleton.mp hc]
    decide
  rw [stateLabel, ← String.append_assoc]
  exact (hhead.append hif.noSpace).append hquote

/-- Every part of a rule line but its verdict is one word. -/
theorem ruleText_words (hif : Text.Word ifname) (h : Spelled rule) :
    ∀ w ∈ [(DIRECTION direction).word, "quick", "on", ifname] ++
      (protoText rule ++ (endsText rule ++ labelText ifname rule)), Text.Word w := by
  have hhead : ∀ w ∈ [(DIRECTION direction).word, "quick", "on", ifname], Text.Word w := by
    intro w hw
    simp only [List.mem_cons, List.not_mem_nil, or_false] at hw
    rcases hw with rfl | rfl | rfl | rfl
    · cases direction <;> decide +kernel
    · decide +kernel
    · decide +kernel
    · exact hif
  have hproto : ∀ w ∈ protoText rule, Text.Word w := by
    unfold protoText
    cases rule.proto with
    | none => exact fun w hw => absurd hw List.not_mem_nil
    | some p => cases p <;> decide +kernel
  have hends : ∀ w ∈ endsText rule, Text.Word w := by
    unfold endsText portText
    intro w hw
    split at hw
    · simp only [List.mem_append, List.mem_cons, List.not_mem_nil, or_false] at hw
      rcases hw with (rfl | rfl | rfl | rfl) | hw
      · decide +kernel
      · exact (reference_word h.from_).1
      · decide +kernel
      · exact (reference_word h.to_).1
      · cases hp : rule.port with
        | none =>
          rw [hp] at hw
          exact absurd hw List.not_mem_nil
        | some p =>
          rw [hp] at hw
          simp only [List.mem_cons, List.not_mem_nil, or_false] at hw
          rcases hw with rfl | rfl
          · decide +kernel
          · exact (port_word (h.port p hp)).1
    · obtain rfl := List.mem_singleton.mp hw
      decide +kernel
  have hlabel : ∀ w ∈ labelText ifname rule, Text.Word w := by
    unfold labelText
    intro w hw
    split at hw
    · simp only [List.mem_cons, List.not_mem_nil, or_false] at hw
      rcases hw with rfl | rfl | rfl | rfl | rfl
      · decide +kernel
      · decide +kernel
      · decide +kernel
      · decide +kernel
      · exact stateLabel_word hif
    · exact absurd hw List.not_mem_nil
  intro w hw
  rcases List.mem_append.mp hw with hw | hw
  · exact hhead w hw
  · rcases List.mem_append.mp hw with hw | hw
    · exact hproto w hw
    · rcases List.mem_append.mp hw with hw | hw
      · exact hends w hw
      · exact hlabel w hw

/-- The ends of a rule are read back. -/
theorem readEnds_endsText (h : Spelled rule) :
    PacketFilter.readEnds (endsText rule ++ labelText ifname rule) =
      some (⟨false, targetOf rule.from_⟩, ⟨false, targetOf rule.to_⟩, rule.port.map boundsOf,
        labelText ifname rule) := by
  obtain ⟨-, hfne, hfrom⟩ := reference_word h.from_
  obtain ⟨-, htne, hto⟩ := reference_word h.to_
  have hports : PacketFilter.readPorts (portText rule ++ labelText ifname rule) =
      some (rule.port.map boundsOf, labelText ifname rule) := by
    unfold portText
    cases hp : rule.port with
    | none =>
      show PacketFilter.readPorts (labelText ifname rule) = some (none, labelText ifname rule)
      unfold labelText
      split <;> simp [PacketFilter.readPorts]
    | some p => exact PacketFilter.readPorts_port (port_word (h.port p hp)).2
  unfold endsText
  split
  · rw [List.append_assoc]
    refine PacketFilter.readEnds_from (show _ = some (_, "to" :: renderRef rule.to_ :: (portText rule ++
      labelText ifname rule)) from ?_) ?_ hports
    · rw [← hfrom]
      exact PacketFilter.readEnd_word hfne
    · rw [← hto]
      exact PacketFilter.readEnd_word htne
  · rename_i hall
    simp only [Bool.or_eq_true, decide_eq_true_eq, not_or, not_not] at hall
    obtain ⟨⟨⟨-, hf⟩, ht⟩, hp⟩ := hall
    have hany : PacketFilter.readTarget "any" = .any := rfl
    rw [hf, hany] at hfrom
    rw [ht, hany] at hto
    have hnone : rule.port = none := by simpa using hp
    rw [← hfrom, ← hto, hnone]
    exact PacketFilter.readEnds_all

/-- **A rendered rule line is read as its rule.** -/
theorem readRule_renderRule (hif : Text.Word ifname) (h : Spelled rule) :
    PacketFilter.readRule (renderRule ifname direction rule) =
      some (ruleOf ifname direction rule) := by
  have hverdict : PacketFilter.readVerdict (Text.words (renderRule ifname direction rule)) =
      some (verdictOf rule.action, (DIRECTION direction).word :: "quick" :: "on" :: ifname ::
        (protoText rule ++ (endsText rule ++ labelText ifname rule))) := by
    rw [renderRule_eq, Text.words_intercalate, List.flatMap_cons,
      Text.flatMap_words (ruleText_words hif h)]
    cases rule.action with
    | pass =>
      have hw : Text.words "pass" = ["pass"] := Text.words_word (by decide +kernel)
      rw [if_pos rfl, hw]
      rfl
    | block =>
      have hw : Text.words "block drop" = ["block", "drop"] := by decide +kernel
      rw [if_neg (by decide), hw]
      rfl
  have hway : PacketFilter.readWay (DIRECTION direction).word =
      some (wayOf (DIRECTION direction)) := by
    cases direction <;> rfl
  have hends : ∃ w rest, endsText rule ++ labelText ifname rule = w :: rest ∧
      (w = "from" ∨ w = "all") := by
    unfold endsText
    split
    · exact ⟨_, _, rfl, Or.inl rfl⟩
    · exact ⟨_, _, rfl, Or.inr rfl⟩
  obtain ⟨w, rest, hrest, hw⟩ := hends
  have hfamily : PacketFilter.readFamily (protoText rule ++ (endsText rule ++
      labelText ifname rule)) = (rule.proto.map familyNamed, (match rule.proto with
        | some p => ["proto", p.word]
        | none => []) ++ (endsText rule ++ labelText ifname rule)) := by
    unfold protoText
    cases rule.proto with
    | none =>
      rw [hrest]
      rcases hw with rfl | rfl <;> simp [PacketFilter.readFamily]
    | some p => cases p <;> rfl
  have hproto : PacketFilter.readProto ((match rule.proto with
        | some p => ["proto", p.word]
        | none => []) ++ (endsText rule ++ labelText ifname rule)) =
      some (rule.proto.map protocolOf, endsText rule ++ labelText ifname rule) := by
    cases rule.proto with
    | none =>
      rw [hrest]
      rcases hw with rfl | rfl <;> simp [PacketFilter.readProto]
    | some p => cases p <;> rfl
  have hopt : PacketFilter.options (labelText ifname rule) = true := by
    unfold labelText
    split <;> rfl
  exact PacketFilter.readWords_of_parts hverdict hway hfamily hproto (readEnds_endsText h) hopt

end

end Pf

end Bsdbridge
