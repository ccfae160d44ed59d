import Bsdbridge.Proof.Reading

/-!
# What an anchor says

Read back as pf reads it, a rendered anchor decides every packet as the filter and the bind do
(**`render_means`**): the lines are the rules of the filter's rules, the walk passes over those of
the other direction, and the lock stands before the rules of the workload's outbound side.

The proof has a middle level. `anchorRules` is the anchor as a list of pf's rules, without any
text; the lines read back as that list (`readRule_render`), and the walk over the list gives the
reading (`anchor_verdict`). A change of the spelling touches the first step, and a change of what
is rendered the second.

Every line is `quick`, so the first one that matches decides and there is no need to look at the
rest; the last two lines block whatever comes. The line that carries the hash in its label is one
of them, and its label is read and forgotten, so what the hash is does not matter here.

An anchor carries only those of the given tables that its rules refer to. The reading is in terms
of all of them, and `means_render` says that the ones left out make no difference.
-/

set_option autoImplicit false

namespace Bsdbridge

open PacketFilter (Addr Ends Family Protocol Meaning Way End Target)

namespace Pf

/-! ## 1. What a rule matches -/

section

variable {ifname : String} {direction : Direction} {rule : FilterRule}
  {lies : String → Addr → Bool} {tables : List (String × List String)} {f : Flow}

/-- The meaning of the texts of an anchor. -/
def meaningOf (lies : String → Addr → Bool) (tables : List (String × List String)) : Meaning :=
  ⟨lies, fun t => (tables.lookup t).getD []⟩

theorem target_holds {ref : String} {a : Addr} :
    (targetOf ref).holds (meaningOf lies tables) a = refHolds lies tables ref a := by
  rw [refHolds_eq]
  unfold targetOf
  cases Config.tableRef ref with
  | some t => rfl
  | none =>
    by_cases hany : ref = "any"
    · simp [hany, Target.holds]
    · simp [hany, Target.holds, meaningOf]

theorem bounds_hold {d : Int} {p : PortSpec} :
    decide ((boundsOf p).1 ≤ d ∧ d ≤ (boundsOf p).2) = portHolds d p := by
  cases p with
  | one n =>
    refine decide_eq_decide.mpr ?_
    show n ≤ d ∧ d ≤ n ↔ d = n
    omega
  | range lo hi => rfl

/-- A rule of pf matches the packets of its direction that the filter rule holds of. -/
theorem ruleOf_matches :
    (ruleOf ifname direction rule).matches (meaningOf lies tables) (f.packet ifname) =
      (decide (direction = f.direction) && ruleHolds lies tables f rule) := by
  have hway : decide (wayOf (DIRECTION direction) = wayOf (DIRECTION f.direction)) =
      decide (direction = f.direction) := by
    cases direction <;> cases f.direction <;> rfl
  have hproto : ((rule.proto.map familyNamed).all (fun g => decide (g = f.ends.family)) &&
      (rule.proto.map protocolOf).all fun q => decide (q = f.protocol)) =
        rule.proto.all (protoHolds f) := by
    cases rule.proto with
    | none => rfl
    | some p =>
      show (decide (familyNamed p = f.ends.family) && decide (protocolOf p = f.protocol)) =
        protoHolds f p
      have hboth : ∀ (g : Family) (q : Protocol),
          (decide (g = f.ends.family) && decide (q = f.protocol)) =
            decide (f.ends.family = g ∧ f.protocol = q) := by
        intro g q
        rw [Bool.eq_iff_iff, Bool.and_eq_true, decide_eq_true_eq, decide_eq_true_eq,
          decide_eq_true_eq]
        exact and_congr eq_comm eq_comm
      cases p <;> exact hboth _ _
  have hport : ((rule.port.map boundsOf).all fun range => f.port.any fun d =>
      decide (range.1 ≤ d ∧ d ≤ range.2)) =
        rule.port.all fun p => f.port.any fun d => portHolds d p := by
    cases rule.port with
    | none => rfl
    | some p =>
      show (f.port.any fun d => decide ((boundsOf p).1 ≤ d ∧ d ≤ (boundsOf p).2)) = _
      simp only [bounds_hold]
      rfl
  show (decide (ifname = ifname) && decide (wayOf (DIRECTION direction) =
      wayOf (DIRECTION f.direction)) &&
    (rule.proto.map familyNamed).all (fun g => decide (g = f.ends.family)) &&
    (rule.proto.map protocolOf).all (fun q => decide (q = f.protocol)) &&
    (false ^^ (targetOf rule.from_).holds (meaningOf lies tables) f.ends.src) &&
    (false ^^ (targetOf rule.to_).holds (meaningOf lies tables) f.ends.dst) &&
    (rule.port.map boundsOf).all fun range => f.port.any fun d =>
      decide (range.1 ≤ d ∧ d ≤ range.2)) = _
  rw [hway, hport, target_holds, target_holds]
  unfold ruleHolds
  rw [← hproto]
  simp only [decide_true, Bool.true_and, Bool.false_xor, Bool.and_assoc]

/-- The lines of one side, as rules. -/
def sideRules (ifname : String) (filt : Filter) (direction : Direction) :
    List PacketFilter.Rule :=
  (numbered (side filt direction)).map fun e => ruleOf ifname direction e.2

/-- The walk passes over the side of the other direction. -/
theorem sideRules_other {filt : Filter} (h : direction ≠ f.direction) :
    ∀ r ∈ sideRules ifname filt direction,
      r.matches (meaningOf lies tables) (f.packet ifname) = false := by
  intro r hr
  obtain ⟨e, -, rfl⟩ := List.mem_map.mp hr
  rw [ruleOf_matches, decide_eq_false h, Bool.false_and]

/-- On the side of its direction, the walk stops at the deciding rule. -/
theorem sideRules_verdict {filt : Filter} {rest : List PacketFilter.Rule} :
    PacketFilter.verdict (meaningOf lies tables) (sideRules ifname filt f.direction ++ rest)
        (f.packet ifname) =
      match deciding lies tables filt f with
      | some e => verdictOf e.2.action
      | none => PacketFilter.verdict (meaningOf lies tables) rest (f.packet ifname) := by
  rw [deciding_walk]
  unfold sideRules
  induction numbered (side filt f.direction) with
  | nil => rfl
  | cons e es ih =>
    rw [List.map_cons, List.cons_append, PacketFilter.verdict_cons, ruleOf_matches,
      decide_eq_true rfl, Bool.true_and, List.find?_cons]
    cases ruleHolds lies tables f e.2 with
    | true => rfl
    | false => exact ih

end

/-! ## 2. An anchor -/

/-- The lock's two rules. -/
def bindRules (ifname : String) (bind : Bind) : List PacketFilter.Rule :=
  [{ verdict := .pass, way := .in_, iface := ifname, family := some .inet, protocol := some .udp,
     from_ := ⟨false, .host "0.0.0.0"⟩, to_ := ⟨false, .host "255.255.255.255"⟩,
     port := some (67, 67) },
   { verdict := .block, way := .in_, iface := ifname, family := some .inet,
     from_ := ⟨true, .host bind.address⟩ }]

/-- The rule that ends a way. -/
def tailRule (ifname : String) (way : Way) : PacketFilter.Rule :=
  { verdict := .block, way, iface := ifname }

section

variable {ifname : String}

/-- A line around an interface name. -/
theorem words_around (hif : Text.Word ifname) {a b : String} :
    Text.words (a ++ " " ++ ifname ++ (" " ++ b)) = Text.words a ++ ifname :: Text.words b := by
  rw [← String.append_assoc, Text.words_append, Text.words_append, Text.words_word hif,
    List.append_assoc]
  rfl

theorem readRule_bindLines (hif : Text.Word ifname) {bind : Bind} (hb : HostText bind.address) :
    List.Forall₂ (fun line rule => PacketFilter.readRule line = some rule)
      (bindLines ifname bind) (bindRules ifname bind) := by
  refine .cons ?_ (.cons ?_ .nil)
  · have hline : "pass in quick on " ++ ifname ++
        " inet proto udp from 0.0.0.0 to 255.255.255.255 port 67 " ++
        "keep state (if-bound) label \"" ++ stateLabel ifname ++ "\"" =
        "pass in quick on" ++ " " ++ ifname ++ (" " ++
          ("inet proto udp from 0.0.0.0 to 255.255.255.255 port 67 keep state (if-bound) label" ++
            " " ++ ("\"" ++ stateLabel ifname ++ "\""))) := by
      have h1 : "pass in quick on " = "pass in quick on" ++ " " := rfl
      have h2 : " inet proto udp from 0.0.0.0 to 255.255.255.255 port 67 " ++
          "keep state (if-bound) label \"" = " " ++
          ("inet proto udp from 0.0.0.0 to 255.255.255.255 port 67 keep state (if-bound) label" ++
            " " ++ "\"") := rfl
      have hassoc : ∀ a b c d e f : String,
          a ++ b ++ c ++ d ++ e ++ f = a ++ b ++ (c ++ d) ++ e ++ f :=
        fun a b c d e f => by simp only [String.append_assoc]
      rw [hassoc, h1, h2]
      simp only [String.append_assoc]
    have hhead : Text.words "pass in quick on" = ["pass", "in", "quick", "on"] := by
      decide +kernel
    have htail : Text.words
        "inet proto udp from 0.0.0.0 to 255.255.255.255 port 67 keep state (if-bound) label" =
        ["inet", "proto", "udp", "from", "0.0.0.0", "to", "255.255.255.255", "port", "67",
          "keep", "state", "(if-bound)", "label"] := by decide +kernel
    unfold PacketFilter.readRule
    rw [hline, words_around hif, Text.words_append, hhead, htail,
      Text.words_word (stateLabel_word hif)]
    rfl
  · have hline : "block drop in quick on " ++ ifname ++ " inet from ! " ++ bind.address =
        "block drop in quick on" ++ " " ++ ifname ++ (" " ++
          ("inet from !" ++ " " ++ bind.address)) := by
      have h1 : "block drop in quick on " = "block drop in quick on" ++ " " := rfl
      have h2 : " inet from ! " = " " ++ ("inet from !" ++ " ") := rfl
      rw [h1, h2]
      simp only [String.append_assoc]
    have hhead : Text.words "block drop in quick on" = ["block", "drop", "in", "quick", "on"] := by
      decide +kernel
    have htail : Text.words "inet from !" = ["inet", "from", "!"] := by decide +kernel
    unfold PacketFilter.readRule
    rw [hline, words_around hif, Text.words_append, hhead, htail, Text.words_word hb.word]
    show PacketFilter.readWords ["block", "drop", "in", "quick", "on", ifname, "inet", "from", "!",
      bind.address] = _
    have hends : PacketFilter.readEnds ["from", "!", bind.address] =
        some (⟨true, .host bind.address⟩, {}, none, []) := by
      simp [PacketFilter.readEnds, PacketFilter.readEnd, PacketFilter.readTo, readTarget_host hb]
    exact PacketFilter.readWords_of_parts rfl rfl rfl rfl hends rfl

/-- The line that ends a way, whatever its label says. -/
theorem readRule_tail {d : Direction} {l : List String}
    (hlabel : PacketFilter.labelled l = true) {line : String}
    (hline : Text.words line = ["block", "drop", d.word, "quick", "on", ifname, "all"] ++ l) :
    PacketFilter.readRule line = some (tailRule ifname (wayOf d)) := by
  have hway : PacketFilter.readWay d.word = some (wayOf d) := by cases d <;> rfl
  unfold PacketFilter.readRule
  rw [hline]
  exact PacketFilter.readWords_of_parts (r := "all" :: l) rfl hway (rfl : _ = (_, "all" :: l))
    rfl PacketFilter.readEnds_all (PacketFilter.options_of_labelled hlabel)

theorem words_tail (hif : Text.Word ifname) {d : Direction} {rest : String} :
    Text.words ("block drop " ++ d.word ++ " quick on " ++ ifname ++ (" " ++ rest)) =
      ["block", "drop", d.word, "quick", "on", ifname] ++ Text.words rest := by
  have hhead : Text.words ("block drop " ++ d.word ++ " quick on") =
      ["block", "drop", d.word, "quick", "on"] := by
    cases d <;> decide +kernel
  have hsplit : "block drop " ++ d.word ++ " quick on " =
      "block drop " ++ d.word ++ " quick on" ++ " " := by
    cases d <;> rfl
  rw [hsplit, words_around hif, hhead]
  rfl

variable {filt : Option Filter} {bind : Option Bind} {tables : List (String × List String)}

/-- The rules of an anchor. -/
def anchorRules (ifname : String) (filt : Option Filter) (bind : Option Bind) :
    List PacketFilter.Rule :=
  (match bind with | some b => bindRules ifname b | none => []) ++
    ((match filt with
      | some f => sideRules ifname f .in_ ++ sideRules ifname f .out
      | none => []) ++
    [tailRule ifname .out, tailRule ifname .in_])

/-- What a filter may hold. -/
def Readable (filt : Option Filter) : Prop :=
  ∀ f, filt = some f → ∀ d, ∀ e ∈ (side f d).entries, Spelled e.2

theorem readRule_sideRules (hif : Text.Word ifname) {f : Filter} (h : Readable (some f))
    {d : Direction} : List.Forall₂ (fun line rule => PacketFilter.readRule line = some rule)
      ((numbered (side f d)).map fun e => renderRule ifname d e.2) (sideRules ifname f d) := by
  unfold sideRules
  have hall : ∀ e ∈ numbered (side f d), Spelled e.2 := by
    intro e he
    exact h f rfl d e (mem_sortedBy.mp he)
  revert hall
  induction numbered (side f d) with
  | nil => exact fun _ => .nil
  | cons e es ih =>
    intro hall
    exact .cons (readRule_renderRule hif (hall e List.mem_cons_self))
      (ih fun x hx => hall x (List.mem_cons_of_mem _ hx))

/-- **The lines of an anchor are its rules.** -/
theorem readRule_render [Hashlib] (hif : Text.Word ifname) (hfilt : Readable filt)
    (hbind : ∀ b, bind = some b → HostText b.address) :
    List.Forall₂ (fun line rule => PacketFilter.readRule line = some rule)
      (render ifname filt bind tables).1.rules (anchorRules ifname filt bind) := by
  have hout : PacketFilter.readRule ("block drop out quick on " ++ ifname ++ " all") =
      some (tailRule ifname .out) := by
    have hall : Text.words "all" = ["all"] := Text.words_word (by decide +kernel)
    refine readRule_tail (d := .out) (l := []) rfl ?_
    have hw := @words_tail ifname hif .out "all"
    rw [hall] at hw
    exact hw
  have hin : ∀ hash : String, PacketFilter.readRule ("block drop in quick on " ++ ifname ++
      " all label \"l2-neutron:cfg:" ++ hash ++ "\"") = some (tailRule ifname .in_) := by
    intro hash
    have hline : "block drop in quick on " ++ ifname ++ " all label \"l2-neutron:cfg:" ++ hash ++
        "\"" = "block drop " ++ Direction.in_.word ++ " quick on " ++ ifname ++
          (" " ++ ("all label" ++ " " ++ ("\"l2-neutron:cfg:" ++ hash ++ "\""))) := by
      have h1 : "block drop in quick on " = "block drop " ++ Direction.in_.word ++ " quick on " :=
        rfl
      have h2 : " all label \"l2-neutron:cfg:" =
          " " ++ ("all label" ++ " " ++ "\"l2-neutron:cfg:") := rfl
      rw [h1, h2]
      simp only [String.append_assoc]
    have hall : Text.words "all label" = ["all", "label"] := by decide +kernel
    have hlast : Text.words ("\"l2-neutron:cfg:" ++ hash ++ "\"") ≠ [] := by
      have hquote : '"' ∈ ("\"l2-neutron:cfg:" ++ hash ++ "\"").toList := by
        rw [String.toList_append, List.mem_append]
        exact Or.inr (List.mem_singleton_self _)
      exact Text.words_ne_nil hquote (by decide)
    cases hq : Text.words ("\"l2-neutron:cfg:" ++ hash ++ "\"") with
    | nil => exact absurd hq hlast
    | cons w ws =>
      refine readRule_tail (d := .in_) (l := "label" :: w :: ws) rfl ?_
      rw [hline, words_tail hif, Text.words_append, hall, hq]
      rfl
  -- the two lines at the end, in the order they are printed
  have hend : List.Forall₂ (fun line rule => PacketFilter.readRule line = some rule)
      (["block drop out quick on " ++ ifname ++ " all"] ++
        ["block drop in quick on " ++ ifname ++ " all label \"l2-neutron:cfg:" ++
          cfgHash ifname filt bind ++ "\""])
      [tailRule ifname .out, tailRule ifname .in_] :=
    .cons hout (.cons (hin _) .nil)
  unfold render ruleLines anchorRules
  simp only [List.append_assoc]
  -- bind lines, filter lines, tail: read in the order `ruleLines` prints them
  refine List.rel_append ?_ (List.rel_append ?_ hend)
  · cases bind with
    | none => exact .nil
    | some b => exact readRule_bindLines hif (hbind b rfl)
  · cases filt with
    | none => exact .nil
    | some f =>
      have hsides : filterLines ifname f =
          (numbered (side f .in_)).map (fun e => renderRule ifname .in_ e.2) ++
            (numbered (side f .out)).map (fun e => renderRule ifname .out e.2) := by
        simp [filterLines, side]
      show List.Forall₂ _ (filterLines ifname f) _
      rw [hsides]
      exact List.rel_append (readRule_sideRules hif hfilt) (readRule_sideRules hif hfilt)

/-! ## 3. The verdict of an anchor

Walks over the parts, in the order of the lines: the lock, the two sides, the two tails. -/

/-- What pf must read in the two address texts of the DHCP line. -/
structure ReadsDhcp (lies : String → Addr → Bool) : Prop where
  zero : ∀ a, lies "0.0.0.0" a = true ↔ a = .v4 0
  broadcast : ∀ a, lies "255.255.255.255" a = true ↔ a = .v4 (BitVec.allOnes 32)

variable {lies : String → Addr → Bool} {f : Flow}

theorem tailRule_matches {m : Meaning} {w : Way} :
    (tailRule ifname w).matches m (f.packet ifname) =
      decide (w = wayOf (DIRECTION f.direction)) := by
  show (decide (ifname = ifname) && decide (w = wayOf (DIRECTION f.direction)) && true && true &&
    (false ^^ true) && (false ^^ true) && true) = _
  simp

/-- What nothing before matches is blocked, either way. -/
theorem tails_verdict {m : Meaning} :
    PacketFilter.verdict m [tailRule ifname .out, tailRule ifname .in_] (f.packet ifname) =
      .block := by
  rw [PacketFilter.verdict_cons, PacketFilter.verdict_cons, tailRule_matches, tailRule_matches]
  cases f.direction <;> rfl

theorem filter_verdict :
    PacketFilter.verdict (meaningOf lies tables)
      ((match filt with
        | some g => sideRules ifname g .in_ ++ sideRules ifname g .out
        | none => []) ++ [tailRule ifname .out, tailRule ifname .in_]) (f.packet ifname) =
      verdictOf (filterMeans lies tables filt f) := by
  unfold filterMeans
  cases filt with
  | none => exact tails_verdict
  | some g =>
    show PacketFilter.verdict _ (sideRules ifname g .in_ ++ sideRules ifname g .out ++ _) _ =
      verdictOf (match deciding lies tables g f with
        | some e => e.2.action
        | none => .block)
    rw [List.append_assoc]
    cases hd : f.direction with
    | in_ =>
      have hin := @sideRules_verdict ifname lies tables f g
        (sideRules ifname g .out ++ [tailRule ifname .out, tailRule ifname .in_])
      rw [hd] at hin
      rw [hin]
      cases deciding lies tables g f with
      | some e => rfl
      | none =>
        show PacketFilter.verdict _ _ _ = _
        rw [PacketFilter.verdict_append_of_not (sideRules_other (by rw [hd]; decide)),
          tails_verdict]
        rfl
    | out =>
      have hout := @sideRules_verdict ifname lies tables f g
        [tailRule ifname .out, tailRule ifname .in_]
      rw [hd] at hout
      rw [PacketFilter.verdict_append_of_not (sideRules_other (by rw [hd]; decide)), hout]
      cases deciding lies tables g f with
      | some e => rfl
      | none => exact tails_verdict

theorem dhcpRule_matches (hdhcp : ReadsDhcp lies) :
    PacketFilter.Rule.matches (meaningOf lies tables) (f.packet ifname)
        { verdict := .pass, way := .in_, iface := ifname, family := some .inet,
          protocol := some .udp, from_ := ⟨false, .host "0.0.0.0"⟩,
          to_ := ⟨false, .host "255.255.255.255"⟩, port := some (67, 67) } = true ↔
      f.direction = .out ∧ dhcpRequest f = true := by
  have hway : Way.in_ = wayOf (DIRECTION f.direction) ↔ f.direction = .out := by
    cases f.direction <;> decide
  have hport : (f.port.any fun d => decide ((67 : Int) ≤ d ∧ d ≤ 67)) = true ↔
      f.port = some 67 := by
    cases f.port with
    | none => simp
    | some d =>
      simp only [Option.any_some, decide_eq_true_eq, Option.some.injEq]
      omega
  have hends : Family.inet = f.ends.family ∧ lies "0.0.0.0" f.ends.src = true ∧
      lies "255.255.255.255" f.ends.dst = true ↔ f.ends = .v4 0 (BitVec.allOnes 32) := by
    rw [hdhcp.zero, hdhcp.broadcast]
    cases f.ends with
    | v4 s d => simp [Ends.family, PacketFilter.Ends.src, PacketFilter.Ends.dst]
    | v6 s d => simp [Ends.family]
  show (decide (ifname = ifname) && decide (Way.in_ = wayOf (DIRECTION f.direction)) &&
    decide (Family.inet = f.ends.family) && decide (Protocol.udp = f.protocol) &&
    (false ^^ lies "0.0.0.0" f.ends.src) && (false ^^ lies "255.255.255.255" f.ends.dst) &&
    f.port.any fun d => decide ((67 : Int) ≤ d ∧ d ≤ 67)) = true ↔ _
  unfold dhcpRequest
  simp only [Bool.and_eq_true, decide_eq_true_eq, Bool.false_xor, hway, hport, ← hends]
  constructor
  · rintro ⟨⟨⟨⟨⟨⟨-, hd⟩, hf⟩, hq⟩, hs⟩, ht⟩, hp⟩
    exact ⟨hd, ⟨hf, hs, ht⟩, hq.symm, hp⟩
  · rintro ⟨hd, ⟨hf, hs, ht⟩, hq, hp⟩
    exact ⟨⟨⟨⟨⟨⟨trivial, hd⟩, hf⟩, hq.symm⟩, hs⟩, ht⟩, hp⟩

theorem lockRule_matches {b : Bind} :
    PacketFilter.Rule.matches (meaningOf lies tables) (f.packet ifname)
        { verdict := .block, way := .in_, iface := ifname, family := some .inet,
          from_ := ⟨true, .host b.address⟩ } = true ↔
      f.direction = .out ∧ f.ends.family = .inet ∧ lies b.address f.ends.src = false := by
  have hway : Way.in_ = wayOf (DIRECTION f.direction) ↔ f.direction = .out := by
    cases f.direction <;> decide
  show (decide (ifname = ifname) && decide (Way.in_ = wayOf (DIRECTION f.direction)) &&
    decide (Family.inet = f.ends.family) && true && (true ^^ lies b.address f.ends.src) &&
    (false ^^ true) && true) = true ↔ _
  simp only [Bool.and_eq_true, decide_eq_true_eq, hway, Bool.true_xor, Bool.not_eq_true',
    Bool.false_xor, and_true, true_and, and_assoc]
  exact and_congr_right fun _ => and_congr_left fun _ => eq_comm

/-- The lock's rules match outbound packets only: the DHCP requests, and the IPv4 packets of
another source. -/
theorem bindRules_verdict (hdhcp : ReadsDhcp lies) {b : Bind} {rest : List PacketFilter.Rule} :
    PacketFilter.verdict (meaningOf lies tables) (bindRules ifname b ++ rest)
        (f.packet ifname) =
      if f.direction = .out ∧ f.ends.family = .inet then
        if dhcpRequest f then .pass
        else if lies b.address f.ends.src then
          PacketFilter.verdict (meaningOf lies tables) rest (f.packet ifname)
        else .block
      else PacketFilter.verdict (meaningOf lies tables) rest (f.packet ifname) := by
  have hinet : dhcpRequest f = true → f.ends.family = .inet := by
    intro h
    rw [(of_decide_eq_true h).1]
    rfl
  unfold bindRules
  rw [List.cons_append, PacketFilter.verdict_cons, List.cons_append, PacketFilter.verdict_cons,
    List.nil_append]
  simp only [dhcpRule_matches hdhcp, lockRule_matches]
  by_cases hd : f.direction = .out
  · by_cases hf : f.ends.family = .inet
    · simp only [hd, hf, true_and, and_self, if_true]
      cases lies b.address f.ends.src <;> simp
    · have hno : ¬ dhcpRequest f = true := fun h => hf (hinet h)
      simp [hf, hno]
  · simp [hd]

theorem anchor_verdict (hdhcp : ReadsDhcp lies) :
    PacketFilter.verdict (meaningOf lies tables) (anchorRules ifname filt bind)
        (f.packet ifname) = verdictOf (means lies tables filt bind f) := by
  unfold anchorRules means
  cases bind with
  | none => exact filter_verdict
  | some b =>
    show PacketFilter.verdict _ (bindRules ifname b ++ _) _ = _
    rw [bindRules_verdict hdhcp, filter_verdict]
    dsimp only
    split_ifs <;> rfl

/-! ### Tables -/

/-- An anchor carries the tables its rules refer to. -/
theorem lookup_render [Hashlib] {t : String} (ht : t ∈ tablesReferenced filt) :
    ((render ifname filt bind tables).1.tables.lookup t).getD [] =
      (tables.lookup t).getD [] := by
  show (((sortedSet (tablesReferenced filt)).map fun n =>
    (n, (tables.lookup n).getD [])).lookup t).getD [] = _
  rw [lookup_map_key (mem_sortedSet.mpr ht)]
  rfl

theorem mem_tablesReferenced {g : Filter} {d : Direction} {e : Int × FilterRule}
    (he : e ∈ (side g d).entries) {ref t : String} (href : ref ∈ [e.2.from_, e.2.to_])
    (ht : Config.tableRef ref = some t) : t ∈ tablesReferenced (some g) := by
  have hval : e.2 ∈ g.in_.values ++ g.out.values := by
    cases d with
    | in_ => exact List.mem_append_left _ (List.mem_map_of_mem he)
    | out => exact List.mem_append_right _ (List.mem_map_of_mem he)
  refine List.mem_toFinset.mpr (List.mem_flatMap.mpr ⟨e.2, hval, ?_⟩)
  exact List.mem_filterMap.mpr ⟨ref, href, ht⟩

theorem deciding_render [Hashlib] {g : Filter} :
    deciding lies (render ifname (some g) bind tables).1.tables g f =
      deciding lies tables g f := by
  have hrule : ∀ e ∈ (side g f.direction).entries,
      ruleHolds lies (render ifname (some g) bind tables).1.tables f e.2 =
        ruleHolds lies tables f e.2 := by
    intro e he
    have href : ∀ ref ∈ [e.2.from_, e.2.to_], ∀ a,
        refHolds lies (render ifname (some g) bind tables).1.tables ref a =
          refHolds lies tables ref a := by
      intro ref href a
      rw [refHolds_eq, refHolds_eq]
      cases ht : Config.tableRef ref with
      | none => rfl
      | some t =>
        show (((render ifname (some g) bind tables).1.tables.lookup t).getD []).any _ = _
        rw [lookup_render (mem_tablesReferenced he href ht)]
    unfold ruleHolds
    rw [href _ (by simp), href _ (by simp)]
  have hmatching : matching lies (render ifname (some g) bind tables).1.tables g f =
      matching lies tables g f := List.filter_congr hrule
  unfold deciding
  rw [hmatching]

end

/-! ## 4. The anchor and its reading

The filter of a web server: one group is let in, and the lock is set. A verdict is given for a
member of the group, for another address, and for what the server sends itself. -/

section

variable [Hashlib] {ifname : String} {filt : Option Filter} {bind : Option Bind}
  {tables : List (String × List String)} {lies : String → Addr → Bool}

/-- pf's verdict over the lines of an anchor, in the tables the anchor carries. -/
theorem evaluate_render (hdhcp : ReadsDhcp lies) (hif : Text.Word ifname) (hfilt : Readable filt)
    (hbind : ∀ b, bind = some b → HostText b.address) (f : Flow) :
    PacketFilter.evaluate (meaningOf lies (render ifname filt bind tables).1.tables)
        (render ifname filt bind tables).1.rules (f.packet ifname) =
      some (verdictOf (means lies (render ifname filt bind tables).1.tables filt bind f)) := by
  rw [PacketFilter.evaluate_of_rules (readRule_render hif hfilt hbind), anchor_verdict hdhcp]

/-- The tables an anchor leaves out are in no rule of it. -/
theorem means_render {f : Flow} :
    means lies (render ifname filt bind tables).1.tables filt bind f =
      means lies tables filt bind f := by
  have hfilter : filterMeans lies (render ifname filt bind tables).1.tables filt f =
      filterMeans lies tables filt f := by
    cases filt with
    | none => rfl
    | some g =>
      unfold filterMeans
      rw [Option.bind_some, Option.bind_some, deciding_render]
  unfold means
  rw [hfilter]

/-- **A rendered anchor means what its filter says**: pf's verdict over the rule lines is the
reading of the filter and the bind, for every packet and whatever the tables hold. -/
theorem render_means (hdhcp : ReadsDhcp lies) (hif : Text.Word ifname) (hfilt : Readable filt)
    (hbind : ∀ b, bind = some b → HostText b.address) (f : Flow) :
    PacketFilter.evaluate (meaningOf lies (render ifname filt bind tables).1.tables)
        (render ifname filt bind tables).1.rules (f.packet ifname) =
      some (verdictOf (means lies tables filt bind f)) := by
  rw [evaluate_render hdhcp hif hfilt hbind f, means_render]

end

/-- Some dotted quads. -/
def quads : List (String × BitVec 32) :=
  [("0.0.0.0", 0), ("255.255.255.255", BitVec.allOnes 32), ("10.0.0.7", 0x0a000007),
    ("10.0.0.8", 0x0a000008)]

/-- What pf reads in them. -/
def quadLies (t : String) (a : Addr) : Bool := (quads.lookup t).any fun x => decide (a = .v4 x)

theorem quadLies_reads : ReadsDhcp quadLies := by
  constructor <;> intro a <;> simp [quadLies, quads, List.lookup_cons]

/-- Web traffic from a group. -/
def webRule : FilterRule :=
  { action := .pass, proto := some .tcp, port := some (.one 80), from_ := "@sgweb" }

def webFilter : Filter := { in_ := ⟨[(100, webRule)], by decide⟩ }

def webBind : Bind := ⟨"fa:16:3e:00:00:01", "10.0.0.7"⟩

theorem webFilter_readable : Readable (some webFilter) := by
  intro f hf d e he
  obtain rfl := Option.some.inj hf
  cases d with
  | in_ =>
    obtain rfl : e = (100, webRule) := List.mem_singleton.mp he
    have hword : Text.Word "sgweb" := by decide +kernel
    refine ⟨Or.inr (Or.inl ⟨"sgweb", by decide, hword.noSpace⟩), Or.inl rfl, ?_⟩
    intro p hp
    obtain rfl := Option.some.inj hp
    exact ⟨by decide, by decide⟩
  | out => exact absurd he (List.not_mem_nil (a := e))

theorem webBind_host : ∀ b, some webBind = some b → HostText b.address := by
  intro b hb
  obtain rfl := Option.some.inj hb
  exact ⟨by decide +kernel, by decide, by decide, by decide⟩

/-- The client is a member of the group. -/
def webTables : List (String × List String) := [("sgweb", ["10.0.0.8"])]

/-- A request of the client `src`. -/
def webRequest (src : BitVec 32) : Flow :=
  { direction := .in_, ends := .v4 src 0x0a000007, protocol := .tcp, port := some 80 }

/-- What the web server sends from the address `src`. -/
def webSent (src : BitVec 32) : Flow :=
  { direction := .out, ends := .v4 src 0x0a000008, protocol := .tcp, port := some 4711 }

/-- pf's verdict over the rules of the web server's anchor. -/
def webVerdict (f : Flow) : Option PacketFilter.Verdict :=
  PacketFilter.evaluate
    (meaningOf quadLies
      (@render ⟨id⟩ "tap0" (some webFilter) (some webBind) webTables).1.tables)
    (@render ⟨id⟩ "tap0" (some webFilter) (some webBind) webTables).1.rules (f.packet "tap0")

/-- The member of the group comes through, another address does not; and what the web server
sends is read by the lock first. -/
theorem render_means_web :
    webVerdict (webRequest 0x0a000008) = some .pass ∧
      webVerdict (webRequest 0x0a000009) = some .block ∧
      webVerdict (webSent 0x0a000009) = some .block ∧
      ∀ f, webVerdict f =
        some (verdictOf (means quadLies webTables (some webFilter) (some webBind) f)) := by
  have hmeans : ∀ f, webVerdict f =
      some (verdictOf (means quadLies webTables (some webFilter) (some webBind) f)) :=
    fun f => @render_means ⟨id⟩ "tap0" (some webFilter) (some webBind) webTables quadLies
      quadLies_reads (by decide +kernel) webFilter_readable webBind_host f
  refine ⟨?_, ?_, ?_, hmeans⟩
  · rw [hmeans]
    decide +kernel
  · rw [hmeans]
    decide +kernel
  · rw [hmeans]
    decide +kernel

end Pf

end Bsdbridge
