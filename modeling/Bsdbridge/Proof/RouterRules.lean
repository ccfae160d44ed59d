import Bsdbridge.L3Agent.Router
import Bsdbridge.Lib.Translation

/-!
# What a router's pf.conf makes of an address

`pf_text` writes a binat line for each floating ip, and one nat line for everything behind the
router. **`translated_as_told`** reads the text back as pf does, line by line and with pf's
precedence among the rules, and says what becomes of an address on the gateway: a fixed address
leaves as its floating ip and a floating ip comes in as its fixed address, whatever nat there is;
any other address behind the router leaves as the gateway's first address; and nothing is
translated anywhere else.

What is asked for is written without pf's words (`outbound`, `inbound`), from the fields of the
router: its gateway, its floating ips in their order, its interfaces. What pf does is in
`Lib/Translation`, which knows nothing of routers. The text stands between the two, and the proof
goes through its lines. Which addresses lie in a text or a prefix is a parameter, so nothing is
said about how addresses are spelled, but that they are words and a prefix has no comma in it
(`Texts`): the nat line lists its prefixes with commas.

Two floating ips of one fixed address are possible; the first one wins, on both sides.
-/

set_option autoImplicit false

namespace Bsdbridge

namespace Router

open PacketFilter

/-! ## 1. What is asked for -/

section

variable {α : Type} (lies : String → α → Bool)

/-- The address with which a source behind the router leaves by the gateway. -/
def outbound (r : Router) (s : α) : Option String := r.gateway.bind fun gateway =>
  ((r.floatingIps.find? fun f => lies f.fixed s).map FloatingIp.floating).or
    (if r.enableSnat && r.interfaces.any fun p => p.cidrs.any fun c => lies c s then
      gateway.ips.head?.map Prod.fst
    else none)

/-- The address behind the router for which a destination comes in by the gateway. -/
def inbound (r : Router) (d : α) : Option String := r.gateway.bind fun _ =>
  (r.floatingIps.find? fun f => lies f.floating d).map FloatingIp.fixed

end

/-- Addresses, prefixes and interface names are words. -/
structure Texts (r : Router) : Prop where
  iface : ∀ gateway, r.gateway = some gateway → Text.Word (jailIf (gateway, true))
  address : ∀ gateway, r.gateway = some gateway → ∀ a ∈ gateway.ips, Text.Word a.1
  fips : ∀ f ∈ r.floatingIps, Text.Word f.fixed ∧ Text.Word f.floating
  cidrs : ∀ p ∈ r.interfaces, ∀ c ∈ p.cidrs, Text.Word c ∧ ',' ∉ c.toList

/-! ## 2. Lines -/

/-- A line of words, and what it is read as. -/
structure Reads (line : String) (words : List String) : Prop where
  oneLine : Text.OneLine line
  words : Text.words line = words

theorem reads_words {l : List String} (h : ∀ w ∈ l, Text.Word w) :
    Reads (" ".intercalate l) l where
  oneLine := Text.oneLine_intercalate (by decide +kernel) fun w hw =>
    Text.oneLine_of_noSpace (h w hw).noSpace
  words := by rw [Text.words_intercalate, Text.flatMap_words h]

def binatLine (iface : String) (f : FloatingIp) : String :=
  "binat on " ++ iface ++ " inet from " ++ f.fixed ++ " to any -> " ++ f.floating

def natLine (iface : String) (internal : List String) (target : String) : String :=
  "nat on " ++ iface ++ " inet from \x7b " ++ ", ".intercalate internal ++ " \x7d to any -> " ++
    target

def passLine (cfgHash : String) : String :=
  "pass quick all label \"" ++ CFG_LABEL ++ cfgHash ++ "\""

theorem binatLine_reads {iface : String} {f : FloatingIp} (hiface : Text.Word iface)
    (hfixed : Text.Word f.fixed) (hfloating : Text.Word f.floating) :
    Reads (binatLine iface f)
      ["binat", "on", iface, "inet", "from", f.fixed, "to", "any", "->", f.floating] := by
  have hline : binatLine iface f = " ".intercalate
      ["binat", "on", iface, "inet", "from", f.fixed, "to", "any", "->", f.floating] := by
    refine String.toList_injective ?_
    simp [binatLine, String.intercalate_cons_cons]
  rw [hline]
  refine reads_words fun w hw => ?_
  simp only [List.mem_cons, List.not_mem_nil, or_false] at hw
  rcases hw with rfl | rfl | rfl | rfl | rfl | rfl | rfl | rfl | rfl | rfl
  all_goals first | assumption | decide +kernel

theorem natLine_reads {iface target : String} {internal : List String} (hiface : Text.Word iface)
    (htarget : Text.Word target) (hinternal : ∀ c ∈ internal, Text.Word c) :
    Reads (natLine iface internal target)
      (["nat", "on", iface, "inet", "from", "\x7b"] ++ Translation.listed internal ++
        ["\x7d", "to", "any", "->", target]) := by
  have hline : natLine iface internal target = " ".intercalate
      (["nat", "on", iface, "inet", "from", "\x7b"] ++ [", ".intercalate internal] ++
        ["\x7d", "to", "any", "->", target]) := by
    refine String.toList_injective ?_
    simp [natLine, String.intercalate_cons_cons]
  have hhead : ∀ w ∈ ["nat", "on", iface, "inet", "from", "\x7b"], Text.Word w := by
    intro w hw
    simp only [List.mem_cons, List.not_mem_nil, or_false] at hw
    rcases hw with rfl | rfl | rfl | rfl | rfl | rfl
    all_goals first | assumption | decide +kernel
  have hlast : ∀ w ∈ ["\x7d", "to", "any", "->", target], Text.Word w := by
    intro w hw
    simp only [List.mem_cons, List.not_mem_nil, or_false] at hw
    rcases hw with rfl | rfl | rfl | rfl | rfl
    all_goals first | assumption | decide +kernel
  refine ⟨?_, ?_⟩
  · rw [hline]
    refine Text.oneLine_intercalate (by decide +kernel) fun w hw => ?_
    rcases List.mem_append.mp hw with hw | hw
    · rcases List.mem_append.mp hw with hw | hw
      · exact Text.oneLine_of_noSpace (hhead w hw).noSpace
      · rw [List.mem_singleton.mp hw]
        exact Text.oneLine_intercalate (by decide +kernel) fun c hc =>
          Text.oneLine_of_noSpace (hinternal c hc).noSpace
    · exact Text.oneLine_of_noSpace (hlast w hw).noSpace
  · rw [hline, Text.words_intercalate, List.flatMap_append, List.flatMap_append,
      Text.flatMap_words hhead, Text.flatMap_words hlast, List.flatMap_cons, List.flatMap_nil,
      List.append_nil, Translation.words_listed hinternal]

theorem passLine_oneLine {cfgHash : String} (h : Text.OneLine cfgHash) :
    Text.OneLine (passLine cfgHash) := by
  have hopen : Text.OneLine ("pass quick all label \"" ++ CFG_LABEL) := by decide +kernel
  have hclose : Text.OneLine "\"" := by decide +kernel
  unfold passLine
  exact (hopen.append h).append hclose

/-- A line that is no translation rule. -/
theorem passLine_other {cfgHash : String} :
    Translation.readWords (Text.words (passLine cfgHash)) = none := by
  have hpass : Text.Word "pass" := by decide +kernel
  have hline : passLine cfgHash =
      "pass" ++ " " ++ ("quick all label \"" ++ CFG_LABEL ++ cfgHash ++ "\"") := by
    refine String.toList_injective ?_
    unfold passLine
    simp only [String.toList_append]
    rfl
  rw [hline, Text.words_append, Text.words_word hpass]
  exact Translation.readWords_other (by decide) (by decide)

/-! ## 3. The text -/

/-- The prefixes behind the router. -/
def internal (r : Router) : List String := sortedSet (r.interfaces.flatMap Port.cidrs).toFinset

/-- The source address of the nat rule, if there is one. -/
def snat (r : Router) (gateway : Port) : Option String :=
  if r.enableSnat && !r.internal.isEmpty then gateway.ips.head?.map Prod.fst else none

/-- The translation lines of a router with this gateway. -/
def ruleLines (r : Router) (gateway : Port) : List String :=
  r.floatingIps.map (binatLine (jailIf (gateway, true))) ++
    (r.snat gateway).toList.map (natLine (jailIf (gateway, true)) r.internal)

/-- And their rules. -/
def rules (r : Router) (gateway : Port) : List Translation :=
  (r.floatingIps.map fun f => Translation.binat f.fixed f.floating) ++
    (r.snat gateway).toList.map (Translation.nat r.internal)

/-- The text of a router, line by line. -/
theorem pfText_lines [Hashlib] {r : Router} {text cfgHash : String}
    (h : r.pfText = some (text, cfgHash)) :
    (∃ digested, cfgHash = Text.take (Hashlib.sha256 digested) 16) ∧
      text = Text.unlines ("set skip on lo0" :: (r.gateway.elim [] r.ruleLines) ++
        [passLine cfgHash]) := by
  have hnewline : ∀ lines : List String,
      "\n".intercalate (("set skip on lo0" :: lines) ++ [passLine cfgHash]) ++ "\n" =
        Text.unlines ("set skip on lo0" :: lines ++ [passLine cfgHash]) :=
    fun lines => Text.intercalate_newline (by simp)
  unfold pfText at h
  cases hg : r.gateway with
  | none =>
    rw [hg] at h
    obtain ⟨rfl, rfl⟩ := Prod.mk.inj (Option.some.inj h)
    exact ⟨⟨_, rfl⟩, hnewline []⟩
  | some gateway =>
    rw [hg] at h
    dsimp only at h
    have hlines : ∀ {source : Option String}, r.snat gateway = source →
        r.ruleLines gateway = r.floatingIps.map (binatLine (jailIf (gateway, true))) ++
          source.toList.map (natLine (jailIf (gateway, true)) r.internal) := by
      rintro _ rfl
      rfl
    split at h
    · -- with SNAT the first address of the gateway is the source, and there is one
      rename_i hnat
      cases ha : gateway.ips.head? with
      | none =>
        rw [ha] at h
        exact absurd h (by simp)
      | some a =>
        rw [ha] at h
        obtain ⟨rfl, rfl⟩ := Prod.mk.inj (Option.some.inj h)
        have hsource : r.snat gateway = some a.1 := by
          have hsnat : (r.enableSnat && !r.internal.isEmpty) = true := hnat
          unfold snat
          rw [if_pos hsnat, ha]
          rfl
        refine ⟨⟨_, rfl⟩, ?_⟩
        rw [Option.elim_some, hlines hsource]
        exact hnewline _
    · rename_i hnat
      obtain ⟨rfl, rfl⟩ := Prod.mk.inj (Option.some.inj h)
      have hsource : r.snat gateway = none := if_neg hnat
      refine ⟨⟨_, rfl⟩, ?_⟩
      rw [Option.elim_some, hlines hsource]
      exact hnewline _

/-! ## 4. The rules

A line is a rule of the gateway's interface and of no other. -/

section

variable {r : Router} {gateway : Port}

theorem mem_internal {c : String} : c ∈ r.internal ↔ ∃ p ∈ r.interfaces, c ∈ p.cidrs := by
  unfold internal
  rw [mem_sortedSet, List.mem_toFinset, List.mem_flatMap]

theorem Texts.internal (ht : Texts r) {c : String} (hc : c ∈ r.internal) :
    Text.Word c ∧ ',' ∉ c.toList := by
  obtain ⟨p, hp, hc⟩ := mem_internal.mp hc
  exact ht.cidrs p hp c hc

theorem snat_some {a : String} (h : r.snat gateway = some a) :
    r.internal ≠ [] ∧ ∃ b ∈ gateway.ips, b.1 = a := by
  unfold snat at h
  split at h
  · rename_i hnat
    obtain ⟨b, hb, rfl⟩ := Option.map_eq_some_iff.mp h
    refine ⟨fun hnil => ?_, b, List.mem_of_mem_head? hb, rfl⟩
    rw [hnil] at hnat
    simp at hnat
  · exact absurd h (by simp)

/-- A binat line is a rule of its interface. -/
theorem ruleOn_binatLine {iface name : String} {f : FloatingIp} (hname : Text.Word name)
    (hfixed : Text.Word f.fixed) (hfloating : Text.Word f.floating) :
    Translation.ruleOn iface (binatLine name f) =
      if name = iface then some (.binat f.fixed f.floating) else none := by
  unfold Translation.ruleOn
  rw [(binatLine_reads hname hfixed hfloating).words]
  rfl

theorem ruleOn_natLine (iface : String) {name target : String} {l : List String}
    (hname : Text.Word name) (htarget : Text.Word target)
    (hl : ∀ c ∈ l, Text.Word c ∧ ',' ∉ c.toList) (hne : l ≠ []) :
    Translation.ruleOn iface (natLine name l target) =
      if name = iface then some (.nat l target) else none := by
  unfold Translation.ruleOn
  rw [(natLine_reads hname htarget fun c hc => (hl c hc).1).words,
    Translation.readWords_nat hne fun c hc => (hl c hc).2]
  rfl

/-- The lines of a gateway are rules of its interface. -/
theorem ruleLines_own (ht : Texts r) (hg : r.gateway = some gateway) :
    (r.ruleLines gateway).filterMap (Translation.ruleOn (jailIf (gateway, true))) =
      r.rules gateway := by
  have hname := ht.iface gateway hg
  unfold ruleLines rules
  generalize jailIf (gateway, true) = name at hname ⊢
  have hbinat : ∀ f ∈ r.floatingIps, Translation.ruleOn name (binatLine name f) =
      some (Translation.binat f.fixed f.floating) := by
    intro f hf
    obtain ⟨hfixed, hfloating⟩ := ht.fips f hf
    rw [ruleOn_binatLine hname hfixed hfloating, if_pos rfl]
  have hnat : ∀ a ∈ (r.snat gateway).toList, Translation.ruleOn name (natLine name r.internal a) =
      some (Translation.nat r.internal a) := by
    intro a ha
    obtain ⟨hne, b, hb, rfl⟩ := snat_some (Option.mem_toList.mp ha)
    rw [ruleOn_natLine name hname (ht.address gateway hg b hb) (fun c hc => ht.internal hc) hne,
      if_pos rfl]
  rw [List.filterMap_append, List.filterMap_map, List.filterMap_map]
  exact congrArg₂ _ (List.filterMap_eq_map_iff_forall_eq_some.mpr hbinat)
    (List.filterMap_eq_map_iff_forall_eq_some.mpr hnat)

/-- And of no other. -/
theorem ruleLines_other (ht : Texts r) (hg : r.gateway = some gateway) {iface : String}
    (hother : jailIf (gateway, true) ≠ iface) :
    (r.ruleLines gateway).filterMap (Translation.ruleOn iface) = [] := by
  have hname := ht.iface gateway hg
  refine List.filterMap_eq_nil_iff.mpr fun line hline => ?_
  rcases List.mem_append.mp hline with hline | hline
  · obtain ⟨f, hf, rfl⟩ := List.mem_map.mp hline
    obtain ⟨hfixed, hfloating⟩ := ht.fips f hf
    exact (ruleOn_binatLine hname hfixed hfloating).trans (if_neg hother)
  · obtain ⟨a, ha, rfl⟩ := List.mem_map.mp hline
    obtain ⟨hne, b, hb, rfl⟩ := snat_some (Option.mem_toList.mp ha)
    exact (ruleOn_natLine iface hname (ht.address gateway hg b hb) (fun c hc => ht.internal hc)
      hne).trans (if_neg hother)

/-- The lines of a gateway are lines. -/
theorem ruleLines_oneLine (ht : Texts r) (hg : r.gateway = some gateway) :
    ∀ line ∈ r.ruleLines gateway, Text.OneLine line := by
  have hname := ht.iface gateway hg
  intro line hline
  rcases List.mem_append.mp hline with hline | hline
  · obtain ⟨f, hf, rfl⟩ := List.mem_map.mp hline
    obtain ⟨hfixed, hfloating⟩ := ht.fips f hf
    exact (binatLine_reads hname hfixed hfloating).oneLine
  · obtain ⟨a, ha, rfl⟩ := List.mem_map.mp hline
    obtain ⟨-, b, hb, rfl⟩ := snat_some (Option.mem_toList.mp ha)
    exact (natLine_reads hname (ht.address gateway hg b hb) fun c hc => (ht.internal hc).1).oneLine

/-! ## 5. What becomes of an address -/

/-- What lies behind the router lies in one of its prefixes. -/
theorem any_internal {α : Type} (lies : String → α → Bool) (s : α) :
    (r.internal.any fun c => lies c s) =
      r.interfaces.any fun p => p.cidrs.any fun c => lies c s := by
  rw [Bool.eq_iff_iff, List.any_eq_true, List.any_eq_true]
  constructor
  · rintro ⟨c, hc, hlies⟩
    obtain ⟨p, hp, hc⟩ := mem_internal.mp hc
    exact ⟨p, hp, List.any_eq_true.mpr ⟨c, hc, hlies⟩⟩
  · rintro ⟨p, hp, hany⟩
    obtain ⟨c, hc, hlies⟩ := List.any_eq_true.mp hany
    exact ⟨c, mem_internal.mpr ⟨p, hp, hc⟩, hlies⟩

theorem outbound_rules (hg : r.gateway = some gateway) {α : Type} (lies : String → α → Bool)
    (s : α) : Translation.outbound lies (r.rules gateway) s = r.outbound lies s := by
  unfold rules outbound
  rw [Translation.outbound_append, hg, Option.bind_some, any_internal]
  congr 1
  unfold snat
  -- with nothing behind the router there is no line, and no source for it either
  cases hany : r.interfaces.any fun p => p.cidrs.any fun c => lies c s with
  | false => simp
  | true =>
    have hne : r.internal.isEmpty = false := by
      rw [← any_internal] at hany
      obtain ⟨c, hc, -⟩ := List.any_eq_true.mp hany
      exact List.isEmpty_eq_false_iff.mpr (List.ne_nil_of_mem hc)
    simp [hne]

theorem inbound_rules (hg : r.gateway = some gateway) {α : Type} (lies : String → α → Bool)
    (d : α) : Translation.inbound lies (r.rules gateway) d = r.inbound lies d := by
  unfold rules inbound
  rw [Translation.inbound_append, hg, Option.bind_some]

variable [Hashlib] {text cfgHash : String}

/-- The text of a router is read back: as the rules of its gateway, on the gateway's interface. -/
theorem rulesOn_pfText (hdigest : ∀ digested, Text.OneLine (Hashlib.sha256 digested))
    (ht : Texts r) (h : r.pfText = some (text, cfgHash)) (iface : String) :
    Translation.rulesOn iface text =
      (r.gateway.elim [] r.ruleLines).filterMap (Translation.ruleOn iface) := by
  obtain ⟨⟨digested, rfl⟩, rfl⟩ := pfText_lines h
  have hhash : Text.OneLine (Text.take (Hashlib.sha256 digested) 16) := by
    intro c hc
    refine hdigest digested c ?_
    unfold Text.take at hc
    rw [String.toList_ofList] at hc
    exact List.mem_of_mem_take hc
  have hskip : Text.OneLine "set skip on lo0" := by decide +kernel
  have hother : Translation.ruleOn iface "set skip on lo0" = none := by
    have hwords : Text.words "set skip on lo0" = ["set", "skip", "on", "lo0"] := by decide +kernel
    unfold Translation.ruleOn
    rw [hwords, Translation.readWords_other (by decide) (by decide), Option.bind_none]
  have hpass : Translation.ruleOn iface (passLine (Text.take (Hashlib.sha256 digested) 16)) =
      none := by
    unfold Translation.ruleOn
    rw [passLine_other, Option.bind_none]
  have hlines : ∀ line ∈ r.gateway.elim [] r.ruleLines, Text.OneLine line := by
    cases hg : r.gateway with
    | none => exact fun line hline => absurd hline List.not_mem_nil
    | some gateway => exact ruleLines_oneLine ht hg
  unfold Translation.rulesOn
  rw [Text.splitLines_unlines ?_, List.filterMap_append, List.filterMap_cons_none hother,
    List.filterMap_cons_none hpass, List.filterMap_nil, List.append_nil]
  intro line hline
  rcases List.mem_append.mp hline with hline | hline
  · rcases List.mem_cons.mp hline with rfl | hline
    · exact hskip
    · exact hlines line hline
  · rw [List.mem_singleton.mp hline]
    exact passLine_oneLine hhash

/-- **Addresses are translated as the router says**: on the gateway's interface a source leaves,
and a destination comes in, as the floating ips and the snat of the router have it; on no other
interface is anything translated. -/
theorem translated_as_told (hdigest : ∀ digested, Text.OneLine (Hashlib.sha256 digested))
    (ht : Texts r) (h : r.pfText = some (text, cfgHash)) :
    (∀ gateway, r.gateway = some gateway → ∀ {α : Type} (lies : String → α → Bool) (a : α),
      Translation.outbound lies (Translation.rulesOn (jailIf (gateway, true)) text) a =
          r.outbound lies a ∧
        Translation.inbound lies (Translation.rulesOn (jailIf (gateway, true)) text) a =
          r.inbound lies a) ∧
    ∀ iface, (∀ gateway, r.gateway = some gateway → jailIf (gateway, true) ≠ iface) →
      Translation.rulesOn iface text = [] := by
  refine ⟨fun gateway hg α lies a => ?_, fun iface hother => ?_⟩
  · have hrules := rulesOn_pfText hdigest ht h (jailIf (gateway, true))
    rw [hg, Option.elim_some, ruleLines_own ht hg] at hrules
    rw [hrules]
    exact ⟨outbound_rules hg lies a, inbound_rules hg lies a⟩
  · rw [rulesOn_pfText hdigest ht h iface]
    cases hg : r.gateway with
    | none => rfl
    | some gateway => exact ruleLines_other ht hg (hother gateway hg)

end

/-! ## 6. A router with everything -/

theorem sample_canonical : ∀ route ∈ ([] : List (String × String)), Canonical route.1 :=
  fun _ h => absurd h List.not_mem_nil

/-- A gateway, a subnet behind it, and a floating ip for one of its addresses. -/
def sample : Router where
  id := "1"
  gateway := some
    { id := "1", mac := "fa:16:3e:00:00:10", ips := [("203.0.113.10", 24)],
      cidrs := ["203.0.113.0/24"], gatewayIp := some "203.0.113.1" }
  interfaces := [
    { id := "2", mac := "fa:16:3e:00:00:11", ips := [("10.0.0.1", 24)], cidrs := ["10.0.0.0/24"] }]
  floatingIps := [⟨"f0", "203.0.113.9", "10.0.0.5"⟩]
  routes := []
  canonical := sample_canonical

theorem sample_texts : Texts sample where
  iface gateway hg := by
    obtain rfl := Option.some.inj hg
    decide +kernel
  address gateway hg := by
    obtain rfl := Option.some.inj hg
    decide +kernel
  fips := by decide +kernel
  cidrs := by decide +kernel

/-- An address lies in the text of its own, and `10.0.0.x` in the subnet. -/
def sampleLies (text a : String) : Bool :=
  text = a || (text = "10.0.0.0/24" && Text.startsWith a "10.0.0.")

/-- What the sample is rendered to. -/
def sampleText : Option (String × String) := @pfText ⟨fun _ => "0123456789abcdef"⟩ sample

/-- The floating ip's address leaves as it and comes back, its neighbour leaves as the gateway. -/
theorem translated_as_told_sample : ∃ text cfgHash, sampleText = some (text, cfgHash) ∧
    Translation.outbound sampleLies (Translation.rulesOn "qg-1" text) "10.0.0.5" =
      some "203.0.113.9" ∧
    Translation.inbound sampleLies (Translation.rulesOn "qg-1" text) "203.0.113.9" =
      some "10.0.0.5" ∧
    Translation.outbound sampleLies (Translation.rulesOn "qg-1" text) "10.0.0.6" =
      some "203.0.113.10" ∧
    Translation.rulesOn "qr-2" text = [] := by
  cases hsome : sampleText with
  | none =>
    have hrendered : sampleText.isSome = true := by decide +kernel
    rw [hsome] at hrendered
    exact absurd hrendered (by simp)
  | some p =>
    obtain ⟨text, cfgHash⟩ := p
    have hline : ∀ _ : String, Text.OneLine "0123456789abcdef" := fun _ => by decide +kernel
    obtain ⟨hown, hother⟩ := @translated_as_told sample ⟨fun _ => "0123456789abcdef"⟩ text cfgHash
      hline sample_texts hsome
    refine ⟨text, cfgHash, rfl, (hown _ rfl sampleLies _).1.trans ?_,
      (hown _ rfl sampleLies _).2.trans ?_, (hown _ rfl sampleLies _).1.trans ?_,
      hother _ fun gateway hg => ?_⟩
    · decide +kernel
    · decide +kernel
    · decide +kernel
    · obtain rfl := Option.some.inj hg
      decide +kernel

end Router

end Bsdbridge
