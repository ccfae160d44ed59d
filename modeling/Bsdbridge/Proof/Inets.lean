import Bsdbridge.Proof.Actions

/-!
# The addresses of a jail interface

`ensureAddrs` takes differences of (address, prefix length) pairs: first it sets the desired pairs
that are not there, then it drops the pairs that are there and not desired. The kernel keys an
address by itself, and drops it whatever its prefix length. So an address that stays with another
prefix length is set, and then dropped for the sake of its old pair: **`ensureAddrs_exact_iff`**
says that this is the one way for a pass to miss.

The interface is a map from addresses to prefix lengths, so it cannot hold an address twice, and
the two commands are an insertion and an erasure by key. That is the contract of `InetKernel`; the
MAC, which the same function sets, leaves the addresses alone. The text the function reads shows
the map exactly (`Shows`), and the desired list may hold any pairs, one address twice included.

Only the end state is looked at. On the way an address may be missing for a moment; the commands
are issued in the order of the source, and that order is what makes the difference here.
-/

set_option autoImplicit false

namespace Bsdbridge

namespace Jail

open Prog Actions

variable {ε : Type}

/-! ## 1. An interface that keys its addresses -/

/-- The addresses of an interface, with their prefix lengths. -/
abbrev Inets := Dict String Nat

/-- A runner over one jail interface, whose commands all succeed: `inet a/p` sets the prefix length
of `a`, `inet a/p -alias` removes `a`, and `ether` changes no address. -/
structure InetKernel (cmd : Command ε) (jail jailIf : String) (inets : ε → Inets) : Prop where
  set : ∀ (a : String × Nat) (how : String) (e : ε), how = "up" ∨ how = "alias" →
    ∃ r e', exec (cmd [JEXEC, jail, IFCONFIG, jailIf, "inet", inetArg a, how]) e = (some r, e') ∧
      r.ok = true ∧ inets e' = (inets e).insert a.1 a.2
  drop : ∀ (a : String × Nat) (e : ε),
    ∃ r e', exec (cmd [JEXEC, jail, IFCONFIG, jailIf, "inet", inetArg a, "-alias"]) e =
      (some r, e') ∧ r.ok = true ∧ inets e' = (inets e).erase a.1
  ether : ∀ (mac : String) (e : ε),
    ∃ r e', exec (cmd [JEXEC, jail, IFCONFIG, jailIf, "ether", mac]) e = (some r, e') ∧
      r.ok = true ∧ inets e' = inets e

/-- The text of an interface shows its addresses. -/
def Shows (text jailIf : String) (inets : Inets) : Prop :=
  ∃ info, (Ifconfig.parse text).get? jailIf = some info ∧
    ∀ a, a ∈ info.inets ↔ inets.get? a.1 = some a.2

variable {cmd : Command ε} {jail jailIf : String} {inets : ε → Inets}

/-! ## 2. What the loops come to

Two folds over lists of pairs. What becomes of one address depends on the pairs of that address
only. -/

theorem exec_addInets (m : InetKernel cmd jail jailIf inets) (have_ : Finset (String × Nat))
    (ips : List (String × Nat)) (first : Bool) (t : Pass ε) :
    ∃ t', exec (addInets cmd jail jailIf have_ first ips) t = (some (), t') ∧
      inets t'.env = (ips.filter (· ∉ have_)).foldl (fun d a => d.insert a.1 a.2) (inets t.env) := by
  induction ips generalizing first t with
  | nil => exact ⟨t, rfl, rfl⟩
  | cons a rest ih =>
    unfold addInets
    by_cases ha : a ∈ have_
    · rw [if_pos ha, List.filter_cons_of_neg (by simpa using ha)]
      exact ih _ _
    · rw [if_neg ha, List.filter_cons_of_pos (by simpa using ha), List.foldl_cons]
      have hhow : (if first then "up" else "alias") = "up" ∨
          (if first then "up" else "alias") = "alias" := by
        cases first
        · exact Or.inr rfl
        · exact Or.inl rfl
      obtain ⟨r, e, hcmd, -, hset⟩ := m.set a _ t.env hhow
      rw [exec_bind, exec_act hcmd, ← hset]
      exact ih _ _

theorem exec_dropInets (m : InetKernel cmd jail jailIf inets) {l : List (Lex (String × Nat))}
    (t : Pass ε) :
    ∃ t', exec (dropInets cmd jail jailIf l) t = (some (), t') ∧
      inets t'.env = l.foldl (fun d a => d.erase (ofLex a).1) (inets t.env) := by
  refine exec_forM_fold (o := fun t => inets t.env) (fun a _ t => ?_) t
  obtain ⟨r, e, hcmd, -, hdrop⟩ := m.drop (ofLex a) t.env
  exact ⟨_, exec_act hcmd, hdrop⟩

/-- The whole of it: the missing pairs are set, and then the keys of the stale ones go. -/
theorem exec_ensureAddrs (m : InetKernel cmd jail jailIf inets) {text : String} (mac : String)
    {info : Interface} (ips : List (String × Nat))
    (hinfo : (Ifconfig.parse text).get? jailIf = some info) (t : Pass ε) :
    ∃ t', exec (ensureAddrs cmd jail jailIf text mac ips) t = (some (), t') ∧
      inets t'.env =
        (sortedSet ((info.inets.toFinset \ ips.toFinset).image toLex)).foldl
          (fun d a => d.erase (ofLex a).1)
          ((ips.filter (· ∉ info.inets.toFinset)).foldl (fun d a => d.insert a.1 a.2)
            (inets t.env)) := by
  have hmac : ∃ t₁, exec (actIf cmd (info.ether ≠ some mac) "SetJailIfMac"
      [JEXEC, jail, IFCONFIG, jailIf, "ether", mac]) t = (some (), t₁) ∧
      inets t₁.env = inets t.env := by
    unfold actIf
    split
    · obtain ⟨r, e, hcmd, -, hether⟩ := m.ether mac t.env
      exact ⟨_, exec_act hcmd, hether⟩
    · exact ⟨t, rfl, rfl⟩
  obtain ⟨t₁, h₁, he₁⟩ := hmac
  obtain ⟨t₂, h₂, he₂⟩ := exec_addInets m info.inets.toFinset ips info.inets.isEmpty t₁
  obtain ⟨t₃, h₃, he₃⟩ := exec_dropInets m
    (l := sortedSet ((info.inets.toFinset \ ips.toFinset).image toLex)) t₂
  refine ⟨t₃, ?_, by rw [he₃, he₂, he₁]⟩
  unfold ensureAddrs
  rw [hinfo]
  dsimp only
  rw [exec_bind, h₁]
  dsimp only
  rw [exec_bind, h₂]
  exact h₃

/-! ## 3. What they bring about -/

/-- An address is there with a prefix length that is not the desired one. -/
def Resized (ips : List (String × Nat)) (inets : Inets) : Prop :=
  ∃ a p q, (a, p) ∈ ips ∧ inets.get? a = some q ∧ q ≠ p

/-- The interface after a pass, address by address: an address with a stale pair is gone, a desired
pair that was missing is there, and every other address is as before. -/
theorem get?_ensureAddrs (m : InetKernel cmd jail jailIf inets) {text : String} (mac : String)
    {ips : List (String × Nat)} {t : Pass ε} (hnd : (ips.map Prod.fst).Nodup)
    (hshow : Shows text jailIf (inets t.env)) (a : String) (p : Nat) :
    (inets (exec (ensureAddrs cmd jail jailIf text mac ips) t).2.env).get? a = some p ↔
      (∀ q, (inets t.env).get? a = some q → (a, q) ∈ ips) ∧ (a, p) ∈ ips := by
  obtain ⟨info, hinfo, hin⟩ := hshow
  obtain ⟨t', ht', hinets⟩ := exec_ensureAddrs m mac ips hinfo t
  have hstale : a ∈ (sortedSet ((info.inets.toFinset \ ips.toFinset).image toLex)).map
      (fun e => (ofLex e).1) ↔ ∃ q, (inets t.env).get? a = some q ∧ (a, q) ∉ ips := by
    simp [hin]
  have hmissing : ∀ q, (a, q) ∈ ips.filter (· ∉ info.inets.toFinset) ↔
      (a, q) ∈ ips ∧ (inets t.env).get? a ≠ some q := by
    intro q
    simp [hin]
  have hndf : ((ips.filter (· ∉ info.inets.toFinset)).map Prod.fst).Nodup :=
    hnd.sublist (List.filter_sublist.map Prod.fst)
  rw [ht']
  show (inets t'.env).get? a = some p ↔ _
  rw [hinets, Dict.get?_foldl_erase (f := fun e : Lex (String × Nat) => (ofLex e).1)]
  by_cases hs : ∃ q, (inets t.env).get? a = some q ∧ (a, q) ∉ ips
  · rw [if_pos (hstale.mpr hs)]
    obtain ⟨q, hq, hnot⟩ := hs
    constructor
    · intro h
      exact absurd h (by simp)
    · intro h
      exact absurd (h.1 q hq) hnot
  · rw [if_neg fun h => hs (hstale.mp h)]
    have hkept : ∀ q, (inets t.env).get? a = some q → (a, q) ∈ ips := by
      intro q hq
      by_contra hnot
      exact hs ⟨q, hq, hnot⟩
    rw [and_iff_right hkept]
    by_cases hm : a ∈ (ips.filter (· ∉ info.inets.toFinset)).map Prod.fst
    · obtain ⟨⟨a', q⟩, hmem, rfl⟩ := List.mem_map.mp hm
      rw [Dict.get?_foldl_insert hndf hmem]
      have hq := ((hmissing q).mp hmem).1
      constructor
      · intro h
        obtain rfl := Option.some.inj h
        exact hq
      · intro hp
        exact congrArg some (congrArg Prod.snd (List.inj_on_of_nodup_map hnd hq hp rfl))
    · rw [Dict.get?_foldl_insert_of_notMem hm]
      constructor
      · exact hkept p
      · intro hp
        by_contra hne
        exact hm (List.mem_map.mpr ⟨(a, p), (hmissing p).mpr ⟨hp, hne⟩, rfl⟩)

/-- **A pass brings the interface's addresses to exactly the desired ones if and only if none of
them is there with another prefix length.** -/
theorem ensureAddrs_exact_iff (m : InetKernel cmd jail jailIf inets) {text mac : String}
    {ips : List (String × Nat)} {t : Pass ε} (hnd : (ips.map Prod.fst).Nodup)
    (hshow : Shows text jailIf (inets t.env)) :
    (∀ a p, (inets (exec (ensureAddrs cmd jail jailIf text mac ips) t).2.env).get? a = some p ↔
      (a, p) ∈ ips) ↔ ¬ Resized ips (inets t.env) := by
  constructor
  · intro h hre
    obtain ⟨a, p, q, hp, hq, hne⟩ := hre
    have hkept := ((get?_ensureAddrs m mac hnd hshow a p).mp ((h a p).mpr hp)).1 q hq
    exact hne (congrArg Prod.snd (List.inj_on_of_nodup_map hnd hkept hp rfl))
  · intro hre a p
    rw [get?_ensureAddrs m mac hnd hshow]
    refine and_iff_right_iff_imp.mpr fun hp q hq => ?_
    by_cases heq : q = p
    · rw [heq]
      exact hp
    · exact absurd ⟨a, p, q, hp, hq, heq⟩ hre

/-! ## 4. One such interface -/

/-- An address as ifconfig(8) reads it. -/
def readInet (arg : String) : String × Nat :=
  (Text.beforeLast arg '/',
    Nat.ofDigitChars 10 (arg.toList.reverse.takeWhile (· ≠ '/')).reverse 0)

theorem readInet_inetArg (a : String × Nat) : readInet (inetArg a) = a := by
  have hnum : '/' ∉ (toString a.2).toList := Text.not_mem_toString_nat (by decide)
  have hbefore : Text.beforeLast (inetArg a) '/' = a.1 :=
    Text.beforeLast_append (a := a.1) hnum
  have hrev : (inetArg a).toList.reverse =
      (toString a.2).toList.reverse ++ '/' :: a.1.toList.reverse := by
    simp [inetArg]
  have htake : (inetArg a).toList.reverse.takeWhile (· ≠ '/') = (toString a.2).toList.reverse := by
    rw [hrev, List.takeWhile_append_of_pos fun x hx =>
      Text.differ_of_not_mem hnum x (List.mem_reverse.mp hx)]
    simp
  unfold readInet
  rw [hbefore, htake, List.reverse_reverse, Text.toList_toString_nat,
    Nat.ofDigitChars_ten_toDigits]

/-- A runner over nothing but the addresses of one interface. -/
def keyed : Command Inets := fun argv => OptionT.mk fun inets =>
  let inets' := match argv with
    | [_, _, _, _, "inet", arg, how] =>
        let (a, p) := readInet arg
        if how = "-alias" then inets.erase a else inets.insert a p
    | _ => inets
  (some { rc := .code 0 }, inets')

theorem keyed_kernel (jail jailIf : String) : InetKernel keyed jail jailIf id where
  set := by
    intro a how e hhow
    have hne : how ≠ "-alias" := by
      rcases hhow with rfl | rfl
      · decide
      · decide
    refine ⟨{ rc := .code 0 }, e.insert a.1 a.2, ?_, rfl, rfl⟩
    show (some _, if how = "-alias" then e.erase (readInet (inetArg a)).1
      else e.insert (readInet (inetArg a)).1 (readInet (inetArg a)).2) = _
    rw [if_neg hne, readInet_inetArg]
  drop := by
    intro a e
    refine ⟨{ rc := .code 0 }, e.erase a.1, ?_, rfl, rfl⟩
    show (some _, e.erase (readInet (inetArg a)).1) = _
    rw [readInet_inetArg]
  ether := by
    intro mac e
    exact ⟨{ rc := .code 0 }, e, rfl, rfl, rfl⟩

/-- A gateway port's own address, and a floating ip, on its interface. -/
def aliasText : String :=
  "qg-1: flags=8843<UP,BROADCAST> metric 0 mtu 1500\n\tether fa:16:3e:00:00:10\n\tinet 203.0.113.10 netmask 0xffffff00\n\tinet 203.0.113.50 netmask 0xffffffff\n"

def aliased : Inets := Dict.ofList [("203.0.113.10", 24), ("203.0.113.50", 32)]

def aliasInfo : Interface where
  name := "qg-1"
  flags := {"UP", "BROADCAST"}
  metric := some 0
  mtu := some 1500
  ether := some "fa:16:3e:00:00:10"
  inets := [("203.0.113.10", 24), ("203.0.113.50", 32)]

theorem aliasText_shows : Shows aliasText "qg-1" aliased := by
  refine ⟨aliasInfo, by decide +kernel, ?_⟩
  intro a
  obtain ⟨a, p⟩ := a
  rw [Dict.get?_eq_some]
  exact Iff.rfl

/-- An address that goes and one that comes are exchanged. -/
theorem ensureAddrs_exact_iff_moved :
    (∀ a p, (id (exec (ensureAddrs keyed "qrouter-1" "qg-1" aliasText "fa:16:3e:00:00:10"
      [("203.0.113.10", 24), ("203.0.113.51", 32)]) { env := aliased }).2.env : Inets).get? a =
        some p ↔ (a, p) ∈ [("203.0.113.10", 24), ("203.0.113.51", 32)]) ↔
      ¬ Resized [("203.0.113.10", 24), ("203.0.113.51", 32)] (id aliased) :=
  ensureAddrs_exact_iff (keyed_kernel "qrouter-1" "qg-1") (t := { env := aliased }) (by decide)
    aliasText_shows

/-- A floating ip becomes the gateway port's own address, and is gone after the pass. -/
theorem resized_address_lost :
    InetKernel keyed "qrouter-1" "qg-1" id ∧ Shows aliasText "qg-1" aliased ∧
      ¬ ∀ a p, (exec (ensureAddrs keyed "qrouter-1" "qg-1" aliasText "fa:16:3e:00:00:10"
        [("203.0.113.50", 24)]) { env := aliased }).2.env.get? a = some p ↔
          (a, p) ∈ [("203.0.113.50", 24)] := by
  refine ⟨keyed_kernel _ _, aliasText_shows, fun h => ?_⟩
  have hlost : (exec (ensureAddrs keyed "qrouter-1" "qg-1" aliasText "fa:16:3e:00:00:10"
      [("203.0.113.50", 24)]) { env := aliased }).2.env.get? "203.0.113.50" = none := by
    decide +kernel
  rw [(h "203.0.113.50" 24).mpr (List.mem_singleton.mpr rfl)] at hlost
  exact absurd hlost (by simp)

end Jail

end Bsdbridge
