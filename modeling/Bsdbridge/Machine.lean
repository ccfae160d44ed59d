import Bsdbridge.Host
import Bsdbridge.L2Agent.Writer

/-!
# A host behind a runner

`Host.run` executes ops whose commands all succeed. Here the commands are on their own:
`Host.ifconfig` is what one invocation of ifconfig(8) does when the kernel takes it, and a
`Machine` is a runner over such a host, whose commands take effect when they succeed and have none
when they fail. Which commands fail, and what any command prints, is left open.

A `Machine` is a law on a runner and not a runner. Theorems ask it of whatever runner they are
about, so they hold of every pattern of failures at once, timeouts included; the one at the end of
the file fails by script, and is what the examples of failures run on.

An invocation the kernel would refuse has no effect and does not succeed, so a runner cannot claim
success for it. What pfctl(8) does is in this law only as far as ifconfig's half is concerned: it
leaves the interfaces alone.
-/

set_option autoImplicit false

namespace Bsdbridge

namespace Host

/-! ## 1. One invocation -/

/-- Clone an interface; the kernel refuses a name that is taken. -/
def clone (h : Host) (i : Interface) : Option Host :=
  if (h.look i.name).isSome then none else some (h.create i)

/-- A setting of a bridge member; the kernel refuses one that is not there. -/
def ofMember (h : Host) (b m : String) (h' : Host) : Option Host :=
  if m ∈ h.kernel.membersOf b then some h' else none

/-- The effect of an invocation of ifconfig(8), or `none` where the kernel refuses it. What is
not a change is a query. -/
def ifconfig (h : Host) : List String → Option Host
  | [b, "addm", m] => some (h.addm b m)
  | [b, "deletem", m] => some (h.deletem b m)
  | [b, "sticky", m] => h.ofMember b m (h.setSticky b m)
  | [b, "maxaddr", v] => (Text.readInt v).map (h.setMaxaddr b)
  | [b, "static", m, mac] => h.ofMember b m (h.setStatic b m mac)
  | [b, "ifmaxaddr", m, "1"] => h.ofMember b m (h.setCapped b m)
  | [n, "destroy"] => some (h.destroy n)
  | ["bridge", "create", "name", n, "group", g, "maxaddr", v, "up"] =>
      h.clone { name := n, groups := ["bridge", g], maxaddr := Text.readInt v }
  | ["vlan", "create", "vlandev", parent, "vlan", vid, "name", n, "group", g, "up"] =>
      h.clone { name := n, groups := ["vlan", g], vlan := Text.readInt vid,
                vlanParent := some parent }
  | ["vxlan", "create", "vxlanid", _, "vxlanlocal", _, "vxlanremote", _, "name", n, "group", g,
      "up"] => h.clone { name := n, groups := ["vxlan", g] }
  | ["tap", "create", "name", n, "group", g, "up"] => h.clone { name := n, groups := ["tap", g] }
  | ["tap", "create", "name", n, "descr", d, "group", g, "up"] =>
      h.clone { name := n, groups := ["tap", g], description := d }
  | _ => some h

end Host

/-! ## 2. A runner over a host -/

/-- A runner over a host: an ifconfig(8) that succeeds has its effect and one that fails has
none, and pfctl(8) changes nothing but anchors. -/
structure Machine {σ : Type} (run : Runner σ) (host : σ → Host) : Prop where
  effect : ∀ (args : List String) (timeout : Option Nat) (input : Option String) (s : σ),
    ((run (IFCONFIG :: args) timeout input).run s).1.ok = true →
      (host s).ifconfig args = some (host ((run (IFCONFIG :: args) timeout input).run s).2)
  failure : ∀ (args : List String) (timeout : Option Nat) (input : Option String) (s : σ),
    ((run (IFCONFIG :: args) timeout input).run s).1.ok = false →
      host ((run (IFCONFIG :: args) timeout input).run s).2 = host s
  pfctl : ∀ (args : List String) (timeout : Option Nat) (input : Option String) (s : σ),
    ∃ anchors, host ((run (PFCTL :: args) timeout input).run s).2 = { host s with anchors }

namespace Machine

/-! ## 3. A host that fails by script -/

/-- The next answer of a script; after its end every command works. -/
def next (script : List Bool) : Bool × List Bool :=
  match script with
  | works :: rest => (works, rest)
  | [] => (true, [])

/-- The host under a script that says which commands fail. It prints nothing. -/
def scripted : Runner (Host × List Bool) := fun argv _ _ s =>
  let (works, script) := next s.2
  let after := if works then
      match argv with
      | [] => some s.1
      | cmd :: args => if cmd = IFCONFIG then s.1.ifconfig args else some s.1
    else none
  match after with
  | some h => ({ rc := .code 0 }, (h, script))
  | none => ({ rc := .code 1 }, (s.1, script))

theorem scripted_machine : Machine scripted Prod.fst where
  effect := by
    intro args timeout input s hok
    unfold scripted StateT.run at hok ⊢
    simp only [if_true] at hok ⊢
    cases hw : (next s.2).1 with
    | false =>
      rw [hw] at hok
      simp [RunResult.ok] at hok
    | true =>
      rw [hw] at hok
      cases he : s.1.ifconfig args with
      | none =>
        rw [if_pos rfl, he] at hok
        simp [RunResult.ok] at hok
      | some h => rw [if_pos rfl]
  failure := by
    intro args timeout input s hok
    unfold scripted StateT.run at hok ⊢
    simp only [if_true] at hok ⊢
    cases hw : (next s.2).1 with
    | false => rfl
    | true =>
      rw [hw] at hok
      cases he : s.1.ifconfig args with
      | none => rfl
      | some h =>
        rw [if_pos rfl, he] at hok
        simp [RunResult.ok] at hok
  pfctl := by
    intro args timeout input s
    have hne : PFCTL ≠ IFCONFIG := by decide
    refine ⟨s.1.anchors, ?_⟩
    unfold scripted StateT.run
    simp only [hne, if_false]
    cases (next s.2).1 <;> rfl

end Machine

end Bsdbridge
