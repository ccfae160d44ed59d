import Bsdbridge.Proof.Issued

/-!
# Claimed interfaces and the gc

Of the three paths that destroy an interface only the orphan walk looks at the names the config
claims. So a claimed interface is destroyed exactly when it is `Displaced`: owned, and found in a
bridge that gives it up, either a desired bridge that does not claim it or an owned bridge on its
way out. **`claimed_survive_iff`** is that statement; the plan below, which moves a tap from one
bridge to another and destroys it, is a case of the first kind.

`Displaced` looks at the config and at the kernel as the pass saw it, and the statement is about
every plan that `diff` returns; no shape is asked of either. In particular the config may claim the
name in several bridges, and the kernel may have it in several.

What follows for the host is a destroyed interface, not just a plan: the destroys come last, after
the interface was added to the bridge that claims it, so the next pass has to make it again. An
interface that was not made by the agent is not owned, and is never destroyed by any path.
-/

set_option autoImplicit false

namespace Bsdbridge

namespace Planner

/-- An owned interface sits in a bridge that gives it up: a desired bridge that does not claim
it (and it is no unwanted bridge itself), or the first unwanted bridge that holds it. -/
def Displaced (config : Config) (kernel : KernelInterfaces) (n : String) : Prop :=
  kernel.ownedName n = true ∧
    (FirstHeld (unwanted config kernel) n ∨
      (¬ Unwanted config kernel n ∧ ∃ b br, (b, br) ∈ config.bridge.entries ∧
        n ∈ kernel.membersOf b ∧ n ∉ claimsOf config b br))

theorem displaced_iff {config : Config} {kernel : KernelInterfaces} {n : String} :
    Displaced config kernel n ↔
      TornDown config kernel n ∨ (Evicted config kernel n ∧ ¬ Unwanted config kernel n) := by
  unfold Displaced TornDown Evicted
  constructor
  · rintro ⟨ho, hf | ⟨hu, hev⟩⟩
    · exact Or.inl ⟨ho, hf⟩
    · exact Or.inr ⟨⟨ho, hev⟩, hu⟩
  · rintro (⟨ho, hf⟩ | ⟨⟨ho, hev⟩, hu⟩)
    · exact ⟨ho, Or.inl hf⟩
    · exact ⟨ho, Or.inr ⟨hu, hev⟩⟩

section

variable [Hashlib] {config : Config} {kernel : KernelInterfaces} {pf : Option PfState}

/-- A claimed name is never an orphan, so it is destroyed only when it is displaced. -/
theorem destroyIface_claimed {p : Plan} (h : diff config kernel pf = .ok p) {n : String}
    (hn : n ∈ claimed config) : .destroyIface n ∈ p.ops ↔ Displaced config kernel n := by
  rw [mem_ops h, displaced_iff]
  constructor
  · rintro (ht | hev | ⟨-, hc, -⟩)
    · exact Or.inl ht
    · exact Or.inr hev
    · exact absurd hn hc
  · rintro (ht | hev)
    · exact Or.inl ht
    · exact Or.inr (Or.inl hev)

/-- **The gc and the claims**: no claimed interface is destroyed exactly when none is
displaced. -/
theorem claimed_survive_iff {p : Plan} (h : diff config kernel pf = .ok p) :
    (∀ n ∈ claimed config, .destroyIface n ∉ p.ops) ↔
      ∀ n ∈ claimed config, ¬ Displaced config kernel n :=
  forall₂_congr fun _ hn => not_congr (destroyIface_claimed h hn)

end

/-! ## A tap that changes bridges -/

/-- The tap of port `0` belongs in the second bridge. -/
def movedConfig : Config :=
  { bridge := ⟨[("pbaaa", {}),
      ("pbbbb", { member := ⟨[("tap0", { type := some .tap })], by decide⟩ })], by decide⟩ }

/-- It still sits in the first one. -/
def movedKernel : KernelInterfaces :=
  { interfaces := ⟨[
      ("pbaaa", { name := "pbaaa", groups := ["bridge", OWNED_GROUP], members := ["tap0"] }),
      ("pbbbb", { name := "pbbbb", groups := ["bridge", OWNED_GROUP] }),
      ("tap0", { name := "tap0", groups := ["tap", OWNED_GROUP] })], by decide⟩
    owned := ["pbaaa", "pbbbb", "tap0"] }

/-- It is moved, and then destroyed under its new bridge. -/
def movedPlan : Plan :=
  { removes := [.removeMember "pbaaa" "tap0"]
    adds := [.addMember "pbbbb" "tap0"]
    destroys := [.destroyIface "tap0"] }

theorem diff_moved (inst : Hashlib) : diff movedConfig movedKernel none = .ok movedPlan := rfl

/-- A claimed interface can be destroyed. -/
theorem claimed_destroyed : ¬ ∀ (_ : Hashlib) (config : Config) (kernel : KernelInterfaces)
    (pf : Option PfState) (p : Plan), diff config kernel pf = .ok p →
      ∀ n ∈ claimed config, Op.destroyIface n ∉ p.ops := fun h =>
  h ⟨id⟩ movedConfig movedKernel none movedPlan (diff_moved ⟨id⟩) "tap0" (by decide) (by decide)

theorem claimed_survive_iff_moved :
    (∀ n ∈ claimed movedConfig, .destroyIface n ∉ movedPlan.ops) ↔
      ∀ n ∈ claimed movedConfig, ¬ Displaced movedConfig movedKernel n :=
  @claimed_survive_iff ⟨id⟩ _ _ _ _ (diff_moved ⟨id⟩)

end Planner

end Bsdbridge
