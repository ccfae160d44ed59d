import Bsdbridge.Proof.Wired

/-!
# Ports of different networks

A port that is up can be heard, and the question is by whom. A pass puts an interface into no
bridge but the one that claims it, and a claim is made once; so of the ports that are up, two sit
in one bridge exactly when the server says they are on one segment (**`segments_isolated`**). That
is said of the host after the pass, not of the config: it takes in what the host was like before,
commands that failed without failing the pass, and whatever else is on the host.

One direction is `up_wired`: two ports of one segment have one bridge, and both are in it. The
other needs more than that, since an interface could be in a second bridge as well. A claimed
interface is in no bridge but its own before the pass (`Settled`), and no op of the plan, whether
it works or not, puts it into another (`Attempt.joined`).

`BridgesOnly` says that what has members is a bridge, which a kernel sees to and a model has to
say. Two segments that are joined elsewhere, by a switch or by a second host, are out of sight.
-/

set_option autoImplicit false

namespace Bsdbridge

namespace Planner

open Host

section

variable [Hashlib] {config : Config} {b m : String}

/-- A bridge of the config that claims a name. -/
def ClaimedIn (config : Config) (b m : String) : Prop :=
  ∃ br, (b, br) ∈ config.bridge.entries ∧ m ∈ claimsOf config b br

/-! ## 1. Who joins a bridge -/

/-- An op of a plan puts a name into no bridge but the one that claims it. -/
theorem joins_claimed {kernel : KernelInterfaces} {pf : Option PfState} {x : Op}
    (hx : Issued config kernel pf x) {t : Host} (hm : m ∈ (t.exec x).kernel.membersOf b) :
    m ∈ t.kernel.membersOf b ∨ ClaimedIn config b m := by
  rw [membersOf_eq] at hm ⊢
  cases hi' : (t.exec x).look b with
  | none =>
    rw [hi'] at hm
    exact absurd hm List.not_mem_nil
  | some i' =>
    rw [hi'] at hm
    rcases look_exec_inv hi' with ⟨hmade, -, -⟩ | ⟨i, hi, -, -, hmem⟩
    · have hm' : m ∈ i'.members := hm
      rw [Op.made_members hmade] at hm'
      exact absurd hm' List.not_mem_nil
    · rcases ((hmem m).mp hm).1 with hold | rfl
      · rw [hi]
        exact Or.inl hold
      · refine Or.inr ?_
        obtain ⟨br, hb, ⟨member, hmm, -⟩ | ⟨hu, -⟩⟩ := hx
        · exact ⟨br, hb, List.mem_append_right _ (Dict.mem_of_entry hmm)⟩
        · exact ⟨br, hb, List.mem_append_left _ hu⟩

end

end Planner

namespace Sync

open Planner Reconcile PortConfig

section

variable [Hashlib] {mappings : Dict String String} {σ : Type} {run : Runner σ} {host : σ → Host}
  {a a' : Agent} {w : Work} {config : Config} {rendered : List String} {s s' : σ}
  {result : Reconcile.Result} {up : Finset String} {p q : PortDetails}

/-- Nor does a whole pass, whichever of its commands take effect. -/
theorem Attempt.joined (h : Attempt mappings run host a w config rendered s result s')
    (hfailed : result.failed = []) {b m : String} (hm : m ∈ (host s').kernel.membersOf b) :
    m ∈ (host s).kernel.membersOf b ∨ ClaimedIn config b m := by
  obtain ⟨info, hb⟩ := h.built
  obtain ⟨hsections, hdangling, -⟩ := build_eq_ok.mp hb
  obtain ⟨q, hp, hsame, hclean, rfl⟩ := reconcile_pass (hsections.checked hdangling)
    (shaped_of_build hb h.once) h.settled h.readable h.reconciled hfailed
  refine hclean.keeps (Q := fun t => m ∈ (host t).kernel.membersOf b →
    m ∈ (host s).kernel.membersOf b ∨ ClaimedIn config b m) Or.inl (fun x hx t hok hQ hin => ?_) hm
  have hxq : x ∈ q.ops := (hsame.mem_ops x).mp hx
  rcases Writer.apply_cases h.anchored (rendered_of_diff h.spelled hp.planned hxq) hok with
    halike | ⟨-, -, hhost⟩
  · rcases joins_claimed (hp.issued hxq) ((halike b m False).joined.mp hin) with hold | hc
    · exact hQ hold
    · exact Or.inr hc
  · rw [hhost] at hin
    exact hQ hin

/-- What has members is a bridge. -/
def BridgesOnly (h : Host) : Prop :=
  ∀ b i, h.look b = some i → i.isBridge = false → i.members = []

/-- The interface of a port is in the bridge of its segment, or in none. -/
theorem Attempt.bridge_of_joined (h : Attempt mappings run host a w config rendered s result s')
    (hfailed : result.failed = []) (honly : BridgesOnly (host s)) (hp : p ∈ w.details) {b : String}
    (hm : ifName p ∈ (host s').kernel.membersOf b) : b = bridgeOf p := by
  obtain ⟨info, hb⟩ := h.built
  obtain ⟨hsections, -, -⟩ := build_eq_ok.mp hb
  obtain ⟨br, hbr, hmem⟩ := hsections.member_of_port hp
  have hbe := Dict.get?_eq_some.mp hbr
  have hown : ifName p ∈ claimsOf config (bridgeOf p) br := List.mem_append_right _ hmem
  have hclaimed : ClaimedIn config b (ifName p) := by
    -- a member since before the pass, kept because it is claimed there, or joined by the pass
    rcases h.joined hfailed hm with hold | hc
    · rw [Host.membersOf_eq] at hold
      cases hi : (host s).look b with
      | none =>
        rw [hi] at hold
        exact absurd hold List.not_mem_nil
      | some i =>
        rw [hi] at hold
        have hbridge : i.isBridge = true := by
          by_contra hno
          have hnone := honly b i hi (by simpa using hno)
          have hin : ifName p ∈ i.members := hold
          rw [hnone] at hin
          exact absurd hin List.not_mem_nil
        exact h.settled _ (mem_claimed.mpr ⟨_, br, hbe, hown⟩) b i hi hbridge hold
    · exact hc
  obtain ⟨br', hb', hc⟩ := hclaimed
  exact (h.once.one_bridge hb' hbe hc hown).1

/-- **Two ports that are up share a bridge exactly when they share their segment.** -/
theorem segments_isolated {agent : Mech.AgentReport}
    (h : Attempt (Mech.getMappings agent) run host a w config rendered s result s')
    (hreport : tick (Mech.getMappings agent) ⟨a, .reconciling w config rendered⟩
      (.event (.reconciled result)) = some ⟨a', .reporting w up⟩)
    (hhosted : Hosted agent w.details) (honly : BridgesOnly (host s))
    (hp : Placed w.details p (host s)) (hpup : p.portId ∈ up)
    (hq : Placed w.details q (host s)) (hqup : q.portId ∈ up) :
    (∃ b, ifName p ∈ (host s').kernel.membersOf b ∧ ifName q ∈ (host s').kernel.membersOf b) ↔
      Shared p q := by
  obtain ⟨hfailed, rfl⟩ := reporting_of_settle hreport
  rw [← hhosted.bridgeOf_iff hp.mem hq.mem]
  constructor
  · rintro ⟨b, hpb, hqb⟩
    rw [← h.bridge_of_joined hfailed honly hp.mem hpb, h.bridge_of_joined hfailed honly hq.mem hqb]
  · intro hsame
    refine ⟨bridgeOf p, (h.wired hfailed hpup hp).joined, ?_⟩
    rw [hsame]
    exact (h.wired hfailed hqup hq).joined

end

theorem hosted_tenant : @Hosted segmentHash {} tenantWork.details := by
  have hlocal : ∀ p ∈ tenantWork.details,
      p.networkType = some "local" ∧ p.segmentationId = none ∧ p.physicalNetwork = none := by decide
  refine @Hosted.mk segmentHash _ _ ?_ ?_ ?_ ?_
  · intro port hp
    obtain ⟨htype, hid, hphys⟩ := hlocal port hp
    exact ⟨{ networkType := "local" }, ⟨htype, hphys, hid⟩, by decide⟩
  · exact fun port hp _ => (hlocal port hp).2.1
  · have hkeys : ∀ p ∈ tenantWork.details, ∀ q ∈ tenantWork.details,
        @bridgeOf segmentHash p = @bridgeOf segmentHash q →
          PortConfig.segmentKey p = PortConfig.segmentKey q := by decide +kernel
    exact hkeys
  · have hnames : ∀ p ∈ tenantWork.details, ∀ q ∈ tenantWork.details,
        ifName p = ifName q → p = q := by decide +kernel
    exact hnames

/-- The two ports of one network are joined, and the one of the other network is apart. -/
theorem segments_isolated_tenant : ∃ result, tenantPass.1 = .ok result ∧
    ∀ p ∈ tenantWork.details, ∀ q ∈ tenantWork.details,
      ((∃ b, ifName p ∈ tenantPass.2.kernel.membersOf b ∧
        ifName q ∈ tenantPass.2.kernel.membersOf b) ↔ Shared p q) ∧
      (Shared p q ↔ p.networkId = q.networkId) := by
  obtain ⟨result, hresult, hfailed, hup⟩ := tenant_pass
  have hids : ∀ p ∈ tenantWork.details, p.portId ∈ ({"p0", "p1", "p2"} : Finset String) := by
    decide +kernel
  have hshared : ∀ p ∈ tenantWork.details, ∀ q ∈ tenantWork.details,
      (Shared p q ↔ p.networkId = q.networkId) := by
    unfold Shared
    decide +kernel
  have hmappings : Mech.getMappings {} = ∅ := rfl
  have hattempt := tenant_attempt hresult
  have hreports := tenant_reports hfailed hup
  rw [← hmappings] at hattempt hreports
  refine ⟨result, hresult, fun p hp q hq => ⟨?_, hshared p hp q hq⟩⟩
  have honly : BridgesOnly ({} : Host) := fun _ _ hi => absurd hi (by simp [Host.look])
  have hjoined := @segments_isolated segmentHash Host Silent.runner id tenantAgent tenantAgent
    tenantWork tenantConfig ["p0", "p1", "p2"] {} tenantPass.2 result {"p0", "p1", "p2"} p q {}
    hattempt hreports hosted_tenant honly (tenant_placed hp) (hids p hp)
    (tenant_placed hq) (hids q hq)
  simpa only [id_eq] using hjoined

end Sync

end Bsdbridge
