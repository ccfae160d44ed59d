import Bsdbridge.Proof.History
import Bsdbridge.Proof.Settings

/-!
# A lock that stopped part way

The lock of a member is three invocations, and the planner looks at the first one only: a static
MAC that is in place hides an `ifmaxaddr` or a `sticky` that failed. So a lock is retried just
where it did not stop between them. Over a history in which no lock stops half way, a pass whose
every receipt is ok leaves all three settings on every bound member of its bridge
(**`locked_of_all_ok`**).

The runner is a `Machine`: any invocation may fail, a failed one has no effect, and what succeeds
has the effect of the ifconfig(8) of `Host`. `Finishes` states the condition there, on the three
invocations as they would run at the state the lock is issued in, and it counts a setting that was
in place before as made. It is no condition on receipts, since the receipt of a lock that stopped
half way is not ok and the pass after it can be.

## How the proof goes

Settings are `Complete` when a static MAC comes with the other two. Every invocation keeps that,
but a new static MAC, so every op does but a lock, and a lock that finishes does (`lock_run`). A
pass that is all ok then has two kinds of bound members: those it locked itself, and those it did
not because the static MAC it saw was the right one, which is where completeness is used. The ops
after the lock, and the teardown, do not undo it.
-/

set_option autoImplicit false

namespace Bsdbridge

namespace Writer

/-! ## 1. An op on a machine -/

section

open Settings

variable {σ : Type} {run : Runner σ} {host : σ → Host} {s : σ} {b m mac : String}

/-- The settings of `m` on `b`, as the host of a state has them. -/
abbrev settingsAt (host : σ → Host) (b m : String) (s : σ) : Settings := (host s).settings b m

theorem ifconfig_turn (M : Machine run host) (args : List String) (timeout : Option Nat)
    (input : Option String) (t : σ) :
    Turn args b m (settingsAt host b m t)
      (settingsAt host b m ((run (IFCONFIG :: args) timeout input).run t).2) := by
  cases hok : ((run (IFCONFIG :: args) timeout input).run t).1.ok with
  | true => exact Host.ifconfig_settings (M.effect args timeout input t hok) b m
  | false =>
    unfold settingsAt
    rw [M.failure args timeout input t hok]
    exact .same

theorem pfctl_settings (M : Machine run host) (args : List String) (timeout : Option Nat)
    (input : Option String) (t : σ) :
    settingsAt host b m ((run (PFCTL :: args) timeout input).run t).2 = settingsAt host b m t := by
  obtain ⟨anchors, hpf⟩ := M.pfctl args timeout input t
  unfold settingsAt
  rw [hpf]
  rfl

/-- What every invocation of an op keeps of the settings, the op keeps. -/
theorem apply_settings (M : Machine run host) {x : Op} {P : Settings → Prop}
    (hturn : ∀ args e e', Issues x (IFCONFIG :: args) → Turn args b m e e' → P e → P e')
    (hs : P (settingsAt host b m s)) :
    P (settingsAt host b m ((apply run false x).run s).2) := by
  refine apply_keeps (I := fun t => P (settingsAt host b m t)) ?_ hs
  intro argv timeout input t hi ht
  rcases hi.cases with ⟨args, rfl⟩ | ⟨args, rfl⟩
  · exact hturn args _ _ hi (ifconfig_turn M args timeout input t) ht
  · rw [pfctl_settings M]
    exact ht

/-! ## 2. The lock -/

/-- An ifconfig(8) on a member, whose effect `f` is known. -/
theorem member_run (M : Machine run host) (args : List String) {t : σ} {h' : Host}
    (hargs : (host t).ifconfig args = (host t).ofMember b m h') :
    (((run (IFCONFIG :: args) none none).run t).1.ok = true ∧
        m ∈ (host t).kernel.membersOf b ∧ host ((run (IFCONFIG :: args) none none).run t).2 = h') ∨
      (((run (IFCONFIG :: args) none none).run t).1.ok = false ∧
        host ((run (IFCONFIG :: args) none none).run t).2 = host t) := by
  cases hok : ((run (IFCONFIG :: args) none none).run t).1.ok with
  | true =>
    obtain ⟨hm, hh⟩ := Host.of_member (hargs.symm.trans (M.effect args none none t hok))
    exact Or.inl ⟨rfl, hm, hh.symm⟩
  | false => exact Or.inr ⟨rfl, M.failure args none none t hok⟩

/-- The lock of `m`, issued at `s`, does not stop between its static MAC and the two settings
the planner does not look at, unless they are in place already. -/
def Finishes (run : Runner σ) (host : σ → Host) (b m mac : String) (s : σ) : Prop :=
  let static := (run [IFCONFIG, b, "static", m, mac] none none).run s
  let ifmaxaddr := (run [IFCONFIG, b, "ifmaxaddr", m, "1"] none none).run static.2
  let sticky := (run [IFCONFIG, b, "sticky", m] none none).run ifmaxaddr.2
  static.1.ok = true →
    (ifmaxaddr.1.ok = true ∨ (settingsAt host b m s).capped = true) ∧
      ((ifmaxaddr.1.ok = true ∧ sticky.1.ok = true) ∨ (settingsAt host b m s).sticky = true)

/-- A lock runs its invocations in turn. -/
theorem apply_lock : (apply run false (.lockMemberMac b m mac)).run s =
    (runLock run (.lockMemberMac b m mac) (argvFor (.lockMemberMac b m mac))
      (lockArgvs b m mac)).run s := rfl

/-- What a lock leaves: the settings it found, or the three of them as far as it got. -/
theorem lock_run (M : Machine run host) (b m mac : String) (s : σ) :
    (((apply run false (.lockMemberMac b m mac)).run s).1.ok = true →
        (settingsAt host b m ((apply run false (.lockMemberMac b m mac)).run s).2).Locked mac) ∧
      (settingsAt host b m ((apply run false (.lockMemberMac b m mac)).run s).2 =
          settingsAt host b m s ∨
        (Finishes run host b m mac s →
          (settingsAt host b m
            ((apply run false (.lockMemberMac b m mac)).run s).2).Locked mac)) := by
  rw [apply_lock]
  unfold lockArgvs
  rw [runLock_cons]
  unfold Finishes
  rcases member_run M (b := b) (m := m) (t := s) [b, "static", m, mac] rfl with
    ⟨hok, hm, hh⟩ | ⟨hok, hh⟩
  swap
  · -- nothing was set
    rw [if_neg (by rw [hok]; decide)]
    refine ⟨fun h => ?_, Or.inl (by unfold settingsAt; rw [hh])⟩
    rw [receiptOf_ok, hok] at h
    exact absurd h (by decide)
  -- the static MAC is set from here on, and `Finishes` says what follows
  rw [if_pos hok, runLock_cons]
  generalize hs₁ : ((run [IFCONFIG, b, "static", m, mac] none none).run s).2 = s₁ at hh ⊢
  have he₁ : settingsAt host b m s₁ =
      ⟨true, some mac, (settingsAt host b m s).capped, (settingsAt host b m s).sticky⟩ := by
    unfold settingsAt
    rw [hh, Host.settings_setStatic, if_pos ⟨rfl, rfl⟩]
    simp [Host.settings, hm]
  rcases member_run M (b := b) (m := m) (t := s₁) [b, "ifmaxaddr", m, "1"] rfl with
    ⟨hok₁, -, hh₁⟩ | ⟨hok₁, hh₁⟩
  swap
  · -- stopped after the static MAC: both settings were in place
    rw [if_neg (by rw [hok₁]; decide)]
    refine ⟨fun h => ?_, Or.inr fun hfin => ?_⟩
    · rw [receiptOf_ok, hok₁] at h
      exact absurd h (by decide)
    · obtain ⟨hcap, hst⟩ := hfin hok
      rw [hs₁, hok₁] at hcap hst
      show (host _).settings b m = _
      rw [hh₁]
      show settingsAt host b m s₁ = _
      rw [he₁, hcap.resolve_left (by decide), hst.resolve_left fun h => absurd h.1 (by decide)]
  rw [if_pos hok₁, runLock_cons]
  generalize hs₂ : ((run [IFCONFIG, b, "ifmaxaddr", m, "1"] none none).run s₁).2 = s₂ at hh₁ ⊢
  have he₂ : settingsAt host b m s₂ =
      ⟨true, some mac, true, (settingsAt host b m s).sticky⟩ := by
    have hcap : settingsAt host b m s₂ = { settingsAt host b m s₁ with capped := true } := by
      unfold settingsAt
      rw [hh₁, Host.settings_setCapped, if_pos ⟨rfl, rfl⟩]
    rw [hcap, he₁]
  rcases member_run M (b := b) (m := m) (t := s₂) [b, "sticky", m] rfl with
    ⟨hok₂, -, hh₂⟩ | ⟨hok₂, hh₂⟩
  · rw [if_pos hok₂]
    have hfull : (settingsAt host b m
        ((run [IFCONFIG, b, "sticky", m] none none).run s₂).2).Locked mac := by
      show (host _).settings b m = _
      rw [hh₂, Host.settings_setSticky, if_pos ⟨rfl, rfl⟩]
      show { settingsAt host b m s₂ with sticky := true } = _
      rw [he₂]
    exact ⟨fun _ => hfull, Or.inr fun _ => hfull⟩
  · -- stopped before stickiness, which was in place
    rw [if_neg (by rw [hok₂]; decide)]
    refine ⟨fun h => ?_, Or.inr fun hfin => ?_⟩
    · rw [receiptOf_ok, hok₂] at h
      exact absurd h (by decide)
    · obtain ⟨-, hst⟩ := hfin hok
      rw [hs₁, hs₂, hok₂] at hst
      show (host _).settings b m = _
      rw [hh₂]
      show settingsAt host b m s₂ = _
      rw [he₂, hst.resolve_left fun h => absurd h.2 (by decide)]

end

/-! ## 3. Which op an invocation is of -/

section

open Settings

variable {x : Op} {args : List String} {b m mac : String}

/-- What an invocation on `b` says of its op. -/
theorem issues_on {word : String} {rest : List String}
    (h : Issues x (IFCONFIG :: b :: word :: rest)) :
    word = "create" ∨ word = "maxaddr" ∨
      (word = "addm" ∧ ∃ m, rest = [m] ∧ x = .addMember b m) ∨
      (word = "deletem" ∧ ∃ m, rest = [m] ∧ x = .removeMember b m) ∨
      (word = "destroy" ∧ (x = .destroyIface b ∨ x = .destroyBridge b)) ∨
      ∃ m mac, x = .lockMemberMac b m mac ∧
        ((word = "static" ∧ rest = [m, mac]) ∨ word = "ifmaxaddr" ∨ word = "sticky") := by
  generalize hargv : IFCONFIG :: b :: word :: rest = argv at h
  have hne : IFCONFIG ≠ PFCTL := by decide
  cases h with
  | own x =>
    cases x with
    | replaceTable n t ms =>
      obtain ⟨args, hargs⟩ := argvFor_replaceTable n t ms
      rw [hargs] at hargv
      exact absurd (List.cons.inj hargv).1 hne
    | loadAnchor n f r c => exact absurd (List.cons.inj hargv).1 hne
    | flushAnchor n => exact absurd (List.cons.inj hargv).1 hne
    | addMember b' m =>
      simp only [argvFor, List.cons.injEq, true_and] at hargv
      obtain ⟨rfl, rfl, rfl⟩ := hargv
      simp
    | removeMember b' m =>
      simp only [argvFor, List.cons.injEq, true_and] at hargv
      obtain ⟨rfl, rfl, rfl⟩ := hargv
      simp
    | lockMemberMac b' m mac =>
      simp only [argvFor, List.cons.injEq, true_and] at hargv
      obtain ⟨rfl, rfl, rfl⟩ := hargv
      simp
    | destroyIface n =>
      simp only [argvFor, List.cons.injEq, true_and] at hargv
      obtain ⟨rfl, rfl, -⟩ := hargv
      simp
    | destroyBridge n =>
      simp only [argvFor, List.cons.injEq, true_and] at hargv
      obtain ⟨rfl, rfl, -⟩ := hargv
      simp
    | setMaxaddr b' v =>
      simp only [argvFor, List.cons.injEq, true_and] at hargv
      exact Or.inr (Or.inl hargv.2.1)
    | createBridge n v => exact Or.inl (List.cons.inj (List.cons.inj (List.cons.inj hargv).2).2).1
    | createVlan n p v => exact Or.inl (List.cons.inj (List.cons.inj (List.cons.inj hargv).2).2).1
    | createVxlan n v l p => exact Or.inl (List.cons.inj (List.cons.inj (List.cons.inj hargv).2).2).1
    | createTap n d => exact Or.inl (List.cons.inj (List.cons.inj (List.cons.inj hargv).2).2).1
  | lock h =>
    rename_i b' m mac
    rw [← hargv] at h
    simp only [lockArgvs, List.mem_cons, List.cons.injEq, true_and, List.not_mem_nil,
      or_false] at h
    rcases h with ⟨rfl, rfl, rfl⟩ | ⟨rfl, rfl, -⟩ | ⟨rfl, rfl, -⟩
    · simp
    · simp
    · simp
  | recheckIface n => simp at hargv
  | recheckBridge n => simp at hargv
  | list x => exact absurd (List.cons.inj hargv).1 hne
  | kill x id => exact absurd (List.cons.inj hargv).1 hne
  | reread n => exact absurd (List.cons.inj hargv).1 hne

theorem issues_static (h : Issues x [IFCONFIG, b, "static", m, mac]) :
    x = .lockMemberMac b m mac := by
  simpa using issues_on h

theorem issues_addm (h : Issues x [IFCONFIG, b, "addm", m]) : x = .addMember b m := by
  simpa using issues_on h

theorem issues_drops (h : Issues x (IFCONFIG :: args)) (hd : Drops args b m) :
    x = .removeMember b m ∨ ∃ n, x = .destroyIface n ∨ x = .destroyBridge n := by
  rcases hd with rfl | rfl | rfl
  · exact Or.inl (by simpa using issues_on h)
  · exact Or.inr ⟨b, by simpa using issues_on h⟩
  · exact Or.inr ⟨m, by simpa using issues_on h⟩

end

end Writer

namespace Reconcile

open Writer Settings

/-! ## 4. A pass on a machine -/

section

variable {σ : Type} {run : Runner σ} {host : σ → Host} {s : σ} {b m mac : String}

/-- A lock does not stop half way. -/
def Unbroken (run : Runner σ) (host : σ → Host) (s : σ) (x : Op) : Prop :=
  ∀ b m mac, x = .lockMemberMac b m mac → Finishes run host b m mac s

/-- An op keeps settings complete, unless it is a lock that stops half way. -/
theorem complete_apply (M : Machine run host) {x : Op}
    (hfin : Unbroken run host s x)
    (hc : (settingsAt host b m s).Complete) :
    (settingsAt host b m (afterOp run s x)).Complete := by
  unfold afterOp
  by_cases hx : ∃ mac, x = .lockMemberMac b m mac
  · obtain ⟨mac, rfl⟩ := hx
    rcases (lock_run M b m mac s).2 with hsame | hfull
    · rw [hsame]
      exact hc
    · intro mac' hl
      have hlocked := hfull (hfin b m mac rfl)
      rw [hlocked] at hl ⊢
      obtain rfl := Option.some.inj hl
      rfl
  · refine apply_settings M (P := Settings.Complete) ?_ hc
    intro args e e' hi ht he
    refine he.turn ht fun mac hargs => ?_
    subst hargs
    exact absurd ⟨mac, issues_static hi⟩ hx

/-- A locked member stays locked under every op that neither takes it off nor locks it anew. -/
theorem locked_apply (M : Machine run host) {x : Op} (hr : x ≠ .removeMember b m)
    (hd : ∀ n, x ≠ .destroyIface n ∧ x ≠ .destroyBridge n)
    (hlock : ∀ mac', x = .lockMemberMac b m mac' → mac' = mac)
    (hl : (settingsAt host b m s).Locked mac) :
    (settingsAt host b m (afterOp run s x)).Locked mac := by
  refine apply_settings M (P := fun e => e.Locked mac) ?_ hl
  intro args e e' hi ht he
  refine he.turn ht (fun hdrop => ?_) fun mac' hargs => ?_
  · rcases issues_drops hi hdrop with hx | ⟨n, hx | hx⟩
    · exact hr hx
    · exact (hd n).1 hx
    · exact (hd n).2 hx
  · subst hargs
    exact hlock mac' (issues_static hi)

/-- A teardown leaves a locked member locked, or takes it off. -/
theorem teardown_apply (M : Machine run host) {x : Op} (hj : x ≠ .addMember b m)
    (hlock : ∀ mac', x ≠ .lockMemberMac b m mac')
    (hl : (settingsAt host b m s).present = true → (settingsAt host b m s).Locked mac) :
    (settingsAt host b m (afterOp run s x)).present = true →
      (settingsAt host b m (afterOp run s x)).Locked mac := by
  refine apply_settings M (P := fun e => e.present = true → e.Locked mac) ?_ hl
  intro args e e' hi ht he
  refine ht.present_locked he (fun hargs => ?_) fun mac' hargs => ?_
  · subst hargs
    exact hj (issues_addm hi)
  · subst hargs
    exact hlock mac' (issues_static hi)

end

/-! ## 5. A history -/

section

variable [Hashlib] {σ : Type} {run : Runner σ} {host : σ → Host} {s s₀ : σ} {config : Config}
  {pf : Option PfState} {plan : Plan}

/-- A history in which every pass sees the kernel as it is, and nothing between the passes
touches the host. -/
abbrev LockHistory (run : Runner σ) (host : σ → Host) (R : σ → Op → Prop) (s₀ s : σ) : Prop :=
  History run (fun t kernel => kernel = (host t).kernel) (fun t t' => host t' = host t) R s₀ s

/-- The phases before the destroys. -/
def front (plan : Plan) : List Op := plan.creates ++ plan.removes ++ plan.adds

theorem front_keeps (hplan : Planner.diff config (host s).kernel pf = .ok plan) {x : Op}
    (hx : x ∈ front plan) (n : String) : x ≠ .destroyIface n ∧ x ≠ .destroyBridge n := by
  obtain ⟨parts, hparts, rfl⟩ := Planner.diff_ok hplan
  rcases List.mem_append.mp hx with hx | hx
  · rcases List.mem_append.mp hx with hx | hx
    · obtain ⟨b, br, -, hcr⟩ := (Planner.mem_creates hparts).mp hx
      rcases hcr with ⟨-, rfl⟩ | ⟨_, _, -, -, -, rfl⟩ | ⟨_, _, _, -, -, -, -, -, rfl⟩ |
        ⟨_, _, _, _, -, -, -, -, rfl⟩ <;> simp
    · rcases Planner.mem_removes hparts hx with ⟨b, m, rfl, -⟩ | ⟨n', rfl, -⟩ <;> simp
  · obtain ⟨b, br, -, had⟩ := (Planner.mem_adds hparts).mp hx
    rcases had with ⟨m, member, -, ⟨rfl, -⟩ | ⟨rfl, -⟩ | ⟨rfl, -⟩ | ⟨t, ms, rfl, -⟩ |
      ⟨bd, -, -, rfl⟩⟩ | ⟨n', -, rfl⟩ <;> simp [Planner.loadFor]

theorem destroys_only (hplan : Planner.diff config (host s).kernel pf = .ok plan) {x : Op}
    (hx : x ∈ plan.destroys) :
    ∃ n, x = .destroyIface n ∨ x = .destroyBridge n ∨ x = .flushAnchor n := by
  obtain ⟨parts, hparts, rfl⟩ := Planner.diff_ok hplan
  rcases (Planner.mem_destroys hparts).mp hx with ⟨n, -, rfl⟩ | ⟨n, -, rfl | ⟨rfl, -⟩⟩
  · exact ⟨n, Or.inr (Or.inl rfl)⟩
  · exact ⟨n, Or.inl rfl⟩
  · exact ⟨n, Or.inr (Or.inr rfl)⟩

/-- Settings are complete in every state of a history in which no lock stops half way. -/
theorem complete_of_history (M : Machine run host)
    (hist : LockHistory run host (Unbroken run host) s₀ s)
    (h₀ : ∀ b m, (settingsAt host b m s₀).Complete) (b m : String) :
    (settingsAt host b m s).Complete := by
  refine hist.keeps (I := fun t => (settingsAt host b m t).Complete) (h₀ b m) ?_ ?_
  · intro t x hR ht
    exact complete_apply M hR ht
  · intro t t' hsame ht
    unfold settingsAt
    rw [hsame]
    exact ht

/-- **A lock that failed is retried**, as long as no lock stopped half way: after a pass whose
every receipt is ok, a bound member of its bridge has all three settings. -/
theorem locked_of_all_ok (M : Machine run host) (h₀ : ∀ b m, (settingsAt host b m s₀).Complete)
    (hist : LockHistory run host (Unbroken run host) s₀ s)
    (hplan : Planner.diff config (host s).kernel pf = .ok plan)
    (hok : ∀ r ∈ ((applyPlan run false plan).run s).1, r.ok = true) {b m : String} {br : Bridge}
    {member : Member} {bd : Bind} (hb : (b, br) ∈ config.bridge.entries)
    (hm : (m, member) ∈ br.member.entries) (hbind : member.bind = some bd)
    (hin : m ∈ (host ((applyPlan run false plan).run s).2).kernel.membersOf b) :
    (settingsAt host b m ((applyPlan run false plan).run s).2).Locked bd.mac := by
  have hmac : ∀ mac, .lockMemberMac b m mac ∈ plan.ops → mac = bd.mac := by
    intro mac hx
    obtain ⟨br', member', bd', hb', hm', hbind', -, rfl⟩ := (Planner.mem_ops hplan).mp hx
    obtain rfl := Dict.entry_unique hb hb'
    obtain rfl := Dict.entry_unique hm hm'
    rw [hbind] at hbind'
    rw [Option.some.inj hbind']
  have hops : plan.ops = front plan ++ plan.destroys := rfl
  have hbefore := all_ok_iff.mp hok
  rw [hops, before_append] at hbefore
  obtain ⟨hfront, hdestroys⟩ := hbefore
  -- the member is locked before anything is torn down
  have hlocked : (settingsAt host b m
      ((front plan).foldl (afterOp run) s)).Locked bd.mac := by
    refine hfront.attains (Q := fun t => (settingsAt host b m t).Locked bd.mac) ?_ ?_
    · intro x hx t _ ht
      have hin : x ∈ plan.ops := List.mem_append_left _ hx
      refine locked_apply M ?_ (front_keeps hplan hx) (fun mac' hxl => hmac mac' (hxl ▸ hin)) ht
      rintro rfl
      obtain ⟨-, ⟨br', hb', hc⟩ | ⟨hun, -⟩⟩ := (Planner.mem_ops hplan).mp hin
      · obtain rfl := Dict.entry_unique hb hb'
        exact hc (List.mem_append_right _ (Dict.mem_of_entry hm))
      · exact hun (Dict.mem_of_entry hb)
    · by_cases hl : (host s).kernel.staticLock b m = some bd.mac
      · exact Or.inl (complete_of_history M hist h₀ b m bd.mac hl)
      · refine Or.inr ⟨.lockMemberMac b m bd.mac, ?_, fun t hr => (lock_run M b m bd.mac t).1 hr⟩
        have hissued : .lockMemberMac b m bd.mac ∈ plan.ops :=
          (Planner.mem_ops hplan).mpr ⟨br, member, bd, hb, hm, hbind, hl, rfl⟩
        rcases List.mem_append.mp hissued with hx | hx
        · exact hx
        · obtain ⟨n, hx | hx | hx⟩ := destroys_only hplan hx <;> exact absurd hx (by simp)
  have hend : (settingsAt host b m ((applyPlan run false plan).run s).2).present = true →
      (settingsAt host b m ((applyPlan run false plan).run s).2).Locked bd.mac := by
    rw [run_applyPlan, hops, List.foldl_append]
    refine hdestroys.keeps (Q := fun t => (settingsAt host b m t).present = true →
      (settingsAt host b m t).Locked bd.mac) (fun _ => hlocked) fun x hx t _ ht => ?_
    obtain ⟨n, rfl | rfl | rfl⟩ := destroys_only hplan hx
    · exact teardown_apply M (by simp) (by simp) ht
    · exact teardown_apply M (by simp) (by simp) ht
    · exact teardown_apply M (by simp) (by simp) ht
  exact hend (decide_eq_true hin)

end

/-! ## 6. A lock that stopped after its first command -/

/-- The bound tap of port `0`. -/
def boundMember : Member :=
  { type := some .tap, bind := some { mac := "aa:bb:cc:dd:ee:01", address := "10.0.0.7" } }

def boundBridge : Bridge := { member := ⟨[("tap0", boundMember)], by decide⟩ }

def boundConfig : Config := { bridge := ⟨[("pbaaa", boundBridge)], by decide⟩ }

/-- The tap is in its bridge, unlocked. -/
def boundHost : Host :=
  { kernel := {
      interfaces := ⟨[
        ("pbaaa", { name := "pbaaa", groups := ["bridge", OWNED_GROUP], members := ["tap0"] }),
        ("tap0", { name := "tap0", groups := ["tap", OWNED_GROUP] })], by decide⟩
      owned := ["pbaaa", "tap0"] } }

def boundLock : Op := .lockMemberMac "pbaaa" "tap0" "aa:bb:cc:dd:ee:01"

theorem diff_bound : @Planner.diff ⟨id⟩ boundConfig boundHost.kernel none =
    .ok { adds := [boundLock] } := rfl

theorem bound_complete (script : List Bool) (b m : String) :
    (settingsAt Prod.fst b m (boundHost, script)).Complete := by
  intro mac hl
  exact absurd hl (by simp [settingsAt, Host.settings, Host.lock, KernelInterfaces.staticLock,
    KernelInterfaces.lockIn, boundHost])

/-- The lock of the first pass takes its first command only. -/
def halfState : Host × List Bool :=
  ((applyPlan Machine.scripted false { adds := [boundLock] }).run (boundHost, [true, false])).2

theorem diff_half : @Planner.diff ⟨id⟩ boundConfig halfState.1.kernel none = .ok {} := rfl

/-- A lock that stopped half way is not retried. -/
theorem half_lock_forgotten : ¬ ∀ (inst : Hashlib) (σ : Type) (run : Runner σ) (host : σ → Host)
    (s₀ s : σ) (config : Config) (pf : Option PfState) (plan : Plan) (b m : String) (br : Bridge)
    (member : Member) (bd : Bind),
    Machine run host → (∀ b m, (settingsAt host b m s₀).Complete) →
    @LockHistory inst σ run host (fun _ _ => True) s₀ s →
    @Planner.diff inst config (host s).kernel pf = .ok plan →
    (∀ r ∈ ((applyPlan run false plan).run s).1, r.ok = true) →
    (b, br) ∈ config.bridge.entries → (m, member) ∈ br.member.entries →
    member.bind = some bd →
    m ∈ (host ((applyPlan run false plan).run s).2).kernel.membersOf b →
    (settingsAt host b m ((applyPlan run false plan).run s).2).Locked bd.mac := by
  intro h
  have hlocked := h ⟨id⟩ _ Machine.scripted Prod.fst (boundHost, [true, false]) halfState
    boundConfig none {} "pbaaa" "tap0" boundBridge boundMember _ Machine.scripted_machine
    (bound_complete _) (@History.pass _ ⟨id⟩ _ _ _ _ _ _ boundConfig _ none _
      (@History.start _ ⟨id⟩ _ _ _ _ _) rfl diff_bound ⟨trivial, trivial⟩)
    diff_half (fun r hr => absurd hr List.not_mem_nil) List.mem_cons_self List.mem_cons_self rfl
    (by decide)
  have hcapped := congrArg Settings.capped hlocked
  exact absurd hcapped (by decide)

/-- The lock fails at once, and the next pass makes it. -/
def retryState : Host × List Bool :=
  ((applyPlan Machine.scripted false { adds := [boundLock] }).run (boundHost, [false])).2

theorem diff_retry : @Planner.diff ⟨id⟩ boundConfig retryState.1.kernel none =
    .ok { adds := [boundLock] } := rfl

theorem locked_of_all_ok_retry :
    (settingsAt Prod.fst "pbaaa" "tap0" ((applyPlan Machine.scripted false
      { adds := [boundLock] }).run retryState).2).Locked "aa:bb:cc:dd:ee:01" := by
  have hunbroken : Before (afterOp Machine.scripted) (Unbroken Machine.scripted Prod.fst)
      [boundLock] (boundHost, [false]) := by
    refine ⟨?_, trivial⟩
    intro b m mac hx
    obtain ⟨rfl, rfl, rfl⟩ := Op.lockMemberMac.inj hx
    intro hok
    exact absurd hok (by decide)
  refine @locked_of_all_ok ⟨id⟩ _ Machine.scripted Prod.fst retryState (boundHost, [false])
    boundConfig none _ Machine.scripted_machine (bound_complete _)
    (@History.pass _ ⟨id⟩ _ _ _ _ _ _ boundConfig _ none _
      (@History.start _ ⟨id⟩ _ _ _ _ _) rfl diff_bound hunbroken) diff_retry ?_ "pbaaa"
      "tap0" boundBridge boundMember _
    List.mem_cons_self List.mem_cons_self rfl (by decide)
  decide

end Reconcile

end Bsdbridge
