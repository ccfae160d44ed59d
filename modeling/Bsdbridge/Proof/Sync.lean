import Bsdbridge.Lib.Except
import Bsdbridge.Proof.Intake

/-!
# Runs of a pass

`step_moved` says once what a step of a pass can do; every invariant of a pass is read off it. The
locals of a pass are fixed when its reply is read and never change after, so what they say at its
end is what the reply said (`work_iff`).

The step function of `L2Agent/Agent` is written the way the source is: a match on where the pass
stands and on what arrives, with the code of `_sync` inside. `Moved` is the same step as a
relation, with one constructor for each way the pass can go on, and with the facts that invariants
ask about (which locals, which devices, dirty or not) in its arguments. A proof about passes does
cases on `Moved` and never opens `step`.

Runs come in two lengths. Here a run is one pass, from its scan to its rebuild or to the exception
that ends it; the daemon, which runs pass after pass, is in `Proof/Misses`. `run_keeps` is the
induction for the first: it hands the step's place in the run to whoever needs to say that the
event was the one that counts.
-/

set_option autoImplicit false

namespace Bsdbridge

/-- The locals of a pass, once its details are in. -/
def Pc.work : Pc → Option Work
  | .fetchingGroups w | .reconciling w _ _ | .reporting w _ | .done w => some w
  | .scanning | .fetching _ | .aborted => none

/-- A pass that has not ended. -/
def Pc.live : Pc → Prop
  | .done _ | .aborted => False
  | _ => True

namespace Sync

/-! ## 1. What a step can do

The awkward case is the reply of a pass: with no groups to ask for it is built from at once, and
what is built may be refused. `Opened` and the constructors `unbuilt` and `refused` are those
ways out. -/

/-- Waiting for the groups, or for the reconcile of what was built from the details. -/
inductive Opened (w : Work) : Pc → Prop
  | groups : Opened w (.fetchingGroups w)
  | built (config : Config) {rendered : List String} :
      (∀ d ∈ rendered, d ∈ w.ourDevices) → Opened w (.reconciling w config rendered)

/-- What a step of a pass can do. -/
inductive Moved (s : State) : Event → State → Prop
  | called (c : Callback) : s.pc.live → Moved s (.callback c) ⟨s.agent.callback c, s.pc⟩
  | ended {e : Event} : s.pc.live →
      (e = .raised ∨ (∃ info, e = .groups info) ∨ ∃ result, e = .reconciled result) →
      Moved s e ⟨s.agent.retry, .aborted⟩
  /-- Nothing is asked about, and what the agent would build is no config. -/
  | unbuilt {found : Finset String} : s.pc = .scanning → Moved s (.scanned found)
      ⟨{ s.agent with candidates := s.agent.candidates ∪ found, dirty := true }, .aborted⟩
  /-- The reply is read, and what it builds without the security groups is no config. -/
  | refused {devices : List String} {reply : Reply} : s.pc = .fetching devices →
      Moved s (.details reply) ⟨(s.agent.receive reply).agent.retry, .aborted⟩
  | asked {found : Finset String} {devices : List String} : s.pc = .scanning → devices.Nodup →
      (∀ d, d ∈ devices ↔ d ∈ s.agent.candidates ∪ found) →
      Moved s (.scanned found)
        ⟨{ s.agent with candidates := s.agent.candidates ∪ found }, .fetching devices⟩
  | idle {found : Finset String} {pc : Pc} : s.pc = .scanning →
      s.agent.candidates ∪ found = ∅ → Opened ⟨[], [], ∅⟩ pc → Moved s (.scanned found)
        ⟨{ s.agent with candidates := s.agent.candidates ∪ found }, pc⟩
  | answered {devices : List String} {reply : Reply} {pc : Pc} : s.pc = .fetching devices →
      Opened ⟨devices, (s.agent.receive reply).details, (s.agent.receive reply).pending⟩ pc →
      Moved s (.details reply) ⟨(s.agent.receive reply).agent, pc⟩
  | grouped {w : Work} (info : SgInfo) {pc : Pc} : s.pc = .fetchingGroups w → Opened w pc →
      Moved s (.groups info) ⟨s.agent, pc⟩
  | settled {w : Work} {config : Config} {rendered : List String} (result : Reconcile.Result)
      {up : Finset String} : s.pc = .reconciling w config rendered → (∀ d ∈ up, d ∈ rendered) →
      Moved s (.reconciled result) ⟨s.agent, .reporting w up⟩
  | unreported {w : Work} {config : Config} {rendered : List String}
      (result : Reconcile.Result) {up : Finset String} :
      s.pc = .reconciling w config rendered → (∀ d ∈ up, d ∈ rendered) →
      Moved s (.reconciled result) ⟨finish s.agent w up, .done w⟩
  | reported {w : Work} {up : Finset String} : s.pc = .reporting w up →
      Moved s .reported ⟨finish s.agent w up, .done w⟩

theorem mem_nowUp {rendered notes : List String} {d : String} (h : d ∈ nowUp rendered notes) :
    d ∈ rendered :=
  (List.mem_filter.mp (List.mem_toFinset.mp h)).1

section

variable [Hashlib] {mappings : Dict String String}

variable (mappings) in
theorem desire_cases (a : Agent) (w : Work) (info : SgInfo) :
    (∃ pc, Opened w pc ∧ desire mappings a w info = ⟨a, pc⟩) ∨
      desire mappings a w info = ⟨a.retry, .aborted⟩ := by
  unfold desire
  cases hb : PortConfig.build w.details info mappings with
  | error e => exact Or.inr rfl
  | ok r =>
    obtain ⟨config, rendered⟩ := r
    refine Or.inl ⟨_, .built config fun d hd => ?_, rfl⟩
    obtain ⟨config', -, heq⟩ := Except.bind_eq_ok.mp hb
    obtain ⟨-, rfl⟩ := Prod.mk.inj (Except.pure_eq_ok.mp heq)
    exact (mem_sortedBy).mp hd

variable (mappings) in
theorem resolve_cases (a : Agent) (w : Work) :
    (∃ pc, Opened w pc ∧ resolve mappings a w = ⟨a, pc⟩) ∨
      resolve mappings a w = ⟨a.retry, .aborted⟩ := by
  unfold resolve
  split
  · exact desire_cases mappings a w {}
  · exact Or.inl ⟨_, .groups, rfl⟩

theorem step_moved {s s' : State} {e : Event} (h : step mappings s e = some s') :
    Moved s e s' := by
  obtain ⟨a, pc⟩ := s
  unfold step at h
  split at h
  · exact absurd h (by simp)
  · exact absurd h (by simp)
  · rename_i hdone habort
    obtain rfl := Option.some.inj h
    refine .called _ ?_
    cases pc with
    | done w => exact absurd rfl (hdone w)
    | aborted => exact absurd rfl habort
    | _ => trivial
  · rename_i hdone habort
    obtain rfl := Option.some.inj h
    cases pc with
    | done w => exact absurd rfl (hdone w)
    | aborted => exact absurd rfl habort
    | _ => exact .ended trivial (.inl rfl)
  · rename_i found hpc
    obtain rfl := Option.some.inj h
    subst hpc
    -- the poll: with nothing to ask about, the RPC is not made and the pass goes on
    unfold snapshot
    dsimp only
    split
    · rename_i hempty
      rcases resolve_cases mappings
        { a with candidates := a.candidates ∪ found } ⟨[], [], ∅⟩ with ⟨pc, hpc, heq⟩ | heq
      · rw [heq]; exact .idle rfl hempty hpc
      · rw [heq]; exact .unbuilt rfl
    · exact .asked rfl (nodup_sortedSet _) fun d => mem_sortedSet
  · rename_i devices reply hpc
    obtain rfl := Option.some.inj h
    subst hpc
    -- the details reply
    unfold received
    dsimp only
    rcases resolve_cases mappings (a.receive reply).agent
      ⟨devices, (a.receive reply).details, (a.receive reply).pending⟩ with ⟨pc, hpc, heq⟩ | heq
    · rw [heq]; exact .answered rfl hpc
    · rw [heq]; exact .refused rfl
  · rename_i w info hpc
    obtain rfl := Option.some.inj h
    subst hpc
    dsimp only
    -- the security groups' reply
    rcases desire_cases mappings a w info with ⟨pc, hpc, heq⟩ | heq
    · rw [heq]; exact .grouped info rfl hpc
    · rw [heq]; exact .ended trivial (.inr (.inl ⟨info, rfl⟩))
  · rename_i w config rendered result hpc
    obtain rfl := Option.some.inj h
    subst hpc
    -- the reconcile has ended: an op may have failed, and the report may be empty
    unfold settle
    dsimp only
    split
    · exact .ended trivial (.inr (.inr ⟨result, rfl⟩))
    · split
      · exact .settled result rfl fun d hd => mem_nowUp hd
      · exact .unreported result rfl fun d hd => mem_nowUp hd
  · rename_i w up hpc
    obtain rfl := Option.some.inj h
    subst hpc
    exact .reported rfl
  · exact absurd h (by simp)

/-! ## 2. Runs

`Sound` is the invariant that every other one assumes: a query lists a device once, and what is
rendered belongs to the devices of the pass. -/

theorem run_append {s : State} {evs evs' : List Event} :
    run mappings s (evs ++ evs') = (run mappings s evs).bind fun t => run mappings t evs' := by
  unfold run
  rw [List.foldlM_append]
  rfl

theorem run_cons {s : State} {e : Event} {evs : List Event} :
    run mappings s (e :: evs) = (step mappings s e).bind fun t => run mappings t evs := by
  unfold run
  rw [List.foldlM_cons]
  rfl

theorem run_snoc {s s' : State} {evs : List Event} {e : Event} :
    run mappings s (evs ++ [e]) = some s' ↔
      ∃ t, run mappings s evs = some t ∧ step mappings t e = some s' := by
  rw [run_append, Option.bind_eq_some_iff]
  refine exists_congr fun t => and_congr_right fun _ => ?_
  rw [run_cons, Option.bind_eq_some_iff]
  constructor
  · rintro ⟨u, hu, heq⟩
    obtain rfl := Option.some.inj heq
    exact hu
  · exact fun h => ⟨s', h, rfl⟩

/-- What every step of a run keeps, each step known by where it stands in the run. -/
theorem run_keeps {I : State → Prop} {s s' : State} {evs : List Event}
    (hrun : run mappings s evs = some s') (hs : I s)
    (keep : ∀ pre e post t t', evs = pre ++ e :: post → run mappings s pre = some t →
      Moved t e t' → I t → I t') : I s' := by
  induction evs generalizing s with
  | nil =>
    obtain rfl := Option.some.inj hrun
    exact hs
  | cons e rest ih =>
    rw [run_cons, Option.bind_eq_some_iff] at hrun
    obtain ⟨t, hstep, hrest⟩ := hrun
    refine ih hrest (keep [] e rest s t rfl rfl (step_moved hstep) hs) fun pre x post u u' hsplit hu => ?_
    refine keep (e :: pre) x post u u' (by rw [hsplit]; rfl) ?_
    rw [run_cons, hstep]
    exact hu

/-- The queried devices are listed once, and what is up is among the pass's own devices. -/
def Sound (s : State) : Prop :=
  match s.pc with
  | .fetching devices => devices.Nodup
  | .reconciling w _ rendered => ∀ d ∈ rendered, d ∈ w.ourDevices
  | .reporting w up => ∀ d ∈ up, d ∈ w.ourDevices
  | _ => True

omit [Hashlib] in
theorem Opened.sound {w : Work} {pc : Pc} {a : Agent} (h : Opened w pc) : Sound ⟨a, pc⟩ := by
  cases h with
  | groups => trivial
  | built config hr => exact hr

omit [Hashlib] in
theorem Moved.sound {s s' : State} {e : Event} (h : Moved s e s') (hs : Sound s) : Sound s' := by
  cases h with
  | called c hl => exact hs
  | ended hl he => trivial
  | unbuilt hpc => trivial
  | refused hpc => trivial
  | asked hpc hnd hmem => exact hnd
  | idle hpc hempty hop => exact hop.sound
  | answered hpc hop => exact hop.sound
  | grouped info hpc hop => exact hop.sound
  | settled result hpc hup =>
    rw [Sound, hpc] at hs
    exact fun d hd => hs d (hup d hd)
  | unreported result hpc hup => trivial
  | reported hpc => trivial

/-- A run from the start of a pass is sound throughout. -/
theorem run_sound {s s' : State} {evs : List Event} (hrun : run mappings s evs = some s')
    (hstart : s.pc = .scanning) : Sound s' :=
  run_keeps hrun (by rw [Sound, hstart]; trivial) fun _ _ _ _ _ _ _ hm => hm.sound

/-! ## 3. The reply of a run

A run reads at most one details reply. Facts about the locals at the end of a pass can so be
moved back to the moment the reply was read, in the agent as it was there. -/

variable (mappings) in
/-- In some run the details reply was read in an agent, for a query, of which `R` holds. -/
def Replied (s : State) (evs : List Event) (R : Agent → List String → Reply → Prop) : Prop :=
  ∃ pre reply post t devices, evs = pre ++ .details reply :: post ∧
    run mappings s pre = some t ∧ t.pc = .fetching devices ∧ R t.agent devices reply

theorem replied_congr {s : State} {evs : List Event} {R R' : Agent → List String → Reply → Prop}
    (h : ∀ pre reply post t devices, evs = pre ++ .details reply :: post →
      run mappings s pre = some t → t.pc = .fetching devices →
      (R t.agent devices reply ↔ R' t.agent devices reply)) :
    Replied mappings s evs R ↔ Replied mappings s evs R' := by
  constructor
  · rintro ⟨pre, reply, post, t, devices, hsplit, ht, hpc, hR⟩
    exact ⟨pre, reply, post, t, devices, hsplit, ht, hpc,
      (h pre reply post t devices hsplit ht hpc).mp hR⟩
  · rintro ⟨pre, reply, post, t, devices, hsplit, ht, hpc, hR⟩
    exact ⟨pre, reply, post, t, devices, hsplit, ht, hpc,
      (h pre reply post t devices hsplit ht hpc).mpr hR⟩

theorem replied_snoc {s t : State} {evs : List Event} {e : Event}
    {R : Agent → List String → Reply → Prop} (hrun : run mappings s evs = some t) :
    Replied mappings s (evs ++ [e]) R ↔ Replied mappings s evs R ∨
      ∃ reply devices, e = .details reply ∧ t.pc = .fetching devices ∧
        R t.agent devices reply := by
  constructor
  · rintro ⟨pre, reply, post, u, devices, hsplit, hu, hpc, hR⟩
    rcases List.eq_nil_or_concat post with rfl | ⟨post', x, rfl⟩
    · obtain ⟨rfl, heq⟩ := List.append_inj' hsplit rfl
      obtain rfl := Option.some.inj (hrun.symm.trans hu)
      exact Or.inr ⟨reply, devices, (List.cons.inj heq).1, hpc, hR⟩
    · have hsplit' : evs ++ [e] = (pre ++ .details reply :: post') ++ [x] := by simpa using hsplit
      obtain ⟨rfl, -⟩ := List.append_inj' hsplit' rfl
      exact Or.inl ⟨pre, reply, post', u, devices, rfl, hu, hpc, hR⟩
  · rintro (⟨pre, reply, post, u, devices, rfl, hu, hpc, hR⟩ | ⟨reply, devices, rfl, hpc, hR⟩)
    · exact ⟨pre, reply, post ++ [e], u, devices, by simp, hu, hpc, hR⟩
    · exact ⟨evs, reply, [], t, devices, rfl, hrun, hpc, hR⟩

/-- What is true of the locals of a pass was made so by its reply. -/
theorem work_iff {H : Work → Prop} (hidle : ¬ H ⟨[], [], ∅⟩) {s s' : State} {evs : List Event}
    (hrun : run mappings s evs = some s') (hstart : s.pc = .scanning)
    (hlive : s'.pc ≠ .aborted) :
    (∃ w, s'.pc.work = some w ∧ H w) ↔ Replied mappings s evs fun a devices reply =>
      H ⟨devices, (a.receive reply).details, (a.receive reply).pending⟩ := by
  induction evs using List.reverseRecOn generalizing s' with
  | nil =>
    obtain rfl := Option.some.inj hrun
    refine iff_of_false ?_ ?_
    · rintro ⟨w, hw, -⟩
      rw [hstart] at hw
      exact absurd hw (by simp [Pc.work])
    · rintro ⟨pre, reply, post, t, devices, hsplit, -⟩
      exact absurd hsplit (by simp)
  | append_singleton evs e ih =>
    obtain ⟨t, ht, hstep⟩ := run_snoc.mp hrun
    have hmoved := step_moved hstep
    have htlive : t.pc ≠ .aborted := fun hpc => by
      unfold step at hstep
      rw [hpc] at hstep
      exact absurd hstep (by simp)
    rw [replied_snoc ht]
    have hih := ih ht htlive
    cases hmoved with
    | called c hl =>
      rw [← hih]
      simp
    | ended hl he => exact absurd rfl hlive
    | unbuilt hpc => exact absurd rfl hlive
    | refused hpc => exact absurd rfl hlive
    | asked hpc hnd hmem =>
      rw [← hih, hpc]
      simp [Pc.work]
    -- the locals of a pass that asked nothing are empty, so `H` fails of them by `hidle`
    | idle hpc hempty hop =>
      rw [← hih, hpc]
      refine iff_of_false ?_ (by simp [Pc.work])
      cases hop <;> simpa [Pc.work] using hidle
    -- the only step that makes the locals, and the reply they are made of is this one
    | answered hpc hop =>
      have hno : ¬ ∃ w, t.pc.work = some w ∧ H w := by rw [hpc]; simp [Pc.work]
      rw [← hih, hpc]
      cases hop <;> simp [Pc.work]
    | grouped info hpc hop =>
      rw [← hih, hpc]
      cases hop <;> simp [Pc.work]
    | settled result hpc hup =>
      rw [← hih, hpc]
      simp [Pc.work]
    | unreported result hpc hup =>
      rw [← hih, hpc]
      simp [Pc.work]
    | reported hpc =>
      rw [← hih, hpc]
      simp [Pc.work]

end

end Sync

end Bsdbridge
