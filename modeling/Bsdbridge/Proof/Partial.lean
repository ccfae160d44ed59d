import Bsdbridge.L2Agent.Reader
import Bsdbridge.Lib.Run
import Bsdbridge.Proof.View

/-!
# The partial read

A pass asks the kernel for less than it has: for the owned interfaces, for the names its config
claims, for the members of those, and for the anchors of its scope and those that are listed.
That is whatever the planner looks up, so the plan is the one of the whole kernel. What the
tools print is taken as given, in the terms of the parsers that read it.
-/

set_option autoImplicit false

namespace Bsdbridge

/-! ## 1. What the tools print -/

/-- The commands a pass reads with. -/
inductive Query : Argv → Prop
  | group : Query Ifconfig.groupArgv
  | iface (n : String) : Query (Ifconfig.ifaceArgv n)
  | addr (b : String) : Query (Ifconfig.addrArgv b)
  | anchors : Query Pf.anchorsArgv
  | rules (n : String) : Query (Pf.rulesArgv n)
  | tables (n : String) : Query (Pf.tablesArgv n)
  | table (n t : String) : Query (Pf.showArgv n t)

/-- To read changes nothing, and every query has one answer. -/
def ReadOnly {σ : Type} (run : Runner σ) (s : σ) (answer : Argv → RunResult) : Prop :=
  ∀ argv, Query argv → run argv none none s = (answer argv, s)

/-- The answers of `ifconfig` and `pfctl` show a kernel and its anchors. -/
structure Shows (answer : Argv → RunResult) (kernel : KernelInterfaces) (anchors : PfState) :
    Prop where
  /-- `ifconfig -g` lists the owned names. -/
  group : Ifconfig.parseGroupList (answer Ifconfig.groupArgv).out = kernel.owned
  /-- `ifconfig n` prints the block of `n`. -/
  iface : ∀ n i, kernel.interfaces.get? n = some i → (answer (Ifconfig.ifaceArgv n)).ok = true ∧
    (Ifconfig.parse (answer (Ifconfig.ifaceArgv n)).out).get? n = some i
  /-- Whatever it prints is true. -/
  only : ∀ n, (answer (Ifconfig.ifaceArgv n)).ok = true → ∀ k i,
    (Ifconfig.parse (answer (Ifconfig.ifaceArgv n)).out).get? k = some i →
      kernel.interfaces.get? k = some i
  /-- `ifconfig b addr` prints the address table of a bridge. -/
  addr : ∀ b i, kernel.interfaces.get? b = some i → i.isBridge = true →
    Ifconfig.parseAddrList (answer (Ifconfig.addrArgv b)).out = (kernel.addrs.get? b).getD []
  /-- `pfctl -sA` lists what is loaded under the port prefix. -/
  listing : ∀ n st, Planner.loadedAt anchors n = some st → (answer Pf.anchorsArgv).ok = true ∧
    n ∈ Pf.parseAnchorList (answer Pf.anchorsArgv).out
  /-- `pfctl -sr` prints the rules of a loaded anchor, and its hash with them. -/
  rules : ∀ n st, Planner.loadedAt anchors n = some st → (answer (Pf.rulesArgv n)).ok = true ∧
    Pf.parseRulesHash (answer (Pf.rulesArgv n)).out = st.cfgHash ∧
    Text.blank (answer (Pf.rulesArgv n)).out = false
  /-- Of any other it prints nothing, or fails. -/
  bare : ∀ n, Planner.loadedAt anchors n = none → (answer (Pf.rulesArgv n)).ok = true →
    Pf.parseRulesHash (answer (Pf.rulesArgv n)).out = none ∧
    Text.blank (answer (Pf.rulesArgv n)).out = true
  /-- `pfctl -sT` lists the tables of an anchor. -/
  tables : ∀ n st, Planner.loadedAt anchors n = some st → ∀ t,
    t ∈ Text.words (answer (Pf.tablesArgv n)).out ↔ t ∈ st.tables
  /-- `pfctl -T show` prints the members of a table. -/
  table : ∀ n st t ms, Planner.loadedAt anchors n = some st → st.tables.get? t = some ms →
    (answer (Pf.showArgv n t)).ok = true ∧
    Pf.parseTableShow (answer (Pf.showArgv n t)).out = ms

/-! ## 2. The loops, without the runner -/

theorem bind_readOnly {σ α β : Type} {x : StateM σ α} {f : α → StateM σ β} {s : σ} {a : α}
    (h : x s = (a, s)) : (x >>= f) s = f a s := by
  show (fun p : α × σ => f p.1 p.2) (x s) = _
  rw [h]

/-- A loop whose rounds leave the state alone. -/
theorem foldlM_readOnly {σ α δ : Type} {f : δ → α → StateM σ δ} {g : δ → α → δ} {s : σ}
    (h : ∀ d a, f d a s = (g d a, s)) (l : List α) (d : δ) :
    l.foldlM f d s = (l.foldl g d, s) := by
  induction l generalizing d with
  | nil => rfl
  | cons a t ih =>
    rw [List.foldlM_cons, List.foldl_cons]
    rw [bind_readOnly (h d a)]
    exact ih (g d a)

/-- A loop that writes what a key calls for has written it, where some element called. -/
theorem get?_foldl_insert {α β γ : Type} [DecidableEq α] {f : γ → α} {v : α → β}
    {p : γ → Bool} {l : List γ} {d : Dict α β} {k : α} :
    (l.foldl (fun d c => if p c then d.insert (f c) (v (f c)) else d) d).get? k =
      if ∃ c ∈ l, f c = k ∧ p c = true then some (v k) else d.get? k := by
  induction l generalizing d with
  | nil => simp
  | cons c t ih =>
    rw [List.foldl_cons, ih]
    simp only [List.exists_mem_cons_iff]
    by_cases ht : ∃ c ∈ t, f c = k ∧ p c = true
    · rw [if_pos ht, if_pos (Or.inr ht)]
    · rw [if_neg ht]
      by_cases hc : p c = true
      · rw [if_pos hc, Dict.get?_insert]
        by_cases hk : k = f c
        · rw [if_pos hk, if_pos (Or.inl ⟨hk.symm, hc⟩), hk]
        · rw [if_neg hk, if_neg]
          rintro (⟨hkc, -⟩ | hrest)
          · exact hk hkc.symm
          · exact ht hrest
      · rw [if_neg hc, if_neg]
        rintro (⟨-, hpc⟩ | hrest)
        · exact hc hpc
        · exact ht hrest

section

variable (answer : Argv → RunResult)

def queryBy (interfaces : Dict String Interface) (name : String) : Dict String Interface :=
  if name ∈ interfaces then interfaces
  else if (answer (Ifconfig.ifaceArgv name)).ok then
    interfaces.update (Ifconfig.parse (answer (Ifconfig.ifaceArgv name)).out)
  else interfaces

def queryAddrsBy (addrs : Dict String (List (String × String × Bool))) (e : String × Interface) :
    Dict String (List (String × String × Bool)) :=
  if e.2.isBridge then
    addrs.insert e.1 (Ifconfig.parseAddrList (answer (Ifconfig.addrArgv e.1)).out)
  else addrs

/-- The interfaces that are asked for by name. -/
def namedBy (names : List String) : Dict String Interface :=
  (Ifconfig.parseGroupList (answer Ifconfig.groupArgv).out ++ names).foldl (queryBy answer) ∅

/-- And their members. -/
def interfacesBy (names : List String) : Dict String Interface :=
  ((namedBy answer names).values.flatMap Interface.members).foldl (queryBy answer)
    (namedBy answer names)

def viewBy (names : List String) : KernelInterfaces where
  interfaces := interfacesBy answer names
  owned := Ifconfig.parseGroupList (answer Ifconfig.groupArgv).out
  addrs := (interfacesBy answer names).entries.foldl (queryAddrsBy answer) ∅

def tableBy (n : String) (tables : Dict String (Finset String)) (t : String) :
    Dict String (Finset String) :=
  if (answer (Pf.showArgv n t)).ok then
    tables.insert t (Pf.parseTableShow (answer (Pf.showArgv n t)).out)
  else tables

def anchorBy (n : String) : Pf.AnchorState :=
  let r := answer (Pf.rulesArgv n)
  if !r.ok || ((Pf.parseRulesHash r.out).isNone && Text.blank r.out) then { isLoaded := false }
  else
    { isLoaded := true, cfgHash := Pf.parseRulesHash r.out
      tables := (Text.words (answer (Pf.tablesArgv n)).out).foldl (tableBy answer n) ∅ }

def listedBy : List String :=
  if (answer Pf.anchorsArgv).ok then Pf.parseAnchorList (answer Pf.anchorsArgv).out else []

/-- The anchors a pass reads, of a scope. -/
def anchorsBy (scope : List String) : PfState :=
  (sortedSet (scope ++ listedBy answer).toFinset).foldl
    (fun (states : PfState) n => states.insert n (anchorBy answer n)) ∅

end

section

variable {σ : Type} {run : Runner σ} {s : σ} {answer : Argv → RunResult}
  (h : ReadOnly run s answer)

include h

theorem query_readOnly (d : Dict String Interface) (n : String) :
    Ifconfig.query run d n s = (queryBy answer d n, s) := by
  unfold Ifconfig.query queryBy
  by_cases hn : n ∈ d
  · rw [if_pos hn, if_pos hn]
    rfl
  · rw [if_neg hn, if_neg hn]
    rw [bind_readOnly (h _ (.iface n))]
    rfl

theorem queryAddrs_readOnly (d : Dict String (List (String × String × Bool)))
    (e : String × Interface) :
    Ifconfig.queryAddrs run d e s = (queryAddrsBy answer d e, s) := by
  unfold Ifconfig.queryAddrs queryAddrsBy
  by_cases he : e.2.isBridge = true
  · rw [if_pos he, if_pos he]
    rw [bind_readOnly (h _ (.addr e.1))]
    rfl
  · rw [if_neg he, if_neg he]
    rfl

theorem readInterfaces_readOnly (names : List String) :
    Ifconfig.readInterfaces run names s = (viewBy answer names, s) := by
  unfold Ifconfig.readInterfaces
  rw [bind_readOnly (h _ .group), bind_readOnly (foldlM_readOnly (query_readOnly h) _ _),
    bind_readOnly (foldlM_readOnly (query_readOnly h) _ _),
    bind_readOnly (foldlM_readOnly (queryAddrs_readOnly h) _ _)]
  rfl

theorem readTable_readOnly (n : String) (d : Dict String (Finset String)) (t : String) :
    Pf.readTable run n d t s = (tableBy answer n d t, s) := by
  unfold Pf.readTable
  rw [bind_readOnly (h _ (.table n t))]
  rfl

theorem readAnchor_readOnly (n : String) :
    Pf.readAnchor run n s = (anchorBy answer n, s) := by
  unfold Pf.readAnchor anchorBy
  rw [bind_readOnly (h _ (.rules n))]
  simp only
  split
  · rfl
  · rw [bind_readOnly (h _ (.tables n)),
      bind_readOnly (foldlM_readOnly (readTable_readOnly h n) _ _)]
    rfl

theorem pfReader_readOnly (scope : List String) :
    Reconcile.pfReader run scope s = (some (anchorsBy answer scope), s) := by
  have hlist : Pf.listAnchors run s = (listedBy answer, s) := by
    unfold Pf.listAnchors
    rw [bind_readOnly (h _ .anchors)]
    rfl
  have hround : ∀ (d : PfState) n, (do
      let state ← Pf.readAnchor run n
      pure (d.insert n state) : StateM σ PfState) s = (d.insert n (anchorBy answer n), s) := by
    intro d n
    rw [bind_readOnly (readAnchor_readOnly h n)]
    rfl
  unfold Reconcile.pfReader Pf.readAnchors
  rw [bind_readOnly hlist, bind_readOnly (foldlM_readOnly hround _ _)]
  rfl

end

/-! ## 3. What is read -/

/-- A dictionary that holds nothing but what the kernel has. -/
def Within (kernel : KernelInterfaces) (d : Dict String Interface) : Prop :=
  ∀ n i, d.get? n = some i → kernel.interfaces.get? n = some i

section

variable {answer : Argv → RunResult} {kernel : KernelInterfaces} {anchors : PfState}
  (h : Shows answer kernel anchors)

include h

theorem queryBy_within {d : Dict String Interface} (hd : Within kernel d) (n : String) :
    Within kernel (queryBy answer d n) := by
  unfold queryBy
  by_cases hn : n ∈ d
  · rw [if_pos hn]
    exact hd
  rw [if_neg hn]
  by_cases hok : (answer (Ifconfig.ifaceArgv n)).ok = true
  · rw [if_pos hok]
    intro k i hi
    rw [Dict.get?_update] at hi
    rcases Option.or_eq_some_iff.mp hi with hi | ⟨-, hi⟩
    · exact h.only n hok k i hi
    · exact hd k i hi
  · rw [if_neg hok]
    exact hd

/-- What the kernel has is there once it is asked for. -/
theorem mem_queryBy {d : Dict String Interface} {n : String} (hn : n ∈ kernel) :
    n ∈ queryBy answer d n := by
  obtain ⟨i, hi⟩ := Dict.mem_iff_get?.mp hn
  obtain ⟨hok, hparse⟩ := h.iface n i hi
  unfold queryBy
  by_cases hd : n ∈ d
  · rw [if_pos hd]
    exact hd
  · rw [if_neg hd, if_pos hok, Dict.mem_iff_get?]
    exact ⟨i, by rw [Dict.get?_update, hparse]; rfl⟩

omit h in
theorem queryBy_keeps {d : Dict String Interface} {k : String} (hk : k ∈ d) (n : String) :
    k ∈ queryBy answer d n := by
  obtain ⟨i, hi⟩ := Dict.mem_iff_get?.mp hk
  unfold queryBy
  split
  · exact hk
  · split
    · rw [Dict.mem_iff_get?]
      cases hp : (Ifconfig.parse (answer (Ifconfig.ifaceArgv n)).out).get? k with
      | none => exact ⟨i, by rw [Dict.get?_update, hp, hi]; rfl⟩
      | some j => exact ⟨j, by rw [Dict.get?_update, hp]; rfl⟩
    · exact hk

theorem queries_within {l : List String} {d : Dict String Interface} (hd : Within kernel d) :
    Within kernel (l.foldl (queryBy answer) d) :=
  foldl_keeps (Within kernel) hd fun n _ _ ht => queryBy_within h ht n

/-- Whatever is asked for is found, if it is there. -/
theorem queries_get? {l : List String} {d : Dict String Interface} (hd : Within kernel d)
    {n : String} (hn : n ∈ l ∨ n ∈ d) :
    (l.foldl (queryBy answer) d).get? n = kernel.interfaces.get? n := by
  have htrue := queries_within h (l := l) hd
  cases hk : kernel.interfaces.get? n with
  | none =>
    refine Dict.get?_eq_none.mpr fun hm => ?_
    obtain ⟨i, hi⟩ := Dict.mem_iff_get?.mp hm
    exact absurd ((htrue n i hi).symm.trans hk) (by simp)
  | some i =>
    have hmem : n ∈ l.foldl (queryBy answer) d := by
      refine foldl_attains (fun _ => True) (n ∈ ·) trivial (fun _ _ _ _ => trivial)
        (fun m _ d hm => queryBy_keeps hm m) ?_
      exact hn.symm.imp_right fun hn => ⟨n, hn, fun d _ => mem_queryBy h (Dict.mem_of_get? hk)⟩
    obtain ⟨j, hj⟩ := Dict.mem_iff_get?.mp hmem
    rw [hj, ← htrue n j hj, hk]

theorem named_within {names : List String} : Within kernel (namedBy answer names) :=
  queries_within h fun n i hi => absurd hi (by simp)

theorem named_get? {names : List String} {n : String} (hn : n ∈ kernel.owned ∨ n ∈ names) :
    (namedBy answer names).get? n = kernel.interfaces.get? n := by
  refine queries_get? h (fun n i hi => absurd hi (by simp)) (Or.inl ?_)
  rw [h.group, List.mem_append]
  exact hn

theorem view_within {names : List String} : Within kernel (interfacesBy answer names) :=
  queries_within h (named_within h)

/-- A name that is asked for is in the view, with its members. -/
theorem view_get? {names : List String} {n : String} (hn : n ∈ kernel.owned ∨ n ∈ names) :
    (interfacesBy answer names).get? n = kernel.interfaces.get? n ∧
      ∀ i m, (interfacesBy answer names).get? n = some i → m ∈ i.members →
        (interfacesBy answer names).get? m = kernel.interfaces.get? m := by
  have hnamed := named_get? h hn
  constructor
  · cases hk : kernel.interfaces.get? n with
    | some i =>
      rw [← hk]
      exact queries_get? h (named_within h) (Or.inr (Dict.mem_of_get? (hnamed.trans hk)))
    | none =>
      cases hv : (interfacesBy answer names).get? n with
      | none => rfl
      | some i => exact absurd ((view_within h n i hv).symm.trans hk) (by simp)
  · intro i m hi hm
    refine queries_get? h (named_within h) (Or.inl (List.mem_flatMap.mpr ⟨i, ?_, hm⟩))
    have hget : (namedBy answer names).get? n = some i := hnamed.trans (view_within h n i hi)
    exact List.mem_map.mpr ⟨(n, i), Dict.get?_eq_some.mp hget, rfl⟩

omit h in
theorem view_addrs {names : List String} {b : String} :
    (viewBy answer names).addrs.get? b =
      if ∃ e ∈ (interfacesBy answer names).entries, e.1 = b ∧ e.2.isBridge = true then
        some (Ifconfig.parseAddrList (answer (Ifconfig.addrArgv b)).out)
      else none :=
  get?_foldl_insert (v := fun b => Ifconfig.parseAddrList (answer (Ifconfig.addrArgv b)).out)

/-- A bridge that is asked for has its address table read, and one that is not there has
none. -/
theorem view_lock (hk : Planner.Consistent kernel) {names : List String} {b m : String}
    (hb : b ∈ names)
    (hbridge : ∀ i, (interfacesBy answer names).get? b = some i → i.isBridge = true) :
    (viewBy answer names).staticLock b m = kernel.staticLock b m := by
  have hget := (view_get? h (Or.inr hb)).1
  unfold KernelInterfaces.staticLock
  rw [view_addrs]
  cases hi : (interfacesBy answer names).get? b with
  | some i =>
    have hib := hbridge i hi
    rw [if_pos ⟨(b, i), Dict.get?_eq_some.mp hi, rfl, hib⟩, Option.getD_some,
      h.addr b i (view_within h b i hi) hib]
  | none =>
    have hno : ¬ ∃ e ∈ (interfacesBy answer names).entries, e.1 = b ∧ e.2.isBridge = true := by
      rintro ⟨e, he, rfl, -⟩
      exact absurd (hi.symm.trans (Dict.get?_eq_some.mpr he)) (by simp)
    rw [if_neg hno]
    cases hlock : KernelInterfaces.lockIn ((kernel.addrs.get? b).getD []) m with
    | none => rfl
    | some mac =>
      have hm := hk.locked b m mac hlock
      obtain ⟨i, hki, -⟩ := KernelInterfaces.exists_of_member hm
      exact absurd ((hget.symm.trans hi).symm.trans hki) (by simp)

/-- **The partial read is a view** of the kernel. -/
theorem view_of_names {config : Config} (hk : Planner.Consistent kernel) {names : List String}
    (hnames : ∀ n, n ∈ config.bridge ∨ n ∈ Planner.claimed config → n ∈ names) :
    Planner.View config (viewBy answer names) kernel := by
  have hint : (viewBy answer names).interfaces = interfacesBy answer names := rfl
  constructor
  · intro n hn
    rw [hint]
    exact (view_get? h (Or.inr (hnames n hn))).1
  · intro n hn
    rw [hint]
    exact (view_get? h (Or.inl hn)).1
  · intro b i m hb hi hm
    rw [hint] at hi ⊢
    have hask : b ∈ kernel.owned ∨ b ∈ names := hb.symm.imp_right fun hb => hnames b (Or.inl hb)
    exact (view_get? h hask).2 i m hi hm
  · intro n i hi
    rw [hint] at hi
    exact view_within h n i hi
  · exact h.group
  · intro b hb hbridge m
    rw [hint] at hbridge
    exact view_lock h hk (hnames b (Or.inl hb)) hbridge

/-- What is read of a loaded anchor, and of one that is not. -/
theorem anchorBy_loaded {n : String} {st : Pf.AnchorState}
    (hst : Planner.loadedAt anchors n = some st) :
    (anchorBy answer n).isLoaded = true ∧ Planner.SameAnchor (anchorBy answer n) st := by
  obtain ⟨hok, hhash, hblank⟩ := h.rules n st hst
  unfold anchorBy
  simp only [hok, hblank, Bool.not_true, Bool.and_false, Bool.or_false, Bool.false_eq_true,
    if_false, true_and]
  refine ⟨hhash, fun t => ?_⟩
  have hread := get?_foldl_insert (f := id) (p := fun t => (answer (Pf.showArgv n t)).ok)
    (v := fun t => Pf.parseTableShow (answer (Pf.showArgv n t)).out)
    (l := Text.words (answer (Pf.tablesArgv n)).out) (d := ∅) (k := t)
  refine hread.trans ?_
  cases ht : st.tables.get? t with
  | some ms =>
    obtain ⟨hshow, hms⟩ := h.table n st t ms hst ht
    rw [if_pos ⟨t, (h.tables n st hst t).mpr (Dict.mem_of_get? ht), rfl, hshow⟩, hms]
  | none =>
    rw [if_neg]
    · rfl
    · rintro ⟨t', hmem, rfl, -⟩
      exact Dict.get?_eq_none.mp ht ((h.tables n st hst t').mp hmem)

theorem anchorBy_bare {n : String} (hst : Planner.loadedAt anchors n = none) :
    (anchorBy answer n).isLoaded = false := by
  unfold anchorBy
  cases hok : (answer (Pf.rulesArgv n)).ok with
  | false => simp [hok]
  | true =>
    obtain ⟨hhash, hblank⟩ := h.bare n hst hok
    simp [hok, hhash, hblank]

/-- **Every loaded anchor is read**, whatever the scope. -/
theorem anchors_seen (scope : List String) : Planner.Sees (anchorsBy answer scope) anchors := by
  intro n
  have hread : (anchorsBy answer scope).get? n =
      if ∃ m ∈ sortedSet (scope ++ listedBy answer).toFinset, m = n ∧ true = true then
        some (anchorBy answer n) else none :=
    get?_foldl_insert (f := id) (p := fun _ => true) (v := anchorBy answer)
  cases hst : Planner.loadedAt anchors n with
  | some st =>
    obtain ⟨hl, hsame⟩ := anchorBy_loaded h hst
    obtain ⟨hok, hlisted⟩ := h.listing n st hst
    have hmem : n ∈ sortedSet (scope ++ listedBy answer).toFinset := by
      rw [mem_sortedSet, List.mem_toFinset]
      refine List.mem_append_right _ ?_
      unfold listedBy
      rw [if_pos hok]
      exact hlisted
    unfold Planner.loadedAt
    rw [hread, if_pos ⟨n, hmem, rfl, rfl⟩]
    simp only [Option.filter_some, hl, if_true]
    exact .some hsame
  | none =>
    have hl := anchorBy_bare h hst
    unfold Planner.loadedAt
    rw [hread]
    split
    · simp only [Option.filter_some, hl]
      exact .none
    · exact .none

end

/-! ## 4. The plan -/

namespace Reconcile

open Planner

/-- Whatever the config claims is checked. -/
theorem mem_namesToCheck {config : Config} {names : List String}
    (h : namesToCheck config = .ok names) {n : String}
    (hn : n ∈ config.bridge ∨ n ∈ claimed config) : n ∈ names := by
  obtain ⟨lists, hl, hnames⟩ := Except.bind_eq_ok.mp h
  obtain rfl := Except.pure_eq_ok.mp hnames
  rcases hn with hn | hn
  · exact List.mem_append_left _ hn
  · obtain ⟨b, br, hb, hc⟩ := mem_claimed.mp hn
    obtain ⟨l, hlm, hround⟩ := exists_of_mem_left (mapM_eq_ok.mp hl) hb
    obtain ⟨ups, hups, hl'⟩ := Except.bind_eq_ok.mp hround
    obtain rfl := Except.pure_eq_ok.mp hl'
    refine List.mem_append_right _ (List.mem_flatten.mpr ⟨_, hlm, ?_⟩)
    unfold claimsOf at hc
    rw [uplinksOf_ok hups] at hc
    exact List.mem_append.mpr (List.mem_append.mp hc).symm

/-- The names of a checked config can be listed, unless an uplink's is too long. -/
theorem namesToCheck_cases {config : Config} (hc : Checked config) (kernel : KernelInterfaces) :
    (∃ names, namesToCheck config = .ok names) ∨
      (Refused config kernel ∧ ∃ msg, namesToCheck config = .error (.planError msg)) := by
  have hraises : Except.RaisesOnly IsPlanError (namesToCheck config) := by
    unfold namesToCheck
    refine Except.RaisesOnly.bind (Except.RaisesOnly.mapM fun e he => ?_) fun _ _ =>
      Except.RaisesOnly.ok
    refine Except.RaisesOnly.bind (fun exc hexc => ?_) fun _ _ => Except.RaisesOnly.ok
    rcases uplinkNames_cases hc he with ⟨-, names, hok⟩ | ⟨-, msg, herr⟩
    · exact absurd (hok.symm.trans hexc) (by simp)
    · obtain rfl := Except.error.inj (herr.symm.trans hexc)
      exact ⟨msg, rfl⟩
  by_cases hlong : ∃ b br, (b, br) ∈ config.bridge.entries ∧ LongUplink config br
  · obtain ⟨b, br, hb, hlong⟩ := hlong
    right
    refine ⟨⟨b, br, hb, Or.inr (Or.inr hlong)⟩, ?_⟩
    obtain ⟨e, herr, msg, rfl⟩ := hraises.exists_error fun names hok => by
      obtain ⟨lists, hl, -⟩ := Except.bind_eq_ok.mp hok
      obtain ⟨l, -, hround⟩ := exists_of_mem_left (mapM_eq_ok.mp hl) hb
      obtain ⟨ups, hups, -⟩ := Except.bind_eq_ok.mp hround
      rcases uplinkNames_cases hc hb with ⟨hno, -⟩ | ⟨-, msg, herr⟩
      · exact hno hlong
      · exact absurd (hups.symm.trans herr) (by simp)
    exact ⟨msg, herr⟩
  · left
    obtain ⟨lists, hl⟩ := exists_mapM_ok
      (f := fun e : String × Bridge => do
        let ups ← uplinkNames e.1 e.2 config
        pure (e.2.member.keys ++ ups))
      (l := config.bridge.entries) fun e he => by
        rcases uplinkNames_cases hc he with ⟨-, names, hok⟩ | ⟨hl, -⟩
        · exact ⟨_, by rw [hok]; rfl⟩
        · exact absurd ⟨e.1, e.2, he, hl⟩ hlong
    exact ⟨_, by unfold namesToCheck; rw [hl]; rfl⟩

section

variable [Hashlib] {σ : Type} {run : Runner σ} {s : σ} {answer : Argv → RunResult}
  {config : Config} {kernel : KernelInterfaces} {anchors : PfState}

/-- What a pass plans, of what it is answered. -/
theorem planned_readOnly (hr : ReadOnly run s answer) {names : List String}
    (hnames : namesToCheck config = .ok names) :
    ((planned run config).run s).1 =
      (diff config (viewBy answer names) (some (anchorsBy answer
        (sortedSet (pfScope config (viewBy answer names)))))).map
        fun plan => (plan, viewBy answer names) := by
  have hplanned : planned run config = (do
      let kernel ← Ifconfig.readInterfaces run names
      let pfState ← pfReader run (sortedSet (pfScope config kernel))
      pure ((diff config kernel pfState).map fun plan => (plan, kernel))) := by
    unfold planned
    rw [hnames]
  rw [hplanned, StateT.run, bind_readOnly (readInterfaces_readOnly hr names),
    bind_readOnly (pfReader_readOnly hr _)]
  generalize diff config _ _ = x
  rfl

/-- A pass over a part of the kernel and a pass over the whole of it come out alike: both are
refused, or both have a plan, and the plans are the same one. -/
theorem planned_cases (hc : Checked config) (hk : Consistent kernel)
    (hg : kernel.Grouped) (hr : ReadOnly run s answer) (ha : Shows answer kernel anchors) :
    ((∃ msg, ((planned run config).run s).1 = .error (.planError msg)) ∧
        ∃ msg, diff config kernel (some anchors) = .error (.planError msg)) ∨
      ∃ p view q, ((planned run config).run s).1 = .ok (p, view) ∧
        diff config kernel (some anchors) = .ok q ∧ SamePlan p q := by
  rcases namesToCheck_cases hc kernel with ⟨names, hnames⟩ | ⟨href, msg, herr⟩
  · have hread := planned_readOnly hr hnames
    have hview := view_of_names ha hk fun n hn => mem_namesToCheck hnames hn
    have hseen := anchors_seen ha (sortedSet (pfScope config (viewBy answer names)))
    rw [hread]
    rcases diff_view hview hseen hk hg with ⟨e, hv, hd⟩ | ⟨p, q, hv, hd, hsame⟩
    · have hplan : IsPlanError e := diff_raises hc e hd
      obtain ⟨msg, rfl⟩ := hplan
      rw [hv, hd]
      exact Or.inl ⟨⟨msg, rfl⟩, msg, rfl⟩
    · rw [hv, hd]
      exact Or.inr ⟨p, _, q, rfl, rfl, hsame⟩
  · have hread : ((planned run config).run s).1 = .error (.planError msg) := by
      unfold planned
      rw [herr]
      rfl
    exact Or.inl ⟨⟨msg, hread⟩, (@diff_refused_iff config kernel _ (some anchors) hc).mpr href⟩

/-- **The partial read loses nothing**: the plan of what a pass reads is refused exactly when
the plan of the whole kernel is, and holds the same ops in each phase, and the same notes. -/
theorem partial_read_lossless (hc : Checked config) (hk : Consistent kernel)
    (hg : kernel.Grouped) (hr : ReadOnly run s answer) (ha : Shows answer kernel anchors) :
    ((∃ msg, ((planned run config).run s).1 = .error (.planError msg)) ↔
        ∃ msg, diff config kernel (some anchors) = .error (.planError msg)) ∧
      ((¬ ∃ msg, diff config kernel (some anchors) = .error (.planError msg)) →
        ∃ p view q, ((planned run config).run s).1 = .ok (p, view) ∧
          diff config kernel (some anchors) = .ok q ∧ SamePlan p q) := by
  rcases planned_cases hc hk hg hr ha with ⟨hpart, hwhole⟩ | ⟨p, view, q, hpart, hwhole, hsame⟩
  · exact ⟨iff_of_true hpart hwhole, fun hno => absurd hwhole hno⟩
  · refine ⟨iff_of_false ?_ ?_, fun _ => ⟨p, view, q, hpart, hwhole, hsame⟩⟩
    · rintro ⟨msg, herr⟩
      exact absurd (hpart.symm.trans herr) (by simp)
    · rintro ⟨msg, herr⟩
      exact absurd (hwhole.symm.trans herr) (by simp)

end

/-! ## 5. A host that the agent shares

The bridge of a network stands on a vlan of `em0`, and its one tap is locked under a filter whose
table has two members. The administrator has a bridge of his own beside it: neither that bridge
nor its member nor the trunk is claimed by the config or carries the group, so a pass does not
read them. The tap `tap9` is owned and wanted no more. -/

def sharedTap : Member :=
  { type := some .tap, filter := some "sg0", bind := some ⟨"fa:16:3e:00:00:01", "10.0.0.7"⟩ }

def sharedConfig : Config :=
  { physnet := ⟨[("p0", { trunk := "em0" })], by decide⟩
    bridge := ⟨[("pb0",
      { segment := some { physnet := some "p0", vlan := some 5 }
        member := ⟨[("tap0", sharedTap)], by decide⟩ })], by decide⟩
    table := ⟨[("rg0", { members := ["10.0.0.8", "10.0.0.9"] })], by decide⟩
    filter := ⟨[("sg0",
      { in_ := ⟨[(100, { action := .pass, from_ := "@rg0" })], by decide⟩ })], by decide⟩ }

theorem checked_shared : Checked sharedConfig where
  dangling := by decide
  segments := by
    intro b br seg hb hseg
    obtain ⟨rfl, rfl⟩ := Prod.mk.inj (List.mem_singleton.mp hb)
    obtain rfl := Option.some.inj hseg
    rfl

/-- The interfaces, each with what `ifconfig` prints of it. -/
def sharedBlocks : List (Interface × String) :=
  [({ name := "pb0", flags := {"UP"}, mtu := some 1500, groups := ["bridge", OWNED_GROUP]
      members := ["tap0", "em0.5"], maxaddr := some 2000 },
    "pb0: flags=8843<UP> mtu 1500\n\tmaxage 20 holdcnt 6 proto rstp maxaddr 2000 timeout 1200\n" ++
      "\tgroups: bridge l2-neutron\n\tmember: tap0 flags=3<X>\n\tmember: em0.5 flags=3<X>\n"),
   ({ name := "tap0", flags := {"UP"}, groups := ["tap", OWNED_GROUP] },
    "tap0: flags=8943<UP>\n\tgroups: tap l2-neutron\n"),
   ({ name := "tap9", groups := ["tap", OWNED_GROUP] },
    "tap9: flags=8943<>\n\tgroups: tap l2-neutron\n"),
   ({ name := "em0.5", flags := {"UP"}, groups := ["vlan", OWNED_GROUP], vlan := some 5
      vlanParent := some "em0" },
    "em0.5: flags=8943<UP>\n\tgroups: vlan l2-neutron\n" ++
      "\tvlan: 5 vlanproto: 802.1q vlanpcp: 0 parent interface: em0\n"),
   ({ name := "em0", flags := {"UP"} }, "em0: flags=8843<UP>\n"),
   ({ name := "em1", flags := {"UP"} }, "em1: flags=8843<UP>\n"),
   ({ name := "bridge1", flags := {"UP"}, groups := ["bridge"], members := ["em1"] },
    "bridge1: flags=8843<UP>\n\tgroups: bridge\n\tmember: em1 flags=3<X>\n")]

def sharedKernel : KernelInterfaces :=
  { interfaces := ⟨sharedBlocks.map fun e => (e.1.name, e.1), by decide⟩
    owned := ["pb0", "tap0", "tap9", "em0.5"]
    addrs := ⟨[("pb0", [("fa:16:3e:00:00:01", "tap0", true)])], by decide⟩ }

/-- The anchor of `tap0`, whose table is behind the config by one member. -/
def sharedAnchor : Pf.AnchorState :=
  { isLoaded := true, cfgHash := some "0123456789abcdef"
    tables := ⟨[("rg0", {"10.0.0.7", "10.0.0.8"})], by decide⟩ }

def sharedAnchors : PfState := ⟨[("tap0", sharedAnchor)], by decide⟩

/-- What the tools print. -/
def sharedPrinted : List (Argv × String) :=
  (Ifconfig.groupArgv, "pb0\ntap0\ntap9\nem0.5\n") ::
    sharedBlocks.map (fun e => (Ifconfig.ifaceArgv e.1.name, e.2)) ++
    [(Ifconfig.addrArgv "pb0", "fa:16:3e:00:00:01 Vlan0 tap0 0 flags=1<STATIC>\n"),
     (Ifconfig.addrArgv "bridge1", ""),
     (Pf.anchorsArgv, "  l2-neutron/port/tap0\n"),
     (Pf.rulesArgv "tap0",
       "block drop in quick on tap0 all label \"l2-neutron:cfg:0123456789abcdef\"\n"),
     (Pf.tablesArgv "tap0", "rg0\n"),
     (Pf.showArgv "tap0" "rg0", "   10.0.0.7\n   10.0.0.8\n")]

def sharedAnswer (argv : Argv) : RunResult :=
  match sharedPrinted.lookup argv with
  | some out => ⟨.code 0, out, ""⟩
  | none => ⟨.code 1, "", ""⟩

/-- The tools answer what they have something to print for. -/
theorem shared_ok {argv : Argv} (h : (sharedAnswer argv).ok = true) :
    argv ∈ sharedPrinted.map Prod.fst := by
  unfold sharedAnswer at h
  cases hl : sharedPrinted.lookup argv with
  | none =>
    rw [hl] at h
    exact absurd h (by decide)
  | some out =>
    obtain ⟨l₁, l₂, hsplit, -⟩ := List.lookup_eq_some_iff.mp hl
    rw [hsplit]
    simp

theorem shared_iface {n : String} (h : (sharedAnswer (Ifconfig.ifaceArgv n)).ok = true) :
    ∃ e ∈ sharedBlocks, e.1.name = n := by
  have hmem := shared_ok h
  have hiface : ∀ argv ∈ sharedPrinted.map Prod.fst, argv.length = 2 →
      ∃ e ∈ sharedBlocks, argv = Ifconfig.ifaceArgv e.1.name := by decide +kernel
  obtain ⟨e, he, heq⟩ := hiface _ hmem rfl
  exact ⟨e, he, (List.cons.inj (List.cons.inj heq).2).1.symm⟩

theorem shared_rules {n : String} (h : (sharedAnswer (Pf.rulesArgv n)).ok = true) :
    n = "tap0" := by
  have hmem := shared_ok h
  have hrules : ∀ argv ∈ sharedPrinted.map Prod.fst, argv.getLast? = some "-sr" →
      argv = Pf.rulesArgv "tap0" := by decide +kernel
  have hname := (List.cons.inj (List.cons.inj (List.cons.inj (hrules _ hmem rfl)).2).2).1
  have hlist := congrArg String.toList hname
  unfold Pf.anchorName at hlist
  rw [String.toList_append, String.toList_append] at hlist
  exact String.toList_injective (List.append_cancel_left hlist)

theorem shared_loaded {n : String} {st : Pf.AnchorState}
    (h : loadedAt sharedAnchors n = some st) : n = "tap0" ∧ st = sharedAnchor := by
  obtain ⟨hget, -⟩ := Option.filter_eq_some_iff.mp h
  exact Prod.mk.inj (List.mem_singleton.mp (Dict.get?_eq_some.mp hget))

theorem shared_interfaces {n : String} {i : Interface}
    (h : sharedKernel.interfaces.get? n = some i) :
    ∃ e ∈ sharedBlocks, e.1.name = n ∧ e.1 = i := by
  obtain ⟨e, he, heq⟩ := List.mem_map.mp (Dict.get?_eq_some.mp h)
  exact ⟨e, he, (Prod.mk.inj heq).1, (Prod.mk.inj heq).2⟩

/-- Each block is read as its interface. -/
theorem shared_blocks : ∀ e ∈ sharedBlocks,
    (sharedAnswer (Ifconfig.ifaceArgv e.1.name)).ok = true ∧
      (Ifconfig.parse (sharedAnswer (Ifconfig.ifaceArgv e.1.name)).out).entries =
        [(e.1.name, e.1)] := by decide +kernel

theorem shared_shows : Shows sharedAnswer sharedKernel sharedAnchors where
  group := by decide +kernel
  iface := by
    intro n i hi
    obtain ⟨e, he, rfl, rfl⟩ := shared_interfaces hi
    obtain ⟨hok, hparse⟩ := shared_blocks e he
    refine ⟨hok, Dict.get?_eq_some.mpr ?_⟩
    rw [hparse]
    exact List.mem_singleton_self _
  only := by
    intro n hok k i hi
    obtain ⟨e, he, rfl⟩ := shared_iface hok
    have hin := Dict.get?_eq_some.mp hi
    rw [(shared_blocks e he).2] at hin
    obtain ⟨rfl, rfl⟩ := Prod.mk.inj (List.mem_singleton.mp hin)
    exact Dict.get?_eq_some.mpr (List.mem_map_of_mem he)
  addr := by
    have hall : ∀ e ∈ sharedBlocks, e.1.isBridge = true →
        Ifconfig.parseAddrList (sharedAnswer (Ifconfig.addrArgv e.1.name)).out =
          (sharedKernel.addrs.get? e.1.name).getD [] := by decide +kernel
    intro b i hi hb
    obtain ⟨e, he, rfl, rfl⟩ := shared_interfaces hi
    exact hall e he hb
  listing := by
    intro n st hst
    obtain ⟨rfl, -⟩ := shared_loaded hst
    exact ⟨by decide +kernel, by decide +kernel⟩
  rules := by
    intro n st hst
    obtain ⟨rfl, rfl⟩ := shared_loaded hst
    exact ⟨by decide +kernel, by decide +kernel, by decide +kernel⟩
  bare := by
    intro n hst hok
    obtain rfl := shared_rules hok
    exact absurd hst (by decide)
  tables := by
    intro n st hst t
    obtain ⟨rfl, rfl⟩ := shared_loaded hst
    have hwords : Text.words (sharedAnswer (Pf.tablesArgv "tap0")).out = ["rg0"] := by
      decide +kernel
    rw [hwords, Dict.mem_iff_entry]
    simp [sharedAnchor]
  table := by
    intro n st t ms hst ht
    obtain ⟨rfl, rfl⟩ := shared_loaded hst
    obtain ⟨rfl, rfl⟩ := Prod.mk.inj (List.mem_singleton.mp (Dict.get?_eq_some.mp ht))
    exact ⟨by decide +kernel, by decide +kernel⟩

theorem shared_grouped : sharedKernel.Grouped := by
  have hall : ∀ e ∈ sharedBlocks, e.1.name ∈ sharedKernel.owned ↔ e.1.isOwned = true := by
    decide +kernel
  have howned : ∀ n ∈ sharedKernel.owned, ∃ e ∈ sharedBlocks, e.1.name = n := by decide +kernel
  intro n
  rw [KernelInterfaces.ownedName_iff]
  constructor
  · intro hn
    obtain ⟨e, he, rfl⟩ := howned n hn
    exact ⟨e.1, Dict.get?_eq_some.mpr (List.mem_map_of_mem he), (hall e he).mp hn⟩
  · rintro ⟨i, hi, hgroup⟩
    obtain ⟨e, he, rfl, rfl⟩ := shared_interfaces hi
    exact (hall e he).mpr hgroup

theorem shared_consistent : Consistent sharedKernel where
  bridgeless := by
    have hall : ∀ e ∈ sharedBlocks, e.1.isBridge = true → ∀ o ∈ sharedBlocks,
        o.1.name ∈ e.1.members → o.1.isBridge = false := by decide +kernel
    intro b i m j hi hb hm hj
    obtain ⟨e, he, rfl, rfl⟩ := shared_interfaces hi
    obtain ⟨o, ho, rfl, rfl⟩ := shared_interfaces hj
    exact hall e he hb o ho hm
  locked := by
    intro b m mac h
    unfold KernelInterfaces.staticLock at h
    cases ht : sharedKernel.addrs.get? b with
    | none =>
      rw [ht] at h
      exact absurd h (by simp [KernelInterfaces.lockIn])
    | some table =>
      obtain ⟨rfl, rfl⟩ := Prod.mk.inj (List.mem_singleton.mp (Dict.get?_eq_some.mp ht))
      rw [ht] at h
      obtain ⟨e, hfind, -⟩ := Option.map_eq_some_iff.mp h
      have he := List.mem_singleton.mp (List.mem_of_find?_eq_some hfind)
      have hm := List.find?_some hfind
      subst he
      obtain rfl : "tap0" = m := by simpa using hm
      decide

/-- What the whole kernel calls for: the table brought up to date, and `tap9` gone. -/
def sharedPlan : Plan :=
  { adds := [.replaceTable "tap0" "rg0" ["10.0.0.8", "10.0.0.9"]]
    destroys := [.destroyIface "tap9"] }

theorem diff_shared : @diff ⟨fun _ => "0123456789abcdef"⟩ sharedConfig sharedKernel
    (some sharedAnchors) = .ok sharedPlan := by decide +kernel

theorem partial_read_lossless_shared :
    ∃ p view, ((@planned Unit (fun argv _ _ s => (sharedAnswer argv, s))
        ⟨fun _ => "0123456789abcdef"⟩ sharedConfig).run ()).1 = .ok (p, view) ∧
      SamePlan p sharedPlan := by
  have hplan := diff_shared
  obtain ⟨-, hok⟩ := @partial_read_lossless ⟨fun _ => "0123456789abcdef"⟩ Unit
    (fun argv _ _ s => (sharedAnswer argv, s)) () sharedAnswer sharedConfig sharedKernel
    sharedAnchors checked_shared shared_consistent shared_grouped (fun _ _ => rfl) shared_shows
  obtain ⟨p, view, q, hread, hq, hsame⟩ := hok (by
    rintro ⟨msg, herr⟩
    exact absurd (hplan.symm.trans herr) (by simp))
  obtain rfl := Except.ok.inj (hq.symm.trans hplan)
  exact ⟨p, view, hread, hsame⟩

end Reconcile

end Bsdbridge
