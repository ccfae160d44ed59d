import Bsdbridge.L2Agent.Reconcile
import Bsdbridge.Lib.Except
import Bsdbridge.Proof.Refusal

/-!
# What an accepted document is good for

`Config.from_tree` is the door of the planner: what it lets in is planned without a failed lookup,
and what it keeps out is meant to leave as a `SchemaError`. The first half holds. The second fails
at one kind of place, where a mapping is expected and something stands that `repr` cannot print:
the message is built outside the `try`, so the `ValueError` of the `repr` goes through.
**`safelyRead_iff`** says that a document is read safely exactly when its walk meets no such place.

A walk stops at its first refusal, so where the place is decides whether it is reached. Each class
says below where its own walk stops, in terms of the classes below it. `Stops` is that condition
for one model: the items before the place are read without fail, the key is a field that was not
given yet, and the value under it is one the walk below stops at.

What cannot be printed is an integer of more digits than `str` converts, in the versions of Python
that have such a limit. It is a value a document can hold, as YAML has integers of any length. The
interpreter has other limits, of recursion for one; a document that exceeds those is no matter of
this file.
-/

set_option autoImplicit false

namespace Bsdbridge

/-! ## 1. Where a walk stops -/

/-- A refusal that does not come out as a `SchemaError`. -/
def SchemaError.Escapes (err : SchemaError) : Prop := ∃ got, err.raised = .valueError got

/-- The walk ends in such a refusal. -/
abbrev Escapes {α : Type} (x : Except SchemaError α) : Prop := x.Raises SchemaError.Escapes

theorem escapes_expectedMapping {path : String} {got : Tree} :
    (SchemaError.expectedMapping path got).Escapes ↔ got.prints = false := by
  unfold SchemaError.Escapes SchemaError.raised
  cases h : got.prints <;> simp [h]

namespace Schema

variable {κ α : Type}

/-- The field a key stands for. -/
def fieldOf (S : Schema κ α) (key : String) : String := (S.aliases.lookup key).getD key

/-- The walk of a model meets, at a place where a mapping is expected, what cannot be printed:
it is given that itself, or it gets as far as a key under which it `inner` does. -/
def Stops (S : Schema κ α) (inner : String → Tree → String → Prop) (data : Tree)
    (path : String) : Prop :=
  match data with
  | .dict items => ∃ before key value after st,
      items = before ++ (key, value) :: after ∧
      before.foldlM (S.step path) ([], S.start) = .ok st ∧
      (S.fields.lookup (S.fieldOf key)).isSome = true ∧ S.fieldOf key ∉ st.1 ∧
      inner (S.fieldOf key) value (path ++ "." ++ key)
  | got => got.prints = false

variable {S : Schema κ α} {inner : String → Tree → String → Prop}

/-- One round goes wrong in `_child` only: its own messages quote keys. -/
theorem escapes_step
    (hchild : ∀ {name value path kw}, Escapes (S.child name value path kw) ↔
      inner name value path) {path key : String} {value : Tree} {st : List String × κ} :
    Escapes (S.step path st (key, value)) ↔
      (S.fields.lookup (S.fieldOf key)).isSome = true ∧ S.fieldOf key ∉ st.1 ∧
        inner (S.fieldOf key) value (path ++ "." ++ key) := by
  rw [← @hchild (S.fieldOf key) value (path ++ "." ++ key) st.2]
  unfold step
  simp only [show (S.aliases.lookup key).getD key = S.fieldOf key from rfl]
  cases hf : S.fields.lookup (S.fieldOf key) with
  | none => simp [SchemaError.Escapes, SchemaError.raised]
  | some required =>
    by_cases hgiven : S.fieldOf key ∈ st.1
    · simp [hgiven, SchemaError.Escapes, SchemaError.raised]
    · simp only [Option.isNone_some, Bool.false_eq_true, if_false, if_neg hgiven,
        Except.raises_bind_pure]
      simp [hgiven]

/-- **A model's walk** goes wrong exactly where it stops. -/
theorem escapes_fromTree
    (hchild : ∀ {name value path kw}, Escapes (S.child name value path kw) ↔
      inner name value path) {data : Tree} {path : String} :
    Escapes (S.fromTree data path) ↔ S.Stops inner data path := by
  cases data with
  | dict items =>
    have hloop : Escapes (S.fromTree (.dict items) path) ↔
        Escapes (items.foldlM (S.step path) ([], S.start)) := by
      show Escapes (items.foldlM (S.step path) ([], S.start) >>= _) ↔ _
      rw [Escapes, Except.raises_bind]
      constructor
      · rintro (h | ⟨st, -, h⟩)
        · exact h
        · -- what follows the key loop raises `SchemaError`s: a missing key, or the constructor's
          refine absurd h ?_
          dsimp only
          split
          · simp [SchemaError.Escapes, SchemaError.raised, Except.Raises]
          · split <;> simp [SchemaError.Escapes, SchemaError.raised, Except.Raises]
      · exact Or.inl
    rw [hloop, Escapes, Except.raises_foldlM]
    constructor
    · rintro ⟨before, ⟨key, value⟩, after, st, hitems, hst, hround⟩
      exact ⟨before, key, value, after, st, hitems, hst, (escapes_step hchild).mp hround⟩
    · rintro ⟨before, key, value, after, st, hitems, hst, hround⟩
      exact ⟨before, (key, value), after, st, hitems, hst, (escapes_step hchild).mpr hround⟩
  | _ => exact Except.raises_error.trans escapes_expectedMapping

end Schema

/-- The same under a key of a nested model: `None` is no model. -/
def NestedStops (stops : Tree → String → Prop) (value : Tree) (path : String) : Prop :=
  match value with
  | .null => False
  | v => stops v path

/-- The same under a key of nested models by name: the walk gets as far as a name whose model
stops. -/
def MapStops {α : Type} (sub : Tree → String → Except SchemaError α)
    (stops : Tree → String → Prop) (value : Tree) (path : String) : Prop :=
  match value with
  | .null => False
  | .dict items => ∃ before name v after, items = before ++ (name, v) :: after ∧
      (∀ e ∈ before, ∃ m, sub e.2 (path ++ "." ++ e.1) = .ok m) ∧ stops v (path ++ "." ++ name)
  | got => got.prints = false

section

variable {α : Type} {sub : Tree → String → Except SchemaError α} {stops : Tree → String → Prop}

theorem escapes_nestedChild (hsub : ∀ {v path}, Escapes (sub v path) ↔ stops v path)
    {value : Tree} {path : String} :
    Escapes (nestedChild sub value path) ↔ NestedStops stops value path := by
  cases value with
  | null => exact iff_of_false Except.raises_ok id
  | _ => exact Except.raises_bind_pure.trans hsub

theorem escapes_nestedMapChild (hsub : ∀ {v path}, Escapes (sub v path) ↔ stops v path)
    {value : Tree} {path : String} :
    Escapes (nestedMapChild sub value path) ↔ MapStops sub stops value path := by
  cases value with
  | null => exact iff_of_false Except.raises_ok id
  | dict items =>
    have hround : ∀ e : String × Tree, (∃ y, (do
        let m ← sub e.2 (path ++ "." ++ e.1)
        pure (e.1, m)) = Except.ok y) ↔ ∃ m, sub e.2 (path ++ "." ++ e.1) = .ok m := by
      intro e
      cases sub e.2 (path ++ "." ++ e.1) <;> simp [pure, Except.pure]
    refine Except.raises_bind_pure.trans (Except.raises_mapM.trans ?_)
    simp only [hround, Except.raises_bind_pure]
    constructor
    · rintro ⟨before, ⟨name, v⟩, after, hitems, hbefore, h⟩
      exact ⟨before, name, v, after, hitems, hbefore, hsub.mp h⟩
    · rintro ⟨before, name, v, after, hitems, hbefore, h⟩
      exact ⟨before, (name, v), after, hitems, hbefore, hsub.mpr h⟩
  | _ => exact Except.raises_error.trans escapes_expectedMapping

end

/-- A value that stays as it is is never refused. -/
theorem escapes_rawChild {name : String} {value : Tree} {path : String} {kw : Kwargs} :
    ¬ Escapes (rawChild name value path kw) := Except.raises_ok

/-! ## 2. The classes

The ten classes of `model.py`, from the leaves to the document. -/

/-- A class without nested models stops where it is given no mapping. -/
def NoChild : String → Tree → String → Prop := fun _ _ _ => False

theorem escapes_flat {α : Type} {S : Schema Kwargs α} (hS : S.child = rawChild) {data : Tree}
    {path : String} : Escapes (S.fromTree data path) ↔ S.Stops NoChild data path := by
  refine Schema.escapes_fromTree fun {name value path kw} => ?_
  rw [hS]
  exact iff_of_false escapes_rawChild id

namespace Physnet

def Stops : Tree → String → Prop := schema.Stops NoChild

theorem escapes {data : Tree} {path : String} :
    Escapes (fromTree data path) ↔ Stops data path := escapes_flat rfl

end Physnet

namespace VxlanSegment

def Stops : Tree → String → Prop := schema.Stops NoChild

theorem escapes {data : Tree} {path : String} :
    Escapes (fromTree data path) ↔ Stops data path := escapes_flat rfl

end VxlanSegment

namespace Bind

def Stops : Tree → String → Prop := schema.Stops NoChild

theorem escapes {data : Tree} {path : String} :
    Escapes (fromTree data path) ↔ Stops data path := escapes_flat rfl

end Bind

namespace FilterRule

def Stops : Tree → String → Prop := schema.Stops NoChild

theorem escapes {data : Tree} {path : String} :
    Escapes (fromTree data path) ↔ Stops data path := escapes_flat rfl

end FilterRule

namespace Table

def Stops : Tree → String → Prop := schema.Stops NoChild

theorem escapes {data : Tree} {path : String} :
    Escapes (fromTree data path) ↔ Stops data path := escapes_flat rfl

end Table

namespace Segment

def Stops : Tree → String → Prop := schema.Stops fun name value path =>
  if name = "vxlan" then NestedStops VxlanSegment.Stops value path else False

theorem escapes {data : Tree} {path : String} :
    Escapes (fromTree data path) ↔ Stops data path := by
  refine Schema.escapes_fromTree fun {name value path kw} => ?_
  show Escapes (if name = "vxlan" then _ else _) ↔ _
  split
  · exact Except.raises_bind_pure.trans (escapes_nestedChild VxlanSegment.escapes)
  · exact iff_of_false (mt Except.raises_bind_pure.mp escapes_rawChild) id

end Segment

namespace Member

def Stops : Tree → String → Prop := schema.Stops fun name value path =>
  if name = "bind" then NestedStops Bind.Stops value path else False

theorem escapes {data : Tree} {path : String} :
    Escapes (fromTree data path) ↔ Stops data path := by
  refine Schema.escapes_fromTree fun {name value path kw} => ?_
  show Escapes (if name = "bind" then _ else _) ↔ _
  split
  · exact Except.raises_bind_pure.trans (escapes_nestedChild Bind.escapes)
  · exact iff_of_false (mt Except.raises_bind_pure.mp escapes_rawChild) id

end Member

namespace Bridge

def Stops : Tree → String → Prop := schema.Stops fun name value path =>
  if name = "segment" then NestedStops Segment.Stops value path
  else if name = "member" then MapStops Member.fromTree Member.Stops value path
  else False

theorem escapes {data : Tree} {path : String} :
    Escapes (fromTree data path) ↔ Stops data path := by
  refine Schema.escapes_fromTree fun {name value path kw} => ?_
  show Escapes (if name = "segment" then _ else if name = "member" then _ else _) ↔ _
  split
  · exact Except.raises_bind_pure.trans (escapes_nestedChild Segment.escapes)
  · split
    · exact Except.raises_bind_pure.trans (escapes_nestedMapChild Member.escapes)
    · exact iff_of_false (mt Except.raises_bind_pure.mp escapes_rawChild) id

end Bridge

namespace Filter

def Stops : Tree → String → Prop := schema.Stops fun _ value path =>
  MapStops FilterRule.fromTree FilterRule.Stops value path

theorem escapes {data : Tree} {path : String} :
    Escapes (fromTree data path) ↔ Stops data path := by
  refine Schema.escapes_fromTree fun {name value path kw} => ?_
  exact Except.raises_bind_pure.trans (escapes_nestedMapChild FilterRule.escapes)

end Filter

namespace Config

/-- The walk of the whole document meets an unprintable value where it expects a mapping. -/
def Stops (data : Tree) : Prop := schema.Stops (fun name value path =>
  if name = "physnet" then MapStops Physnet.fromTree Physnet.Stops value path
  else if name = "bridge" then MapStops Bridge.fromTree Bridge.Stops value path
  else if name = "table" then MapStops Table.fromTree Table.Stops value path
  else MapStops Filter.fromTree Filter.Stops value path) data "Config"

theorem escapes {data : Tree} : Escapes (fromTree data) ↔ Stops data := by
  refine Schema.escapes_fromTree fun {name value path kw} => ?_
  show Escapes (if name = "physnet" then _ else if name = "bridge" then _
    else if name = "table" then _ else _) ↔ _
  split
  · exact Except.raises_bind_pure.trans (escapes_nestedMapChild Physnet.escapes)
  · split
    · exact Except.raises_bind_pure.trans (escapes_nestedMapChild Bridge.escapes)
    · split
      · exact Except.raises_bind_pure.trans (escapes_nestedMapChild Table.escapes)
      · exact Except.raises_bind_pure.trans (escapes_nestedMapChild Filter.escapes)

end Config

/-! ## 3. What was accepted -/

/-- What every argument kept is true of the arguments the constructor is given. -/
theorem Schema.make_of_fromTree {κ α : Type} {S : Schema κ α} {P : κ → Prop} (hstart : P S.start)
    (hchild : ∀ {name value path kw kw'}, P kw → S.child name value path kw = .ok kw' → P kw')
    {data : Tree} {path : String} {m : α} (h : S.fromTree data path = .ok m) :
    ∃ kw, P kw ∧ S.make kw = .ok m := by
  unfold fromTree at h
  cases data with
  | dict items =>
    obtain ⟨st, hst, h⟩ := Except.bind_eq_ok.mp h
    have hkw : P st.2 := by
      refine Except.foldlM_keeps (P := fun st => P st.2) ?_ hst hstart
      intro st item st' hP hround
      unfold step at hround
      simp only at hround
      split at hround
      · exact absurd hround (by simp)
      · split at hround
        · exact absurd hround (by simp)
        · obtain ⟨kw, hkw, hround⟩ := Except.bind_eq_ok.mp hround
          cases hround
          exact hchild hP hkw
    refine ⟨st.2, hkw, ?_⟩
    simp only at h
    split at h
    · exact absurd h (by simp)
    · cases hmake : S.make st.2 with
      | error e =>
        rw [hmake] at h
        exact absurd h (by simp)
      | ok m' =>
        rw [hmake] at h
        exact h
  | _ => exact absurd h (by simp)

/-- Every model of a mapping was accepted. -/
theorem accepted_of_nestedMapChild {α : Type} {sub : Tree → String → Except SchemaError α}
    {value : Tree} {path k : String} {d : Dict String α} {m : α}
    (h : nestedMapChild sub value path = .ok d) (hk : (k, m) ∈ d.entries) :
    ∃ v path', sub v path' = .ok m := by
  cases value with
  | null =>
    cases h
    exact absurd hk List.not_mem_nil
  | dict items =>
    obtain ⟨pairs, hpairs, h⟩ := Except.bind_eq_ok.mp h
    obtain rfl := Except.pure_eq_ok.mp h
    have hmem : (k, m) ∈ pairs := by
      have hget := Dict.get?_eq_some.mpr hk
      rw [Dict.get?_ofList] at hget
      obtain ⟨before, after, hpairs, -⟩ := List.lookup_eq_some_iff.mp hget
      exact List.mem_reverse.mp (hpairs ▸ List.mem_append_right _ List.mem_cons_self)
    obtain ⟨e, -, hround⟩ := exists_of_mem_right (mapM_eq_ok.mp hpairs) hmem
    obtain ⟨m', hm', hround⟩ := Except.bind_eq_ok.mp hround
    cases hround
    exact ⟨e.2, _, hm'⟩
  | _ => exact absurd h (by simp [nestedMapChild])

/-- An accepted segment is one of the three realizations. -/
theorem Segment.check_of_fromTree {data : Tree} {path : String} {seg : Segment}
    (h : fromTree data path = .ok seg) : check seg = .ok seg := by
  obtain ⟨kw, -, h⟩ := Schema.make_of_fromTree (P := fun _ => True) trivial (fun _ _ => trivial) h
  obtain ⟨physnet, -, h⟩ := Except.bind_eq_ok.mp h
  obtain ⟨vlan, -, h⟩ := Except.bind_eq_ok.mp h
  have hsame : ∀ {s : Segment}, check s = .ok seg → s = seg := by
    intro s hs
    unfold check at hs
    (repeat' split at hs) <;> simp_all
  obtain rfl := hsame h
  exact h

/-- So is the segment of an accepted bridge. -/
theorem Bridge.segment_of_fromTree {data : Tree} {path : String} {br : Bridge} {seg : Segment}
    (h : fromTree data path = .ok br) (hseg : br.segment = some seg) :
    Segment.check seg = .ok seg := by
  let P := fun kw : Args => ∀ seg, kw.segment = some seg → Segment.check seg = .ok seg
  have hchild : ∀ {name value path kw kw'}, P kw → schema.child name value path kw = .ok kw' →
      P kw' := by
    intro name value path kw kw' hP h
    change (if name = "segment" then _ else if name = "member" then _ else _) = _ at h
    split at h
    · obtain ⟨s, hs, h⟩ := Except.bind_eq_ok.mp h
      cases h
      intro seg hseg
      obtain rfl : s = some seg := hseg
      cases value with
      | null => cases hs
      | _ =>
        obtain ⟨m, hm, hs⟩ := Except.bind_eq_ok.mp hs
        cases hs
        exact Segment.check_of_fromTree hm
    · split at h
      all_goals
        obtain ⟨d, -, h⟩ := Except.bind_eq_ok.mp h
        cases h
        exact hP
  have hstart : P schema.start := fun seg hs => absurd hs (by simp [schema])
  obtain ⟨kw, hkw, h⟩ := Schema.make_of_fromTree (P := P) hstart hchild h
  obtain ⟨description, -, h⟩ := Except.bind_eq_ok.mp h
  obtain ⟨maxAddresses, -, h⟩ := Except.bind_eq_ok.mp h
  split at h
  · exact absurd h (by simp)
  · cases h
    exact hkw seg hseg

/-- **An accepted document** has no dangling reference, and each of its segments is one of the
three realizations. -/
theorem Config.checked_of_fromTree {data : Tree} {config : Config}
    (h : fromTree data = .ok config) : Planner.Checked config := by
  let P := fun kw : Config => ∀ b br seg, (b, br) ∈ kw.bridge.entries → br.segment = some seg →
    Segment.check seg = .ok seg
  have hchild : ∀ {name value path kw kw'}, P kw → schema.child name value path kw = .ok kw' →
      P kw' := by
    intro name value path kw kw' hP h
    change (if name = "physnet" then _ else if name = "bridge" then _
      else if name = "table" then _ else _) = _ at h
    by_cases hname : name = "bridge"
    · subst hname
      obtain ⟨d, hd, h⟩ := Except.bind_eq_ok.mp h
      cases h
      intro b br seg hb hseg
      obtain ⟨v, path', hbr⟩ := accepted_of_nestedMapChild hd hb
      exact Bridge.segment_of_fromTree hbr hseg
    · rw [if_neg hname] at h
      (repeat' split at h)
      all_goals
        obtain ⟨d, -, h⟩ := Except.bind_eq_ok.mp h
        cases h
        exact hP
  have hstart : P schema.start := fun b br seg hb => absurd hb List.not_mem_nil
  obtain ⟨kw, hkw, h⟩ := Schema.make_of_fromTree (P := P) hstart hchild h
  change make kw = .ok config at h
  unfold make at h
  cases hd : dangling kw with
  | some e =>
    rw [hd] at h
    exact absurd h (by simp)
  | none =>
    rw [hd] at h
    cases h
    exact ⟨hd, hkw⟩

/-! ## 4. Acceptance makes planning safe

A config that was accepted raises planner errors only, on every kernel and every state of the
anchors. -/

/-- The names of a config that was built are collected, or a planner error is raised. -/
theorem Reconcile.namesToCheck_raises {config : Config} (hc : Planner.Checked config) :
    Except.RaisesOnly Planner.IsPlanError (namesToCheck config) := by
  unfold namesToCheck
  refine Except.RaisesOnly.bind (Except.RaisesOnly.mapM ?_) fun _ _ => Except.RaisesOnly.ok
  intro e he
  refine Except.RaisesOnly.bind ?_ fun _ _ => Except.RaisesOnly.ok
  intro exc hexc
  rcases Planner.uplinkNames_cases hc he with ⟨-, names, hok⟩ | ⟨-, msg, herr⟩
  · exact absurd (hok.symm.trans hexc) (by simp)
  · obtain rfl := Except.error.inj (herr.symm.trans hexc)
    exact ⟨msg, rfl⟩

/-- What the planner does with a config, on every kernel view and every state of the anchors. It
raises planner errors only. (`pf_scope` looks nothing up that `get` does not, and has no error.) -/
def PlansSafely [Hashlib] (config : Config) : Prop :=
  Except.RaisesOnly Planner.IsPlanError (Reconcile.namesToCheck config) ∧
    ∀ (kernel : KernelInterfaces) (pf : Option PfState),
      Except.RaisesOnly Planner.IsPlanError (Planner.diff config kernel pf)

/-- A document is a config the planner is safe with, or a `SchemaError`. -/
def SafelyRead [Hashlib] (data : Tree) : Prop :=
  ((∃ config, Config.fromTreeExc data = .ok config) ∨
    ∃ err, Config.fromTreeExc data = .error (.schemaError err)) ∧
    ∀ config, Config.fromTreeExc data = .ok config → PlansSafely config

theorem Config.fromTreeExc_ok {data : Tree} {config : Config} :
    fromTreeExc data = .ok config ↔ fromTree data = .ok config := by
  unfold fromTreeExc
  cases fromTree data <;> simp [Except.mapError]

/-- Nothing but a `SchemaError` is raised, unless the refusal escapes. -/
theorem Config.fromTreeExc_cases {data : Tree} :
    ((∃ config, fromTreeExc data = .ok config) ∨
      ∃ err, fromTreeExc data = .error (.schemaError err)) ↔ ¬ Escapes (fromTree data) := by
  unfold fromTreeExc
  cases fromTree data with
  | ok config => simp [Except.mapError]
  | error err =>
    rw [Escapes, Except.raises_error, SchemaError.Escapes]
    cases hraised : err.raised <;> simp [Except.mapError, hraised]

/-- **A document is read safely** exactly when its walk meets no unprintable value where it
expects a mapping. -/
theorem safelyRead_iff [Hashlib] {data : Tree} : SafelyRead data ↔ ¬ Config.Stops data := by
  unfold SafelyRead
  rw [Config.fromTreeExc_cases, Config.escapes]
  refine and_iff_left ?_
  intro config h
  have hc := Config.checked_of_fromTree (Config.fromTreeExc_ok.mp h)
  exact ⟨Reconcile.namesToCheck_raises hc, fun kernel pf => Planner.diff_raises hc⟩

/-- An integer of 4301 digits. -/
def hugeInt : Int := (10 ^ Text.maxStrDigits : Nat)

theorem prints_hugeInt : (Tree.int hugeInt).prints = false := by
  unfold Tree.prints hugeInt
  rw [Int.natAbs_natCast]
  exact decide_eq_false (lt_irrefl _)

/-- Under `bridge`, where a mapping is expected, it raises a plain `ValueError`. -/
theorem hugeInt_escapes : ¬ ∀ (_ : Hashlib) (data : Tree), SafelyRead data := by
  intro h
  refine (@safelyRead_iff ⟨id⟩ _).mp (h ⟨id⟩ (.dict [("bridge", .int hugeInt)])) ?_
  exact ⟨[], "bridge", .int hugeInt, [], ([], {}), rfl, rfl, rfl, List.not_mem_nil,
    prints_hugeInt⟩

end Bsdbridge
