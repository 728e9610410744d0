import EcmaCore.Engine.Reference
import EcmaCore.Proofs.Scope.ImportName
import EcmaCore.Proofs.World.Lookup

/-!
# Resolving and probing names

Resolving a name asks one environment after the other whether it has the name, and
reads it where it is found. Probing tries to read the name in one environment after
the other, and asks an environment that reports nothing whether it has the name after
all, which tells a name without a value from a missing one. Both come to the same, as
long as asking runs no code.

Whether an environment has a name is a question to the world, `World.shows`, if the
environment is *quiet* about the name. What runs code then is only the read itself, in
both ways at the same place and in the same world.

## Main results

* `QuietScope.hasBinding_eq`: a quiet environment answers from the world.
* `QuietScope.probeBinding_eq`: a probe of a name that is there is a read, or reports
  nothing for a name without a value.
* `Engine.firstWithBinding_eq`, `Engine.probeIn_eq`: both walks along a chain.
* `Engine.probeName_eq_readName`: probing a name is resolving and reading it.
-/

namespace EcmaCore

variable {σ : Type}

namespace World

/-! ## Questions to the world -/

/-- Whether an object hides a name by its unscopables. -/
def hides (w : World σ) (backing : ObjectId) (name : String) : Bool :=
  match w.dataValue backing Symbol.unscopables with
  | .object hidden => (w.dataValue hidden name).truthy
  | _ => false

/-- Whether a backing object shows a name, which that of a `with` statement may hide. -/
def backs (w : World σ) (backing : ObjectId) (isWith : Bool) (name : String) : Bool :=
  w.hasProperty backing name && !(isWith && w.hides backing name)

/-- Whether an environment shows a name, as a slot or by its backing object. -/
def shows (w : World σ) (s : ScopeId) (name : String) : Bool :=
  (w.scope s).record.slots.contains name ||
    (w.scope s).record.backing?.any fun b => w.backs b.1 b.2 name

/-- Whether an environment has a name can be found out without running code: what a `with`
environment hides is not behind accessors, and imports have slots. -/
structure QuietScope (w : World σ) (s : ScopeId) (name : String) : Prop where
  unscopables : ∀ backing, (w.scope s).record.backing? = some (backing, true) →
    w.hasProperty backing name = true → w.ReadsQuietly backing Symbol.unscopables
  hidden : ∀ backing, (w.scope s).record.backing? = some (backing, true) →
    w.hasProperty backing name = true → ∀ hidden,
      w.dataValue backing Symbol.unscopables = .object hidden → w.ReadsQuietly hidden name
  slot : ((w.scope s).record.import? name).isSome → (w.scope s).record.slots.contains name

/-- The environments in which a name is looked up from one outward. -/
def chainFrom (w : World σ) (start : Option ScopeId) : List ScopeId :=
  (start.map w.scopeChain).getD []

/-! ## Holding on to entities -/

variable (w : World σ) (entities : List Entity)

theorem shows_holding (s : ScopeId) (name : String) :
    ({ w with held := entities ++ w.held } : World σ).shows s name = w.shows s name := by
  simp only [shows, backs, hides, hasProperty_holding, dataValue_holding]
  rfl

variable {w}

/-- Holding on to entities makes an environment no less quiet. -/
theorem QuietScope.holding {s : ScopeId} {name : String} (h : w.QuietScope s name) :
    ({ w with held := entities ++ w.held } : World σ).QuietScope s name where
  unscopables backing hbacking hhas := by
    rw [hasProperty_holding] at hhas
    exact (h.unscopables backing hbacking hhas).holding entities
  hidden backing hbacking hhas hidden hvalue := by
    rw [hasProperty_holding] at hhas
    rw [dataValue_holding] at hvalue
    exact (h.hidden backing hbacking hhas hidden hvalue).holding entities
  slot := h.slot

end World

/-! ## One environment -/

/-- Only `with` environments resolve names in an object for a `with` statement. -/
theorem Record.eq_object_of_backing {r : Record} {backing : ObjectId}
    (h : r.backing? = some (backing, true)) : r = .object backing true := by
  cases r with
  | object => cases h; rfl
  | _ => cases h

namespace Engine

variable [Embedding σ] {E : Engine σ} {w : World σ} {s : ScopeId} {name : String}

/-- A slot is read without running code. -/
theorem getBinding_of_slot (himport : (w.scope s).record.import? name = none)
    (hslot : (w.scope s).record.slots.contains name = true) {strict : Bool} :
    E.getBinding s name strict w = Action.ofExcept ((w.scope s).record.slots.read name) w := by
  rw [getBinding, Action.bind_ok (Action.get_apply w)]
  simp only [himport, hslot, if_true]
  cases (w.scope s).record.backing? <;> rfl

/-- A slot is probed without running code. -/
theorem probeBinding_of_slot (himport : (w.scope s).record.import? name = none)
    (hslot : (w.scope s).record.slots.contains name = true) {strict : Bool} :
    E.probeBinding s name strict w = .ok ((w.scope s).record.slots.probe name) w := by
  rw [probeBinding, Action.bind_ok (Action.get_apply w)]
  simp only [himport, hslot, if_true]
  cases (w.scope s).record.backing? <;> rfl

end Engine

namespace World

variable {w : World σ} {s : ScopeId} {name : String} (entities : List Entity)

/-- An environment is quiet about a name if a `with` statement hides it without accessors and a
module imported nothing over a slot. -/
theorem quietScope_of_boundLast
    (hwith : ∀ backing, (w.scope s).record = .object backing true →
      w.hasProperty backing name = true →
        w.ReadsQuietly backing Symbol.unscopables ∧
        ∀ hidden, w.dataValue backing Symbol.unscopables = .object hidden →
          w.ReadsQuietly hidden name)
    (hmodule : ((w.scope s).record.import? name).isSome → (w.scope s).record.BoundLast) :
    w.QuietScope s name where
  unscopables backing hbacking hhas :=
    (hwith backing (Record.eq_object_of_backing hbacking) hhas).1
  hidden backing hbacking hhas :=
    (hwith backing (Record.eq_object_of_backing hbacking) hhas).2
  slot himport := ((hmodule himport).pinsImport himport).2.contains_eq

namespace QuietScope

/-- The backing object of a quiet environment answers from the world. -/
theorem backingHas_eq (h : w.QuietScope s name) {backing : ObjectId} {isWith : Bool}
    (hbacking : (w.scope s).record.backing? = some (backing, isWith)) (E : Engine σ) :
    E.backingHas backing isWith name w = .ok (w.backs backing isWith name) w := by
  rw [Engine.backingHas, Action.bind_ok (Action.get_apply w), backs]
  cases hhas : w.hasProperty backing name with
  | false => rfl
  | true =>
      cases isWith with
      | false => rfl
      | true =>
          have hread := (h.unscopables backing hbacking hhas).getProperty_eq E
          simp only [Bool.not_true, Bool.false_eq_true, if_false]
          rw [Action.bind_ok hread, hides]
          cases hvalue : w.dataValue backing Symbol.unscopables with
          | object hidden =>
              have hquiet := (h.hidden backing hbacking hhas hidden hvalue).holding [.object hidden]
              have hhidden : (E.getProperty hidden name).holding [.object hidden] w =
                  .ok (w.dataValue hidden name) w := by
                rw [Action.holding_apply, hquiet.getProperty_eq E, dataValue_holding]
              dsimp only
              rw [Action.bind_ok hhidden]
              rfl
          | _ => rfl

/-- A quiet environment answers from the world whether it has a name. -/
theorem hasBinding_eq (h : w.QuietScope s name) (E : Engine σ) :
    E.hasBinding s name w = .ok (w.shows s name) w := by
  rw [Engine.hasBinding, Action.bind_ok (Action.get_apply w), shows]
  cases hslot : (w.scope s).record.slots.contains name with
  | true => rfl
  | false =>
      simp only [Bool.false_eq_true, if_false, Bool.false_or]
      cases hbacking : (w.scope s).record.backing? with
      | none => rfl
      | some b => exact h.backingHas_eq hbacking E

theorem hasBinding_holding (h : w.QuietScope s name) (E : Engine σ) :
    (E.hasBinding s name).holding entities w = .ok (w.shows s name) w := by
  rw [Action.holding_apply, (h.holding entities).hasBinding_eq E, shows_holding]

variable [Embedding σ]

/-- A probe of a name that a quiet environment does not show reports nothing. -/
theorem probeBinding_eq_none (h : w.QuietScope s name) (hshows : w.shows s name = false)
    (E : Engine σ) (strict : Bool) : E.probeBinding s name strict w = .ok none w := by
  rw [shows, Bool.or_eq_false_iff] at hshows
  obtain ⟨hslot, hbacking⟩ := hshows
  have himport : (w.scope s).record.import? name = none := by
    cases himport : (w.scope s).record.import? name with
    | none => rfl
    | some i =>
        rw [h.slot (Option.isSome_of_eq_some himport)] at hslot
        cases hslot
  rw [Engine.probeBinding, Action.bind_ok (Action.get_apply w)]
  simp only [himport]
  cases hb : (w.scope s).record.backing? with
  | none =>
      have hget : (w.scope s).record.slots.get? name = none := by
        simpa [Table.contains_eq_isSome] using hslot
      simp only [Bindings.probe, hget]
      rfl
  | some b =>
      rw [hb] at hbacking
      have hhas : E.backingHas b.1 b.2 name w = .ok false w := by
        rw [h.backingHas_eq hb, show w.backs b.1 b.2 name = false from hbacking]
      simp only [hslot, Bool.false_eq_true, if_false]
      rw [Action.bind_ok hhas]
      rfl

/-- A probe of a name that a quiet environment shows is a read of it, or reports nothing of a name
that has no value yet. -/
theorem probeBinding_eq (h : w.QuietScope s name) (hshows : w.shows s name = true)
    (E : Engine σ) (strict : Bool) :
    (∃ report : Value → Binding, E.probeBinding s name strict w =
      (E.getBinding s name strict >>= fun v => pure (some (report v, v))) w) ∨
    E.probeBinding s name strict w = .ok none w ∧
      E.getBinding s name strict w = .error (.thrown (.uninitialized name)) w := by
  cases himport : (w.scope s).record.import? name with
  | some i => exact .inl ⟨Binding.ofImport, Engine.probeBinding_of_import himport strict⟩
  | none =>
      cases hslot : (w.scope s).record.slots.contains name with
      | true =>
          rw [Engine.probeBinding_of_slot himport hslot, Engine.getBinding_of_slot himport hslot]
          obtain ⟨b, hb⟩ : ∃ b, (w.scope s).record.slots.get? name = some b := by
            rw [Table.contains_eq_isSome] at hslot
            exact Option.isSome_iff_exists.1 hslot
          rw [Bindings.probe, Bindings.read_eq, hb]
          cases hvalue : b.value with
          | none => exact .inr ⟨by simp [hvalue], by simp [hvalue]⟩
          | some v =>
              have hget : E.getBinding s name strict w = .ok v w := by
                rw [Engine.getBinding_of_slot himport hslot, Bindings.read_eq, hb]
                simp [hvalue]
              refine .inl ⟨fun _ => b, ?_⟩
              rw [Action.bind_ok hget]
              simp [hvalue]
      | false =>
          rw [shows, hslot, Bool.false_or] at hshows
          obtain ⟨⟨backing, isWith⟩, hbacking, hbacks⟩ := (Option.any_eq_true _ _).1 hshows
          refine .inl ⟨fun v => ⟨some v, true, true, false⟩, ?_⟩
          have hhas : E.backingHas backing isWith name w = .ok true w := by
            rw [h.backingHas_eq hbacking, hbacks]
          have hget : E.getBinding s name strict w = E.backingGet backing name strict w := by
            rw [Engine.getBinding, Action.bind_ok (Action.get_apply w)]
            simp only [himport, hbacking, hslot, Bool.false_eq_true, if_false]
          rw [Action.bind_congr hget, Engine.probeBinding, Action.bind_ok (Action.get_apply w)]
          simp only [himport, hbacking, hslot, Bool.false_eq_true, if_false]
          rw [Action.bind_ok hhas]
          rfl

end QuietScope

end World

/-! ## Chains of environments -/

namespace Engine

variable {w : World σ} {name : String}

/-- Resolving a name along quiet environments finds the first that shows it. -/
theorem firstWithBinding_eq (E : Engine σ) {chain : List ScopeId}
    (h : ∀ s ∈ chain, w.QuietScope s name) :
    E.firstWithBinding name chain w = .ok (chain.find? (w.shows · name)) w := by
  induction chain with
  | nil => rfl
  | cons s rest ih =>
      have hhas := (h s (by simp)).hasBinding_holding [.scope s] E
      rw [firstWithBinding, Action.bind_ok hhas, List.find?_cons]
      cases w.shows s name with
      | true => rfl
      | false => exact ih fun s' hs' => h s' (by simp [hs'])

variable [Embedding σ]

/-- A probe passes by a quiet environment that does not show the name. -/
theorem probeIn_cons_of_hidden (E : Engine σ) {s : ScopeId} {rest : List ScopeId}
    (h : w.QuietScope s name) (hshows : w.shows s name = false) (strict : Bool) :
    E.probeIn name strict (s :: rest) w = E.probeIn name strict rest w := by
  have hprobe : (E.probeBinding s name strict).holding [.scope s] w = .ok none w := by
    rw [Action.holding_apply, (h.holding _).probeBinding_eq_none (by rw [w.shows_holding, hshows])]
  have hhas := h.hasBinding_holding [.scope s] E
  rw [hshows] at hhas
  rw [probeIn, Action.bind_ok hprobe]
  dsimp only
  rw [Action.bind_ok hhas]
  rfl

/-- A probe ends at a quiet environment that shows the name, with what a read answers there. -/
theorem probeIn_cons_of_shown (E : Engine σ) {s : ScopeId} {rest : List ScopeId}
    (h : w.QuietScope s name) (hshows : w.shows s name = true) (strict : Bool) :
    E.probeIn name strict (s :: rest) w =
      ((E.getBinding s name strict).holding [.scope s] >>= fun v => pure (some v)) w := by
  rw [probeIn]
  have hshows' : ({ w with held := [Entity.scope s] ++ w.held } : World σ).shows s name = true := by
    rw [w.shows_holding, hshows]
  rcases (h.holding _).probeBinding_eq hshows' E strict with ⟨report, hprobe⟩ | ⟨hprobe, hread⟩
  · cases hget : E.getBinding s name strict { w with held := [.scope s] ++ w.held } with
    | ok v w' =>
        have hread : (E.getBinding s name strict).holding [.scope s] w =
            .ok v { w' with held := w.held } := by
          rw [Action.holding_apply, hget]
        have hsome : (E.probeBinding s name strict).holding [.scope s] w =
            .ok (some (report v, v)) { w' with held := w.held } := by
          rw [Action.holding_apply, hprobe, Action.bind_ok hget]
          rfl
        rw [Action.bind_ok hsome, Action.bind_ok hread]
    | error e w' =>
        have hread : (E.getBinding s name strict).holding [.scope s] w =
            .error e { w' with held := w.held } := by
          rw [Action.holding_apply, hget]
        have herror : (E.probeBinding s name strict).holding [.scope s] w =
            .error e { w' with held := w.held } := by
          rw [Action.holding_apply, hprobe, Action.bind_error hget]
        rw [Action.bind_error herror, Action.bind_error hread]
  · have hnone : (E.probeBinding s name strict).holding [.scope s] w = .ok none w := by
      rw [Action.holding_apply, hprobe]
    have herror : (E.getBinding s name strict).holding [.scope s] w =
        .error (.thrown (.uninitialized name)) w := by
      rw [Action.holding_apply, hread]
    have hhas := h.hasBinding_holding [.scope s] E
    rw [hshows] at hhas
    rw [Action.bind_ok hnone, Action.bind_error herror]
    dsimp only
    rw [Action.bind_ok hhas]
    rfl

/-- Probing a name along quiet environments reads it in the first that shows it. -/
theorem probeIn_eq (E : Engine σ) {chain : List ScopeId} (h : ∀ s ∈ chain, w.QuietScope s name)
    (strict : Bool) :
    E.probeIn name strict chain w =
      match chain.find? (w.shows · name) with
      | none => .ok none w
      | some s =>
          ((E.getBinding s name strict).holding [.scope s] >>= fun v => pure (some v)) w := by
  induction chain with
  | nil => rfl
  | cons s rest ih =>
      rw [List.find?_cons]
      cases hshows : w.shows s name with
      | true => exact E.probeIn_cons_of_shown (h s (by simp)) hshows strict
      | false =>
          rw [E.probeIn_cons_of_hidden (h s (by simp)) hshows]
          exact ih fun s' hs' => h s' (by simp [hs'])

/-- Resolves a name and reads the reference, which holds on to its environment meanwhile. -/
def readName (E : Engine σ) (start : Option ScopeId) (name : String) (strict : Bool) :
    Action σ Value := do
  let r ← E.reference start name strict
  (E.getReference r).holding (r.base.toList.map .scope)

/-- **Probing a name is resolving and reading it.** Let a name be looked up where asking for it runs
no code: no `with` environment on the way has accessors for what it hides, and no module
environment on the way had a slot for a name of its own when it imported the name. Then
resolving the name succeeds and changes nothing. If it resolves to nothing, and only then, the
probe answers that nothing has the name; otherwise the probe ends as resolving and reading the
name does, with the same value or error in the same world, whatever code the read runs. -/
theorem probeName_eq_readName (E : Engine σ) (start : Option ScopeId) (name : String)
    (strict : Bool) (w : World σ)
    (hwith : ∀ s ∈ w.chainFrom start, ∀ backing, (w.scope s).record = .object backing true →
      w.hasProperty backing name = true →
        w.ReadsQuietly backing Symbol.unscopables ∧
        ∀ hidden, w.dataValue backing Symbol.unscopables = .object hidden →
          w.ReadsQuietly hidden name)
    (hmodule : ∀ s ∈ w.chainFrom start, ∀ slots imports,
      (w.scope s).record = .module slots imports → (w.scope s).record.BoundLast) :
    ∃ r, E.reference start name strict w = .ok r w ∧
      ((∃ w', E.probeName start name strict w = .ok none w') ↔ r.base = none) ∧
      (r.base = none → E.probeName start name strict w = .ok none w) ∧
      (r.base ≠ none → E.probeName start name strict w =
        (E.readName start name strict >>= fun v => pure (some v)) w) := by
  have hquiet : ∀ s ∈ w.chainFrom start, w.QuietScope s name := by
    intro s hs
    refine World.quietScope_of_boundLast (hwith s hs) fun himport => ?_
    obtain ⟨i, hi⟩ := Option.isSome_iff_exists.1 himport
    obtain ⟨slots, imports, hrecord, -⟩ := Record.eq_module_of_import hi
    exact hmodule s hs slots imports hrecord
  have hchain : chainOf start w = .ok (w.chainFrom start) w := rfl
  have hfirst := E.firstWithBinding_eq hquiet
  have hreference : E.reference start name strict w =
      .ok ⟨(w.chainFrom start).find? (w.shows · name), name, strict⟩ w := by
    rw [reference, Action.bind_ok hchain, Action.bind_ok hfirst]
    rfl
  have hprobe : E.probeName start name strict w = E.probeIn name strict (w.chainFrom start) w := by
    rw [probeName, Action.bind_ok hchain]
  rw [E.probeIn_eq hquiet strict] at hprobe
  refine ⟨_, hreference, ?_⟩
  dsimp only
  have hread : E.readName start name strict w =
      (E.getReference ⟨(w.chainFrom start).find? (w.shows · name), name, strict⟩).holding
        (((w.chainFrom start).find? (w.shows · name)).toList.map .scope) w := by
    rw [readName, Action.bind_ok hreference]
  cases hfind : (w.chainFrom start).find? (w.shows · name) with
  | none =>
      rw [hfind] at hprobe
      simp [hprobe]
  | some s =>
      rw [hfind] at hprobe hread
      refine ⟨⟨?_, nofun⟩, nofun, fun _ => ?_⟩
      · rintro ⟨w', hnone⟩
        rw [hprobe] at hnone
        obtain ⟨v, _, -, hsome⟩ := Action.bind_eq_ok.1 hnone
        cases hsome
      · rw [hprobe, Action.bind_congr hread]
        rfl

/-- A name that a `with` statement hides, that is an import of another name for the module
environment around it, and that runs a getter of the global object. -/
theorem probeName_of_getter :
    let getter : Property := .accessor (some ⟨3⟩) none true true
    let property (v : Value) : Property := .data v true true true
    let backing : Table PropertyKey Property :=
      ⟨[("x", property .null), (Symbol.unscopables, property (.object ⟨2⟩))]⟩
    let hidden : Table PropertyKey Property := ⟨[("x", property (.boolean true))]⟩
    let w : World Unit :=
      { World.empty none (.below 0) () with
        objects := #[⟨none, true, Table.empty.insert "x" getter, .plain⟩,
          ⟨none, true, backing, .plain⟩, ⟨none, true, hidden, .plain⟩]
        scopes := #[⟨.global .empty ⟨⟨0⟩, ⟨0⟩, []⟩, none⟩,
          ⟨.module (Table.empty.insert "y" ⟨some .undefined, false, false, true⟩)
            (Table.empty.insert "y" ⟨⟨0⟩, "x"⟩), some ⟨0⟩⟩,
          ⟨.object ⟨1⟩ true, some ⟨1⟩⟩] }
    ∀ E : Engine Unit, E.reference (some ⟨2⟩) "x" true w = .ok ⟨some ⟨0⟩, "x", true⟩ w ∧
      E.probeName (some ⟨2⟩) "x" true w =
        (E.readName (some ⟨2⟩) "x" true >>= fun v => pure (some v)) w := by
  intro getter property backing hidden w E
  have hchain : w.chainFrom (some ⟨2⟩) = [⟨2⟩, ⟨1⟩, ⟨0⟩] := rfl
  have hwith : ∀ s ∈ w.chainFrom (some ⟨2⟩), ∀ o, (w.scope s).record = .object o true →
      w.hasProperty o "x" = true → w.ReadsQuietly o Symbol.unscopables ∧
        ∀ h, w.dataValue o Symbol.unscopables = .object h → w.ReadsQuietly h "x" := by
    rw [hchain]
    simp only [List.forall_mem_cons, List.not_mem_nil, false_implies, implies_true, and_true]
    refine ⟨?_, nofun, nofun⟩
    rintro o ⟨⟩ -
    have hunscopables : w.lookup ⟨1⟩ Symbol.unscopables = some (property (.object ⟨2⟩)) := by
      decide +kernel
    have hhidden : w.lookup ⟨2⟩ "x" = some (property (.boolean true)) := by decide +kernel
    refine ⟨fun p hp => ?_, fun h hh p hp => ?_⟩
    · rw [hunscopables] at hp
      cases hp
      rfl
    · rw [World.dataValue_of_lookup hunscopables] at hh
      cases hh
      rw [hhidden] at hp
      cases hp
      rfl
  have hmodule : ∀ s ∈ w.chainFrom (some ⟨2⟩), ∀ slots imports,
      (w.scope s).record = .module slots imports → (w.scope s).record.BoundLast := by
    rw [hchain]
    simp only [List.forall_mem_cons, List.not_mem_nil, false_implies, implies_true, and_true]
    have hadd : (Record.module .empty .empty).addImport "y" ⟨⟨0⟩, "x"⟩ =
        .ok (w.scope ⟨1⟩).record := rfl
    exact ⟨nofun, fun _ _ _ => .addImport .empty (.inl rfl) hadd, nofun⟩
  obtain ⟨r, hreference, -, -, hread⟩ :=
    E.probeName_eq_readName (some ⟨2⟩) "x" true w hwith hmodule
  have hr : E.reference (some ⟨2⟩) "x" true w = .ok ⟨some ⟨0⟩, "x", true⟩ w := rfl
  rw [hr] at hreference
  cases hreference
  exact ⟨hr, hread nofun⟩

end Engine

end EcmaCore
