import EcmaCore.Proofs.Builtin.Construct
import EcmaCore.Proofs.Program.NewTarget

/-!
# What a construction gives

A construction with an ordinary function gives an object that its body returns. Where the
body returns none, it gives the `this` of the invocation. A base constructor is entered with
a new object as its `this`, which has the prototype that the new target asks for; whatever
the body does, that object is the `this` to the end. A derived constructor is entered
without one, and what was bound on the way through its body is the result; if nothing was,
there is none.

So the three things that can be seen of a body are what it returns, what it binds, and the
error that it ends with. `Program.BaseEnds` and `Program.DerivedEnds` say what each of them
comes to.

## Main results

* `World.bindsThis_iff`: the `this` at the end of a derived constructor is the one that was
  bound on the way.
* `World.underway_enterBody`: what holds in a body from its start on.
* `Program.baseResult_ends`, `Program.derivedResult_ends`: from the end of a body to the end
  of the construction.
* `Program.construction_outcome`: constructions with ordinary functions.
-/

namespace EcmaCore

namespace World

variable {σ : Type} [Embedding σ] {w u : World σ} {f newTarget : ObjectId} {d : OrdinaryFunction}
  {s : ScopeId} {v v' : Value}

/-! ## Binding `this` on the way -/

/-- On the way from one world to another, a value is bound as the `this` of an environment. -/
def BindsThis (w : World σ) (s : ScopeId) (v : Value) (u : World σ) : Prop :=
  ∃ before bound, w.Reaches before ∧ Engine.bindThis s v before = .ok () bound ∧ bound.Reaches u

/-- What was bound on the way is the `this` at the end. -/
theorem BindsThis.thisOf (h : w.BindsThis s v u) : Engine.thisOf s u = .ok v u := by
  obtain ⟨before, bound, -, hbound, hafter⟩ := h
  exact (thisFixed_of_bindThis hbound u hafter).1

/-- Nothing was bound on the way to a world without the `this`. -/
theorem not_bindsThis (h : (Engine.thisOf s).Throws .reference u) (v : Value) :
    ¬w.BindsThis s v u := by
  obtain ⟨e, -, hthrows⟩ := h
  intro hbinds
  rw [hbinds.thisOf] at hthrows
  cases hthrows

/-- **The `this` that is bound on the way is the one there is at the end**, for a function that is
entered without one. -/
theorem bindsThis_iff (hmode : d.thisMode ≠ .lexical)
    (hreaches : (w.enterBody f d (some newTarget) none).Reaches u) :
    (w.enterBody f d (some newTarget) none).BindsThis w.nextScope v u ↔
      Engine.thisOf w.nextScope u = .ok v u := by
  refine ⟨BindsThis.thisOf, fun hthis => ?_⟩
  rcases boundOnce_enterBody hmode hreaches with
    ⟨⟨e, -, hthrows⟩, -⟩ | ⟨v', before, bound, hbefore, -, hbound, hafter, -⟩
  · rw [hthis] at hthrows
    cases hthrows
  · have hbinds : (w.enterBody f d (some newTarget) none).BindsThis w.nextScope v' u :=
      ⟨before, bound, hbefore, hbound, hafter⟩
    cases hthis.symm.trans hbinds.thisOf
    exact hbinds

/-! ## Bodies that are under way -/

/-- In all worlds from `w` on, the code inside an invocation of `f` with the environment `s`, at any
depth, has the `this` of this environment, which records the function and a new target. -/
structure Underway (w : World σ) (s : ScopeId) (f newTarget : ObjectId) : Prop where
  own : w.Inside s s
  inside : ∀ u t, w.Reaches u → u.Inside s t → u.runningScope = t → u.thisScope = s
  recorded : ∀ u, w.Reaches u → ∃ info, (u.scope s).record.invocation? = some info ∧
    info.function = f ∧ info.newTarget = some newTarget

theorem underway_enterBody (hmode : d.thisMode ≠ .lexical) (this : Option Value) :
    (w.enterBody f d (some newTarget) this).Underway w.nextScope f newTarget where
  own := inside_enterBody hmode
  inside := by
    intro u t _ hinside hrunning
    obtain ⟨depth, hfinds⟩ := hinside.findsThis
    exact hfinds.thisScope hrunning
  recorded := fun u hreaches => newTarget_reaches invocation?_enterBody hreaches

end World

/-! ## The object of a base constructor -/

namespace Engine

variable {σ : Type} {E : Engine σ} {w u : World σ} {constructor : ObjectId} {fallback : Intrinsic}
  {entities : List Entity}

/-- The object that is created for a constructor inherits from what its `prototype` reads as, or
from an intrinsic object if that is none. -/
theorem newObjectFromConstructor_ok {v : Value}
    (h : (E.getProperty constructor "prototype").holding entities w = .ok v u) :
    (E.newObjectFromConstructor constructor fallback).holding entities w =
      .ok ⟨u.objects.size⟩
        (u.addObject (.new (some (v.objectOr (u.realm.intrinsic fallback))) .plain)).2 := by
  obtain ⟨u', hread, rfl⟩ := Action.holding_eq_ok h
  rw [Action.holding_apply, newObjectFromConstructor,
    Action.bind_ok (prototypeFromConstructor_ok hread)]
  rfl

/-- A `prototype` that cannot be read leaves nothing to create. -/
theorem newObjectFromConstructor_error {e : Failure}
    (h : (E.getProperty constructor "prototype").holding entities w = .error e u) :
    (E.newObjectFromConstructor constructor fallback).holding entities w = .error e u := by
  rw [Action.holding_apply] at h ⊢
  cases hread : E.getProperty constructor "prototype" { w with held := entities ++ w.held } with
  | ok v u' =>
      rw [hread] at h
      cases h
  | error e' u' =>
      rw [hread] at h
      cases h
      rw [newObjectFromConstructor, Action.bind_error (prototypeFromConstructor_error hread)]

end Engine

/-! ## From the end of the body to the end of the construction -/

namespace Program

variable {σ : Type}

/-- How a base construction ends whose body ends in some way: with the error of the body, with the
object that the body returns, or else with the object that was created. -/
inductive BaseEnds (o : ObjectId) :
    EStateM.Result Failure (World σ) Value → EStateM.Result Failure (World σ) Value → Prop
  | failed (e : Failure) (u : World σ) : BaseEnds o (.error e u) (.error e u)
  | returned (result : ObjectId) (u : World σ) :
      BaseEnds o (.ok (.object result) u) (.ok (.object result) u)
  | created {v : Value} (u : World σ) (h : ∀ result, v ≠ .object result) :
      BaseEnds o (.ok v u) (.ok (.object o) u)

/-- A base construction never gives a primitive. -/
theorem BaseEnds.exists_object {o : ObjectId} {body : EStateM.Result Failure (World σ) Value}
    {v : Value} {u : World σ} (h : BaseEnds o body (.ok v u)) : ∃ result, v = .object result := by
  cases h with
  | returned result => exact ⟨result, rfl⟩
  | created => exact ⟨o, rfl⟩

theorem baseResult_ends {w : World σ} (o : ObjectId) (body : Action σ Value) :
    BaseEnds o (body w) ((body >>= baseResult o) w) := by
  cases hbody : body w with
  | error e u =>
      rw [Action.bind_error hbody]
      exact .failed e u
  | ok v u =>
      rw [Action.bind_ok hbody]
      cases v with
      | object result => exact .returned result u
      | _ => exact .created u nofun

variable [Embedding σ]

/-- How a derived construction ends whose body starts in `w` and ends in some way: with the error of
the body, with the object that it returns, with a type error for any other value but undefined, and
otherwise with the `this` that was bound on the way, or with a reference error if none was. -/
inductive DerivedEnds (w : World σ) (s : ScopeId) :
    EStateM.Result Failure (World σ) Value → EStateM.Result Failure (World σ) Value → Prop
  | failed (e : Failure) (u : World σ) : DerivedEnds w s (.error e u) (.error e u)
  | returned (result : ObjectId) (u : World σ) :
      DerivedEnds w s (.ok (.object result) u) (.ok (.object result) u)
  | primitive {v : Value} {e : Error} (u : World σ) (h : ∀ result, v ≠ .object result)
      (hdefined : v ≠ .undefined) (hkind : e.kind = .type) :
      DerivedEnds w s (.ok v u) (.error (.thrown e) u)
  | bound {v : Value} {u : World σ} (h : w.BindsThis s v u) :
      DerivedEnds w s (.ok .undefined u) (.ok v u)
  | unbound {e : Error} {u : World σ} (h : ∀ v, ¬w.BindsThis s v u) (hkind : e.kind = .reference) :
      DerivedEnds w s (.ok .undefined u) (.error (.thrown e) u)

theorem derivedResult_ends {w : World σ} {f newTarget : ObjectId} {d : OrdinaryFunction}
    (hmode : d.thisMode ≠ .lexical) {body : Action σ Value}
    (hbody : body.Guarantees World.Reaches) :
    DerivedEnds (w.enterBody f d (some newTarget) none) w.nextScope
      (body (w.enterBody f d (some newTarget) none))
      ((body >>= derivedResult w.nextScope) (w.enterBody f d (some newTarget) none)) := by
  cases hrun : body (w.enterBody f d (some newTarget) none) with
  | error e u =>
      rw [Action.bind_error hrun]
      exact .failed e u
  | ok v u =>
      rw [Action.bind_ok hrun]
      cases v with
      | object result => exact .returned result u
      | undefined =>
          rcases World.boundOnce_enterBody hmode (hbody.of_ok hrun) with
            ⟨hthrows, -⟩ | ⟨v, before, bound, hbefore, -, hbound, hafter, -⟩
          · have hnone := World.not_bindsThis (w := w.enterBody f d (some newTarget) none) hthrows
            obtain ⟨e, hkind, hthrown⟩ := hthrows
            rw [derivedResult, hthrown]
            exact .unbound hnone hkind
          · have hbinds : (w.enterBody f d (some newTarget) none).BindsThis w.nextScope v u :=
              ⟨before, bound, hbefore, hbound, hafter⟩
            rw [derivedResult, hbinds.thisOf]
            exact .bound hbinds
      | _ => exact .primitive u nofun nofun rfl

/-- Evaluating a body leads to later worlds. -/
theorem evaluateBody_reaches (P : Program σ) (budget : Nat) (f : ObjectId) (code : CodeId)
    (s : ScopeId) (args : List Value) :
    (P.evaluateBody (P.engine budget) f code s args).Guarantees World.Reaches :=
  World.reaches_guarantee.callGuarantee.evaluateBody
    (World.reaches_guarantee.perform (P.engine_reaches budget))
    (fun _ _ => Script.allRequests_of Request.admitted_all _) f code s args

/-- What a construction with an ordinary function holds on to while it asks for the prototype. -/
def asking (newTarget : ObjectId) (args : List Value) : List Entity :=
  .object newTarget :: args.flatMap Value.entities

section

variable (P : Program σ) (budget : Nat) {w u : World σ} {f newTarget : ObjectId}
  {d : OrdinaryFunction} {args : List Value}

/-- A base construction whose new target cannot be asked for the prototype ends there. -/
theorem construct_base_error (hf : w.function? f = some (.ordinary d))
    (hbase : d.constructorKind = .base) {e : Failure}
    (hread : ((P.engine budget).getProperty newTarget "prototype").holding
      (asking newTarget args) w = .error e u) :
    (P.engine (budget + 1)).construct f args newTarget w = .error e u := by
  rw [P.engine_construct, P.construct_ordinary _ hf, if_neg (by rw [hbase]; decide),
    constructOrdinary, hbase]
  exact Action.bind_error (Engine.newObjectFromConstructor_error hread)

/-- Any other base construction evaluates the body with the object that it creates. -/
theorem construct_base_ends (hf : w.function? f = some (.ordinary d))
    (hbase : d.constructorKind = .base) (hmode : d.thisMode ≠ .lexical) {v : Value}
    (hread : ((P.engine budget).getProperty newTarget "prototype").holding
      (asking newTarget args) w = .ok v u) :
    let o : ObjectId := ⟨u.objects.size⟩
    let created := (u.addObject (.new (some (v.objectOr u.realm.objectPrototype)) .plain)).2
    BaseEnds o
      ((P.evaluateBody (P.engine budget) f d.code created.nextScope args).holding [.object o]
        (created.enterBody f d (some newTarget) (some (.object o))))
      ((P.engine (budget + 1)).construct f args newTarget w) := by
  intro o created
  have hcreated : ((P.engine budget).newObjectFromConstructor newTarget .objectPrototype).holding
      (asking newTarget args) w = .ok o created :=
    Engine.newObjectFromConstructor_ok hread
  have hf' := function?_of_created (P.engine_functionsKeep budget) hf hcreated
  rw [P.engine_construct, P.construct_ordinary _ hf, if_neg (by rw [hbase]; decide),
    P.constructOrdinary_base _ hf' hbase hcreated, ThisMode.received_object hmode]
  exact baseResult_ends o _

/-- A base construction that gives something gives an object. -/
theorem construct_base_object (hf : w.function? f = some (.ordinary d))
    (hbase : d.constructorKind = .base) (hmode : d.thisMode ≠ .lexical) {v : Value}
    (hok : (P.engine (budget + 1)).construct f args newTarget w = .ok v u) :
    ∃ result, v = .object result := by
  cases hread : ((P.engine budget).getProperty newTarget "prototype").holding
      (asking newTarget args) w with
  | error e u' =>
      rw [P.construct_base_error budget hf hbase hread] at hok
      cases hok
  | ok v' u' =>
      have hends := P.construct_base_ends budget hf hbase hmode hread
      rw [hok] at hends
      exact hends.exists_object

/-- A derived construction evaluates the body without an object. -/
theorem construct_derived_ends (hf : w.function? f = some (.ordinary d))
    (hderived : d.constructorKind = .derived) (hmode : d.thisMode ≠ .lexical) :
    DerivedEnds (w.enterBody f d (some newTarget) none) w.nextScope
      (P.evaluateBody (P.engine budget) f d.code w.nextScope args
        (w.enterBody f d (some newTarget) none))
      ((P.engine (budget + 1)).construct f args newTarget w) := by
  rw [P.engine_construct, P.construct_ordinary _ hf, if_neg (by rw [hderived]; decide),
    P.constructOrdinary_of_ne_base _ hf (by rw [hderived]; decide)]
  exact derivedResult_ends hmode (P.evaluateBody_reaches budget f d.code w.nextScope args)

end

/-- **What a construction with an ordinary function gives.** Let the function have a `this` of its
own.

* A base constructor reads the `prototype` of the new target first, and an error there is all that
  happens. Otherwise its body runs with a new plain object as its `this`, for good, whose prototype
  is what was read if that is an object and the prototype of all objects of the realm if not. The
  construction gives the object that the body returns, or else the new one, and never a primitive.
* A derived constructor has no object when its body starts, and no `this`. The construction gives
  the object that the body returns; for undefined it gives the `this` that was bound on the way,
  which is the one there is at the end; and it is a type error or a reference error otherwise.
* In both, the body starts with the environment of the invocation running, which an engine may
  check at the start of every body without any difference. The new target is on record from the
  start of the body on, `this` in code inside the invocation is that of the invocation, and the
  error of the body is that of the construction. -/
theorem construction_outcome (P : Program σ) (budget : Nat) {w : World σ} {f : ObjectId}
    {d : OrdinaryFunction} (hf : w.function? f = some (.ordinary d)) (hmode : d.thisMode ≠ .lexical)
    (args : List Value) (newTarget : ObjectId) :
    (∀ other : Program σ,
      P.checkedEngine other World.bodyCheck (budget + 1) = P.engine (budget + 1)) ∧
    (d.constructorKind = .base →
      (∀ v u, (P.engine (budget + 1)).construct f args newTarget w = .ok v u →
        ∃ result, v = .object result) ∧
      (∀ e u, ((P.engine budget).getProperty newTarget "prototype").holding
          (asking newTarget args) w = .error e u →
        (P.engine (budget + 1)).construct f args newTarget w = .error e u) ∧
      ∀ v u, ((P.engine budget).getProperty newTarget "prototype").holding
          (asking newTarget args) w = .ok v u →
        let o : ObjectId := ⟨u.objects.size⟩
        let created := (u.addObject (.new (some (v.objectOr u.realm.objectPrototype)) .plain)).2
        let started := created.enterBody f d (some newTarget) (some (.object o))
        started.object o = .new (some (v.objectOr u.realm.objectPrototype)) .plain ∧
          started.ThisFixed created.nextScope (.object o) ∧
          started.Underway created.nextScope f newTarget ∧
          BaseEnds o
            ((P.evaluateBody (P.engine budget) f d.code created.nextScope args).holding [.object o]
              started)
            ((P.engine (budget + 1)).construct f args newTarget w)) ∧
    (d.constructorKind = .derived →
      let started := w.enterBody f d (some newTarget) none
      started.objects = w.objects ∧
        (Engine.thisOf w.nextScope).Throws .reference started ∧
        started.Underway w.nextScope f newTarget ∧
        (∀ v u, started.Reaches u →
          (started.BindsThis w.nextScope v u ↔ Engine.thisOf w.nextScope u = .ok v u)) ∧
        DerivedEnds started w.nextScope
          (P.evaluateBody (P.engine budget) f d.code w.nextScope args started)
          ((P.engine (budget + 1)).construct f args newTarget w)) := by
  refine ⟨fun other => P.checkedEngine_bodyCheck other (budget + 1),
    fun hbase => ⟨fun v u => P.construct_base_object budget hf hbase hmode,
      fun e u => P.construct_base_error budget hf hbase, fun v u hread => ?_⟩, fun hderived => ?_⟩
  · intro o created started
    exact ⟨u.object_addObject_self _, World.thisFixed_enterBody hmode _,
      World.underway_enterBody hmode _, P.construct_base_ends budget hf hbase hmode hread⟩
  · intro started
    have hunbound : (Engine.thisOf w.nextScope).Throws .reference started :=
      World.throws_of_unbound World.invocation?_enterBody (by simpa using hmode) rfl
    exact ⟨rfl, hunbound, World.underway_enterBody hmode none, fun v u => World.bindsThis_iff hmode,
      P.construct_derived_ends budget hf hderived hmode⟩

/-- A base constructor that marks its `this` and returns null gives the object that was created for
it, and a derived one that finds no `this`, binds one and finds that gives what it bound. -/
theorem construction_of_base_and_derived :
    let base : OrdinaryFunction := ⟨⟨0⟩, .normal, .base, .global, ⟨0⟩, none⟩
    let derived : OrdinaryFunction := ⟨⟨0⟩, .classConstructor, .derived, .strict, ⟨1⟩, none⟩
    let w : World Unit :=
      { World.empty none (.below 0) () with
        objects := #[.ofOrdinary ⟨9⟩ "B" 0 base, .ofOrdinary ⟨9⟩ "D" 0 derived]
        scopes := #[⟨.declarative .empty, none⟩] }
    let P : Program Unit := fun code entry =>
      match code, entry with
      | ⟨0⟩, .body .. =>
          .ask .resolveThis fun
            | .ok (.value (.object o)) => .ask (.setProperty o "x" .null true) fun _ => .done .null
            | _ => .done .undefined
      | ⟨1⟩, .body _ s _ =>
          .ask .resolveThis fun
            | .ok _ => .done .null
            | .error _ => .ask (.bindThis s (.boolean true)) fun _ =>
                .ask .resolveThis fun
                  | .ok (.value (.boolean true)) => .done .undefined
                  | _ => .done .null
      | _, _ => .done .null
    (∃ u, (P.engine 1).construct ⟨0⟩ [] ⟨0⟩ w = .ok (.object ⟨2⟩) u ∧
        u.own ⟨2⟩ "x" = some (.data .null true true true)) ∧
      ∃ u, (P.engine 1).construct ⟨1⟩ [] ⟨1⟩ w = .ok (.boolean true) u := by
  intro base derived w P
  constructor
  · obtain ⟨-, hbase, -⟩ :=
      P.construction_outcome 0
        (show w.function? ⟨0⟩ = some (.ordinary base) from by decide +kernel)
        (by decide) [] ⟨0⟩
    obtain ⟨-, -, hcreated⟩ := hbase rfl
    let created := (w.addObject (.new (some w.realm.objectPrototype) .plain)).2
    let body := (P.evaluateBody (P.engine 0) ⟨0⟩ base.code created.nextScope []).holding
      [.object ⟨2⟩]
    let started := created.enterBody ⟨0⟩ base (some ⟨0⟩) (some (.object ⟨2⟩))
    let u := body.after started
    have hbody : body started = .ok .null u := Action.eq_ok_of_run' (by decide +kernel)
    have hends : BaseEnds ⟨2⟩ (body started) ((P.engine 1).construct ⟨0⟩ [] ⟨0⟩ w) :=
      (hcreated .undefined w rfl).2.2.2
    rw [hbody] at hends
    generalize (P.engine 1).construct ⟨0⟩ [] ⟨0⟩ w = result at hends
    cases hends
    exact ⟨_, rfl, by decide +kernel⟩
  · obtain ⟨-, -, hderived⟩ :=
      P.construction_outcome 0
        (show w.function? ⟨1⟩ = some (.ordinary derived) from by decide +kernel)
        (by decide) [] ⟨1⟩
    obtain ⟨-, -, -, hbound, hends⟩ := hderived rfl
    let body := P.evaluateBody (P.engine 0) ⟨1⟩ derived.code w.nextScope []
    let started := w.enterBody ⟨1⟩ derived (some ⟨1⟩) none
    let u := body.after started
    have hbody : body started = .ok .undefined u := Action.eq_ok_of_run' (by decide +kernel)
    have hrecord : (u.scope w.nextScope).record.this = .ok (.boolean true) := by decide +kernel
    have hthis : Engine.thisOf w.nextScope u = .ok (.boolean true) u := by
      rw [World.thisOf_apply, hrecord]
      rfl
    have hreaches := (P.evaluateBody_reaches 0 ⟨1⟩ derived.code w.nextScope []).of_ok hbody
    have hbinds := (hbound (.boolean true) u hreaches).2 hthis
    change DerivedEnds started w.nextScope (body started)
      ((P.engine 1).construct ⟨1⟩ [] ⟨1⟩ w) at hends
    rw [hbody] at hends
    generalize (P.engine 1).construct ⟨1⟩ [] ⟨1⟩ w = result at hends ⊢
    cases hends with
    | primitive _ _ hdefined => exact absurd rfl hdefined
    | bound hbinds' =>
        cases hbinds'.thisOf.symm.trans hthis
        exact ⟨u, rfl⟩
    | unbound hnone => exact absurd hbinds (hnone _)

end Program

end EcmaCore
