import EcmaCore.Proofs.Program.Checked
import EcmaCore.Proofs.Scope.This

/-!
# What `this` is in the body of a function

A function that has a `this` of its own is entered with it bound, or, for the constructor
of a derived class, unbound until the constructor binds it. A function with a lexical
`this` has none: its body, and the bodies of such functions inside it, find the `this` of
the invocation that they were created in. So the `this` that is passed to them makes no
difference, and neither does who calls them.

## Main results

* `World.Inside.findsThis`: code inside an invocation finds its `this`, at any depth.
* `Program.checkedEngine_bodyCheck`: every body starts with its own environment running.
* `World.thisFixed_enterBody`, `World.boundOnce_enterBody`: the `this` of an invocation.
* `Program.this_resolution`: what `this` is, whatever runs.
-/

namespace EcmaCore

namespace World

variable {σ : Type} {w w' : World σ} {f : ObjectId} {d : OrdinaryFunction}
  {newTarget : Option ObjectId} {this : Option Value}

/-- What the environment of a body knows of the invocation. -/
theorem invocation?_enterBody :
    ((w.enterBody f d newTarget this).scope w.nextScope).record.invocation? =
      some ⟨this, d.thisMode == .lexical, f, newTarget⟩ := by
  rw [scope_enterBody]
  rfl

/-! ## Where bodies run -/

/-- The body of `g` starts for `f` with the environment `s`: `g` is `f`, names are looked up in `s`,
and so is `this`, if the function has one of its own. -/
structure RunsBody (w : World σ) (f g : ObjectId) (s : ScopeId) : Prop where
  function : g = f
  running : w.runningScope = s
  this : (w.scope s).record.hasThis = true → w.thisScope = s

instance (w : World σ) (f g : ObjectId) (s : ScopeId) : Decidable (w.RunsBody f g s) :=
  decidable_of_iff
    (g = f ∧ w.runningScope = s ∧ ((w.scope s).record.hasThis = true → w.thisScope = s))
    ⟨fun ⟨h₁, h₂, h₃⟩ => ⟨h₁, h₂, h₃⟩, fun ⟨h₁, h₂, h₃⟩ => ⟨h₁, h₂, h₃⟩⟩

/-- The check that bodies run in their own environments. -/
def bodyCheck : BodyCheck σ := fun _ f _ w' g s => decide (w'.RunsBody f g s)

theorem runsBody_startBody (w : World σ) (f : ObjectId) (s : ScopeId) (held : List Entity) :
    (w.startBody f s held).RunsBody f f s where
  function := rfl
  running := rfl
  this hthis := (FindsThis.here hthis).thisScope rfl

theorem bodyCheck_passes : (bodyCheck (σ := σ)).Passes FunctionsKeep :=
  fun _ held _ _ _ _ => decide_eq_true (runsBody_startBody _ _ _ held)

variable [Embedding σ]

theorem reaches_startBody (w : World σ) (f : ObjectId) (s : ScopeId) (held : List Entity) :
    w.Reaches (w.startBody f s held) :=
  .change (.contexts .refl (⟨some f, s, s⟩ :: w.contexts)) (.hold held)

/-! ## Code inside an invocation -/

/-- The environment `s` belongs to code inside the invocation with the environment `t`: it is this
environment, or that of a block or of a function with a lexical `this` that was created inside, at
any later moment and by any code. -/
inductive Inside (t : ScopeId) : World σ → ScopeId → Prop
  | own {w : World σ} (h : (w.scope t).record.hasThis = true) : Inside t w t
  | later {w w' : World σ} {s : ScopeId} (h : Inside t w s) (hreaches : w.Reaches w') :
      Inside t w' s
  | block {w : World σ} {s : ScopeId} {record : Record} (h : Inside t w s)
      (hnone : record.hasThis = false) : Inside t (w.addScope record (some s)).2 w.nextScope
  | lexical {w : World σ} {s : ScopeId} {f : ObjectId} {d : OrdinaryFunction} (h : Inside t w s)
      (hmode : d.thisMode = .lexical) (hscope : d.scope = s) (newTarget : Option ObjectId)
      (this : Option Value) : Inside t (w.enterBody f d newTarget this) w.nextScope

/-- An environment without a `this` of its own leaves the search to the one around it. -/
theorem FindsThis.addScope {s t : ScopeId} {depth : Nat} {record : Record}
    (h : w.FindsThis t depth s) (hnone : record.hasThis = false) :
    (w.addScope record (some s)).2.FindsThis t (depth + 1) w.nextScope := by
  have hnew : (w.addScope record (some s)).2.scope w.nextScope = ⟨record, some s⟩ := by
    rw [scope_addScope]
    exact if_pos rfl
  refine .outward ?_ ?_ (h.reaches (.change .refl (.addScope record (some s))))
  · rw [hnew]
    exact hnone
  · rw [hnew]

/-- **Code inside an invocation finds its `this`.** -/
theorem Inside.findsThis {s t : ScopeId} (h : w.Inside t s) :
    ∃ depth, w.FindsThis t depth s := by
  induction h with
  | own hthis => exact ⟨0, .here hthis⟩
  | later _ hreaches ih =>
      obtain ⟨depth, hfinds⟩ := ih
      exact ⟨depth, hfinds.reaches hreaches⟩
  | block _ hnone ih =>
      obtain ⟨depth, hfinds⟩ := ih
      exact ⟨depth + 1, hfinds.addScope hnone⟩
  | @lexical w s f d _ hmode hscope newTarget this ih =>
      obtain ⟨depth, hfinds⟩ := ih
      have hnone : (bodyScope f d newTarget this).record.hasThis = false := by
        simp [bodyScope, Record.hasThis, hmode]
      subst hscope
      exact ⟨depth + 1, hfinds.addScope hnone⟩

/-! ## The `this` of an invocation -/

/-- A function without a lexical `this` has one of its own. -/
theorem inside_enterBody (hmode : d.thisMode ≠ .lexical) :
    (w.enterBody f d newTarget this).Inside w.nextScope w.nextScope := by
  refine .own ?_
  rw [scope_enterBody]
  simpa [bodyScope, Record.hasThis] using hmode

/-- The `this` that a function is entered with stays its `this`. -/
theorem thisFixed_enterBody (hmode : d.thisMode ≠ .lexical) (v : Value) :
    (w.enterBody f d newTarget (some v)).ThisFixed w.nextScope v :=
  thisFixed_of_bound invocation?_enterBody (by simpa using hmode) rfl

/-- A function that is entered without a `this` binds it once. -/
theorem boundOnce_enterBody (hmode : d.thisMode ≠ .lexical)
    (hreaches : (w.enterBody f d newTarget none).Reaches w') :
    (w.enterBody f d newTarget none).ThisBoundOnce w.nextScope w' :=
  boundOnce_of_reaches invocation?_enterBody (by simpa using hmode) rfl hreaches

end World

/-- Every body starts with its own environment running, so that checking it makes no difference. -/
theorem Program.checkedEngine_bodyCheck {σ : Type} [Embedding σ] (P other : Program σ)
    (budget : Nat) : P.checkedEngine other World.bodyCheck budget = P.engine budget :=
  checkedEngine_eq World.bodyCheck_passes (World.functionsKeep_guarantee .all).toGuarantee
    P.engine_functionsKeep other budget

/-- **What `this` is.** In every world, `this` is that of the nearest environment from the running
one outward that has one, and code inside an invocation finds that of the invocation from the
moment at which its environment is created, however deep it nests, whoever calls it and whatever
runs meanwhile. The running environment is that of the body wherever a body starts: an engine that
checks this at the start of every body, and whether a function with a `this` of its own is asked for
it, and that would otherwise go on with any other code, runs everything as the engine of the program
does. As for the invocations of an ordinary function:

* a call evaluates the body in a new environment inside the closure; with a lexical `this`, the one
  that is passed makes no difference;
* any other function has a `this` of its own. For a strict function it is the value that is passed,
  for a sloppy one the global object in place of undefined and null, and for a base constructor the
  object that was created for it; it never changes, and binding it again is a reference error;
* in a derived constructor it is unbound: reading it is a reference error, until it is bound once
  and for all. -/
theorem Program.this_resolution {σ : Type} [Embedding σ] (P : Program σ) (budget : Nat)
    {w : World σ} {f : ObjectId} {d : OrdinaryFunction} (hf : w.function? f = some (.ordinary d)) :
    (∀ (u : World σ) (t s : ScopeId) (depth : Nat), u.FindsThis t depth s → u.runningScope = s →
      Engine.resolveThis u = Engine.thisOf t u) ∧
    (∀ (u : World σ) (t s : ScopeId), u.Inside t s →
      ∃ depth, ∀ u', u.Reaches u' → u'.FindsThis t depth s) ∧
    (∀ (other : Program σ) (depth : Nat),
      P.checkedEngine other World.bodyCheck depth = P.engine depth) ∧
    (d.kind = .normal → ∀ this args,
      (P.engine (budget + 1)).call f this args w =
        P.evaluateBody (P.engine budget) f d.code w.nextScope args
          (w.enterBody f d none (d.thisMode.received w.realm this))) ∧
    (d.thisMode = .lexical → ∀ this this' args,
      (P.engine (budget + 1)).call f this args w =
        (P.engine (budget + 1)).call f this' args w) ∧
    (d.thisMode ≠ .lexical → ∀ newTarget this,
      (w.enterBody f d newTarget this).Inside w.nextScope w.nextScope) ∧
    (d.thisMode = .strict → ∀ newTarget v,
      (w.enterBody f d newTarget (d.thisMode.received w.realm v)).ThisFixed w.nextScope v) ∧
    (d.thisMode = .global → ∀ newTarget v,
      (w.enterBody f d newTarget (d.thisMode.received w.realm v)).ThisFixed w.nextScope
        (if v.isNullish then .object w.realm.global else v)) ∧
    (d.constructorKind = .base → d.thisMode ≠ .lexical → ∀ args newTarget o w₁,
      ((P.engine budget).newObjectFromConstructor newTarget .objectPrototype).holding
          (.object newTarget :: args.flatMap Value.entities) w = .ok o w₁ →
        (P.engine (budget + 1)).construct f args newTarget w =
            ((P.evaluateBody (P.engine budget) f d.code w₁.nextScope args).holding [.object o] >>=
              baseResult o)
              (w₁.enterBody f d (some newTarget) (d.thisMode.received w₁.realm (.object o))) ∧
          (w₁.enterBody f d (some newTarget) (d.thisMode.received w₁.realm (.object o))).ThisFixed
            w₁.nextScope (.object o)) ∧
    (d.constructorKind = .derived → d.thisMode ≠ .lexical → ∀ args newTarget,
      (P.engine (budget + 1)).construct f args newTarget w =
          (P.evaluateBody (P.engine budget) f d.code w.nextScope args >>=
            derivedResult w.nextScope) (w.enterBody f d (some newTarget) none) ∧
        ∀ u, (w.enterBody f d (some newTarget) none).Reaches u →
          (w.enterBody f d (some newTarget) none).ThisBoundOnce w.nextScope u) := by
  have hcall (hkind : d.kind ≠ .classConstructor) (this : Value) (args : List Value) :
      (P.engine (budget + 1)).call f this args w =
        P.evaluateBody (P.engine budget) f d.code w.nextScope args
          (w.enterBody f d none (d.thisMode.received w.realm this)) := by
    rw [P.engine_call, P.call_ordinary _ hf, P.callOrdinary_eq _ hf, if_neg hkind]
  refine ⟨fun u t s depth hfinds => hfinds.resolveThis, fun u t s hinside => ?_,
    P.checkedEngine_bodyCheck, fun hkind => hcall (by rw [hkind]; decide),
    fun hmode this this' args => ?_, fun hmode newTarget this => World.inside_enterBody hmode,
    fun hmode newTarget v => ?_, fun hmode newTarget v => ?_,
    fun hbase hmode args newTarget o w₁ hcreated => ?_,
    fun hderived hmode args newTarget => ⟨?_, fun u => World.boundOnce_enterBody hmode⟩⟩
  · obtain ⟨depth, hfinds⟩ := hinside.findsThis
    exact ⟨depth, fun u' => hfinds.reaches⟩
  · rw [P.engine_call, P.engine_call, P.call_ordinary _ hf, P.call_ordinary _ hf,
      P.callOrdinary_eq _ hf, P.callOrdinary_eq _ hf, hmode]
    rfl
  · rw [hmode]
    exact World.thisFixed_enterBody (by rw [hmode]; decide) v
  · rw [hmode]
    exact World.thisFixed_enterBody (by rw [hmode]; decide) _
  · have hf₁ := function?_of_created (P.engine_functionsKeep budget) hf hcreated
    refine ⟨?_, ?_⟩
    · rw [P.engine_construct, P.construct_ordinary _ hf, if_neg (by rw [hbase]; decide)]
      exact P.constructOrdinary_base _ hf₁ hbase hcreated
    · rw [ThisMode.received_object hmode]
      exact World.thisFixed_enterBody hmode _
  · rw [P.engine_construct, P.construct_ordinary _ hf, if_neg (by rw [hderived]; decide)]
    exact P.constructOrdinary_of_ne_base _ hf (by rw [hderived]; decide) args newTarget

/-- A function creates one with a lexical `this` and calls it, with another `this`: the body of the
inner one asks for `this` and finds the one that was passed to the outer one. A derived constructor
binds its `this` once. -/
theorem Program.this_of_lexical_function :
    let method : OrdinaryFunction := ⟨⟨0⟩, .normal, .none, .strict, ⟨0⟩, none⟩
    let arrow : OrdinaryFunction := ⟨⟨1⟩, .normal, .none, .lexical, ⟨1⟩, none⟩
    let constructor : OrdinaryFunction := ⟨⟨0⟩, .classConstructor, .derived, .strict, ⟨2⟩, none⟩
    let w : World Unit :=
      { World.empty none (.below 0) () with
        objects := #[.ofOrdinary ⟨9⟩ "m" 0 method, .ofOrdinary ⟨9⟩ "C" 0 constructor]
        scopes := #[⟨.declarative .empty, none⟩] }
    let P : Program Unit := fun code entry =>
      match code, entry with
      | ⟨0⟩, .body _ s _ =>
          .ask (.newOrdinary "f" 0 { arrow with scope := s }) fun
            | .ok (.object (some f)) =>
                .ask (.callObject f .null []) fun
                  | .ok (.value v) => .done v
                  | _ => .done .undefined
            | _ => .done .undefined
      | ⟨1⟩, .body .. =>
          .ask .resolveThis fun
            | .ok (.value v) => .done v
            | _ => .done .undefined
      | _, _ => .done .undefined
    let outer := (w.enterBody ⟨0⟩ method none (some (.boolean true))).startBody ⟨0⟩ ⟨1⟩ [.scope ⟨1⟩]
    let created := (Engine.newOrdinary "f" 0 arrow).after outer
    let inner := (created.enterBody ⟨2⟩ arrow none none).startBody ⟨2⟩ ⟨2⟩ [.scope ⟨2⟩, .scope ⟨1⟩]
    let constructing := w.enterBody ⟨1⟩ constructor (some ⟨1⟩) none
    (match (P.engine 2).call ⟨0⟩ (.boolean true) [] w with
      | .ok v _ => some v
      | .error .. => none) = some (.boolean true) ∧
    Engine.resolveThis inner = .ok (.boolean true) inner ∧
      constructing.ThisBoundOnce ⟨1⟩ constructing := by
  intro method arrow constructor w P outer created inner constructing
  obtain ⟨hresolve, hinside, -, -, -, hown, hstrict, -⟩ :=
    P.this_resolution 0 (show w.function? ⟨0⟩ = some (.ordinary method) from by decide +kernel)
  obtain ⟨-, -, -, -, -, -, -, -, -, hderived⟩ :=
    P.this_resolution 0 (show w.function? ⟨1⟩ = some (.ordinary constructor) from by decide +kernel)
  refine ⟨by decide +kernel, ?_, (hderived rfl (by decide) [] ⟨1⟩).2 constructing .refl⟩
  let entered := w.enterBody ⟨0⟩ method none (some (.boolean true))
  have hentered : entered.Inside ⟨1⟩ ⟨1⟩ := hown (by decide) none (some (.boolean true))
  have hcreated : entered.Reaches created :=
    (World.reaches_startBody _ _ _ _).trans
      (World.reaches_guarantee.newOrdinary "f" 0 arrow outer)
  have hlexical : (created.enterBody ⟨2⟩ arrow none none).Inside ⟨1⟩ ⟨2⟩ :=
    (hentered.later hcreated).lexical rfl rfl none none
  have hinner : (created.enterBody ⟨2⟩ arrow none none).Reaches inner :=
    World.reaches_startBody _ _ _ _
  obtain ⟨depth, hfinds⟩ := hinside _ ⟨1⟩ ⟨2⟩ hlexical
  have hfixed := (hstrict rfl none (.boolean true) inner
    ((hcreated.change (.addScope _ _)).trans hinner)).1
  rw [hresolve inner ⟨1⟩ ⟨2⟩ depth (hfinds inner hinner) rfl]
  exact hfixed

end EcmaCore
