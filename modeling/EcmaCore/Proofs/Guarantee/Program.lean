import EcmaCore.Program
import EcmaCore.Proofs.Guarantee.Builtin
import EcmaCore.Proofs.Guarantee.Scope

/-!
# Guarantees of programs

Requests, scripts, and the engine of a program. A script is a tree of requests
with a branch for every answer, so what it guarantees is shown by induction on
the tree; the engine of a program is shown to give a guarantee by induction on
its budget. Nothing is assumed of user code but that a licence admits the requests it
makes, and nothing of the world in which a run starts.

Calls put a context on the stack and take it off again, so a guarantee of calls has to
survive that (`CallGuarantee`). User code may also move the stack by requests; a
guarantee of all runs has to survive whatever they make of it (`RunGuarantee`).

## Main results

* `Guarantee.execute`: every request that is admitted and does not move the stack of
  contexts gives the guarantee.
* `Guarantee.script`: so does every script of such requests.
* `CallGuarantee.engine`: and every call by a program whose code makes such requests.
* `RunGuarantee.engine`, `RunGuarantee.runScript`: the same of requests that move the
  stack of contexts.
-/

namespace EcmaCore

/-! ## What user code asks for -/

/-- A licence admits a request: one that redefines a property if the redefinition is coherent, and
one that creates a buffer which is not charged only if it admits such buffers. -/
def Request.Admitted (L : Licence) : Request → Prop
  | .defineOrFail _ _ update | .define _ _ update => update.Coherent ∨ L.incoherent
  | .newBuffer .. => L.uncharged
  | _ => True

theorem Request.admitted_all (r : Request) : r.Admitted .all := by
  unfold Request.Admitted
  split
  · exact .inr trivial
  · exact .inr trivial
  · trivial
  · trivial

/-- Whether a request moves the stack of contexts. -/
def Request.movesContexts : Request → Bool
  | .pushContext .. | .pushCall .. | .popContext => true
  | _ => false

/-- Every request that a script makes, whatever worlds it looks at and whatever its requests are
answered with, has a property. -/
def Script.AllRequests {σ α : Type} (p : Request → Prop) : Script σ α → Prop
  | .done _ | .fail _ => True
  | .look next => ∀ w, (next w).AllRequests p
  | .tell _ next => next.AllRequests p
  | .ask r next => p r ∧ ∀ answer, (next answer).AllRequests p

/-- Every request that the code of a program makes has a property. -/
def Program.AllRequests {σ : Type} (p : Request → Prop) (P : Program σ) : Prop :=
  ∀ code entry, (P code entry).AllRequests p

theorem Script.allRequests_of {σ α : Type} {p : Request → Prop} (h : ∀ r, p r)
    (script : Script σ α) : script.AllRequests p := by
  induction script with
  | done a => trivial
  | fail e => trivial
  | look next ih => exact ih
  | tell f next ih => exact ih
  | ask r next ih => exact ⟨h r, ih⟩

/-- A guarantee that holds around a context if it holds inside of it. -/
structure CallGuarantee {σ : Type} [Embedding σ] (L : Licence) (R : World σ → World σ → Prop) : Prop
    extends Guarantee L R where
  inContext : ∀ {w w'} context, R { w with contexts := context :: w.contexts } w' →
    R w { w' with contexts := w'.contexts.tail }

/-- A guarantee that does not depend on the stack of contexts. -/
structure RunGuarantee {σ : Type} [Embedding σ] (L : Licence) (R : World σ → World σ → Prop) : Prop
    extends Guarantee L R where
  contexts : ∀ w contexts, R w { w with contexts }

variable {σ α : Type} [Embedding σ] {L : Licence} {R : World σ → World σ → Prop} {E : Engine σ}
  {P : Program σ} {p : Request → Prop}

namespace Guarantee

/-! ## Requests -/

theorem convert (hR : Guarantee L R) (hE : E.Guarantees R) (target : Conversion)
    (v : Value) : (E.convert target v).Guarantees R := by
  cases target with
  | primitive hint => exact hR.toPrimitive hE v hint
  | number => exact hR.bind (hR.toNumber hE v) fun _ => hR.pure _
  | string => exact hR.bind (hR.toText hE v) fun _ => hR.pure _
  | propertyKey => exact hR.bind (hR.toPropertyKey hE v) fun _ => hR.pure _
  | integerOrInfinity => exact hR.bind (hR.toIntegerOrInfinity hE v) fun _ => hR.pure _
  | index => exact hR.bind (hR.toIndex hE v) fun _ => hR.pure _
  | word => exact hR.bind (hR.toWord hE v) fun _ => hR.pure _

theorem setFunctionName (hR : Guarantee L R) (w : World σ) (f : ObjectId)
    (key : PropertyKey) (qualifier : Option String) :
    R w (w.modifyFunction f (·.setFunctionName key qualifier)) := by
  unfold Object.setFunctionName
  rw [World.modifyFunction_eq]
  split
  · exact hR.change (.define f _ _ (.inl (PropertyUpdate.coherent_full _)))
  · exact hR.refl w

theorem setFunctionLength (hR : Guarantee L R) (w : World σ) (f : ObjectId)
    (length : Number) : R w (w.modifyFunction f (·.setFunctionLength length)) := by
  unfold Object.setFunctionLength
  rw [World.modifyFunction_eq]
  split
  · exact hR.change (.define f _ _ (.inl (PropertyUpdate.coherent_full _)))
  · exact hR.refl w

/-- A realm is built by adding objects and installing fixtures. -/
theorem addRealm (hR : Guarantee L R) (w : World σ) : R w w.addRealm.2 := by
  have hadd (w : World σ) {new : Object} (h : new.buffer? = none) : R w (w.addObject new).2 :=
    hR.change (.addObject new h)
  refine hR.trans ?_ (hR.change (.addScope _ none))
  refine hR.trans ?_ (hR.addFixtures _ _ _ _)
  refine hR.trans ?_ (hadd _ rfl)
  refine hR.trans ?_ (hR.addFixtures _ _ _ _)
  refine hR.trans ?_ (hR.addFixtures _ _ _ _)
  refine hR.trans ?_ (hadd _ rfl)
  refine hR.trans ?_ (hadd _ (Object.buffer?_ofNative _ _ _ _ _))
  refine hR.trans ?_ (hR.addFixtures _ _ _ _)
  refine hR.trans ?_ (hadd _ (Object.buffer?_thrower _))
  refine hR.trans ?_ (hadd _ (Object.buffer?_ofNative _ _ _ _ _))
  exact hadd w rfl

/-- Carrying out a request gives the guarantee. -/
theorem execute (hR : Guarantee L R) (hE : E.Guarantees R) {r : Request} (hr : r.Admitted L)
    (hmoves : r.movesContexts = false) : (r.execute E).Guarantees R := by
  have done (act : Action σ Unit) (h : act.Guarantees R) :
      (do act; return Answer.done : Action σ Answer).Guarantees R :=
    hR.bind h fun _ => hR.pure _
  cases r with
  | newSymbol description => exact .change fun w => hR.change .countSymbol
  | convert target v => exact hR.bind (hR.convert hE target v) fun _ => hR.pure _
  | ordinaryToPrimitive o hint =>
      exact hR.bind (hR.ordinaryToPrimitive hE o hint) fun _ => hR.pure _
  | newObject prototype => exact hR.bind (hR.newObject prototype) fun _ => hR.pure _
  | getFor o key receiver => exact hR.bind (hR.getFor hE o key receiver) fun _ => hR.pure _
  | setFor o key v receiver => exact hR.bind (hR.setFor hE o key v receiver) fun _ => hR.pure _
  | setProperty o key v mustSucceed =>
      exact hR.bind (hR.setProperty hE o key v mustSucceed) fun _ => hR.pure _
  | defineOrFail o key update => exact done _ (hR.defineOrFail o key hr)
  | define o key update => exact hR.bind (hR.define o key hr) fun _ => hR.pure _
  | delete o key => exact hR.bind (.change fun w => hR.change (.delete o key)) fun _ => hR.pure _
  | preventExtensions o => exact done _ (.modify fun w => hR.change (.preventExtensions o))
  | getMethod o key => exact hR.bind (hR.getMethod hE o key) fun _ => hR.pure _
  | invoke o key args => exact hR.bind (hR.invoke hE o key args) fun _ => hR.pure _
  | addFixture o functionPrototype fixture =>
      exact done _ (.modify fun w => hR.addFixture w o functionPrototype fixture)
  | newNative prototype key arity call build =>
      exact hR.bind (hR.newNative prototype key arity call build) fun _ => hR.pure _
  | newOrdinary name length f => exact hR.bind (hR.newOrdinary name length f) fun _ => hR.pure _
  | newBound target boundThis boundArgs =>
      refine hR.bindOf (hR.boundFunction target boundThis boundArgs)
        (fun _ _ _ h => Engine.buffer?_boundFunction h) fun bound hbound => ?_
      exact hR.bind (hR.addObject hbound) fun _ => hR.pure _
  | setFunctionName f key qualifier =>
      exact done _ (.modify fun w => hR.setFunctionName w f key qualifier)
  | setFunctionLength f length => exact done _ (.modify fun w => hR.setFunctionLength w f length)
  | callValue f this args => exact hR.bind (hR.callValue hE f this args) fun _ => hR.pure _
  | callObject f this args => exact hR.bind (hE.call f this args) fun _ => hR.pure _
  | construct f args newTarget => exact hR.bind (hE.construct f args _) fun _ => hR.pure _
  | speciesConstructor o default =>
      exact hR.bind (hR.speciesConstructor hE o default) fun _ => hR.pure _
  | prototypeFromConstructor constructor fallback =>
      exact hR.bind (hR.prototypeFromConstructor hE constructor fallback) fun _ => hR.pure _
  | newObjectFromConstructor constructor fallback =>
      exact hR.bind (hR.newObjectFromConstructor hE constructor fallback) fun _ => hR.pure _
  | listFromArrayLike v => exact hR.bind (hR.listFromArrayLike hE v) fun _ => hR.pure _
  | allocateBuffer constructor length maximum =>
      exact hR.bind (hR.allocateBuffer hE constructor length maximum) fun _ => hR.pure _
  | newBuffer prototype length maximum shared =>
      exact hR.bind (hR.newBuffer prototype length maximum shared hr) fun _ => hR.pure _
  | maximumOption options => exact hR.bind (hR.maximumOption hE options) fun _ => hR.pure _
  | detach o => exact done _ (hR.detach o)
  | detachUnchecked o => exact hR.bind (hR.detachBuffer o) fun _ => hR.pure _
  | resizeBuffer o length => exact done _ (hR.resizeBuffer o length)
  | createBlock length => exact done _ (hR.createBlock length)
  | fillBuffer o position source =>
      exact done _ (.modify fun w => hR.change (.fill o position source))
  | reserve bytes =>
      refine hR.bind hR.settle fun _ => hR.bind (hR.attempt ?_) fun _ => hR.pure _
      exact fun w r reserved h => hR.change (.reserve h)
  | moveReservation r bytes =>
      refine hR.bind hR.settle fun _ => hR.bind (hR.attempt ?_) fun _ => hR.pure _
      intro w _ moved h
      cases hmoved : w.moveReservation r bytes with
      | error e =>
          rw [hmoved] at h
          cases h
      | ok moved =>
          rw [hmoved] at h
          cases h
          exact hR.change (.moveReservation hmoved)
  | dropReservation r => exact done _ (.modify fun w => hR.change (.dropReservation r))
  | newScope kind => exact hR.bind (hR.createScope kind) fun _ => hR.pure _
  | hasBinding s name => exact hR.bind (hR.hasBinding hE s name) fun _ => hR.pure _
  | createMutable s name deletable => exact done _ (hR.createMutable s name deletable)
  | createImmutable s name strict => exact done _ (hR.createImmutable s name strict)
  | initBinding s name v => exact done _ (hR.initBinding hE s name v)
  | setBinding s name v strict => exact done _ (hR.setBinding hE s name v strict)
  | getBinding s name strict => exact hR.bind (hR.getBinding hE s name strict) fun _ => hR.pure _
  | probeBinding s name strict =>
      exact hR.bind (hR.probeBinding hE s name strict) fun _ => hR.pure _
  | deleteBinding s name => exact hR.bind (hR.deleteBinding s name) fun _ => hR.pure _
  | createGlobalVar s name deletable => exact done _ (hR.createGlobalVar hE s name deletable)
  | createGlobalFunction s name f deletable =>
      exact done _ (hR.createGlobalFunction hE s name f deletable)
  | thisOf s => exact hR.bind (hR.thisOf s) fun _ => hR.pure _
  | bindThis s v => exact done _ (hR.bindThis s v)
  | bindCallThis s mode v => exact done _ (hR.bindCallThis s mode v)
  | resolveThis => exact hR.bind hR.resolveThis fun _ => hR.pure _
  | newModule source =>
      exact hR.bind (.change fun w => hR.change (.addModule source)) fun _ => hR.pure _
  | readExport m name strict => exact hR.bind (hE.readExport m name strict) fun _ => hR.pure _
  | createImport s source name exported => exact done _ (hR.createImport s source name exported)
  | reference s name strict => exact hR.bind (hR.reference hE s name strict) fun _ => hR.pure _
  | resolve name strict => exact hR.bind (hR.resolve hE name strict) fun _ => hR.pure _
  | getReference r => exact hR.bind (hR.getReference hE r) fun _ => hR.pure _
  | putReference r v => exact done _ (hR.putReference hE r v)
  | probeName s name strict => exact hR.bind (hR.probeName hE s name strict) fun _ => hR.pure _
  | pushContext | pushCall | popContext => cases hmoves
  | newRealm =>
      exact .change fun w => hR.trans (hR.addRealm w) (hR.change (.keepRealm w.addRealm.1))

theorem perform (hR : Guarantee L R) (hE : E.Guarantees R) {r : Request} (hr : r.Admitted L)
    (hmoves : r.movesContexts = false) : (r.perform E).Guarantees R :=
  hR.holding _ (hR.execute hE hr hmoves)

/-! ## Scripts -/

/-- A script guarantees what each of its requests does. -/
theorem script (hR : Guarantee L R) (hrequest : ∀ r, p r → (r.perform E).Guarantees R)
    {script : Script σ α} (hscript : script.AllRequests p) : (script.run E).Guarantees R := by
  induction script with
  | done a => exact hR.pure a
  | fail e => exact hR.fail e
  | look next ih => exact fun w => ih w (hscript w) w
  | tell f next ih => exact fun w => hR.trans (hR.change (.host f)) (ih hscript _)
  | ask r next ih =>
      intro w
      have hperform := hrequest r hscript.1
      unfold Action.after Script.run
      cases hrun : r.perform E w with
      | ok answer w' =>
          exact hR.trans (hperform.of_ok hrun) (ih _ (hscript.2 _) w')
      | error failure w' =>
          cases failure with
          | thrown e => exact hR.trans (hperform.of_error hrun) (ih _ (hscript.2 _) w')
          | exhausted => exact hperform.of_error hrun

end Guarantee

/-! ## Calls -/

namespace CallGuarantee

section

variable (hR : CallGuarantee L R) (hrequest : ∀ r, p r → (r.perform E).Guarantees R)
  (hP : P.AllRequests p) (hE : E.Guarantees R)

include hR hrequest hP

theorem enter (code : CodeId) (entry : Entry) : (P.enter E code entry).Guarantees R :=
  hR.script hrequest (hP code entry)

theorem evaluateBody (f : ObjectId) (code : CodeId) (scope : ScopeId) (args : List Value) :
    (P.evaluateBody E f code scope args).Guarantees R := by
  intro w
  have henter := hR.holding [.scope scope] (hR.enter hrequest hP code (.body f scope args))
  show R w ((((P.enter E code (.body f scope args)).holding [.scope scope]).andFinally
    fun w => { w with contexts := w.contexts.tail }).after
      { w with contexts := ⟨some f, scope, scope⟩ :: w.contexts })
  rw [Action.after_andFinally]
  exact hR.inContext _ (henter _)

theorem callOrdinary (f : ObjectId) (d : OrdinaryFunction) (this : Value) (args : List Value) :
    (P.callOrdinary E f d this args).Guarantees R := by
  unfold Program.callOrdinary
  refine .ite (hR.look fun w => hR.fail _) (hR.bind (hR.newFunctionScope f none) fun s => ?_)
  exact hR.bind (hR.bindCallThis s _ this) fun _ => hR.evaluateBody hrequest hP f _ s args

include hE

theorem constructOrdinary (f : ObjectId) (d : OrdinaryFunction) (args : List Value)
    (newTarget : ObjectId) : (P.constructOrdinary E f d args newTarget).Guarantees R := by
  unfold Program.constructOrdinary
  split
  · refine hR.bind (hR.holding _ (hR.newObjectFromConstructor hE newTarget _)) fun this => ?_
    refine hR.bind (hR.newFunctionScope f _) fun s => ?_
    refine hR.bind (hR.bindCallThis s _ _) fun _ => ?_
    refine hR.bind (hR.holding _ (hR.evaluateBody hrequest hP f _ s args)) fun result => ?_
    split <;> exact hR.pure _
  · refine hR.bind (hR.newFunctionScope f _) fun s => ?_
    refine hR.bind (hR.evaluateBody hrequest hP f _ s args) fun result => ?_
    split
    · exact hR.pure _
    · exact hR.thisOf s
    · exact hR.fail _

theorem call (f : ObjectId) (this : Value) (args : List Value) :
    (P.call E f this args).Guarantees R := by
  unfold Program.call
  refine hR.look fun w => ?_
  split
  · exact hR.fail _
  · exact hR.callOrdinary hrequest hP f _ this args
  · exact hR.callBuiltin hE _ this args
  · exact hR.enter hrequest hP _ _
  · exact hR.holding _ (hE.call _ _ _)

theorem construct (f : ObjectId) (args : List Value) (newTarget : ObjectId) :
    (P.construct E f args newTarget).Guarantees R := by
  unfold Program.construct
  refine hR.look fun w => .ite ?_ (hR.fail _)
  split
  · exact hR.constructOrdinary hrequest hP hE f _ args newTarget
  · exact hR.constructBuiltin hE _ args newTarget
  · exact hR.enter hrequest hP _ _
  · exact hE.construct _ _ _
  · exact hR.fail _

theorem readExport (m : ModuleId) (name : String) (strict : Bool) :
    (P.readExport E m name strict).Guarantees R := by
  unfold Program.readExport
  refine hR.look fun w => ?_
  split
  · exact hR.getBinding hE _ name strict
  · exact hR.enter hrequest hP _ _

end

/-- The engine of a program gives what every request of its code guarantees, however deep calls
nest. -/
theorem engine (hR : CallGuarantee L R)
    (hrequest : ∀ E : Engine σ, E.Guarantees R → ∀ r, p r → (r.perform E).Guarantees R)
    (hP : P.AllRequests p) (budget : Nat) : (P.engine budget).Guarantees R := by
  induction budget with
  | zero => exact ⟨fun _ _ _ => hR.refl, fun _ _ _ => hR.refl, fun _ _ _ => hR.refl⟩
  | succ budget ih =>
      have hbudget := hrequest _ ih
      exact ⟨hR.call hbudget hP ih, hR.construct hbudget hP ih, hR.readExport hbudget hP ih⟩

end CallGuarantee

/-! ## Whole programs -/

namespace RunGuarantee

theorem callGuarantee (hR : RunGuarantee L R) : CallGuarantee L R where
  toGuarantee := hR.toGuarantee
  inContext _ h := hR.trans (hR.contexts _ _) (hR.trans h (hR.contexts _ _))

theorem pushContext (hR : RunGuarantee L R) (s : ScopeId) (f : Option ObjectId) :
    (Engine.pushContext s f : Action σ Unit).Guarantees R :=
  .modify fun w => hR.contexts w _

theorem popContext (hR : RunGuarantee L R) : (Engine.popContext : Action σ Bool).Guarantees R :=
  .change fun w => hR.contexts w _

/-- Carrying out any request that is admitted gives the guarantee. -/
theorem perform (hR : RunGuarantee L R) (hE : E.Guarantees R) (r : Request)
    (hr : r.Admitted L) : (r.perform E).Guarantees R := by
  have done (act : Action σ Unit) (h : act.Guarantees R) :
      (do act; return Answer.done : Action σ Answer).Guarantees R :=
    hR.bind h fun _ => hR.pure _
  cases hmoves : r.movesContexts with
  | false => exact hR.toGuarantee.perform hE hr hmoves
  | true =>
      apply hR.holding
      cases r with
      | pushContext s f => exact done _ (hR.pushContext s f)
      | pushCall f newTarget =>
          exact hR.bind (hR.newFunctionScope f newTarget) fun s => done _ (hR.pushContext s _)
      | popContext => exact hR.bind hR.popContext fun _ => hR.pure _
      | _ => cases hmoves

/-- The engine of a program gives the guarantee, however deep calls nest. -/
theorem engine (hR : RunGuarantee L R) (hP : P.AllRequests (·.Admitted L))
    (budget : Nat) : (P.engine budget).Guarantees R :=
  hR.callGuarantee.engine (fun _ hE => hR.perform hE) hP budget

/-- Every run of a program gives the guarantee. -/
theorem runScript (hR : RunGuarantee L R) (hP : P.AllRequests (·.Admitted L))
    (budget : Nat) {script : Script σ α}
    (hscript : script.AllRequests (·.Admitted L)) :
    (P.runScript budget script).Guarantees R :=
  hR.script (hR.perform (hR.engine hP budget)) hscript

end RunGuarantee

end EcmaCore
