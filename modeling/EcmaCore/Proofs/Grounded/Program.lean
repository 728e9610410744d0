import EcmaCore.Handles
import EcmaCore.Program
import EcmaCore.Proofs.Grounded.Builtin
import EcmaCore.Proofs.Grounded.Scope

/-!
# Grounded programs

User code gets its objects from somewhere: from the world that it looks at, from what it was
entered with and from the answers to its requests. A script is grounded if it names no others, in
its requests, in its result and in what it leaves with the embedding program. Nothing else is
assumed of user code. A grounded script of a grounded program is a grounded action, by induction
on the script, and so is every call, by induction on the budget.

## Main results

* `Grounded.execute`: a request is grounded if it names what is there.
* `Grounded.script`: so is every grounded script.
* `Grounded.engine`, `Grounded.runScript`: and every call by a grounded program, and every run.
-/

namespace EcmaCore

/-! ## What user code names -/

/-- The objects that a request names. -/
def Request.entities : Request → List Entity
  | .convert _ v | .listFromArrayLike v | .maximumOption v | .initBinding _ _ v
  | .setBinding _ _ v _ | .createGlobalFunction _ _ v _ | .bindThis _ v | .bindCallThis _ _ v
  | .putReference _ v => v.entities
  | .ordinaryToPrimitive o _ | .delete o _ | .preventExtensions o | .getMethod o _
  | .setFunctionName o _ _ | .setFunctionLength o _ | .prototypeFromConstructor o _
  | .newObjectFromConstructor o _ | .allocateBuffer o _ _ | .detach o | .detachUnchecked o
  | .resizeBuffer o _ | .fillBuffer o _ _ => [.object o]
  | .newObject o | .newNative o _ _ _ _ | .newBuffer o _ _ _ | .pushContext _ o =>
      o.toList.map .object
  | .getFor o _ receiver => .object o :: receiver.entities
  | .setFor o _ v receiver => .object o :: (v.entities ++ receiver.entities)
  | .setProperty o _ v _ => .object o :: v.entities
  | .defineOrFail o _ update | .define o _ update => .object o :: update.carried.entities
  | .invoke o _ args => .object o :: args.flatMap Value.entities
  | .addFixture o functionPrototype fixture =>
      .object o :: .object functionPrototype :: fixture.entities
  | .newBound target boundThis boundArgs =>
      .object target :: (boundThis.entities ++ boundArgs.flatMap Value.entities)
  | .callValue f this args => f.entities ++ (this.entities ++ args.flatMap Value.entities)
  | .callObject f this args => .object f :: (this.entities ++ args.flatMap Value.entities)
  | .construct f args newTarget =>
      .object f :: (newTarget.toList.map .object ++ args.flatMap Value.entities)
  | .speciesConstructor o default => [.object o, .object default]
  | .newScope kind => kind.entities
  | .pushCall f newTarget => .object f :: newTarget.toList.map .object
  | _ => []

/-- The objects that an answer names. -/
def Answer.entities : Answer → List Entity
  | .value v => v.entities
  | .values vs => vs.flatMap Value.entities
  | .object o => o.toList.map .object
  | .binding b => probedEntities b
  | .probed v => (v.map Value.entities).getD []
  | .realm r => r.entities
  | .done | .flag _ | .size _ | .reservation _ | .scope _ | .module _ | .reference _ => []

variable {σ α : Type} [Embedding σ]

/-- A script names nothing but objects that are there, when it was given none but the first `n`.
In any closed world that it looks at, it may name whatever is there. -/
def Script.Grounded (t : α → List Entity) : Script σ α → Nat → Prop
  | .done a, n => extent (t a) ≤ n
  | .fail _, _ => True
  | .look next, n => ∀ w : World σ, w.Closed → n ≤ w.objects.size →
      (next w).Grounded t w.objects.size
  | .tell f next, n =>
      (∀ host m, n ≤ m → extent (Embedding.roots host) ≤ m →
        extent (Embedding.roots (f host)) ≤ m) ∧ next.Grounded t n
  | .ask r next, n =>
      extent r.entities ≤ n ∧ ∀ answer m, n ≤ m → (∀ a, answer = .ok a → extent a.entities ≤ m) →
        (next answer).Grounded t m

/-- The code of a program names nothing but objects that are there, if it is entered with none but
such. -/
def Program.Grounded (P : Program σ) : Prop :=
  ∀ code entry n, extent entry.entities ≤ n → (P code entry).Grounded Value.entities n

namespace Grounded

variable {E : Engine σ} {P : Program σ} {n : Nat}

/-! ## Requests -/

theorem convert (hE : E.Grounded) (target : Conversion) {v : Value}
    (hv : extent v.entities ≤ n) : (E.convert target v).Grounded n Value.entities := by
  cases target with
  | primitive hint => exact toPrimitive hE hv hint
  | number => exact (toNumber hE hv).bind fun _ m _ _ => .pure (Nat.zero_le m)
  | string => exact (toText hE hv).bind fun _ m _ _ => .pure (Nat.zero_le m)
  | propertyKey =>
      refine (toPropertyKey hE hv).bind fun key m _ _ => .pure ?_
      cases key <;> exact Nat.zero_le m
  | integerOrInfinity => exact (toIntegerOrInfinity hE hv).bind fun _ m _ _ => .pure (Nat.zero_le m)
  | index => exact (toIndex hE hv).bind fun _ m _ _ => .pure (Nat.zero_le m)
  | word => exact (toWord hE hv).bind fun _ m _ _ => .pure (Nat.zero_le m)

/-- Giving a function a property that names no object. -/
theorem modifyFunction (f : ObjectId) (key : PropertyKey) {update : PropertyUpdate}
    (h : update.carried.entities = []) :
    (modifyGet fun w => (PUnit.unit, w.modifyFunction f (·.defineQuietly key update)) :
      Action σ PUnit).Grounded n fun _ => [] := by
  refine .modify fun w hw _ => ?_
  rw [World.modifyFunction_eq]
  split
  · exact World.ReachesThrough.refl.define hw f key (by rw [h]; exact Nat.zero_le _)
  · exact .refl

theorem addRealm : (Action.change fun w =>
    let (realm, w) := w.addRealm
    (Answer.realm realm, { w with otherRealms := realm :: w.otherRealms }) :
      Action σ Answer).Grounded n Answer.entities := by
  refine .change fun w hw _ => ?_
  have hnew : extent (Object.new none .plain).entities ≤ w.objects.size := Nat.zero_le _
  have hfirst := World.ReachesThrough.refl.addObject hw rfl hnew
  obtain ⟨hdevelops, hrealm⟩ := w.develops_addRealm (hfirst.closed hw)
  replace hdevelops := hfirst.trans hdevelops
  generalize w.addRealm = added at hdevelops hrealm ⊢
  obtain ⟨realm, u⟩ := added
  exact ⟨hdevelops.change (.keepRealm realm) ((hdevelops.closed hw).keepRealm hrealm), hrealm⟩

theorem pushContext (s : ScopeId) {f : Option ObjectId}
    (h : extent (f.toList.map .object) ≤ n) :
    (Engine.pushContext s f : Action σ Unit).Grounded n fun _ => [] := by
  refine .modify fun w hw hn => World.ReachesThrough.refl.contexts _ (hw.setContexts ?_)
  refine extent_append_le_iff.2 ⟨extent_append_le_iff (l := [_, _]).2 ⟨Nat.zero_le _, ?_⟩,
    hw.contexts⟩
  exact Nat.le_trans h hn

theorem popContext : (Engine.popContext : Action σ Bool).Grounded n fun _ => [] :=
  .change fun _ hw _ => ⟨World.ReachesThrough.refl.contexts _ hw.popContext, Nat.zero_le _⟩

/-- A request is grounded if it names what is there, and so is its answer. -/
theorem execute (hE : E.Grounded) {r : Request} (hr : extent r.entities ≤ n) :
    (r.execute E).Grounded n Answer.entities := by
  have done {act : Action σ Unit} (h : act.Grounded n fun _ => []) :
      (do act; return Answer.done : Action σ Answer).Grounded n Answer.entities :=
    h.bind fun _ m _ _ => .pure (Nat.zero_le m)
  have value {act : Action σ Value} (h : act.Grounded n Value.entities) :
      (do return .value (← act) : Action σ Answer).Grounded n Answer.entities :=
    h.bind fun _ _ _ hv => .pure hv
  have object {act : Action σ ObjectId} (h : act.Grounded n fun o => [.object o]) :
      (do return .object (some (← act)) : Action σ Answer).Grounded n Answer.entities :=
    h.bind fun _ _ _ ho => .pure ho
  -- Answers that name no object, whatever they are.
  have quiet {α : Type} {act : Action σ α} {f : α → Answer} (hf : ∀ a, (f a).entities = [])
      (h : act.Grounded n fun _ => []) :
      (do return f (← act) : Action σ Answer).Grounded n Answer.entities :=
    h.bind fun a m _ _ => .pure (by rw [hf]; exact Nat.zero_le m)
  cases r with
  | newSymbol description =>
      exact .change fun w hw _ => ⟨World.Change.develops .countSymbol
        (hw.frame rfl rfl rfl rfl rfl rfl), Nat.zero_le _⟩
  | convert target v => exact value (convert hE target hr)
  | ordinaryToPrimitive o hint =>
      exact value (ordinaryToPrimitive hE (extent_object_le_iff.1 hr) hint)
  | newObject prototype => exact object (newObject hr)
  | getFor o key receiver =>
      exact value (getFor hE o key (extent_object_cons_le_iff.1 hr).2)
  | setFor o key v receiver =>
      obtain ⟨hv, hreceiver⟩ := extent_append_le_iff.1 (extent_object_cons_le_iff.1 hr).2
      exact quiet (fun _ => rfl) (setFor hE o key hv hreceiver)
  | setProperty o key v mustSucceed =>
      obtain ⟨ho, hv⟩ := extent_object_cons_le_iff.1 hr
      exact quiet (fun _ => rfl) (setProperty hE ho key hv mustSucceed)
  | defineOrFail o key update =>
      exact done (defineOrFail o key (extent_object_cons_le_iff.1 hr).2)
  | define o key update =>
      exact quiet (fun _ => rfl) (define o key (extent_object_cons_le_iff.1 hr).2)
  | delete o key =>
      exact quiet (fun _ => rfl) (.change fun w hw _ =>
        ⟨World.Change.develops (.delete o key) (hw.delete o key), Nat.zero_le _⟩)
  | preventExtensions o =>
      exact done (.modify fun w hw _ =>
        World.Change.develops (.preventExtensions o) (hw.preventExtensions o))
  | getMethod o key =>
      exact (getMethod hE (extent_object_le_iff.1 hr) key).bind fun _ _ _ hf => .pure hf
  | invoke o key args =>
      obtain ⟨ho, hargs⟩ := extent_object_cons_le_iff.1 hr
      exact value (invoke hE ho key hargs)
  | addFixture o functionPrototype fixture =>
      obtain ⟨hprototype, hfixture⟩ :=
        extent_object_cons_le_iff.1 (extent_object_cons_le_iff.1 hr).2
      exact done (.modify fun w hw hn => hw.addFixture o (Nat.lt_of_lt_of_le hprototype hn)
        (Nat.le_trans hfixture hn))
  | newNative prototype key arity call build =>
      exact object (newNative hr key arity call build)
  | newOrdinary name length f => exact object (newOrdinary name length f)
  | newBound target boundThis boundArgs =>
      obtain ⟨htarget, hgiven⟩ := extent_object_cons_le_iff.1 hr
      obtain ⟨hthis, hargs⟩ := extent_append_le_iff.1 hgiven
      refine (boundFunction target htarget hthis hargs).bindOf
        (fun _ _ _ h => Engine.buffer?_boundFunction h) fun bound m hbuffer _ hbound => ?_
      exact (addObject hbuffer hbound).bind fun _ _ _ ho => .pure ho
  | setFunctionName f key qualifier => exact done (modifyFunction f _ rfl)
  | setFunctionLength f length => exact done (modifyFunction f _ rfl)
  | callValue f this args =>
      obtain ⟨hthis, hargs⟩ := extent_append_le_iff.1 (extent_append_le_iff.1 hr).2
      exact value (callValue hE f hthis hargs)
  | callObject f this args =>
      obtain ⟨hthis, hargs⟩ := extent_append_le_iff.1 (extent_object_cons_le_iff.1 hr).2
      exact value (hE.call f hthis hargs)
  | construct f args newTarget =>
      obtain ⟨hf, hgiven⟩ := extent_object_cons_le_iff.1 hr
      obtain ⟨hnewTarget, hargs⟩ := extent_append_le_iff.1 hgiven
      refine value (hE.construct f hargs ?_)
      cases newTarget with
      | none => exact hf
      | some target => exact extent_object_le_iff.1 hnewTarget
  | speciesConstructor o default =>
      obtain ⟨ho, hdefault⟩ := extent_object_cons_le_iff.1 hr
      exact object (speciesConstructor hE ho (extent_object_le_iff.1 hdefault))
  | prototypeFromConstructor constructor fallback =>
      exact object (prototypeFromConstructor hE (extent_object_le_iff.1 hr) fallback)
  | newObjectFromConstructor constructor fallback =>
      exact object (newObjectFromConstructor hE (extent_object_le_iff.1 hr) fallback)
  | listFromArrayLike v => exact (listFromArrayLike hE hr).bind fun _ _ _ hvs => .pure hvs
  | allocateBuffer constructor length maximum =>
      exact object (allocateBuffer hE (extent_object_le_iff.1 hr) length maximum)
  | newBuffer prototype length maximum shared =>
      exact object (newBuffer hr length maximum shared)
  | maximumOption options => exact quiet (fun _ => rfl) (maximumOption hE hr)
  | detach o => exact done (detach o)
  | detachUnchecked o =>
      exact quiet (f := fun bytes => .size (some bytes)) (fun _ => rfl) (detachBuffer o)
  | resizeBuffer o length => exact done (resizeBuffer o length)
  | createBlock length => exact done (createBlock length)
  | fillBuffer o position source =>
      exact done (.modify fun w hw _ =>
        World.Change.develops (.fill o position source) (hw.fillBuffer o position source))
  | reserve bytes =>
      refine Action.Grounded.settle.bind fun _ m _ _ => ?_
      have hreserve : (Action.attempt (·.reserve bytes) : Action σ ReservationId).Grounded m
          fun _ => [] := by
        refine .attempt fun w hw _ r reserved h => ⟨World.Change.develops (.reserve h) ?_,
          Nat.zero_le _⟩
        obtain ⟨_, _, _, rfl⟩ := World.reserve_eq_ok h
        exact hw.frame rfl rfl rfl rfl rfl rfl
      exact hreserve.bind fun _ k _ _ => .pure (Nat.zero_le k)
  | moveReservation r bytes =>
      refine Action.Grounded.settle.bind fun _ m _ _ => ?_
      have hmove : (Action.attempt fun w => (w.moveReservation r bytes).map fun w => ((), w) :
          Action σ Unit).Grounded m fun _ => [] := by
        refine .attempt fun w hw _ _ moved h => ⟨?_, Nat.zero_le _⟩
        cases hmoved : w.moveReservation r bytes with
        | error e =>
            rw [hmoved] at h
            cases h
        | ok moved =>
            rw [hmoved] at h
            cases h
            refine World.Change.develops (.moveReservation hmoved) ?_
            rcases World.moveReservation_eq_ok hmoved with ⟨_, rfl⟩ | ⟨_, _, _, _, rfl⟩
            · exact hw
            · exact hw.frame rfl rfl rfl rfl rfl rfl
      exact hmove.bind fun _ k _ _ => .pure (Nat.zero_le k)
  | dropReservation r =>
      refine done (.modify fun w hw _ => World.Change.develops (.dropReservation r) ?_)
      unfold World.dropReservation
      split
      · exact hw
      · exact hw.frame rfl rfl rfl rfl rfl rfl
  | newScope kind => exact quiet (fun _ => rfl) (createScope hr)
  | hasBinding s name => exact quiet (fun _ => rfl) (hasBinding hE s name)
  | createMutable s name deletable => exact done (createMutable s name deletable)
  | createImmutable s name strict => exact done (createImmutable s name strict)
  | initBinding s name v => exact done (initBinding hE s name hr)
  | setBinding s name v strict => exact done (setBinding hE s name hr strict)
  | getBinding s name strict => exact value (getBinding hE s name strict)
  | probeBinding s name strict =>
      exact (probeBinding hE s name strict).bind fun _ _ _ hb => .pure hb
  | deleteBinding s name => exact quiet (fun _ => rfl) (deleteBinding s name)
  | createGlobalVar s name deletable => exact done (createGlobalVar hE s name deletable)
  | createGlobalFunction s name f deletable =>
      exact done (createGlobalFunction hE s name hr deletable)
  | thisOf s => exact value (thisOf s)
  | bindThis s v => exact done (bindThis s hr)
  | bindCallThis s mode v => exact done (bindCallThis s mode hr)
  | resolveThis => exact value resolveThis
  | newModule source =>
      exact quiet (fun _ => rfl) (.change fun w hw _ => ⟨World.Change.develops
        (.addModule source) (hw.frame rfl rfl rfl rfl rfl rfl), Nat.zero_le _⟩)
  | readExport m name strict => exact value (hE.readExport m name strict)
  | createImport s source name exported => exact done (createImport s source name exported)
  | reference s name strict => exact quiet (fun _ => rfl) (reference hE s name strict)
  | resolve name strict => exact quiet (fun _ => rfl) (resolve hE name strict)
  | getReference r => exact value (getReference hE r)
  | putReference r v => exact done (putReference hE r hr)
  | probeName s name strict => exact (probeName hE s name strict).bind fun _ _ _ hv => .pure hv
  | pushContext s f => exact done (pushContext s hr)
  | pushCall f newTarget =>
      obtain ⟨hf, hnewTarget⟩ := extent_object_cons_le_iff.1 hr
      refine (newFunctionScope f hnewTarget).bind fun s m hm _ => ?_
      have hcontext : extent ((some f).toList.map .object) ≤ m :=
        extent_object_le_iff.2 (Nat.lt_of_lt_of_le hf hm)
      exact (pushContext s hcontext).bind fun _ k _ _ => .pure (Nat.zero_le k)
  | popContext => exact quiet (fun _ => rfl) popContext
  | newRealm => exact addRealm

theorem perform (hE : E.Grounded) {r : Request} (hr : extent r.entities ≤ n) :
    (r.perform E).Grounded n Answer.entities :=
  (execute hE hr).holding _

/-! ## Scripts -/

/-- A grounded script runs as a grounded action. -/
theorem script {t : α → List Entity} (hE : E.Grounded) {script : Script σ α}
    (h : script.Grounded t n) : (script.run E).Grounded n t := by
  induction script generalizing n with
  | done a => exact .pure h
  | fail e => exact .fail e
  | look next ih => exact fun w hw hn => ih w (h w hw hn) w hw (Nat.le_refl _)
  | tell f next ih =>
      intro w hw hn
      have hhost := hw.setHost (h.1 w.host w.objects.size hn hw.host)
      obtain ⟨hdevelops, htold⟩ := ih h.2 { w with host := f w.host } hhost hn
      exact ⟨(World.Change.develops (.host f) hhost).trans hdevelops, htold⟩
  | ask r next ih =>
      intro w hw hn
      obtain ⟨hperform, htold⟩ := perform hE h.1 w hw hn
      have hle := Nat.le_trans hn hperform.size_le
      have hafter := hperform.closed hw
      unfold Action.after Script.run
      cases hrun : r.perform E w with
      | ok answer w' =>
          rw [Action.after_of_ok hrun] at hperform hle hafter
          have hnext := h.2 (.ok answer) w'.objects.size hle fun a ha => by
            cases ha
            exact htold answer w' hrun
          obtain ⟨hdevelops, hresult⟩ := ih _ hnext w' hafter (Nat.le_refl _)
          exact ⟨hperform.trans hdevelops, hresult⟩
      | error failure w' =>
          rw [Action.after_of_error hrun] at hperform hle hafter
          cases failure with
          | thrown e =>
              have hnext := h.2 (.error e) w'.objects.size hle fun a ha => by cases ha
              obtain ⟨hdevelops, hresult⟩ := ih _ hnext w' hafter (Nat.le_refl _)
              exact ⟨hperform.trans hdevelops, hresult⟩
          | exhausted => exact ⟨hperform, fun a w'' h => by cases h⟩

/-! ## Calls -/

section

variable {this : Value} {args : List Value}

theorem enter (hE : E.Grounded) (hP : P.Grounded) (code : CodeId) {entry : Entry}
    (h : extent entry.entities ≤ n) : (P.enter E code entry).Grounded n Value.entities :=
  script hE (hP code entry n h)

theorem evaluateBody (hE : E.Grounded) (hP : P.Grounded) {f : ObjectId} (hf : f.index < n)
    (code : CodeId) (scope : ScopeId) (hargs : extent (args.flatMap Value.entities) ≤ n) :
    (P.evaluateBody E f code scope args).Grounded n Value.entities := by
  have hcontext : extent ((some f).toList.map .object) ≤ n := extent_object_le_iff.2 hf
  have hentry : extent (Entry.body f scope args).entities ≤ n :=
    extent_append_le_iff.2 ⟨hargs, extent_object_cons_le_iff.2 ⟨hf, Nat.zero_le n⟩⟩
  unfold Program.evaluateBody
  refine (pushContext scope hcontext).bind fun _ m hm _ => ?_
  exact ((enter hE hP code (Nat.le_trans hentry hm)).holding _).andFinally fun w hw =>
    World.ReachesThrough.refl.contexts _ hw.popContext

theorem callOrdinary (hE : E.Grounded) (hP : P.Grounded) {f : ObjectId} (hf : f.index < n)
    (d : OrdinaryFunction) (hthis : extent this.entities ≤ n)
    (hargs : extent (args.flatMap Value.entities) ≤ n) :
    (P.callOrdinary E f d this args).Grounded n Value.entities := by
  unfold Program.callOrdinary
  refine .ite (.look fun w _ _ => .fail _) ?_
  refine (newFunctionScope f (Nat.zero_le n)).bind fun s m hm _ => ?_
  refine (bindCallThis s _ (Nat.le_trans hthis hm)).bind fun _ k hk _ => ?_
  exact evaluateBody hE hP (by omega) _ s (by omega)

theorem constructOrdinary (hE : E.Grounded) (hP : P.Grounded) {f : ObjectId} (hf : f.index < n)
    (d : OrdinaryFunction) (hargs : extent (args.flatMap Value.entities) ≤ n)
    {newTarget : ObjectId} (hnewTarget : newTarget.index < n) :
    (P.constructOrdinary E f d args newTarget).Grounded n Value.entities := by
  have hscope {m : Nat} (hm : n ≤ m) : extent ((some newTarget).toList.map .object) ≤ m :=
    extent_object_le_iff.2 (by omega)
  unfold Program.constructOrdinary
  split
  · refine ((newObjectFromConstructor hE hnewTarget _).holding _).bind fun o m hm ho => ?_
    refine (newFunctionScope f (hscope hm)).bind fun s k hk _ => ?_
    have hthis : extent (Value.object o).entities ≤ k := Nat.le_trans ho hk
    refine (bindCallThis s _ hthis).bind fun _ l hl _ => ?_
    refine ((evaluateBody hE hP (by omega) _ s (by omega)).holding _).bind fun result i hi h => ?_
    split
    · exact .pure h
    · exact .pure (by omega)
  · refine (newFunctionScope f (hscope (Nat.le_refl n))).bind fun s m hm _ => ?_
    refine (evaluateBody hE hP (by omega) _ s (by omega)).bind fun result k _ h => ?_
    split
    · exact .pure h
    · exact thisOf s
    · exact .fail _

theorem call (hE : E.Grounded) (hP : P.Grounded) (f : ObjectId) (hthis : extent this.entities ≤ n)
    (hargs : extent (args.flatMap Value.entities) ≤ n) :
    (P.call E f this args).Grounded n Value.entities := by
  unfold Program.call
  refine .look fun w hw hn => ?_
  have hthis := Nat.le_trans hthis hn
  have hargs := Nat.le_trans hargs hn
  split
  · exact .fail _
  · next hf => exact callOrdinary hE hP (hw.function hf).1 _ hthis hargs
  · exact callBuiltin hE _ hthis hargs
  · exact enter hE hP _ (extent_append_le_iff.2 ⟨hargs, hthis⟩)
  · next hf =>
    obtain ⟨_, hboundThis, hboundArgs⟩ := hw.bound hf
    refine (hE.call _ hboundThis ?_).holding _
    rw [List.flatMap_append]
    exact extent_append_le_iff.2 ⟨hboundArgs, hargs⟩

theorem construct (hE : E.Grounded) (hP : P.Grounded) (f : ObjectId)
    (hargs : extent (args.flatMap Value.entities) ≤ n) {newTarget : ObjectId}
    (hnewTarget : newTarget.index < n) :
    (P.construct E f args newTarget).Grounded n Value.entities := by
  unfold Program.construct
  refine .look fun w hw hn => .ite ?_ (.fail _)
  have hargs := Nat.le_trans hargs hn
  have hnewTarget := Nat.lt_of_lt_of_le hnewTarget hn
  split
  · next hf => exact constructOrdinary hE hP (hw.function hf).1 _ hargs hnewTarget
  · exact constructBuiltin hE _ hargs hnewTarget
  · exact enter hE hP _ (extent_append_le_iff.2 ⟨hargs, extent_object_le_iff.2 hnewTarget⟩)
  · next hf =>
    obtain ⟨htarget, _, hboundArgs⟩ := hw.bound hf
    refine hE.construct _ ?_ ?_
    · rw [List.flatMap_append]
      exact extent_append_le_iff.2 ⟨hboundArgs, hargs⟩
    · split
      · exact htarget
      · exact hnewTarget
  · exact .fail _

theorem readExport (hE : E.Grounded) (hP : P.Grounded) (m : ModuleId) (name : String)
    (strict : Bool) : (P.readExport E m name strict).Grounded n Value.entities := by
  unfold Program.readExport
  refine .look fun w _ _ => ?_
  split
  · exact getBinding hE _ name strict
  · exact enter hE hP _ (Nat.zero_le _)

end

/-! ## Whole programs -/

/-- The engine of a grounded program is grounded, however deep calls nest. -/
theorem engine (hP : P.Grounded) (budget : Nat) : (P.engine budget).Grounded := by
  induction budget with
  | zero =>
      have hspent {m : Nat} : (throw .exhausted : Action σ Value).Grounded m Value.entities :=
        fun w _ _ => ⟨.refl, fun a w' h => by cases h⟩
      exact ⟨fun _ _ _ _ _ => hspent, fun _ _ _ _ _ => hspent, fun _ _ _ => hspent⟩
  | succ budget ih =>
      exact ⟨fun f _ _ hthis hargs => call ih hP f hthis hargs,
        fun f _ _ hargs hnewTarget => construct ih hP f hargs hnewTarget,
        fun m name strict => readExport ih hP m name strict⟩

/-- Every run of a grounded script is grounded. -/
theorem runScript {t : α → List Entity} (hP : P.Grounded) (budget : Nat) {s : Script σ α}
    (h : s.Grounded t n) : (P.runScript budget s).Grounded n t :=
  script (engine hP budget) h

end Grounded

end EcmaCore
