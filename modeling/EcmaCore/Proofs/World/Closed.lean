import EcmaCore.Proofs.World.Extent
import EcmaCore.Proofs.World.Lookup
import EcmaCore.Proofs.World.Prototypes
import EcmaCore.Proofs.World.Reaches
import EcmaCore.Proofs.World.Scopes

/-!
# Closed worlds

Whoever names an object has it from somewhere: from the world, from an argument or from an answer.
A world is closed if all objects that it names are there, in properties and prototypes, in bound
functions, in environments, contexts and realms, and in what the embedding program holds on to,
and if prototypes are older than the objects that have them.

A single change of a closed world that names nothing but what is there leaves a closed world. A
world *develops* by such changes. What operations in progress hold on to is not counted: nobody
reads it.

## Main results

* `Closed.lookup`, `Closed.bound`: what is read off a closed world is there.
* `Closed.define`, `Closed.addObject`, `Closed.setRecord`: changes that leave a closed world.
* `ReachesThrough.closed`, `ReachesThrough.size_le`: what a world develops into.
* `develops_addRealm`, `closed_start`: realms are built of closed worlds.
-/

namespace EcmaCore

/-! ## Names of realms and fixtures -/

/-- A realm names its intrinsic objects and its global object. -/
theorem Realm.intrinsic_lt {r : Realm} {n : Nat} (h : extent r.entities ≤ n) :
    (∀ i, (r.intrinsic i).index < n) ∧ r.global.index < n := by
  have hobject (o : ObjectId) (ho : .object o ∈ r.entities) : o.index < n :=
    extent_object_le_iff.1
      (extent_le_iff.2 fun e he => extent_le_iff.1 h e (List.mem_singleton.1 he ▸ ho))
  refine ⟨fun i => hobject _ ?_, hobject _ ?_⟩
  · cases i <;> simp [Realm.entities, Realm.intrinsic]
  · simp [Realm.entities]

/-- The entities that a property of a built-in object refers to when it is installed. -/
def Fixture.entities : Fixture → List Entity
  | .method .. | .getter .. => []
  | .property _ v | .readonly _ v | .constant _ v => v.entities

namespace World

variable {σ : Type} {u v w : World σ}

@[simp] theorem size_modifyObject (w : World σ) (o : ObjectId) (f : Object → Object) :
    (w.modifyObject o f).objects.size = w.objects.size := by
  simp [modifyObject]

@[simp] theorem size_addObject (w : World σ) (new : Object) :
    (w.addObject new).2.objects.size = w.objects.size + 1 := by
  simp [addObject]

/-- A new object is there. -/
theorem extent_addObject_le (w : World σ) (new : Object) :
    extent [.object (w.addObject new).1] ≤ (w.addObject new).2.objects.size := by
  rw [size_addObject, extent_object_le_iff]
  exact Nat.lt_succ_self _

variable [Embedding σ]

/-- All objects that a world names are there, and prototypes were there before the objects that
have them. -/
structure Closed (w : World σ) : Prop where
  first : w.PrototypesFirst
  objects : ∀ o, extent (w.object o).entities ≤ w.objects.size
  records : ∀ s, extent (w.scope s).record.entities ≤ w.objects.size
  contexts : extent (w.contexts.flatMap Context.entities) ≤ w.objects.size
  realms : extent ((w.realm :: w.otherRealms).flatMap Realm.entities) ≤ w.objects.size
  host : extent (Embedding.roots w.host) ≤ w.objects.size

namespace Closed

/-! ## What is read off a closed world -/

theorem prototype (h : w.Closed) {o p : ObjectId} (hp : (w.object o).prototype = some p) :
    p.index < w.objects.size :=
  (Object.extent_le_iff.1 (h.objects o)).1 p hp

theorem own (h : w.Closed) {o : ObjectId} {key : PropertyKey} {p : Property}
    (hp : w.own o key = some p) : extent p.entities ≤ w.objects.size :=
  Object.extent_own_le (h.objects o) hp

/-- A property that a lookup finds is the own property of some object. -/
theorem lookup (h : w.Closed) {o : ObjectId} {key : PropertyKey} {p : Property}
    (hp : w.lookup o key = some p) : extent p.entities ≤ w.objects.size := by
  obtain ⟨holder, _, hown⟩ := List.exists_of_findSome?_eq_some hp
  exact h.own hown

theorem function (h : w.Closed) {o : ObjectId} {f : Function} (hf : w.function? o = some f) :
    o.index < w.objects.size ∧ extent f.entities ≤ w.objects.size := by
  refine ⟨Nat.lt_of_not_le fun hle => ?_, (Object.extent_le_iff.1 (h.objects o)).2.2 f hf⟩
  rw [function?, w.object_of_size_le hle] at hf
  cases hf

/-- A bound function names its target, its `this` and its arguments. -/
theorem bound (h : w.Closed) {o : ObjectId} {b : BoundFunction}
    (hb : w.function? o = some (.bound b)) :
    b.target.index < w.objects.size ∧ extent b.boundThis.entities ≤ w.objects.size ∧
      extent (b.boundArgs.flatMap Value.entities) ≤ w.objects.size := by
  obtain ⟨htarget, hrest⟩ := extent_object_cons_le_iff.1 (h.function hb).2
  exact ⟨htarget, extent_append_le_iff.1 hrest⟩

theorem intrinsic (h : w.Closed) (i : Intrinsic) :
    (w.realm.intrinsic i).index < w.objects.size :=
  (Realm.intrinsic_lt (extent_append_le_iff.1 h.realms).1).1 i

theorem global (h : w.Closed) : w.realm.global.index < w.objects.size :=
  (Realm.intrinsic_lt (extent_append_le_iff.1 h.realms).1).2

theorem backing (h : w.Closed) {s : ScopeId} {backing : ObjectId} {isWith : Bool}
    (hbacking : (w.scope s).record.backing? = some (backing, isWith)) :
    backing.index < w.objects.size :=
  Record.backing_lt (h.records s) hbacking

theorem globalObject (h : w.Closed) {s : ScopeId} {info : GlobalScope}
    (hinfo : w.global? s = some info) : info.object.index < w.objects.size := by
  unfold global? at hinfo
  split at hinfo
  · next hrecord =>
    cases hinfo
    exact h.backing (by rw [hrecord]; rfl)
  · cases hinfo

/-! ## Changes that leave a closed world -/

/-- Ledger, memory, modules, reservations, symbols and what is held on to do not matter. -/
theorem frame (h : w.Closed) (hobjects : v.objects = w.objects) (hscopes : v.scopes = w.scopes)
    (hcontexts : v.contexts = w.contexts) (hrealm : v.realm = w.realm)
    (hothers : v.otherRealms = w.otherRealms) (hhost : v.host = w.host) : v.Closed := by
  cases v
  cases hobjects
  cases hscopes
  cases hcontexts
  cases hrealm
  cases hothers
  cases hhost
  exact ⟨h.first, h.objects, h.records, h.contexts, h.realms, h.host⟩

/-- A world with other objects, and no fewer. -/
theorem withObjects (h : w.Closed) {objects : Array Object} (hle : w.objects.size ≤ objects.size)
    (hfirst : ({ w with objects } : World σ).PrototypesFirst)
    (hobjects : ∀ o, extent (({ w with objects } : World σ).object o).entities ≤ objects.size) :
    ({ w with objects } : World σ).Closed :=
  ⟨hfirst, hobjects, fun s => Nat.le_trans (h.records s) hle, Nat.le_trans h.contexts hle,
    Nat.le_trans h.realms hle, Nat.le_trans h.host hle⟩

/-- Changing an object into one with the same prototype that names what is there. -/
theorem modifyObject (h : w.Closed) (o : ObjectId) {f : Object → Object}
    (hprototype : (f (w.object o)).prototype = (w.object o).prototype)
    (hextent : extent (f (w.object o)).entities ≤ w.objects.size) :
    (w.modifyObject o f).Closed := by
  have hsize := w.size_modifyObject o f
  refine h.withObjects (Nat.le_of_eq hsize.symm) (fun x p hp => ?_) fun x => ?_
  · change ((w.modifyObject o f).object x).prototype = some p at hp
    rw [object_modifyObject] at hp
    split at hp
    · next heq =>
      rw [← heq.1, hprototype] at hp
      rw [← heq.1]
      exact h.first o p hp
    · exact h.first x p hp
  · change extent ((w.modifyObject o f).object x).entities ≤ (w.modifyObject o f).objects.size
    rw [object_modifyObject, hsize]
    split
    · next heq =>
      rw [← heq.1]
      exact hextent
    · exact h.objects x

theorem define (h : w.Closed) (o : ObjectId) (key : PropertyKey) {update : PropertyUpdate}
    (hupdate : extent update.carried.entities ≤ w.objects.size) :
    (w.define o key update).2.Closed := by
  rw [define_eq]
  exact h.modifyObject o (Object.prototype_defineQuietly _ key update)
    (Object.extent_defineQuietly_le (h.objects o) hupdate)

theorem delete (h : w.Closed) (o : ObjectId) (key : PropertyKey) :
    (w.delete o key).2.Closed := by
  rw [delete_eq]
  exact h.modifyObject o (Object.prototype_delete _ key) (Object.extent_delete_le (h.objects o))

theorem preventExtensions (h : w.Closed) (o : ObjectId) :
    (w.modifyObject o Object.preventExtensions).Closed :=
  h.modifyObject o rfl (h.objects o)

theorem setBuffer (h : w.Closed) (o : ObjectId) (b : Buffer) : (w.setBuffer o b).Closed :=
  h.modifyObject o rfl (Object.extent_setNature_buffer_le b (h.objects o))

theorem detachBuffer (h : w.Closed) (o : ObjectId) : (w.detachBuffer o).2.Closed := by
  unfold World.detachBuffer
  split
  · exact h
  · exact (h.setBuffer o _).frame rfl rfl rfl rfl rfl rfl

theorem fillBuffer (h : w.Closed) (o : ObjectId) (position : Nat) (source : List UInt8) :
    (w.fillBuffer o position source).Closed := by
  unfold World.fillBuffer
  split
  · exact h
  · exact h.setBuffer o _

theorem giveUp (h : w.Closed) (e : Entity) : (w.giveUp e).Closed := by
  cases e with
  | object o =>
      rw [giveUp_object]
      refine Closed.frame (w := w.modifyObject o Object.givenUp) ?_ rfl rfl rfl rfl rfl rfl
      refine h.modifyObject o ?_ ?_
      · unfold Object.givenUp
        repeat' split
        all_goals rfl
      · rw [Object.entities_givenUp]
        exact h.objects o
  | scope s => exact h
  | module m => exact h.frame rfl rfl rfl rfl rfl rfl

theorem settle (h : w.Closed) : w.settle.Closed :=
  settle_induction (motive := Closed) h fun _ e h => h.giveUp e

/-- A new object that names what is there. Its prototype is older since it is there. -/
theorem addObject (h : w.Closed) {new : Object} (hnew : extent new.entities ≤ w.objects.size) :
    (w.addObject new).2.Closed := by
  have hle : w.objects.size ≤ (w.addObject new).2.objects.size := by
    rw [size_addObject]
    exact Nat.le_succ _
  refine h.withObjects hle (fun x p hp => ?_) fun x => ?_
  · change ((w.addObject new).2.object x).prototype = some p at hp
    rw [object_addObject] at hp
    split at hp
    · next heq =>
      rw [heq]
      exact (Object.extent_le_iff.1 hnew).1 p hp
    · exact h.first x p hp
  · change extent ((w.addObject new).2.object x).entities ≤ (w.addObject new).2.objects.size
    rw [object_addObject]
    split
    · exact Nat.le_trans hnew hle
    · exact Nat.le_trans (h.objects x) hle

theorem setRecord (h : w.Closed) (s : ScopeId) {record : Record}
    (hrecord : extent record.entities ≤ w.objects.size) : (w.setRecord s record).Closed := by
  refine ⟨h.first, h.objects, fun t => ?_, h.contexts, h.realms, h.host⟩
  rw [scope_setRecord]
  split
  · exact hrecord
  · exact h.records t

theorem addScope (h : w.Closed) {record : Record} (outer : Option ScopeId)
    (hrecord : extent record.entities ≤ w.objects.size) : (w.addScope record outer).2.Closed := by
  refine ⟨h.first, h.objects, fun t => ?_, h.contexts, h.realms, h.host⟩
  rw [scope_addScope]
  split
  · exact hrecord
  · exact h.records t

theorem setHost (h : w.Closed) {host : σ}
    (hhost : extent (Embedding.roots host) ≤ w.objects.size) :
    ({ w with host } : World σ).Closed :=
  ⟨h.first, h.objects, h.records, h.contexts, h.realms, hhost⟩

theorem setContexts (h : w.Closed) {contexts : List Context}
    (hcontexts : extent (contexts.flatMap Context.entities) ≤ w.objects.size) :
    ({ w with contexts } : World σ).Closed :=
  ⟨h.first, h.objects, h.records, hcontexts, h.realms, h.host⟩

theorem popContext (h : w.Closed) : ({ w with contexts := w.contexts.tail } : World σ).Closed := by
  refine h.setContexts ?_
  have hcontexts := extent_flatMap_le_iff.1 h.contexts
  exact extent_flatMap_le_iff.2 fun c hc => hcontexts c (List.mem_of_mem_tail hc)

theorem setRealm (h : w.Closed) {realm : Realm}
    (hrealm : extent realm.entities ≤ w.objects.size) : ({ w with realm } : World σ).Closed :=
  ⟨h.first, h.objects, h.records, h.contexts,
    extent_append_le_iff.2 ⟨hrealm, (extent_append_le_iff.1 h.realms).2⟩, h.host⟩

theorem keepRealm (h : w.Closed) {r : Realm} (hr : extent r.entities ≤ w.objects.size) :
    ({ w with otherRealms := r :: w.otherRealms } : World σ).Closed := by
  obtain ⟨hrealm, hothers⟩ := extent_append_le_iff.1 h.realms
  exact ⟨h.first, h.objects, h.records, h.contexts,
    extent_append_le_iff.2 ⟨hrealm, extent_append_le_iff.2 ⟨hr, hothers⟩⟩, h.host⟩

end Closed

/-! ## Development -/

/-- Single changes, and moves of the stack of contexts, lead from one world to another one through
worlds with a property. -/
inductive ReachesThrough (I : World σ → Prop) (w : World σ) : World σ → Prop
  | refl : ReachesThrough I w w
  | change {u v : World σ} (before : ReachesThrough I w u) (h : Change .all u v) (holds : I v) :
      ReachesThrough I w v
  | contexts {u : World σ} (before : ReachesThrough I w u) (contexts : List Context)
      (holds : I { u with contexts }) : ReachesThrough I w { u with contexts }

/-- A world develops through closed worlds. -/
abbrev Develops (w v : World σ) : Prop := w.ReachesThrough Closed v

namespace ReachesThrough

variable {I J : World σ → Prop}

theorem reaches (h : w.ReachesThrough I v) : w.Reaches v := by
  induction h with
  | refl => exact .refl
  | change _ h _ ih => exact ih.change h
  | contexts _ contexts _ ih => exact ih.contexts contexts

theorem trans (h : u.ReachesThrough I v) (h' : v.ReachesThrough I w) : u.ReachesThrough I w := by
  induction h' with
  | refl => exact h
  | change _ hchange holds ih => exact ih.change hchange holds
  | contexts _ contexts holds ih => exact ih.contexts contexts holds

theorem imp (hIJ : ∀ u, I u → J u) (h : w.ReachesThrough I v) : w.ReachesThrough J v := by
  induction h with
  | refl => exact .refl
  | change _ hchange holds ih => exact ih.change hchange (hIJ _ holds)
  | contexts _ contexts holds ih => exact ih.contexts contexts (hIJ _ holds)

theorem closed (h : w.Develops v) (hw : w.Closed) : v.Closed := by
  cases h with
  | refl => exact hw
  | change _ _ holds | contexts _ _ holds => exact holds

/-- No object goes away. -/
theorem size_le (h : w.ReachesThrough I v) : w.objects.size ≤ v.objects.size := by
  have hstay := (prototypesStay_guarantee .all).of_reaches h.reaches
  refine Nat.le_of_not_lt fun hlt => ?_
  exact Nat.lt_irrefl _ (hstay ⟨v.objects.size⟩ hlt).1

theorem addObject (h : w.Develops u) (hu : u.Closed) {new : Object} (hbuffer : new.buffer? = none)
    (hnew : extent new.entities ≤ u.objects.size) : w.Develops (u.addObject new).2 :=
  h.change (.addObject new hbuffer) (hu.addObject hnew)

theorem define (h : w.Develops u) (hu : u.Closed) (o : ObjectId) (key : PropertyKey)
    {update : PropertyUpdate} (hupdate : extent update.carried.entities ≤ u.objects.size) :
    w.Develops (u.define o key update).2 :=
  h.change (.define o key update (.inr trivial)) (hu.define o key hupdate)

end ReachesThrough

/-- A single change of a world that leaves a closed one. -/
theorem Change.develops (h : Change .all w v) (hv : v.Closed) : w.Develops v :=
  ReachesThrough.refl.change h hv

/-- A step of an environment record that names what is there. -/
theorem Closed.develops_setRecord (h : w.Closed) (s : ScopeId) {record : Record}
    (hstep : (w.scope s).record.Step record) (hrecord : extent record.entities ≤ w.objects.size) :
    w.Develops (w.setRecord s record) :=
  Change.develops (.setRecord s hstep) (h.setRecord s hrecord)

/-! ## Fixtures and realms -/

/-- A fixture is installed in a closed world. -/
theorem Closed.addFixture (h : w.Closed) (o : ObjectId) {functionPrototype : ObjectId}
    (hprototype : functionPrototype.index < w.objects.size) {fixture : Fixture}
    (hfixture : extent fixture.entities ≤ w.objects.size) :
    w.Develops (w.addFixture o functionPrototype fixture) := by
  have hnative (key : PropertyKey) (arity : UInt32) (behaviour : Behaviour) :
      extent (Object.ofNative (some functionPrototype) key arity behaviour none).entities ≤
        w.objects.size :=
    Object.extent_ofNative_le (extent_object_le_iff.2 hprototype) ..
  have hnew : extent [.object ⟨w.objects.size⟩] ≤ w.objects.size + 1 :=
    extent_object_le_iff.2 (Nat.lt_succ_self _)
  cases fixture with
  | method name arity behaviour =>
      have hadded := ReachesThrough.refl.addObject h (Object.buffer?_ofNative _ _ _ _ _)
        (hnative name arity behaviour)
      exact hadded.define (hadded.closed h) o name (by rw [size_addObject]; exact hnew)
  | getter key behaviour =>
      have hadded := ReachesThrough.refl.addObject h
        ((Object.buffer?_defineQuietly _ _ _).trans (Object.buffer?_ofNative _ _ _ _ _))
        (Object.extent_setFunctionName_le key "get" (hnative key 0 behaviour))
      exact hadded.define (hadded.closed h) o key (by rw [size_addObject]; exact hnew)
  | property key v | readonly key v | constant key v =>
      exact ReachesThrough.refl.define h o key hfixture

theorem Closed.addFixtures (h : w.Closed) (o : ObjectId) {functionPrototype : ObjectId}
    (hprototype : functionPrototype.index < w.objects.size) {fixtures : List Fixture}
    (hfixtures : extent (fixtures.flatMap Fixture.entities) ≤ w.objects.size) :
    w.Develops (w.addFixtures o functionPrototype fixtures) := by
  induction fixtures generalizing w with
  | nil => exact .refl
  | cons fixture fixtures ih =>
      obtain ⟨hfixture, hrest⟩ := extent_append_le_iff.1 hfixtures
      have hfirst := h.addFixture o hprototype hfixture
      have hle := hfirst.size_le
      refine hfirst.trans (ih (hfirst.closed h) ?_ (Nat.le_trans hrest hle))
      exact Nat.lt_of_lt_of_le hprototype hle

/-- A world develops into another one, in which these objects are there. -/
structure Building (w u : World σ) (os : List ObjectId) : Prop where
  develops : w.Develops u
  closed : u.Closed
  present : ∀ o ∈ os, o.index < u.objects.size

namespace Building

variable {os : List ObjectId}

theorem addObject (h : w.Building u os) {new : Object} (hbuffer : new.buffer? = none)
    (hnew : ∀ n, (∀ o ∈ os, o.index < n) → extent new.entities ≤ n) :
    w.Building (u.addObject new).2 ((u.addObject new).1 :: os) := by
  have hdevelops := h.develops.addObject h.closed hbuffer (hnew _ h.present)
  refine ⟨hdevelops, h.closed.addObject (hnew _ h.present), fun o ho => ?_⟩
  rw [size_addObject]
  rcases List.mem_cons.1 ho with rfl | hold
  · exact Nat.lt_succ_self _
  · exact Nat.lt_succ_of_lt (h.present o hold)

theorem addFixtures (h : w.Building u os) (o : ObjectId) {functionPrototype : ObjectId}
    (hprototype : functionPrototype ∈ os) {fixtures : List Fixture}
    (hfixtures : ∀ n, (∀ o ∈ os, o.index < n) → extent (fixtures.flatMap Fixture.entities) ≤ n) :
    w.Building (u.addFixtures o functionPrototype fixtures) os := by
  have hinstalled :=
    h.closed.addFixtures o (h.present _ hprototype) (hfixtures _ h.present)
  exact ⟨h.develops.trans hinstalled, hinstalled.closed h.closed,
    fun o ho => Nat.lt_of_lt_of_le (h.present o ho) hinstalled.size_le⟩

end Building

/-- Realms are built from closed worlds, once they have their first object. -/
theorem develops_addRealm (w : World σ) (h : (w.addObject (.new none .plain)).2.Closed) :
    (w.addObject (.new none .plain)).2.Develops w.addRealm.2 ∧
      extent w.addRealm.1.entities ≤ w.addRealm.2.objects.size := by
  have hplain {p : ObjectId} {n : Nat} (hp : p.index < n) :
      extent (Object.new (some p) .plain).entities ≤ n :=
    Object.extent_new_le (extent_object_le_iff.2 hp) (Nat.zero_le n)
  have hnative {p : ObjectId} {n : Nat} (hp : p.index < n) (key : PropertyKey) (arity : UInt32)
      (call : Behaviour) (construct : Option Behaviour) :
      extent (Object.ofNative (some p) key arity call construct).entities ≤ n :=
    Object.extent_ofNative_le (extent_object_le_iff.2 hp) ..
  let objectPrototype : ObjectId := ⟨w.objects.size⟩
  let w₁ := (w.addObject (.new none .plain)).2
  let functionPrototype : ObjectId := ⟨w₁.objects.size⟩
  let w₂ := (w₁.addObject
    (.ofNative (some objectPrototype) "" 0 (.builtin .functionPrototype) none)).2
  let throwTypeError : ObjectId := ⟨w₂.objects.size⟩
  let w₃ := (w₂.addObject (.thrower functionPrototype)).2
  let w₄ := w₃.addFixtures functionPrototype functionPrototype functionPrototypeFixtures
  let arrayBuffer : ObjectId := ⟨w₄.objects.size⟩
  let w₅ := (w₄.addObject (.ofNative (some functionPrototype) "ArrayBuffer" 1
    (.builtin .bufferConstructor) (some (.builtin .bufferConstructor)))).2
  let arrayBufferPrototype : ObjectId := ⟨w₅.objects.size⟩
  let w₆ := (w₅.addObject (.new (some objectPrototype) .plain)).2
  let w₇ := w₆.addFixtures arrayBufferPrototype functionPrototype
    (bufferPrototypeFixtures arrayBuffer)
  let w₈ := w₇.addFixtures arrayBuffer functionPrototype
    (bufferConstructorFixtures arrayBufferPrototype)
  let global : ObjectId := ⟨w₈.objects.size⟩
  let w₉ := (w₈.addObject (.new (some objectPrototype) .plain)).2
  let w₁₀ := w₉.addFixtures global functionPrototype (globalFixtures global arrayBuffer)
  let w₁₁ := (w₁₀.addScope
    (.global .empty { object := global, this := global, varNames := [] }) none).2
  show w₁.Develops w₁₁ ∧ extent (Realm.entities
    { objectPrototype, functionPrototype, throwTypeError, arrayBuffer, arrayBufferPrototype, global,
      scope := ⟨w₁₀.scopes.size⟩ }) ≤ w₁₁.objects.size
  have b₁ : w₁.Building w₁ [objectPrototype] := by
    refine ⟨.refl, h, fun o ho => ?_⟩
    rw [List.mem_singleton.1 ho, size_addObject]
    exact Nat.lt_succ_self _
  clear_value w₁ objectPrototype
  have b₂ : w₁.Building w₂ [functionPrototype, objectPrototype] :=
    b₁.addObject (Object.buffer?_ofNative ..) fun n hn => hnative (hn _ (by simp)) ..
  clear_value w₂ functionPrototype
  have b₃ : w₁.Building w₃ [throwTypeError, functionPrototype, objectPrototype] :=
    b₂.addObject (Object.buffer?_thrower _) fun n hn => Object.extent_thrower_le (hn _ (by simp))
  clear_value w₃ throwTypeError
  have b₄ : w₁.Building w₄ _ := b₃.addFixtures _ (by simp) fun n _ => Nat.zero_le n
  clear_value w₄
  have b₅ : w₁.Building w₅ (arrayBuffer :: _) :=
    b₄.addObject (Object.buffer?_ofNative ..) fun n hn => hnative (hn _ (by simp)) ..
  clear_value w₅ arrayBuffer
  have b₆ : w₁.Building w₆ (arrayBufferPrototype :: _) :=
    b₅.addObject rfl fun n hn => hplain (hn _ (by simp))
  clear_value w₆ arrayBufferPrototype
  have b₇ : w₁.Building w₇ _ := b₆.addFixtures _ (by simp) fun n hn =>
    extent_object_le_iff.2 (hn arrayBuffer (by simp))
  clear_value w₇
  have b₈ : w₁.Building w₈ _ := b₇.addFixtures _ (by simp) fun n hn =>
    extent_object_le_iff.2 (hn arrayBufferPrototype (by simp))
  clear_value w₈
  have b₉ : w₁.Building w₉ (global :: _) :=
    b₈.addObject rfl fun n hn => hplain (hn _ (by simp))
  clear_value w₉ global
  have b₁₀ : w₁.Building w₁₀ _ := b₉.addFixtures _ (by simp) fun n hn =>
    extent_objects_le_iff (l := [global, arrayBuffer]).2 fun o ho =>
      hn o (List.subset_def.1 (by simp) ho)
  clear_value w₁₀
  have hpresent {l : List ObjectId} (hl : l ⊆ [global, arrayBufferPrototype, arrayBuffer,
      throwTypeError, functionPrototype, objectPrototype]) :
      extent (l.map .object) ≤ w₁₀.objects.size :=
    extent_objects_le_iff.2 fun o ho => b₁₀.present o (hl ho)
  have hrecord : extent (Record.entities (.global .empty
      { object := global, this := global, varNames := [] })) ≤ w₁₀.objects.size :=
    hpresent (l := [global, global]) (by simp)
  refine ⟨b₁₀.develops.change (.addScope _ none) (b₁₀.closed.addScope none hrecord), ?_⟩
  exact (extent_append_le_iff (l := [.scope _])).2 ⟨Nat.zero_le _, hpresent (l :=
    [objectPrototype, functionPrototype, throwTypeError, arrayBuffer, arrayBufferPrototype, global])
    (by simp)⟩

/-- The world of one realm is closed when the embedding program holds no object yet. -/
theorem closed_start {limit : Option UInt64} {memory : Memory} {host : σ}
    (hhost : extent (Embedding.roots host) = 0) : (start limit memory host).Closed := by
  have hobject (o : ObjectId) : (empty limit memory host).object o = default :=
    object_of_size_le _ (Nat.zero_le _)
  have hfirst : ((empty limit memory host).addObject (.new none .plain)).2.Closed := by
    have hnew (o : ObjectId) :
        ((empty limit memory host).addObject (.new none .plain)).2.object o = default := by
      rw [object_addObject, hobject]
      split <;> rfl
    refine ⟨fun o p hp => ?_, fun o => ?_, fun s => Nat.zero_le _, Nat.zero_le _, ?_, ?_⟩
    · rw [hnew] at hp
      cases hp
    · rw [hnew]
      exact Object.extent_default_le
    · show extent ([default].flatMap Realm.entities) ≤ 1
      decide
    · exact Nat.le_trans (Nat.le_of_eq hhost) (Nat.zero_le _)
  obtain ⟨hdevelops, hrealm⟩ := (empty limit memory host).develops_addRealm hfirst
  exact (hdevelops.closed hfirst).setRealm hrealm

end World

end EcmaCore
