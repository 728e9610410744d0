import EcmaCore.Proofs.Builtin.Buffer
import EcmaCore.Proofs.World.Functions

/-!
# The life of array buffers

What code sees of a buffer from its allocation on, in every order of resizes, slices,
detachments and getters, and whatever runs inside them. A buffer that is detached in some
world is so in every later one, and what ends well leaves it with its block: so an
operation in the course of which the buffer is detached does not end well, whoever
detaches it.

## Main results

* `World.Allocated.reads`: what the getters answer, and what they answer later.
* `Engine.allocated_constructBuffer`: what the constructor of array buffers gives is
  allocated.
* `Program.life_of_buffers`: all of it together.
-/

namespace EcmaCore

variable {σ : Type}

namespace World

variable {w w' : World σ} {o f : ObjectId}

/-! ## Constructors of buffers -/

/-- Constructing with this function allocates a buffer. -/
def BuildsBuffers (w : World σ) (f : ObjectId) : Prop :=
  ∃ n, w.function? f = some (.native n) ∧ n.construct = some (.builtin .bufferConstructor)

theorem buildsBuffers_addObject (w : World σ) (prototype : Option ObjectId) (key : PropertyKey)
    (arity : UInt32) (call : Behaviour) :
    (w.addObject
      (.ofNative prototype key arity call (some (.builtin .bufferConstructor)))).2.BuildsBuffers
      ⟨w.objects.size⟩ := by
  refine ⟨⟨key.functionName, arity, call, some (.builtin .bufferConstructor)⟩, ?_, rfl⟩
  rw [function?, object_addObject, if_pos rfl, Object.function?_ofNative]

theorem BuildsBuffers.keep (h : w.BuildsBuffers f) (hkeep : w.FunctionsKeep w') :
    w'.BuildsBuffers f := by
  obtain ⟨n, hf, hn⟩ := h
  exact ⟨n, hkeep f _ hf, hn⟩

variable [Embedding σ]

/-- Every realm has a constructor of array buffers, which is one from then on. -/
theorem buildsBuffers_of_addRealm (h : w.addRealm.2.Reaches w') :
    w'.BuildsBuffers w.addRealm.1.arrayBuffer := by
  have hkeeps := functionsKeep_guarantee (σ := σ) .all
  refine .keep ?_ (hkeeps.of_reaches h)
  unfold addRealm
  -- the constructor is older than its prototype, the global object and all their properties
  refine .keep ?_ (hkeeps.change (.addScope _ _))
  refine .keep ?_ (hkeeps.addFixtures _ _ _ _)
  refine .keep ?_ (hkeeps.change (.addObject _ rfl))
  refine .keep ?_ (hkeeps.addFixtures _ _ _ _)
  refine .keep ?_ (hkeeps.addFixtures _ _ _ _)
  refine .keep ?_ (hkeeps.change (.addObject _ rfl))
  exact buildsBuffers_addObject _ _ _ _ _

/-! ## Allocated buffers -/

theorem Reaches.buffersKeep (h : w.Reaches w') : w.BuffersKeep w' :=
  (buffersKeep_guarantee .all).of_reaches h

/-- An object was allocated as a buffer in this world or an earlier one. -/
def Allocated (w : World σ) (o : ObjectId) : Prop :=
  ∃ (E : Engine σ) (constructor : ObjectId) (length : UInt64) (maximum : Option UInt64)
    (before allocated : World σ),
    E.allocateBuffer constructor length maximum before = .ok o allocated ∧ allocated.Reaches w

theorem Allocated.reaches (h : w.Allocated o) (hlater : w.Reaches w') : w'.Allocated o := by
  obtain ⟨E, constructor, length, maximum, before, allocated, hallocate, hreaches⟩ := h
  exact ⟨E, constructor, length, maximum, before, allocated, hallocate, hreaches.trans hlater⟩

/-- An allocated buffer is not shared, and its bytes fit. -/
theorem Allocated.buffer (h : w.Allocated o) :
    ∃ b, w.buffer? o = some b ∧ b.shared = false ∧ b.Fits := by
  obtain ⟨E, constructor, length, maximum, before, allocated, hallocate, hreaches⟩ := h
  obtain ⟨hmaximum, hbuffer⟩ := Engine.allocateBuffer_eq_ok hallocate
  obtain ⟨b, hb, hcontinues⟩ := hreaches.buffersKeep o _ hbuffer
  exact ⟨b, hb, hcontinues.shared, hcontinues.fits (Buffer.fits_zeros hmaximum)⟩

/-- What the getters of an allocated buffer answer is proper, and in later worlds they give later
answers. -/
theorem Allocated.reads (h : w.Allocated o) :
    ∃ r, w.Reads o r ∧ r.Proper ∧
      ∀ w', w.Reaches w' → ∃ r', w'.Reads o r' ∧ r'.Proper ∧ r.Continues r' := by
  obtain ⟨b, hbuffer, hshared, hfits⟩ := h.buffer
  refine ⟨b.reading, reads_of_buffer hbuffer hshared hfits, hfits.proper, fun w' hlater => ?_⟩
  obtain ⟨b', hbuffer', hcontinues⟩ := hlater.buffersKeep o b hbuffer
  have hfits' := hcontinues.fits hfits
  exact ⟨b'.reading, reads_of_buffer hbuffer' (hcontinues.shared.trans hshared) hfits',
    hfits'.proper, hcontinues.reading⟩

/-- A buffer that is detached stays detached. -/
theorem isDetached_of_reaches (h : w.isDetached o = true) (hlater : w.Reaches w') :
    w'.isDetached o = true := by
  obtain ⟨b, hbuffer, hdetached⟩ := Option.any_eq_true _ _ |>.1 h
  obtain ⟨b', hbuffer', hcontinues⟩ := hlater.buffersKeep o b hbuffer
  rw [isDetached, hbuffer']
  exact hcontinues.detached hdetached

/-- Detaching an allocated buffer ends well, and the buffer is detached then. -/
theorem Allocated.detach (h : w.Allocated o) :
    ∃ w', Engine.detach o w = .ok () w' ∧ w'.isDetached o = true ∧ w.Reaches w' := by
  obtain ⟨b, hbuffer, hshared, -⟩ := h.buffer
  have hdetached : w.detachBuffer o =
      (b.length, { w.setBuffer o (b.detach w.ledger).1 with ledger := (b.detach w.ledger).2 }) := by
    rw [detachBuffer, hbuffer]
  refine ⟨(w.detachBuffer o).2, ?_, ?_, .change .refl (.detach o)⟩
  · rw [Engine.detach, Action.bind_ok (Action.get_apply w), hbuffer]
    dsimp only
    rw [hshared]
    exact Action.bind_ok (Action.change_apply _ w)
  · rw [isDetached, hdetached]
    show ((w.setBuffer o (b.detach w.ledger).1).buffer? o).any Buffer.isDetached = true
    rw [buffer?_setBuffer hbuffer]
    rfl

/-- What an allocated buffer is once it is detached. -/
theorem Allocated.reads_of_detached (h : w.Allocated o) (hdetached : w.isDetached o = true) :
    ∃ resizable, w.Reads o (.ofDetached resizable) := by
  obtain ⟨b, hbuffer, hshared, hfits⟩ := h.buffer
  rw [isDetached, hbuffer] at hdetached
  exact ⟨_, Buffer.reading_of_detached hdetached ▸ reads_of_buffer hbuffer hshared hfits⟩

/-- What the getters of a buffer answer when it is allocated. -/
theorem reads_of_allocateBuffer {E : Engine σ} {constructor : ObjectId} {length : UInt64}
    {maximum : Option UInt64} (h : E.allocateBuffer constructor length maximum w = .ok o w') :
    w'.Reads o ⟨length, maximum.getD length, maximum.isSome, false⟩ := by
  obtain ⟨hmaximum, hbuffer⟩ := Engine.allocateBuffer_eq_ok h
  have hreads := reads_of_buffer hbuffer rfl (Buffer.fits_zeros hmaximum)
  rwa [Buffer.reading_zeros] at hreads

end World

/-- What the constructor of array buffers constructs is allocated. -/
theorem Engine.allocated_constructBuffer [Embedding σ] {E : Engine σ} {args : List Value}
    {newTarget : ObjectId} {v : Value} {w w' : World σ}
    (h : E.constructBuffer args newTarget w = .ok v w') :
    ∃ o, v = .object o ∧ w'.Allocated o := by
  obtain ⟨u, hrun, rfl⟩ := Action.holding_eq_ok h
  obtain ⟨length, _, -, hrun⟩ := Action.bind_eq_ok.1 hrun
  obtain ⟨maximum, before, -, hrun⟩ := Action.bind_eq_ok.1 hrun
  obtain ⟨o, _, hallocate, hrun⟩ := Action.bind_eq_ok.1 hrun
  cases hrun
  exact ⟨o, rfl, E, newTarget, length, maximum, before, _, hallocate, .change .refl (.hold _)⟩

namespace Program

variable [Embedding σ] (P : Program σ) (budget : Nat)

theorem construct_of_buildsBuffers {f : ObjectId} {w : World σ} (hf : w.BuildsBuffers f)
    (args : List Value) (newTarget : ObjectId) :
    (P.engine (budget + 1)).construct f args newTarget w =
      (P.engine budget).constructBuffer args newTarget w := by
  obtain ⟨⟨name, arity, call, construct⟩, hf, rfl⟩ := hf
  have hadmits : w.isConstructorObject f = true := by
    rw [World.isConstructorObject, World.constructsWithin, hf]
    rfl
  show P.construct (P.engine budget) f args newTarget w = _
  rw [Program.construct, Action.bind_ok (Action.get_apply w), hadmits, hf]
  rfl

/-- **The life of array buffers.** Buffers are allocated directly, with the length and the maximum
that are asked for, by the constructor of array buffers of a realm, and by slices that construct
with it; and whatever a program runs leads to later worlds. In each world from the allocation of a
buffer on:

* the getters answer, the length is that of the block and at most the maximum, and in all later
  worlds the buffer is resizable or not as before; while it is attached its maximum is the same, and
  if it is of fixed length so is its length;
* a resize that ends well keeps the bytes that the buffer had after the length was converted as far
  as they fit, and fills up with zeros;
* detaching it ends well, and leads to a later world in which it is detached;
* a detached buffer is detached in all later worlds, both its lengths are zero there, and no resize
  or slice of it ends well: neither one that starts when it is detached, nor one that ends in any
  later world, wherever it started. -/
theorem life_of_buffers :
    (∀ constructor length maximum o w w',
      (P.engine budget).allocateBuffer constructor length maximum w = .ok o w' →
      w'.Allocated o ∧ w'.Reads o ⟨length, maximum.getD length, maximum.isSome, false⟩) ∧
    (∀ (w w' : World σ), w.addRealm.2.Reaches w' → w'.BuildsBuffers w.addRealm.1.arrayBuffer) ∧
    (∀ f args newTarget v w w', w.BuildsBuffers f →
      (P.engine (budget + 1)).construct f args newTarget w = .ok v w' →
      ∃ o, v = .object o ∧ w'.Allocated o) ∧
    (∀ o args v w w', (P.engine (budget + 1)).bufferSlice (.object o) args w = .ok v w' →
      ∃ new f count u u', v = .object new ∧
        (P.engine (budget + 1)).construct f [.ofSize count] f u = .ok v u' ∧ u'.Reaches w' ∧
        (u.BuildsBuffers f → w'.Allocated new)) ∧
    (P.engine budget).Guarantees World.Reaches ∧
    (∀ (α : Type) (script : Script σ α) (w : World σ),
      w.Reaches ((P.runScript budget script).after w)) ∧
    ∀ (w : World σ) (o : ObjectId), w.Allocated o →
      (∃ r, w.Reads o r ∧ r.Proper ∧
        ∀ w', w.Reaches w' → ∃ r', w'.Reads o r' ∧ r'.Proper ∧ r.Continues r') ∧
      (∀ args v w', (P.engine budget).bufferResize (.object o) args w = .ok v w' →
        ∃ length u before after, (P.engine budget).toIndex (args.getD 0 .undefined)
            { w with held := Engine.operands o args ++ w.held } = .ok length u ∧
          u.blockOf o = some before ∧ w'.blockOf o = some after ∧
          Buffer.Refitted before after length.toNat) ∧
      (∀ length w', Engine.resizeBuffer o length w = .ok () w' →
        ∃ before after, w.blockOf o = some before ∧ w'.blockOf o = some after ∧
          Buffer.Refitted before after length.toNat) ∧
      (∃ w', Engine.detach o w = .ok () w' ∧ w'.isDetached o = true ∧ w.Reaches w') ∧
      (w.isDetached o = true →
        (∀ w', ¬ (P.engine budget).EndsWell o w w') ∧
        ∀ w', w.Reaches w' → w'.isDetached o = true ∧
          (∃ resizable, w'.Reads o (.ofDetached resizable)) ∧
          ∀ start, ¬ (P.engine budget).EndsWell o start w') := by
  have hnone {w w' : World σ} {o : ObjectId} (hdetached : w.isDetached o = true)
      (hlater : w.Reaches w') (start : World σ) : ¬ (P.engine budget).EndsWell o start w' := by
    intro hends
    cases hends.attached.symm.trans (World.isDetached_of_reaches hdetached hlater)
  refine ⟨fun constructor length maximum o w w' h => ?_,
    fun w w' => World.buildsBuffers_of_addRealm, fun f args newTarget v w w' hf h => ?_,
    fun o args v w w' h => ?_, P.engine_reaches budget, fun α script w => ?_, fun w o h =>
      ⟨h.reads, fun args v w' => Engine.bufferResize_eq_ok,
        fun length w' => Engine.resizeBuffer_eq_ok, h.detach, fun hdetached => ⟨fun w' hends => ?_,
          fun w' hlater => ⟨?_, ?_, hnone hdetached hlater⟩⟩⟩⟩
  · exact ⟨⟨_, constructor, length, maximum, w, w', h, .refl⟩, World.reads_of_allocateBuffer h⟩
  · rw [P.construct_of_buildsBuffers budget hf] at h
    exact Engine.allocated_constructBuffer h
  · obtain ⟨length, first, count, new, target, old, cur, u₁, hcalls, htarget, rfl, rfl⟩ :=
      Engine.bufferSlice_eq_ok h
    obtain ⟨f, u, u', hconstruct, hreaches⟩ := Engine.sliceCallouts_construct hcalls
    have hcopy := (World.reaches_guarantee (σ := σ)).copySlice o new first count
    have hlater := hreaches.trans ((hcopy.of_ok (htarget.copy first)).change (.hold w.held))
    refine ⟨new, f, _, u, u', rfl, hconstruct, hlater, fun hf => ?_⟩
    rw [P.construct_of_buildsBuffers budget hf] at hconstruct
    obtain ⟨o', heq, hallocated⟩ := Engine.allocated_constructBuffer hconstruct
    cases heq
    exact hallocated.reaches hlater
  · exact P.runScript_reaches budget script w
  · exact hnone hdetached (hends.reaches (P.engine_reaches budget)) w hends
  · exact World.isDetached_of_reaches hdetached hlater
  · exact (h.reaches hlater).reads_of_detached (World.isDetached_of_reaches hdetached hlater)

/-- A buffer of four bytes that can grow to eight is detached: its lengths are zero then, and
nothing that ends well ends there. -/
theorem life_of_detached_buffer :
    let start : World Unit := World.start (some 16) (.below 100) ()
    let E : Engine Unit := Program.engine (fun _ _ => .done .undefined) 3
    ∃ o w w', E.allocateBuffer start.realm.arrayBuffer 4 (some 8) start = .ok o w ∧
      w.isDetached o = false ∧ Engine.detach o w = .ok () w' ∧
      (∃ resizable, w'.Reads o (.ofDetached resizable)) ∧ ∀ before, ¬ E.EndsWell o before w' := by
  intro start E
  obtain ⟨hdirect, -, -, -, -, -, hlife⟩ :=
    Program.life_of_buffers (σ := Unit) (fun _ _ => .done .undefined) 3
  have hrun : (match E.allocateBuffer start.realm.arrayBuffer 4 (some 8) start with
      | .ok o w => some (w.isDetached o)
      | .error .. => none) = some false := by
    decide +kernel
  cases hallocate : E.allocateBuffer start.realm.arrayBuffer 4 (some 8) start with
  | error e w =>
      rw [hallocate] at hrun
      cases hrun
  | ok o w =>
      rw [hallocate] at hrun
      have hallocated := (hdirect _ _ _ o start w hallocate).1
      obtain ⟨-, -, -, ⟨w', hdetach, hdetached, hlater⟩, -⟩ := hlife w o hallocated
      obtain ⟨-, -, -, -, hends⟩ := hlife w' o (hallocated.reaches hlater)
      obtain ⟨-, hreads, hnone⟩ := (hends hdetached).2 w' .refl
      exact ⟨o, w, w', rfl, Option.some.inj hrun, hdetach, hreads, hnone⟩

end Program

end EcmaCore
