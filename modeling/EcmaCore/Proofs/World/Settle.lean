import EcmaCore.Proofs.Ledger
import EcmaCore.Proofs.World.Change
import EcmaCore.Proofs.World.Departs

/-!
# What settling does

Settling a world gives up the entities that depart: a module is no longer available
and a buffer no longer holds bytes. Nothing else changes, in particular no reference,
so what departs afterwards has departed before. Holding on to more afterwards brings
nothing back and takes nothing away.

## Main results

* `giveUp_object`: giving up an object.
* `available_settle`: which modules are still available.
* `isSpent_settle`, `object_settle`: what becomes of an object that departs, and of
  one that does not.
* `settle_holding`: a settled world that is held on to further is still settled.
-/

namespace EcmaCore

/-! ## Giving up one entity -/

/-- An object after it was given up: a buffer with a reservation has lost it and its block. -/
def Object.givenUp (o : Object) : Object :=
  match o.nature with
  | .buffer b =>
      match b.reserved with
      | some _ => { o with nature := .buffer { b with block := none, reserved := none } }
      | none => o
  | _ => o

/-- The bytes that an object gives back when it is given up. -/
def Object.reserved (o : Object) : UInt64 := (o.buffer?.bind Buffer.reserved).getD 0

/-- There is nothing left to give up of an object. -/
def Object.IsSpent (o : Object) : Prop :=
  ∀ b, o.buffer? = some b → b.reserved = none

namespace Object

theorem isSpent_givenUp (o : Object) : o.givenUp.IsSpent := by
  intro b hb
  unfold givenUp at hb
  split at hb
  · next hnature =>
    split at hb
    · cases hb
      rfl
    · next hreserved =>
      rw [buffer?, hnature] at hb
      cases hb
      exact hreserved
  · next hnature =>
    rw [buffer?] at hb
    split at hb
    · next hbuffer => exact absurd hbuffer (hnature _)
    · cases hb

theorem IsSpent.givenUp_eq {o : Object} (h : o.IsSpent) : o.givenUp = o := by
  unfold givenUp
  split
  · next b hnature =>
    have hreserved := h b (by rw [buffer?, hnature])
    rw [hreserved]
  · rfl

theorem IsSpent.reserved_eq {o : Object} (h : o.IsSpent) : o.reserved = 0 := by
  unfold reserved
  cases hb : o.buffer? with
  | none => rfl
  | some b => simp [h b hb]

/-- Giving up an object changes no reference. -/
theorem entities_givenUp (o : Object) : o.givenUp.entities = o.entities := by
  unfold givenUp
  split
  · next hnature =>
    split
    · simp [entities, function?, hnature]
    · rfl
  · rfl

end Object

namespace World

variable {σ : Type} {w w' w'' : World σ} {e other : Entity}

/-- Giving up an object of which nothing is left to give up changes nothing. -/
theorem giveUp_object_of_isSpent {o : ObjectId} (h : (w.object o).IsSpent) :
    w.giveUp (.object o) = w := by
  unfold giveUp
  dsimp only
  split
  · next b hnature =>
    have hreserved := h b (by rw [Object.buffer?, hnature])
    rw [hreserved]
  · rfl

/-- Giving up an object takes its block away and its bytes out of the ledger. -/
theorem giveUp_object (w : World σ) (o : ObjectId) :
    w.giveUp (.object o) =
      { w.modifyObject o Object.givenUp with
        ledger := w.ledger.release (w.object o).reserved } := by
  have hkept (h : (w.object o).IsSpent) : w =
      { w.modifyObject o Object.givenUp with
        ledger := w.ledger.release (w.object o).reserved } := by
    rw [h.reserved_eq, Ledger.release_zero, w.modifyObject_congr o (g := id) h.givenUp_eq,
      modifyObject_id]
  cases hnature : (w.object o).nature with
  | buffer b =>
      have hb : (w.object o).buffer? = some b := by rw [Object.buffer?, hnature]
      cases hreserved : b.reserved with
      | none =>
          have hspent : (w.object o).IsSpent := by
            intro b' hb'
            rw [hb] at hb'
            cases hb'
            exact hreserved
          rw [giveUp_object_of_isSpent hspent]
          exact hkept hspent
      | some bytes =>
          have hgiven : w.modifyObject o Object.givenUp = w.modifyObject o
              ({ · with nature := .buffer { b with block := none, reserved := none } }) := by
            refine w.modifyObject_congr o ?_
            simp only [Object.givenUp, hnature, hreserved]
          rw [hgiven, Object.reserved, hb]
          simp only [giveUp, hnature, hreserved, Buffer.detach, Option.bind_some]
  | _ =>
      have hspent : (w.object o).IsSpent := by
        intro b hb
        rw [Object.buffer?, hnature] at hb
        cases hb
      rw [giveUp_object_of_isSpent hspent]
      exact hkept hspent

theorem object_giveUp (w : World σ) (e : Entity) (o : ObjectId) :
    (w.giveUp e).object o = if e = .object o then (w.object o).givenUp else w.object o := by
  cases e with
  | object o' =>
      rw [giveUp_object]
      show (w.modifyObject o' Object.givenUp).object o = _
      rw [object_modifyObject]
      by_cases heq : o' = o
      · subst heq
        by_cases hlt : o'.index < w.objects.size
        · simp [hlt]
        · rw [w.object_of_size_le (Nat.not_lt.1 hlt)]
          simp [hlt]
          rfl
      · simp [heq]
  | scope s => simp [giveUp]
  | module m => simp [giveUp, object]

theorem module_giveUp (w : World σ) (e : Entity) (m : ModuleId) :
    (w.giveUp e).module m =
      if e = .module m then { w.module m with available := false } else w.module m := by
  cases e with
  | object o =>
      rw [giveUp_object]
      simp [module, modifyObject]
  | scope s => simp [giveUp]
  | module m' =>
      obtain ⟨i⟩ := m'
      obtain ⟨j⟩ := m
      simp only [giveUp, module, Array.getD_eq_getD_getElem?, Array.getElem?_modify,
        Entity.module.injEq, ModuleId.mk.injEq]
      split
      · next heq =>
        subst heq
        cases w.modules[i]? <;> rfl
      · rfl

/-! ## What survives -/

/-- The second world is the first but for blocks of buffers and the availability of modules. -/
structure Survives (w w' : World σ) : Prop where
  scopes : w'.scopes = w.scopes
  objects_size : w'.objects.size = w.objects.size
  modules_size : w'.modules.size = w.modules.size
  references : ∀ e, w'.references e = w.references e
  ownRoots : w'.ownRoots = w.ownRoots
  held : w'.held = w.held
  host : w'.host = w.host

namespace Survives

theorem refl (w : World σ) : w.Survives w :=
  ⟨rfl, rfl, rfl, fun _ => rfl, rfl, rfl, rfl⟩

theorem trans (h : w.Survives w') (h' : w'.Survives w'') : w.Survives w'' where
  scopes := h'.scopes.trans h.scopes
  objects_size := h'.objects_size.trans h.objects_size
  modules_size := h'.modules_size.trans h.modules_size
  references e := (h'.references e).trans (h.references e)
  ownRoots := h'.ownRoots.trans h.ownRoots
  held := h'.held.trans h.held
  host := h'.host.trans h.host

theorem entities (h : w.Survives w') : w'.entities = w.entities := by
  rw [World.entities, World.entities, h.objects_size, h.modules_size, h.scopes]

end Survives

theorem survives_giveUp (w : World σ) (e : Entity) : w.Survives (w.giveUp e) := by
  have hscopes : (w.giveUp e).scopes = w.scopes := by
    cases e with
    | object o => rw [giveUp_object]; rfl
    | _ => rfl
  have hreferences (x : Entity) : (w.giveUp e).references x = w.references x := by
    cases x with
    | object o =>
        show ((w.giveUp e).object o).entities = (w.object o).entities
        rw [object_giveUp]
        split
        · exact (w.object o).entities_givenUp
        · rfl
    | scope s => simp only [World.references, scope, hscopes]
    | module m =>
        have hsource : ((w.giveUp e).module m).source = (w.module m).source := by
          rw [module_giveUp]
          split <;> rfl
        simp only [World.references, hsource]
  refine ⟨hscopes, ?_, ?_, hreferences, ?_, ?_, ?_⟩
  all_goals
    cases e with
    | object o =>
        rw [giveUp_object]
        simp [modifyObject, World.ownRoots]
    | _ => simp [giveUp, World.ownRoots]

theorem survives_settle [Embedding σ] (w : World σ) : w.Survives w.settle :=
  settle_induction (motive := w.Survives) (.refl w) fun u e h => h.trans (u.survives_giveUp e)

/-- What an entity refers to and what the world keeps is all that decides whether it departs. -/
theorem Survives.departs_iff (h : w.Survives w') (roots : List Entity) (e : Entity) :
    w'.Departs roots e ↔ w.Departs roots e := by
  constructor
  · intro hdeparts
    exact hdeparts.mono h.entities h.references fun x hx => by rwa [h.ownRoots]
  · intro hdeparts
    refine hdeparts.mono h.entities.symm (fun x => (h.references x).symm) fun x hx => ?_
    rwa [← h.ownRoots]

/-! ## Entities that are spent -/

/-- There is nothing left to give up of an entity. -/
def IsSpent (w : World σ) : Entity → Prop
  | .object o => (w.object o).IsSpent
  | .scope _ => True
  | .module m => (w.module m).available = false

theorem isSpent_giveUp_self (w : World σ) (e : Entity) : (w.giveUp e).IsSpent e := by
  cases e with
  | object o =>
      rw [IsSpent, object_giveUp, if_pos rfl]
      exact (w.object o).isSpent_givenUp
  | scope s => trivial
  | module m => rw [IsSpent, module_giveUp, if_pos rfl]

theorem IsSpent.giveUp (h : w.IsSpent e) (other : Entity) : (w.giveUp other).IsSpent e := by
  cases e with
  | object o =>
      rw [IsSpent, object_giveUp]
      split
      · exact (w.object o).isSpent_givenUp
      · exact h
  | scope s => trivial
  | module m =>
      rw [IsSpent, module_giveUp]
      split
      · rfl
      · exact h

theorem IsSpent.foldl_giveUp (h : w.IsSpent e) (es : List Entity) :
    (es.foldl World.giveUp w).IsSpent e := by
  induction es generalizing w with
  | nil => exact h
  | cons other es ih => exact ih (h.giveUp other)

theorem isSpent_foldl_giveUp (es : List Entity) (w : World σ) (h : e ∈ es) :
    (es.foldl giveUp w).IsSpent e := by
  induction es generalizing w with
  | nil => exact absurd h List.not_mem_nil
  | cons other es ih =>
      rcases List.mem_cons.1 h with rfl | hrest
      · exact (w.isSpent_giveUp_self e).foldl_giveUp es
      · exact ih _ hrest

/-- Giving up what is spent changes nothing. -/
theorem IsSpent.giveUp_eq (h : w.IsSpent e) : w.giveUp e = w := by
  cases e with
  | object o => exact giveUp_object_of_isSpent h
  | scope s => rfl
  | module m =>
      have hmodules : w.modules.modify m.index ({ · with available := false }) = w.modules := by
        refine Array.ext (by simp) fun i hi _ => ?_
        rw [Array.getElem_modify]
        split
        · next heq =>
          subst heq
          have hlt : m.index < w.modules.size := by simpa using hi
          have havailable : w.modules[m.index].available = false := by
            simpa [IsSpent, module, Array.getD_eq_getD_getElem?, hlt] using h
          cases hentry : w.modules[m.index]
          rw [hentry] at havailable
          cases havailable
          rfl
        · rfl
      rw [World.giveUp, hmodules]

theorem foldl_giveUp_of_isSpent (es : List Entity) (h : ∀ e ∈ es, w.IsSpent e) :
    es.foldl giveUp w = w := by
  induction es with
  | nil => rfl
  | cons e es ih =>
      rw [List.foldl_cons, (h e List.mem_cons_self).giveUp_eq]
      exact ih fun other hother => h other (List.mem_cons_of_mem e hother)

/-! ## Settling -/

/-- What giving up any of some entities leaves as it was is so when all of them are given up. -/
theorem foldl_giveUp_eq {β : Type} (f : World σ → β) {es : List Entity}
    (h : ∀ e ∈ es, ∀ w : World σ, f (w.giveUp e) = f w) (w : World σ) :
    f (es.foldl giveUp w) = f w := by
  induction es generalizing w with
  | nil => rfl
  | cons e es ih =>
      rw [List.foldl_cons, ih fun x hx => h x (List.mem_cons_of_mem e hx)]
      exact h e List.mem_cons_self w

/-- Where nothing would be missed everything is spent. -/
theorem isSpent_of_not_hasLosses (h : w.hasLosses = false) (e : Entity) : w.IsSpent e := by
  simp only [hasLosses, Bool.or_eq_false_iff, Array.any_eq_false] at h
  obtain ⟨hobjects, hmodules⟩ := h
  cases e with
  | object o =>
      intro b hb
      have hlt := index_lt_of_buffer hb
      have hnone := hobjects o.index hlt
      rw [← w.object_eq_getElem hlt] at hnone
      simpa [hb] using hnone
  | scope s => trivial
  | module m =>
      by_cases hlt : m.index < w.modules.size
      · simpa [IsSpent, module, Array.getD_eq_getD_getElem?, hlt] using hmodules m.index hlt
      · simp [IsSpent, module, Array.getD_eq_getD_getElem?, hlt]

variable [Embedding σ]

/-- A world settles by giving up the entities that depart. -/
theorem settle_eq (w : World σ) :
    w.settle = (w.unreferenced (Embedding.roots w.host)).foldl giveUp w := by
  unfold settle collect
  split
  · rfl
  · next h =>
    have hspent := isSpent_of_not_hasLosses ((Bool.not_eq_true _).mp h)
    rw [foldl_giveUp_of_isSpent _ fun e _ => hspent e]

/-- What departs is spent when the world is settled. -/
theorem isSpent_settle (h : w.Departs (Embedding.roots w.host) e) : w.settle.IsSpent e := by
  rw [settle_eq]
  exact isSpent_foldl_giveUp _ w ((w.mem_unreferenced_iff _ e).2 h)

/-- What does not depart is as it was. -/
theorem object_settle {o : ObjectId} (h : ¬w.Departs (Embedding.roots w.host) (.object o)) :
    w.settle.object o = w.object o := by
  rw [settle_eq]
  apply foldl_giveUp_eq (·.object o)
  intro e he w'
  have hne : e ≠ .object o := by
    rintro rfl
    exact h ((w.mem_unreferenced_iff _ _).1 he)
  exact (object_giveUp w' e o).trans (if_neg hne)

/-- Which modules are still available when a world is settled. -/
theorem available_settle (w : World σ) (m : ModuleId) :
    (w.settle.module m).available = true ↔
      (w.module m).available = true ∧ ¬w.Departs (Embedding.roots w.host) (.module m) := by
  have hfold (es : List Entity) (w : World σ) :
      ((es.foldl giveUp w).module m).available =
        ((w.module m).available && !decide (.module m ∈ es)) := by
    induction es generalizing w with
    | nil => simp
    | cons e es ih =>
        rw [List.foldl_cons, ih, module_giveUp]
        by_cases heq : e = .module m
        · simp [heq]
        · simp [heq, Ne.symm heq]
  rw [settle_eq, hfold, Bool.and_eq_true, Bool.not_eq_true', decide_eq_false_iff_not,
    mem_unreferenced_iff]

theorem scope_settle (w : World σ) (s : ScopeId) : w.settle.scope s = w.scope s := by
  rw [scope, scope, w.survives_settle.scopes]

/-- Settling makes modules unavailable and changes nothing else about them. -/
theorem source_settle (w : World σ) (m : ModuleId) :
    (w.settle.module m).source = (w.module m).source := by
  rw [settle_eq]
  apply foldl_giveUp_eq fun w => (w.module m).source
  intro e _ w'
  show ((w'.giveUp e).module m).source = (w'.module m).source
  rw [module_giveUp]
  split <;> rfl

/-- Where everything that departs is spent, the world is settled. -/
theorem settle_eq_self (h : ∀ e, w.Departs (Embedding.roots w.host) e → w.IsSpent e) :
    w.settle = w := by
  rw [settle_eq]
  exact foldl_giveUp_of_isSpent _ fun e he => h e ((w.mem_unreferenced_iff _ e).1 he)

@[simp] theorem settle_settle (w : World σ) : w.settle.settle = w.settle := by
  refine settle_eq_self fun e hdeparts => isSpent_settle ?_
  rwa [w.survives_settle.host, w.survives_settle.departs_iff] at hdeparts

/-- A settled world that is held on to further is still settled. -/
theorem settle_holding (h : w.settle = w) (entities : List Entity) :
    ({ w with held := entities ++ w.held } : World σ).settle =
      { w with held := entities ++ w.held } := by
  refine settle_eq_self fun e hdeparts => ?_
  have hbefore : w.Departs (Embedding.roots w.host) e := by
    refine hdeparts.mono rfl (fun _ => rfl) fun x hx => hx.imp (fun hown => ?_) id
    simp only [ownRoots, List.mem_append] at hown ⊢
    exact hown.imp (Or.imp Or.inr id) id
  have hspent := isSpent_settle hbefore
  rw [h] at hspent
  exact hspent

end World

end EcmaCore
