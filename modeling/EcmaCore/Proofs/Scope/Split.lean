import EcmaCore.Proofs.Agreement
import EcmaCore.Proofs.World.GiveUp
import EcmaCore.Proofs.World.Held
import EcmaCore.Proofs.World.Scopes

/-!
# Splitting a global environment in two

A global environment resolves names in its own slots first and in the global object then.
The same slots as a declarative environment, inside of an environment for the global
object, do as much with two environments. `GlobalSplit.split` is the world in which the
second stands in the place of the first, and `GlobalSplit.Splits` relates worlds before
and after, which may besides hold on to the same entities in another order.

The two worlds differ in what keeps what: the global environment keeps the global object and
its `this`, where its substitute keeps the second environment. So they settle alike only as
long as somebody else holds on to all of these, which is part of the relation.

## Main results

* `GlobalSplit.Splits.departs_iff`: the same entities depart in both worlds.
* `GlobalSplit.agreement`: changes of objects, settling and holding respect the relation.
* `GlobalSplit.Splits.setRecord`, `GlobalSplit.Splits.setSlots`: so do changes of
  environments.
-/

namespace EcmaCore

variable {σ : Type}

/-- Two worlds have the same environments if they read the same. -/
theorem World.scopes_ext {w w' : World σ} (hsize : w'.scopes.size = w.scopes.size)
    (h : ∀ s, w'.scope s = w.scope s) : w'.scopes = w.scopes := by
  refine Array.ext hsize fun i hi hi' => ?_
  have hscope := h ⟨i⟩
  simpa [scope, Array.getD_eq_getD_getElem?, hi, hi'] using hscope

/-- An entity that departs does so in any world in which no more is held on to and in which all that
refers to it did so before. -/
theorem World.Departs.of_references {w w' : World σ} {roots : List Entity} {e : Entity}
    (h : w.Departs roots e) (hentities : w'.entities = w.entities)
    (hown : ∀ x, x ∈ w'.ownRoots → x ∈ w.ownRoots)
    (hreferences : ∀ x e, w.Departs roots e → x ∈ w.entities → e ∈ w'.references x →
      e ∈ w.references x) : w'.Departs roots e := by
  induction h with
  | @intro e hentity hkept hroots hreferrers ih =>
      have hdeparts : w.Departs roots e := .intro hentity hkept hroots hreferrers
      refine .intro (hentities ▸ hentity) (fun hmem => hkept (hown e hmem)) hroots ?_
      intro x hx href
      rw [hentities] at hx
      exact ih x hx (hreferences x e hdeparts hx href)

/-- A global environment with its global object and `this`, and an environment for the same object
that can be put around its slots. -/
structure GlobalSplit where
  scope : ScopeId
  outer : ScopeId
  object : ObjectId
  this : ObjectId

namespace GlobalSplit

variable (G : GlobalSplit) (P : List String → Prop)

/-- What has to be held on to. -/
def entities : List Entity := [.scope G.scope, .scope G.outer, .object G.this]

/-- A world has the two environments, and the names that the global one lists as declared satisfy a
predicate. -/
structure Fits (w : World σ) : Prop where
  global : ∃ slots names,
    w.scope G.scope = ⟨.global slots ⟨G.object, G.this, names⟩, none⟩ ∧ P names
  outer : w.scope G.outer = ⟨.object G.object false, none⟩

/-- The world with the slots of the global environment as a declarative one, inside of that for the
global object. -/
def split (w : World σ) : World σ :=
  { w with
    scopes := w.scopes.modify G.scope.index fun s =>
      ⟨.declarative s.record.slots, some G.outer⟩ }

/-- The second world is the first one split, up to the order in which entities are held on to. -/
structure Splits (w w' : World σ) : Prop where
  fits : G.Fits P w
  rest : w' = w.reframe w'.scopes w'.held
  size : w'.scopes.size = w.scopes.size
  scope : ∀ s, s ≠ G.scope → w'.scope s = w.scope s
  inner : w'.scope G.scope = ⟨.declarative (w.scope G.scope).record.slots, some G.outer⟩
  held_iff : ∀ e, e ∈ w'.held ↔ e ∈ w.held
  held : ∀ e ∈ G.entities, e ∈ w.held

variable {G P} {w w' u u' : World σ}

namespace Fits

theorem index_lt (h : G.Fits P w) : G.scope.index < w.scopes.size := by
  obtain ⟨slots, names, hglobal, -⟩ := h.global
  exact World.index_lt_of_record (by rw [hglobal]; nofun)

theorem index_outer_lt (h : G.Fits P w) : G.outer.index < w.scopes.size :=
  World.index_lt_of_record (by rw [h.outer]; nofun)

theorem outer_ne (h : G.Fits P w) : G.outer ≠ G.scope := by
  obtain ⟨slots, names, hglobal, -⟩ := h.global
  intro heq
  rw [← heq, h.outer] at hglobal
  cases hglobal

theorem mono {P' : List String → Prop} (h : G.Fits P w) (hP : ∀ names, P names → P' names) :
    G.Fits P' w := by
  obtain ⟨slots, names, hglobal, hnames⟩ := h.global
  exact ⟨⟨slots, names, hglobal, hP names hnames⟩, h.outer⟩

/-- Only the two environments matter. -/
theorem of_scopes (h : G.Fits P w) (hscopes : u.scopes = w.scopes) : G.Fits P u := by
  have hscope (s : ScopeId) : u.scope s = w.scope s := by rw [World.scope, World.scope, hscopes]
  exact ⟨by simpa only [hscope] using h.global, (hscope _).trans h.outer⟩

end Fits

theorem scope_split (h : G.Fits P w) (s : ScopeId) :
    (G.split w).scope s =
      if s = G.scope then ⟨.declarative (w.scope G.scope).record.slots, some G.outer⟩
      else w.scope s := by
  have hlt := h.index_lt
  obtain ⟨i⟩ := s
  rcases hG : G.scope with ⟨j⟩
  rw [hG] at hlt
  simp only [split, World.scope, Array.getD_eq_getD_getElem?, Array.getElem?_modify, hG,
    ScopeId.mk.injEq]
  by_cases hij : i = j
  · subst hij
    simp [hlt]
  · simp [hij, Ne.symm hij]

/-- A world that holds on to all that matters is related to itself when it is split. -/
theorem splits_split (h : G.Fits P w) (hheld : ∀ e ∈ G.entities, e ∈ w.held) :
    G.Splits P w (G.split w) where
  fits := h
  rest := rfl
  size := by simp [split]
  scope s hs := by rw [scope_split h, if_neg hs]
  inner := by rw [scope_split h, if_pos rfl]
  held_iff _ := Iff.rfl
  held := hheld

namespace Splits

theorem mono {P' : List String → Prop} (h : G.Splits P w w') (hP : ∀ names, P names → P' names) :
    G.Splits P' w w' :=
  { h with fits := h.fits.mono hP }

/-- The environment for the global object is the same in both worlds. -/
theorem outside (h : G.Splits P w w') : w'.scope G.outer = ⟨.object G.object false, none⟩ := by
  rw [h.scope _ h.fits.outer_ne, h.fits.outer]

/-- Related worlds are a world and its split once they hold on to the same entities in the same
order. -/
theorem split_eq (h : G.Splits P w w') (held : List Entity) :
    G.split { w with held := held } = { w' with held := held } := by
  have hscopes : (G.split w).scopes = w'.scopes := by
    refine World.scopes_ext (by simp [split, h.size]) fun s => ?_
    rw [scope_split h.fits]
    split
    · next hs => rw [hs, h.inner]
    · next hs => rw [h.scope s hs]
  have hrest : ({ w' with held := held } : World σ) = w.reframe w'.scopes held :=
    congrArg (fun v : World σ => { v with held := held }) h.rest
  rw [hrest, ← hscopes]
  rfl

/-- Changes of what the two worlds have in common respect the relation. -/
theorem of_common (h : G.Splits P w w') (hscopes : u.scopes = w.scopes) (hheld : u.held = w.held)
    (hu' : u' = u.reframe w'.scopes w'.held) : G.Splits P u u' := by
  have hscope (s : ScopeId) : u.scope s = w.scope s := by rw [World.scope, World.scope, hscopes]
  have hscope' (s : ScopeId) : u'.scope s = w'.scope s := by rw [hu']; rfl
  refine ⟨h.fits.of_scopes hscopes, ?_, ?_, ?_, ?_, ?_, ?_⟩
  · rw [hu']
    rfl
  · rw [hu', hscopes]
    exact h.size
  · intro s hs
    rw [hscope, hscope', h.scope s hs]
  · rw [hscope, hscope', h.inner]
  · rw [hu', hheld]
    exact h.held_iff
  · rw [hheld]
    exact h.held

/-- What is held on to may be exchanged for the same entities in two orders. -/
theorem withHeld (h : G.Splits P w w') {held held' : List Entity}
    (hiff : ∀ e, e ∈ held' ↔ e ∈ held) (hheld : ∀ e ∈ G.entities, e ∈ held) :
    G.Splits P { w with held := held } { w' with held := held' } where
  fits := h.fits.of_scopes rfl
  rest := congrArg (fun v : World σ => { v with held := held' }) h.rest
  size := h.size
  scope := h.scope
  inner := h.inner
  held_iff := hiff
  held := hheld

/-! ## Settling -/

section

variable (h : G.Splits P w w')

include h

theorem object (o : ObjectId) : w'.object o = w.object o := by
  rw [h.rest]
  rfl

theorem entities : w'.entities = w.entities := by
  rw [World.entities, World.entities, h.size, h.rest]
  rfl

theorem mem_ownRoots_iff (e : Entity) : e ∈ w'.ownRoots ↔ e ∈ w.ownRoots := by
  have hcontexts : w'.contexts = w.contexts := by rw [h.rest]; rfl
  have hrealms : w'.realm :: w'.otherRealms = w.realm :: w.otherRealms := by rw [h.rest]; rfl
  simp only [World.ownRoots, List.mem_append, h.held_iff, hcontexts, hrealms]

/-- Everything but the global environment refers to the same entities. -/
theorem references {e : Entity} (he : e ≠ .scope G.scope) :
    w'.references e = w.references e := by
  cases e with
  | object o =>
      show (w'.object o).entities = _
      rw [h.object]
      rfl
  | scope s =>
      have hs : s ≠ G.scope := fun heq => he (heq ▸ rfl)
      simp only [World.references, h.scope s hs]
  | module m =>
      have hmodule : w'.module m = w.module m := by rw [h.rest]; rfl
      simp only [World.references, hmodule]

theorem references_inner :
    w'.references (.scope G.scope) =
      .scope G.outer :: (w.scope G.scope).record.slots.entities := by
  simp [World.references, h.inner, Record.entities, Record.slots]

/-- What is held on to departs from neither world. -/
theorem not_departs {e : Entity} (he : e ∈ G.entities) (roots : List Entity) :
    ¬w.Departs roots e ∧ ¬w'.Departs roots e :=
  ⟨World.not_departs_of_held (h.held e he) roots,
    World.not_departs_of_held ((h.held_iff e).2 (h.held e he)) roots⟩

/-- The same entities depart in both worlds. -/
theorem departs_iff (roots : List Entity) (e : Entity) :
    w'.Departs roots e ↔ w.Departs roots e := by
  obtain ⟨slots, names, hglobal, -⟩ := h.fits.global
  have hslots : (w.scope G.scope).record.slots.entities = slots.entities := by rw [hglobal]; rfl
  have hbefore : w.references (.scope G.scope) =
      slots.entities ++ [.object G.object, .object G.this] := by
    simp [World.references, hglobal, Record.entities, Record.slots]
  -- the two global environments refer to the same but for entities that are held on to
  constructor
  · intro hdeparts
    refine hdeparts.of_references h.entities.symm (fun x => (h.mem_ownRoots_iff x).2) ?_
    intro x e hgone hx href
    by_cases hscope : x = .scope G.scope
    · subst hscope
      rw [hbefore, List.mem_append] at href
      rw [h.references_inner, hslots]
      rcases href with hslot | hkept
      · exact List.mem_cons_of_mem _ hslot
      · rcases List.mem_pair.1 hkept with rfl | rfl
        · -- the environment around it refers to the global object and does not depart
          have hentity : Entity.scope G.outer ∈ w'.entities := by
            rw [World.mem_entities_iff, Census.Has, h.size]
            simpa [Census.empty] using h.fits.index_outer_lt
          have hmem : Entity.object G.object ∈ w'.references (.scope G.outer) := by
            simp [World.references, h.outside, Record.entities]
          have hkeeper := (h.not_departs (e := .scope G.outer) (by simp [GlobalSplit.entities])
            roots).2
          cases hgone with
          | intro _ _ _ hreferrers => exact absurd (hreferrers _ hentity hmem) hkeeper
        · exact absurd hgone (h.not_departs (by simp [GlobalSplit.entities]) roots).2
    · rwa [h.references hscope]
  · intro hdeparts
    refine hdeparts.of_references h.entities (fun x => (h.mem_ownRoots_iff x).1) ?_
    intro x e hgone hx href
    by_cases hscope : x = .scope G.scope
    · subst hscope
      rw [h.references_inner, hslots] at href
      rw [hbefore, List.mem_append]
      rcases List.mem_cons.1 href with rfl | hslot
      · exact absurd hgone (h.not_departs (by simp [GlobalSplit.entities]) roots).1
      · exact .inl hslot
    · rwa [← h.references hscope]

end

theorem settle [Embedding σ] (h : G.Splits P w w') : G.Splits P w.settle w'.settle := by
  have hdeparts (e : Entity) :
      (w.reframe w'.scopes w'.held).Departs (Embedding.roots w.host) e ↔
        w.Departs (Embedding.roots w.host) e := by
    rw [← h.rest]
    exact h.departs_iff _ e
  refine h.of_common w.survives_settle.scopes w.survives_settle.held ?_
  rw [← World.settle_reframe w w'.scopes w'.held hdeparts, ← h.rest]

end Splits

/-- Operations on objects and imports cannot tell a world from its split. -/
theorem agreement [Embedding σ] (G : GlobalSplit) (P : List String → Prop) :
    Agreement (G.Splits P : World σ → World σ → Prop) where
  objects h := by
    rw [h.rest]
    rfl
  modules h := by
    rw [h.rest]
    rfl
  modifyObject h o f := by
    exact h.of_common rfl rfl (congrArg (fun v : World _ => v.modifyObject o f) h.rest)
  settle h := h.settle
  hold h es := by
    refine h.withHeld (fun e => ?_) fun e he => List.mem_append_right _ (h.held e he)
    rw [List.mem_append, List.mem_append, h.held_iff]
  letGo h hu := hu.withHeld h.held_iff h.held

namespace Splits

/-! ## Changing environments -/

/-- An environment other than the global one is changed in both worlds. -/
theorem setRecord (h : G.Splits P w w') {s : ScopeId} (hs : s ≠ G.scope) (record : Record)
    (houter : s = G.outer → record = .object G.object false) :
    G.Splits P (w.setRecord s record) (w'.setRecord s record) where
  fits := by
    refine ⟨?_, ?_⟩
    · rw [World.scope_setRecord, if_neg fun heq => hs heq.1]
      exact h.fits.global
    · rw [World.scope_setRecord]
      split
      · next heq => rw [houter heq.1, h.fits.outer]
      · exact h.fits.outer
  rest := congrArg (fun v : World σ => v.setRecord s record) h.rest
  size := by rw [World.size_setRecord, World.size_setRecord, h.size]
  scope t ht := by
    rw [World.scope_setRecord, World.scope_setRecord, h.size, h.scope t ht]
  inner := by
    rw [World.scope_setRecord, if_neg fun heq => hs heq.1, World.scope_setRecord,
      if_neg fun heq => hs heq.1, h.inner]
  held_iff := h.held_iff
  held := h.held

/-- The slots of the global environment are changed in both worlds, and its list of names may be
changed with them. -/
theorem setSlots {P' : List String → Prop} (h : G.Splits P w w') (slots : Bindings)
    {names : List String} (hnames : P' names) :
    G.Splits P' (w.setRecord G.scope (.global slots ⟨G.object, G.this, names⟩))
      (w'.setRecord G.scope (.declarative slots)) where
  fits := by
    obtain ⟨slots', names', hglobal, -⟩ := h.fits.global
    refine ⟨⟨slots, names, ?_, hnames⟩, ?_⟩
    · rw [World.scope_setRecord, if_pos ⟨rfl, h.fits.index_lt⟩, hglobal]
    · rw [World.scope_setRecord, if_neg fun heq => h.fits.outer_ne heq.1.symm, h.fits.outer]
  rest := congrArg (fun v : World σ => v.setRecord G.scope (.declarative slots)) h.rest
  size := by rw [World.size_setRecord, World.size_setRecord, h.size]
  scope t ht := by
    rw [World.scope_setRecord, if_neg fun heq => ht heq.1.symm, World.scope_setRecord,
      if_neg fun heq => ht heq.1.symm, h.scope t ht]
  inner := by
    have hlt : G.scope.index < w'.scopes.size := h.size ▸ h.fits.index_lt
    rw [World.scope_setRecord, if_pos ⟨rfl, hlt⟩, World.scope_setRecord,
      if_pos ⟨rfl, h.fits.index_lt⟩, h.inner]
    rfl
  held_iff := h.held_iff
  held := h.held

end Splits

end GlobalSplit

end EcmaCore
