import EcmaCore.Proofs.Scope.Delete
import EcmaCore.Proofs.Scope.Split
import EcmaCore.Proofs.World.Outward

/-!
# Names in a world and in its split

Each operation on a global environment decides for itself whether a name is one of its slots or
one of the global object. When the environment is split they have to decide alike, since a name
is then in one of two environments, its `GlobalSplit.place`. An operation on an
environment and the same one on the place of the name agree; a walk along a chain and one along
what becomes of the chain find a name and its place.

Deleting a name is the one operation with an effect that has no counterpart in the split world: the
name may come off the list of declared ones.

## Main results

* `GlobalSplit.Splits.backingFor?_place`: a name is kept where it was.
* `GlobalSplit.Splits.getBinding`, `GlobalSplit.Splits.setBinding`,
  `GlobalSplit.Splits.deleteBinding`: the operations on one environment.
* `GlobalSplit.Splits.find?_shows`: the global environment shows what the two in its place do.
* `GlobalSplit.Splits.reference`, `GlobalSplit.Splits.probeIn`: the walks along a chain.
-/

namespace EcmaCore

variable {σ : Type}

namespace GlobalSplit

variable {G : GlobalSplit} {P : List String → Prop} {w w' : World σ} {s : ScopeId}
  {name : String} {o : ObjectId} {refused : Failure}

/-! ## Where a name is found -/

/-- A list of names that satisfies a predicate, perhaps without one name. -/
inductive Dropped (P : List String → Prop) (name : String) : List String → Prop
  | of_self {names : List String} (h : P names) : Dropped P name names
  | of_filter {names : List String} (h : P names) : Dropped P name (names.filter (· ≠ name))

/-- Where the name of an environment is found when the global environment is split. -/
def place (G : GlobalSplit) (w : World σ) (name : String) (s : ScopeId) : ScopeId :=
  if s = G.scope ∧ w.hasLexicalDeclaration s name = false then G.outer else s

/-- What a reference becomes when the global environment is split. -/
def placed (G : GlobalSplit) (w : World σ) (r : Reference) : Reference :=
  { r with base := r.base.map (G.place w r.name) }

/-- What becomes of a chain when the global environment is split: it stays as it is, or it ends with
the global environment and goes on. -/
inductive Chains (G : GlobalSplit) : List ScopeId → List ScopeId → Prop
  | nil : Chains G [] []
  | last : Chains G [G.scope] [G.scope, G.outer]
  | cons {s : ScopeId} {chain chain' : List ScopeId} (hs : s ≠ G.scope)
      (rest : Chains G chain chain') : Chains G (s :: chain) (s :: chain')

theorem place_of_ne (hs : s ≠ G.scope) : G.place w name s = s :=
  if_neg fun h => hs h.1

theorem place_of_lexical (h : w.hasLexicalDeclaration G.scope name = true) :
    G.place w name G.scope = G.scope :=
  if_neg fun hnot => by simp [h] at hnot

theorem place_of_not_lexical (h : w.hasLexicalDeclaration G.scope name = false) :
    G.place w name G.scope = G.outer :=
  if_pos ⟨rfl, h⟩

/-- Where the global environment keeps a name. -/
theorem Fits.backingFor? (h : G.Fits P w) (name : String) :
    (w.scope G.scope).record.backingFor? name =
      if w.hasLexicalDeclaration G.scope name then none else some G.object := by
  obtain ⟨slots, names, hglobal, -⟩ := h.global
  rw [World.hasLexicalDeclaration, hglobal]
  rfl

/-- A name that is not kept in a backing object stays where it is. -/
theorem Fits.place_of_slot (h : G.Fits P w) (hslot : (w.scope s).record.backingFor? name = none) :
    G.place w name s = s := by
  refine if_neg ?_
  rintro ⟨rfl, hlexical⟩
  rw [h.backingFor?, hlexical] at hslot
  cases hslot

namespace Splits

section Records

variable (h : G.Splits P w w')

include h

theorem slots (s : ScopeId) : (w'.scope s).record.slots = (w.scope s).record.slots := by
  by_cases hs : s = G.scope
  · rw [hs, h.inner]
    rfl
  · rw [h.scope s hs]

theorem import? (s : ScopeId) (name : String) :
    (w'.scope s).record.import? name = (w.scope s).record.import? name := by
  by_cases hs : s = G.scope
  · obtain ⟨slots, names, hglobal, -⟩ := h.fits.global
    rw [hs, h.inner, hglobal]
    rfl
  · rw [h.scope s hs]

/-- A name is kept in the same object, or in slots as before. -/
theorem backingFor?_place (s : ScopeId) (name : String) :
    (w'.scope (G.place w name s)).record.backingFor? name =
      (w.scope s).record.backingFor? name := by
  by_cases hs : s = G.scope
  · subst hs
    rw [h.fits.backingFor?]
    cases hlexical : w.hasLexicalDeclaration G.scope name with
    | true =>
        rw [place_of_lexical hlexical, h.inner]
        exact ite_self _
    | false =>
        rw [place_of_not_lexical hlexical, h.outside]
        rfl
  · rw [place_of_ne hs, h.scope s hs]

theorem backingFor?_of_slot (hslot : (w.scope s).record.backingFor? name = none) :
    (w'.scope s).record.backingFor? name = none := by
  have hplace := h.backingFor?_place s name
  rwa [h.fits.place_of_slot hslot, hslot] at hplace

/-- Slots of any environment are replaced in both worlds. -/
theorem withSlots (s : ScopeId) (slots : Bindings) :
    G.Splits P (w.setRecord s ((w.scope s).record.withSlots slots))
      (w'.setRecord s ((w'.scope s).record.withSlots slots)) := by
  by_cases hs : s = G.scope
  · obtain ⟨_, names, hglobal, hnames⟩ := h.fits.global
    rw [hs, h.inner, hglobal]
    exact h.setSlots slots hnames
  · rw [h.scope s hs]
    refine h.setRecord hs _ fun houter => ?_
    rw [houter, h.fits.outer]
    rfl

/-- A name comes off the list of declared ones, which only the global environment has. -/
theorem removeVarName (hbacking : (w.scope s).record.backingFor? name = some o) :
    G.Splits (Dropped P name) (w.setRecord s ((w.scope s).record.removeVarName name))
      (w'.setRecord (G.place w name s)
        ((w'.scope (G.place w name s)).record.removeVarName name)) := by
  by_cases hs : s = G.scope
  · subst hs
    obtain ⟨slots, names, hglobal, hnames⟩ := h.fits.global
    have hlexical : w.hasLexicalDeclaration G.scope name = false := by
      refine Bool.eq_false_iff.2 fun hlexical => ?_
      rw [h.fits.backingFor?, hlexical] at hbacking
      cases hbacking
    have hslots : (w'.scope G.scope).record = .declarative slots := by
      rw [h.inner, hglobal]
      rfl
    have houter : w'.setRecord G.outer ((w'.scope G.outer).record.removeVarName name) = w' := by
      refine World.setRecord_self ?_
      rw [h.outside]
      rfl
    have hdropped : Dropped P name (names.filter (· ≠ name)) := .of_filter hnames
    have hremoved := h.setSlots slots hdropped
    rw [World.setRecord_self hslots] at hremoved
    rw [place_of_not_lexical hlexical, houter, hglobal]
    exact hremoved
  · rw [place_of_ne hs, h.scope s hs]
    refine (h.mono fun _ => .of_self).setRecord hs _ fun houter => ?_
    rw [houter, h.fits.outer]
    rfl

end Records

/-! ## Operations on one environment -/

section Bindings

variable [Embedding σ] {E E' : Engine σ} (h : G.Splits P w w')
  (hE : E.Agree refused (G.Splits P) E')

include h

omit [Embedding σ] in
theorem updateSlots (s : ScopeId) (f : Bindings → Except Error Bindings) :
    Action.Agree refused (G.Splits P) (Engine.updateSlots s f) (Engine.updateSlots s f) w w' := by
  refine .of_ends ?_
  rw [Engine.updateSlots_eq, Engine.updateSlots_eq, h.slots]
  cases f (w.scope s).record.slots with
  | ok slots => exact .ok (h.withSlots s slots) rfl
  | error e => exact .error _ h

/-- Deleting a name, which may come off the list of declared ones then. -/
theorem deleteBinding (s : ScopeId) (name : String) :
    Action.Agree refused (G.Splits (Dropped P name)) (Engine.deleteBinding s name)
      (Engine.deleteBinding (G.place w name s) name) w w' := by
  have hkept {u u' : World σ} (hu : G.Splits P u u') : G.Splits (Dropped P name) u u' :=
    hu.mono fun _ => .of_self
  refine .of_ends ?_
  cases hbacking : (w.scope s).record.backingFor? name with
  | none =>
      rw [h.fits.place_of_slot hbacking, Engine.deleteBinding_of_slot hbacking,
        Engine.deleteBinding_of_slot (h.backingFor?_of_slot hbacking), h.slots]
      cases (w.scope s).record.slots.delete name with
      | some slots => exact .ok (hkept (h.withSlots s slots)) rfl
      | none => exact .ok (hkept h) rfl
  | some o =>
      have hplace := (h.backingFor?_place s name).trans hbacking
      obtain ⟨hanswer, hdeleted⟩ := (G.agreement P).delete h o name
      -- the property goes from both worlds first, and then the name in the record of before
      have hsame : G.place (w.delete o name).2 name s = G.place w name s := by
        rw [place, World.hasLexicalDeclaration, World.scope_delete]
        rfl
      have hremoved : G.Splits (Dropped P name)
          ((w.delete o name).2.setRecord s ((w.scope s).record.removeVarName name))
          ((w'.delete o name).2.setRecord (G.place w name s)
            ((w'.scope (G.place w name s)).record.removeVarName name)) := by
        have hstill : ((w.delete o name).2.scope s).record.backingFor? name = some o := by
          rw [World.scope_delete, hbacking]
        have hdropped := hdeleted.removeVarName hstill
        rwa [hsame, World.scope_delete, World.scope_delete] at hdropped
      rw [Engine.deleteBinding_of_backing hbacking, Engine.deleteBinding_of_backing hplace,
        (G.agreement P).hasOwn h, hanswer]
      split
      · refine .ok ?_ rfl
        split
        · exact hremoved
        · exact hkept hdeleted
      · exact .ok (hkept h) rfl

include hE

/-- Reading a name. -/
theorem getBinding (s : ScopeId) (name : String) (strict : Bool) :
    Action.Agree refused (G.Splits P) (E.getBinding s name strict)
      (E'.getBinding (G.place w name s) name strict) w w' := by
  cases hbacking : (w.scope s).record.backingFor? name with
  | none =>
      have hbacking' := h.backingFor?_of_slot hbacking
      rw [h.fits.place_of_slot hbacking]
      cases himport : (w.scope s).record.import? name with
      | some i =>
          have himport' := (h.import? s name).trans himport
          exact .congr (Engine.getBinding_of_import himport strict)
            (Engine.getBinding_of_import himport' strict) ((G.agreement P).readImport hE h name i)
      | none =>
          have himport' := (h.import? s name).trans himport
          refine .congr (E.getBinding_of_slots himport hbacking strict)
            (E'.getBinding_of_slots himport' hbacking' strict) ?_
          rw [h.slots]
          exact .ofExcept _ h
  | some o =>
      have hplace := (h.backingFor?_place s name).trans hbacking
      have himport := Record.import?_of_backingFor hbacking name
      have himport' := Record.import?_of_backingFor hplace name
      exact .congr (E.getBinding_of_backing himport hbacking strict)
        (E'.getBinding_of_backing himport' hplace strict)
        ((G.agreement P).backingGet hE h o name strict)

/-- Assigning to a name. -/
theorem setBinding (s : ScopeId) (name : String) (v : Value) (strict : Bool) :
    Action.Agree refused (G.Splits P) (E.setBinding s name v strict)
      (E'.setBinding (G.place w name s) name v strict) w w' := by
  cases hbacking : (w.scope s).record.backingFor? name with
  | none =>
      rw [h.fits.place_of_slot hbacking]
      exact .congr (E.setBinding_of_slot hbacking v strict)
        (E'.setBinding_of_slot (h.backingFor?_of_slot hbacking) v strict) (h.updateSlots s _)
  | some o =>
      have hplace := (h.backingFor?_place s name).trans hbacking
      exact .congr (E.setBinding_of_backing hbacking v strict)
        (E'.setBinding_of_backing hplace v strict)
        ((G.agreement P).backingSet hE h o name v strict)

/-- Asking an environment other than the global one for a name. -/
theorem hasBinding_of_ne (hs : s ≠ G.scope) (name : String) :
    Action.Agree refused (G.Splits P) (E.hasBinding s name) (E'.hasBinding s name) w w' := by
  unfold Engine.hasBinding
  refine .look ?_
  rw [h.scope s hs]
  refine .ite (.pure _ h) ?_
  split
  · exact (G.agreement P).backingHas hE h _ _ name
  · exact .pure _ h

theorem probeBinding_of_ne (hs : s ≠ G.scope) (name : String) (strict : Bool) :
    Action.Agree refused (G.Splits P) (E.probeBinding s name strict) (E'.probeBinding s name strict)
      w w' := by
  unfold Engine.probeBinding
  refine .look ?_
  rw [h.scope s hs]
  dsimp only
  split
  · exact .bind ((G.agreement P).readImport hE h name _) fun _ _ _ hu => .pure _ hu
  · split
    · refine .ite (.pure _ h) (.bind ((G.agreement P).backingHas hE h _ _ name) ?_)
      intro has u u' hu
      refine .ite (.bind ((G.agreement P).backingGet hE hu _ name strict) ?_) (.pure _ hu)
      exact fun _ _ _ hv => .pure _ hv
    · exact .pure _ h

end Bindings

/-! ## What the global environment shows -/

/-- The global environment tells whether it has a name without running code. -/
theorem quiet (h : G.Splits P w w') (name : String) :
    ∀ s ∈ [G.scope], w.QuietScope s name := by
  obtain ⟨slots, names, hglobal, -⟩ := h.fits.global
  intro s hs
  rw [List.mem_singleton.1 hs]
  refine World.quietScope_of_boundLast ?_ ?_ <;> rw [hglobal] <;> nofun

/-- So do the two environments in its place. -/
theorem quiet_split (h : G.Splits P w w') (name : String) :
    ∀ s ∈ [G.scope, G.outer], w'.QuietScope s name := by
  intro s hs
  rcases List.mem_pair.1 hs with rfl | rfl
  · refine World.quietScope_of_boundLast ?_ ?_ <;> rw [h.inner] <;> nofun
  · refine World.quietScope_of_boundLast ?_ ?_ <;> rw [h.outside]
    · rintro _ ⟨⟩
    · nofun

/-- Whether the global environment shows a name: as one of its slots, or as a property of the global
object, which the environment around the slots then shows. -/
theorem find?_shows [Embedding σ] (h : G.Splits P w w') (name : String) :
    [G.scope, G.outer].find? (w'.shows · name) =
      ([G.scope].find? (w.shows · name)).map (G.place w name) := by
  obtain ⟨slots, names, hglobal, -⟩ := h.fits.global
  have hbefore : w.shows G.scope name =
      (w.hasLexicalDeclaration G.scope name || w.hasProperty G.object name) := by
    simp [World.shows, World.hasLexicalDeclaration, World.backs, hglobal, Record.slots,
      Record.backing?]
  have hinner : w'.shows G.scope name = w.hasLexicalDeclaration G.scope name := by
    simp [World.shows, World.hasLexicalDeclaration, h.inner, Record.slots, Record.backing?]
  have houter : w'.shows G.outer name = w.hasProperty G.object name := by
    rw [← (G.agreement P).hasProperty h]
    simp [World.shows, World.backs, h.outside, Record.slots, Record.backing?,
      Table.contains_eq_isSome]
  rw [List.find?_cons, List.find?_singleton, List.find?_singleton, hbefore, hinner, houter]
  cases hlexical : w.hasLexicalDeclaration G.scope name with
  | true => simp [place_of_lexical hlexical]
  | false =>
      cases w.hasProperty G.object name <;> simp [place_of_not_lexical hlexical]

/-! ## Chains -/

theorem chains_append {inner chain chain' : List ScopeId} (hinner : G.scope ∉ inner)
    (h : G.Chains chain chain') : G.Chains (inner ++ chain) (inner ++ chain') := by
  induction inner with
  | nil => exact h
  | cons s inner ih =>
      refine .cons (fun heq => hinner (heq ▸ List.mem_cons_self)) (ih fun hmem => ?_)
      exact hinner (List.mem_cons_of_mem s hmem)

/-- Names are looked up along a chain and along what becomes of it. -/
theorem chains (h : G.Splits P w w') (start : Option ScopeId) :
    G.Chains (w.chainFrom start) (w'.chainFrom start) := by
  cases start with
  | none => exact .nil
  | some s =>
      show G.Chains (w.scopeChain s) (w'.scopeChain s)
      by_cases hmem : G.scope ∈ w.scopeChain s
      · obtain ⟨slots, names, hglobal, -⟩ := h.fits.global
        have hlast : (w.scope G.scope).outer = none := by rw [hglobal]
        have hinner : (w'.scope G.scope).outer = some G.outer := by rw [h.inner]
        have houter : (w'.scope G.outer).outer = none := by rw [h.outside]
        have hsame (t : ScopeId) (ht : t ≠ G.scope) :
            (w'.scope t).outer = (w.scope t).outer := by
          rw [h.scope t ht]
        obtain ⟨inner, hnot, hbefore, hafter⟩ :=
          World.exists_outward hlast hinner houter hsame hmem
        rw [hbefore.scopeChain_eq, hafter.scopeChain_eq]
        exact chains_append hnot .last
      · have hchain : w'.scopeChain s = w.scopeChain s := by
          rw [World.scopeChain, World.scopeChain, h.size]
          refine World.scopesWithin_congr fun t ht => ?_
          rw [h.scope t fun heq => hmem (heq ▸ ht)]
        rw [hchain, ← List.append_nil (w.scopeChain s)]
        exact chains_append hmem .nil

/-- The environment that a reference names may be held on to in both worlds. -/
theorem holdingBase (h : G.Splits P w w') (base : Option ScopeId) (name : String) :
    G.Splits P { w with held := base.toList.map .scope ++ w.held }
      { w' with held := (base.map (G.place w name)).toList.map .scope ++ w'.held } := by
  refine h.withHeld (fun e => ?_) fun e he => List.mem_append_right _ (h.held e he)
  rw [List.mem_append, List.mem_append, h.held_iff]
  cases base with
  | none => rfl
  | some s =>
      simp only [Option.map_some, Option.toList_some, List.map_singleton, List.mem_singleton]
      by_cases hplace : s = G.scope ∧ w.hasLexicalDeclaration s name = false
      · obtain ⟨rfl, hlexical⟩ := hplace
        rw [place_of_not_lexical hlexical]
        have hscope := h.held (.scope G.scope) (by simp [GlobalSplit.entities])
        have houter := h.held (.scope G.outer) (by simp [GlobalSplit.entities])
        constructor
        · rintro (rfl | hmem)
          · exact .inr houter
          · exact .inr hmem
        · rintro (rfl | hmem)
          · exact .inr hscope
          · exact .inr hmem
      · rw [place, if_neg hplace]

section Walks

variable [Embedding σ] {E E' : Engine σ} (hE : E.Agree refused (G.Splits P) E')

include hE

/-! ## Resolving names -/

/-- A walk along a chain finds an environment, and one along what becomes of the chain that which
takes its place. -/
theorem firstWithBinding {chain chain' : List ScopeId} (hchains : G.Chains chain chain')
    (name : String) (h : G.Splits P w w') :
    Action.AgreeOn refused (G.Splits P) (fun v found found' => found' = found.map (G.place v name))
      (E.firstWithBinding name chain) (E'.firstWithBinding name chain') w w' := by
  induction hchains generalizing w w' with
  | nil => exact .of_ends (.ok h rfl)
  | last =>
      -- neither the global environment nor the two in its place run code to answer
      refine .of_ends ?_
      rw [E.firstWithBinding_eq (h.quiet name),
        E'.firstWithBinding_eq (h.quiet_split name)]
      exact .ok h (h.find?_shows name)
  | @cons s chain chain' hs _ ih =>
      have hhas := (G.agreement P).holding [.scope s] h fun hu => hu.hasBinding_of_ne hE hs name
      refine .bind hhas fun has u u' hu => .ite (.of_ends (.ok hu ?_)) (ih hu)
      rw [Option.map_some, place_of_ne hs]

/-- Resolving a name. -/
theorem reference (h : G.Splits P w w') (start : Option ScopeId) (name : String)
    (strict : Bool) :
    Action.AgreeOn refused (G.Splits P) (fun v r r' => r.name = name ∧ r' = G.placed v r)
      (E.reference start name strict) (E'.reference start name strict) w w' := by
  have hrun (E : Engine σ) (w : World σ) : E.reference start name strict w =
      (E.firstWithBinding name (w.chainFrom start) >>= fun base =>
        pure { base, name, strict }) w := rfl
  refine .congr (hrun E w) (hrun E' w') (.bindOf (firstWithBinding hE (h.chains start) name h) ?_)
  rintro found _ u u' hu rfl
  exact .of_ends (.ok hu ⟨rfl, rfl⟩)

/-! ## Using references -/

theorem getReference (h : G.Splits P w w') (r : Reference) :
    Action.Agree refused (G.Splits P) ((E.getReference r).holding (r.base.toList.map .scope))
      ((E'.getReference (G.placed w r)).holding ((G.placed w r).base.toList.map .scope))
      w w' := by
  have hheld := h.holdingBase r.base r.name
  refine (G.agreement P).holdingOf h (fun _ _ _ _ hab => hab) ?_
  obtain ⟨base, name, strict⟩ := r
  cases base with
  | none => exact .fail _ hheld
  | some s => exact hheld.getBinding hE s name strict

theorem putReference (h : G.Splits P w w') (r : Reference) (v : Value) :
    Action.Agree refused (G.Splits P) ((E.putReference r v).holding (r.base.toList.map .scope))
      ((E'.putReference (G.placed w r) v).holding ((G.placed w r).base.toList.map .scope))
      w w' := by
  have hheld := h.holdingBase r.base r.name
  refine (G.agreement P).holdingOf h (fun _ _ _ _ hab => hab) ?_
  obtain ⟨base, name, strict⟩ := r
  cases base with
  | none =>
      have hdeclare : Action.Agree refused (G.Splits P)
          (do let _ ← E.setProperty (← get).realm.global name v false)
          (do let _ ← E'.setProperty (← get).realm.global name v false)
          { w with held := w.held } { w' with held := w'.held } := by
        have hrealm : w'.realm = w.realm := by rw [h.rest]; rfl
        refine .look ?_
        rw [hrealm]
        exact .bind ((G.agreement P).setProperty hE h _ _ v false) fun _ _ _ hu => .pure _ hu
      exact .ite (.fail _ hheld) hdeclare
  | some s => exact hheld.setBinding hE s name v strict

/-! ## Probing names -/

/-- A probe of the global environment, and of the two in its place. -/
theorem probeIn_last (h : G.Splits P w w') (name : String) (strict : Bool) :
    Action.Agree refused (G.Splits P) (E.probeIn name strict [G.scope])
      (E'.probeIn name strict [G.scope, G.outer]) w w' := by
  have hrun := E.probeIn_eq (h.quiet name) strict
  have hrun' := E'.probeIn_eq (h.quiet_split name) strict
  rw [h.find?_shows name] at hrun'
  cases hfound : [G.scope].find? (w.shows · name) with
  | none =>
      rw [hfound] at hrun hrun'
      exact .congr hrun hrun' (.pure none h)
  | some s =>
      rw [hfound] at hrun hrun'
      have hread := (G.agreement P).holdingOf h (fun _ _ _ _ hab => hab)
        ((h.holdingBase (some s) name).getBinding hE s name strict)
      exact .congr hrun hrun' (.bind hread fun _ _ _ hu => .pure _ hu)

theorem probeIn {chain chain' : List ScopeId} (hchains : G.Chains chain chain') (name : String)
    (strict : Bool) (h : G.Splits P w w') :
    Action.Agree refused (G.Splits P) (E.probeIn name strict chain) (E'.probeIn name strict chain')
      w w' := by
  induction hchains generalizing w w' with
  | nil => exact .pure _ h
  | last => exact probeIn_last hE h name strict
  | @cons s chain chain' hs _ ih =>
      have hprobe := (G.agreement P).holding [.scope s] h fun hu =>
        hu.probeBinding_of_ne hE hs name strict
      refine .bind hprobe fun probed u u' hu => ?_
      cases probed with
      | some found => exact .pure _ hu
      | none =>
          have hhas := (G.agreement P).holding [.scope s] hu fun hv =>
            hv.hasBinding_of_ne hE hs name
          exact .bind hhas fun has v v' hv => .ite (.fail _ hv) (ih hv)

end Walks

end Splits

end GlobalSplit

end EcmaCore
