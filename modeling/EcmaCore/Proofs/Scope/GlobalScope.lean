import EcmaCore.Proofs.Scope.SplitNames

/-!
# A global environment is a lexical scope in front of the global object

What the operations on a global environment do is what they do on a chain that ends with two
environments instead, a declarative one with its slots and one for the global object around it. So
a name that is resolved and used at once, or probed, comes out alike in a world and in its split.
Only the list of declared names has no counterpart there, and only deleting a name changes it.

Code that runs on the way, getters and setters and code of modules, runs in the one world and in the
other, and has to make the same of both: `GlobalSplit.CodeAlike` asks this of the calls and reads
that an operation comes to and of nothing else. The two worlds keep the same entities only while
somebody holds on to the environments. Neither proviso can be left out, as
`Program.globalScope_told_apart` shows: without the first a getter may ask the global environment,
which answers for the global object too, and without the second it may find a heap with less room in
the one world than in the other.

## Main results

* `GlobalSplit.runsAlike`: actions that agree in related worlds run alike in a world and its split.
* `Engine.globalScope_spec`: names are resolved, read, written, deleted and probed alike.
-/

namespace EcmaCore

variable {σ : Type}

/-! ## Names that are resolved and used at once -/

namespace Engine

/-- Resolves a name and assigns to the reference, which holds on to its environment meanwhile. The
value is held on to until it is assigned. -/
def assignName (E : Engine σ) (start : Option ScopeId) (name : String) (v : Value)
    (strict : Bool) : Action σ Unit := do
  let r ← (E.reference start name strict).holding v.entities
  (E.putReference r v).holding (r.base.toList.map .scope)

/-- Resolves a name and deletes it in the environment that has it, if one does. -/
def deleteName (E : Engine σ) (start : Option ScopeId) (name : String) (strict : Bool) :
    Action σ (Option Bool) := do
  let r ← E.reference start name strict
  match r.base with
  | none => return none
  | some s => return some (← deleteBinding s r.name)

end Engine

namespace GlobalSplit

variable {G : GlobalSplit} {P P' : List String → Prop} {w w' : World σ}
  {refused : Failure}

namespace Splits

variable [Embedding σ] {E E' : Engine σ} (hE : E.Agree refused (G.Splits P) E')

include hE

theorem readName (h : G.Splits P w w') (start : Option ScopeId) (name : String)
    (strict : Bool) :
    Action.Agree refused (G.Splits P) (E.readName start name strict) (E'.readName start name strict)
      w w' := by
  refine .bindOf (reference hE h start name strict) ?_
  rintro r _ u u' hu ⟨-, rfl⟩
  exact getReference hE hu r

theorem assignName (h : G.Splits P w w') (start : Option ScopeId) (name : String) (v : Value)
    (strict : Bool) :
    Action.Agree refused (G.Splits P) (E.assignName start name v strict)
      (E'.assignName start name v strict) w w' := by
  have hreference := (G.agreement P).holdingOf h (fun _ _ _ _ hab => hab)
    (reference hE ((G.agreement P).hold h v.entities) start name strict)
  refine .bindOf hreference ?_
  rintro r _ u u' hu ⟨-, rfl⟩
  exact putReference hE hu r v

theorem deleteName (h : G.Splits P w w') (start : Option ScopeId) (name : String)
    (strict : Bool) :
    Action.Agree refused (G.Splits (Dropped P name)) (E.deleteName start name strict)
      (E'.deleteName start name strict) w w' := by
  have hkept {u u' : World σ} (hu : G.Splits P u u') : G.Splits (Dropped P name) u u' :=
    hu.mono fun _ => .of_self
  refine .bindInto (reference hE h start name strict) (fun _ _ hu => hkept hu) ?_
  rintro ⟨base, _, _⟩ _ u u' hu ⟨rfl, rfl⟩
  cases base with
  | none => exact .pure _ (hkept hu)
  | some s => exact .bind (hu.deleteBinding s _) fun _ _ _ hv => .pure _ hv

theorem probeName (h : G.Splits P w w') (start : Option ScopeId) (name : String)
    (strict : Bool) :
    Action.Agree refused (G.Splits P) (E.probeName start name strict)
      (E'.probeName start name strict) w w' := by
  have hrun (E : Engine σ) (w : World σ) : E.probeName start name strict w =
      E.probeIn name strict (w.chainFrom start) w := rfl
  exact .congr (hrun E w) (hrun E' w') (probeIn hE (h.chains start) name strict h)

end Splits

/-! ## Runs in a world and in its split -/

/-- The world in which what matters is held on to besides what was before. -/
def keep (G : GlobalSplit) (w : World σ) : World σ :=
  { w with held := G.entities ++ w.held }

/-- The code that an operation runs on the way makes the same of a world and of its split: what the
operation asks for in the one and again in the other ends alike. -/
def CodeAlike {α : Type} (G : GlobalSplit) (P : List String → Prop) (op : Engine σ → Action σ α)
    (E E' : Engine σ) (w : World σ) : Prop :=
  ∃ asked asked' : Query → World σ → Prop,
    E.Covers asked op (G.keep w) ∧ E'.Covers asked' op (G.split (G.keep w)) ∧
    ∀ q u u', asked q u → asked' q u' → G.Splits P u u' →
      Action.EndSame (G.Splits P) (E.answer q u) (E'.answer q u')

namespace CodeAlike

variable {α : Type} {op : Engine σ → Action σ α} {E E' : Engine σ}

/-- An operation that comes to a single call or read in either world. -/
theorem of_answer {q : Query} {u u' : World σ}
    (next next' : EStateM.Result Failure (World σ) Value → EStateM.Result Failure (World σ) α)
    (hrun : ∀ E₁ : Engine σ, op E₁ (G.keep w) = next (E₁.answer q u))
    (hrun' : ∀ E₁ : Engine σ, op E₁ (G.split (G.keep w)) = next' (E₁.answer q u'))
    (halike : Action.EndSame (G.Splits P) (E.answer q u) (E'.answer q u')) :
    G.CodeAlike P op E E' w := by
  refine ⟨_, _, .of_answer next hrun, .of_answer next' hrun', ?_⟩
  rintro _ _ _ ⟨rfl, rfl⟩ ⟨-, rfl⟩ -
  exact halike

/-- An operation that runs no code. -/
theorem of_const {r r' : EStateM.Result Failure (World σ) α}
    (hrun : ∀ E₁ : Engine σ, op E₁ (G.keep w) = r)
    (hrun' : ∀ E₁ : Engine σ, op E₁ (G.split (G.keep w)) = r') : G.CodeAlike P op E E' w :=
  ⟨_, _, .of_const hrun, .of_const hrun', fun _ _ _ hasked => hasked.elim⟩

end CodeAlike

/-- The outcome of a run, in the split of the world in which it ended. -/
def outcome {α : Type} (G : GlobalSplit) :
    EStateM.Result Failure (World σ) α → EStateM.Result Failure (World σ) α
  | .ok a w => .ok a (G.split w)
  | .error e w => .error e (G.split w)

/-- Two actions run alike in a world and in its split, as long as what matters is held on to: the
second one ends as the first one does, in the split of the world in which that ends, where the
names listed as declared satisfy a predicate. -/
structure RunsAlike {α : Type} (G : GlobalSplit) (P : List String → Prop) (act act' : Action σ α)
    (w : World σ) : Prop where
  outcome_eq : act'.holding G.entities (G.split w) = G.outcome (act.holding G.entities w)
  fits : G.Fits P ((act.holding G.entities).after w)

/-- An operation that agrees in related worlds whenever its engines do runs alike if the code on its
way makes the same of both worlds. -/
theorem runsAlike {α : Type} {op : Engine σ → Action σ α} {E E' : Engine σ} (hfits : G.Fits P w)
    (hop : ∀ {refused E₁ E₁'}, Engine.Agree refused (G.Splits P) E₁ E₁' →
      ∀ {u u'}, G.Splits P u u' → Action.Agree refused (G.Splits P') (op E₁) (op E₁') u u')
    (hcode : G.CodeAlike P op E E' w) : G.RunsAlike P' (op E) (op E') w := by
  obtain ⟨asked, asked', hcovers, hcovers', halike⟩ := hcode
  have hkept : G.Splits P (G.keep w) (G.split (G.keep w)) :=
    splits_split (hfits.of_scopes rfl) fun e he => List.mem_append_left _ he
  have hends := Engine.endAlike_of_covers hkept hop hcovers hcovers' halike
  have hrun : (op E).holding G.entities w =
      match op E (G.keep w) with
      | .ok a u => .ok a { u with held := w.held }
      | .error e u => .error e { u with held := w.held } := rfl
  have hrun' : (op E').holding G.entities (G.split w) =
      match op E' (G.split (G.keep w)) with
      | .ok a u => .ok a { u with held := w.held }
      | .error e u => .error e { u with held := w.held } := rfl
  generalize op E (G.keep w) = result at hends hrun
  generalize op E' (G.split (G.keep w)) = result' at hends hrun'
  cases hends with
  | ok hu hab =>
      refine ⟨?_, ?_⟩
      · rw [hrun, hrun', hab]
        exact congrArg _ (hu.split_eq w.held).symm
      · rw [Action.after_of_ok hrun]
        exact hu.fits.of_scopes rfl
  | error e hu =>
      refine ⟨?_, ?_⟩
      · rw [hrun, hrun']
        exact congrArg _ (hu.split_eq w.held).symm
      · rw [Action.after_of_error hrun]
        exact hu.fits.of_scopes rfl

end GlobalSplit

/-- **A global environment is a lexical scope in front of the global object.** Let a world have a
global environment and an environment for its global object, and let the global environment be
replaced by its slots as a declarative one with the other one around it. Then resolving a name from
any environment and reading it, assigning to it or deleting it, and probing it, end alike in both
worlds, as long as the environments and the `this` of the global one are held on to and the code run
on the way makes the same of both worlds. This is the code of the getters and setters that the
operation calls and of the exports that it reads, in the worlds in which it does, and no other. To
end alike is to end with the same result or error, and in worlds of which the second is the first
one split, so that slots, objects and all the rest are the same. Whatever the code keeps true of the
list of declared names is true of it afterwards, but that deleting a name may take it off the list.
It does so exactly where the name was resolved to the global environment, is none of its slots, and
was removed from the properties of the global object. -/
theorem Engine.globalScope_spec [Embedding σ] (G : GlobalSplit) {P : List String → Prop}
    {E E' : Engine σ} {w : World σ} (hw : G.Fits P w) (start : Option ScopeId) (name : String)
    (strict : Bool) :
    (G.CodeAlike P (·.readName start name strict) E E' w →
      G.RunsAlike P (E.readName start name strict) (E'.readName start name strict) w) ∧
    (∀ v, G.CodeAlike P (·.assignName start name v strict) E E' w →
      G.RunsAlike P (E.assignName start name v strict) (E'.assignName start name v strict) w) ∧
    (G.CodeAlike P (·.probeName start name strict) E E' w →
      G.RunsAlike P (E.probeName start name strict) (E'.probeName start name strict) w) ∧
    (G.CodeAlike P (·.deleteName start name strict) E E' w →
      G.RunsAlike (GlobalSplit.Dropped P name) (E.deleteName start name strict)
        (E'.deleteName start name strict) w) ∧
    ∀ (u : World σ) s, G.Fits P u →
      let deleted := (Engine.deleteBinding s name).after u
      deleted.varNames G.scope =
        if s = G.scope ∧ u.hasLexicalDeclaration s name = false ∧
            u.hasOwn G.object name = true ∧ deleted.hasOwn G.object name = false then
          (u.varNames G.scope).filter (· ≠ name)
        else u.varNames G.scope := by
  refine ⟨?_, fun v => ?_, ?_, ?_, fun u s hu => ?_⟩
  · exact GlobalSplit.runsAlike hw fun hE _ _ hu =>
      GlobalSplit.Splits.readName hE hu start name strict
  · exact GlobalSplit.runsAlike hw fun hE _ _ hu =>
      GlobalSplit.Splits.assignName hE hu start name v strict
  · exact GlobalSplit.runsAlike hw fun hE _ _ hu =>
      GlobalSplit.Splits.probeName hE hu start name strict
  · exact GlobalSplit.runsAlike hw fun hE _ _ hu =>
      GlobalSplit.Splits.deleteName hE hu start name strict
  · obtain ⟨slots, names, hglobal, -⟩ := hu.global
    have hrecord : (u.scope G.scope).record = .global slots ⟨G.object, G.this, names⟩ := by
      rw [hglobal]
    exact World.varNames_deleteBinding hrecord s name

/-- A getter of the global object that assigns to a slot of the global environment and defines
another property, and a name that is declared and deleted. Another function asks the global
environment for a name and tells the two worlds apart, but nothing calls it. -/
theorem Program.globalScope_of_getter :
    let G : GlobalSplit := ⟨⟨1⟩, ⟨2⟩, ⟨0⟩, ⟨0⟩⟩
    let P : Program Unit := fun code _ =>
      if code = ⟨0⟩ then
        .ask (.setBinding ⟨1⟩ "y" (.boolean true) true) fun _ =>
          .ask (.define ⟨0⟩ "z" (.ordinary .null)) fun _ => .done .null
      else
        .ask (.hasBinding ⟨1⟩ "x") fun
          | .ok (.flag has) => .done (.boolean has)
          | _ => .done .undefined
    let native (code : CodeId) : Object :=
      .new none (.function (.native ⟨"f", 0, .code code, none⟩))
    let global (y : Value) : Record :=
      .global (Table.empty.insert "y" ⟨some y, true, false, false⟩) ⟨⟨0⟩, ⟨0⟩, ["x"]⟩
    let w : World Unit :=
      { World.empty none (.below 0) () with
        objects := #[
          ⟨none, true, Table.empty.insert "x" (.accessor (some ⟨1⟩) none true true), .plain⟩,
          native ⟨0⟩, native ⟨1⟩]
        scopes := #[⟨.declarative .empty, some ⟨1⟩⟩, ⟨global .null, none⟩,
          ⟨.object ⟨0⟩ false, none⟩] }
    let E := P.engine 1
    G.RunsAlike (· = ["x"]) (E.readName (some ⟨0⟩) "x" true) (E.readName (some ⟨0⟩) "x" true) w ∧
      (match E.readName (some ⟨0⟩) "x" true (G.split w) with
        | .ok _ u => (u.scope ⟨1⟩).record.slots.get? "y"
        | .error .. => none) = some ⟨some (.boolean true), true, false, false⟩ ∧
      G.RunsAlike (GlobalSplit.Dropped (· = ["x"]) "x") (E.deleteName (some ⟨0⟩) "x" true)
        (E.deleteName (some ⟨0⟩) "x" true) w ∧
      ((Engine.deleteBinding ⟨1⟩ "x").after w).varNames ⟨1⟩ = [] ∧
      [w, G.split w].map (fun u =>
        match E.call ⟨2⟩ .undefined [] u with
        | .ok v _ => some v
        | .error .. => none) = [some (.boolean true), some (.boolean false)] := by
  intro G P native global w E
  have hw : G.Fits (· = ["x"]) w := ⟨⟨_, _, rfl, rfl⟩, rfl⟩
  obtain ⟨hread, -, -, hdelete, hnames⟩ :=
    @Engine.globalScope_spec _ _ G (· = ["x"]) E E w hw (some ⟨0⟩) "x" true
  have hgetter : G.CodeAlike (· = ["x"]) (·.readName (some ⟨0⟩) "x" true) E E w := by
    -- reading the name comes to one call in either world
    let q : Query := .call ⟨1⟩ (.object ⟨0⟩) []
    let held (s : ScopeId) : List Entity := .object ⟨1⟩ :: .scope s :: G.entities
    let next (s : ScopeId) (u : World Unit) (r : EStateM.Result Failure (World Unit) Value) :=
      Action.holding [.scope s] (Action.holding [.object ⟨1⟩] fun _ => r) u
    have hrun (E₁ : Engine Unit) : E₁.readName (some ⟨0⟩) "x" true (G.keep w) =
        next ⟨1⟩ (G.keep w) (E₁.answer q { w with held := held ⟨1⟩ }) := rfl
    have hrun' (E₁ : Engine Unit) : E₁.readName (some ⟨0⟩) "x" true (G.split (G.keep w)) =
        next ⟨2⟩ (G.split (G.keep w)) (E₁.answer q { G.split w with held := held ⟨2⟩ }) := rfl
    -- which leaves a world and its split behind
    let w₁ : World Unit :=
      ((w.setRecord ⟨1⟩ (global (.boolean true))).define ⟨0⟩ "z" (.ordinary .null)).2
    have hcall (held : List Entity) : E.answer q { w with held := held } =
        .ok .null { w₁ with held := held } :=
      (Script.run_ask_ok rfl).trans (Script.run_ask_ok rfl)
    have hcall' (held : List Entity) : E.answer q { G.split w with held := held } =
        .ok .null { G.split w₁ with held := held } :=
      (Script.run_ask_ok rfl).trans (Script.run_ask_ok rfl)
    refine .of_answer _ _ hrun hrun' ?_
    rw [hcall, hcall']
    have hfits : G.Fits (· = ["x"]) { w₁ with held := held ⟨1⟩ } := ⟨⟨_, _, rfl, rfl⟩, rfl⟩
    have hkept : ∀ e ∈ G.entities, e ∈ held ⟨1⟩ :=
      fun e he => List.mem_cons_of_mem _ (List.mem_cons_of_mem _ he)
    refine .ok ((GlobalSplit.splits_split hfits hkept).withHeld (fun e => ?_) hkept) rfl
    simp only [held, G, GlobalSplit.entities, List.mem_cons]
    grind
  have hquiet : G.CodeAlike (· = ["x"]) (·.deleteName (some ⟨0⟩) "x" true) E E w := by
    have hrun : ∃ u, ∀ E₁ : Engine Unit,
        E₁.deleteName (some ⟨0⟩) "x" true (G.keep w) = .ok (some true) u := ⟨_, fun _ => rfl⟩
    have hrun' : ∃ u, ∀ E₁ : Engine Unit,
        E₁.deleteName (some ⟨0⟩) "x" true (G.split (G.keep w)) = .ok (some true) u :=
      ⟨_, fun _ => rfl⟩
    obtain ⟨u, hu⟩ := hrun
    obtain ⟨u', hu'⟩ := hrun'
    exact .of_const hu hu'
  refine ⟨hread hgetter, by decide +kernel, hdelete hquiet, ?_, by decide +kernel⟩
  rw [hnames w ⟨1⟩ hw, if_pos (by decide +kernel)]
  decide +kernel

/-- Two getters of the global object, on a heap of eight bytes. The one for `x` reserves all of
them. Where only a slot of the global environment refers to a buffer of eight bytes, and nobody but
the probe holds on to this environment, the reservation fails, since the probe asks the global
environment itself. In the split world it has left the slots behind and asks the environment around
them, and the reservation succeeds. The getter for `z` asks the global environment for a name of the
global object, which the slots in its place do not have, whoever holds on to them. -/
theorem Program.globalScope_told_apart :
    let G : GlobalSplit := ⟨⟨1⟩, ⟨2⟩, ⟨1⟩, ⟨1⟩⟩
    let P : Program Unit := fun code _ =>
      if code = ⟨0⟩ then
        .ask (.reserve 8) fun
          | .ok _ => .done .null
          | .error e => .fail e
      else
        .ask (.hasBinding ⟨1⟩ "x") fun
          | .ok (.flag has) => .done (.boolean has)
          | _ => .done .undefined
    let native (code : CodeId) : Object :=
      .new none (.function (.native ⟨"get", 0, .code code, none⟩))
    let getter (f : ObjectId) : Property := .accessor (some f) none true true
    let properties : Table PropertyKey Property :=
      (Table.empty.insert (.text "x") (getter ⟨2⟩)).insert "z" (getter ⟨4⟩)
    let w : World Unit :=
      { World.empty none (.below 9) () with
        objects := #[.new none .plain,
          ⟨none, true, properties, .plain⟩,
          native ⟨0⟩, .charged ⟨0⟩ 8 none, native ⟨1⟩]
        scopes := #[⟨.declarative .empty, none⟩,
          ⟨.global (Table.empty.insert "y" ⟨some (.object ⟨3⟩), true, false, false⟩) ⟨⟨1⟩, ⟨1⟩, []⟩,
            none⟩,
          ⟨.object ⟨1⟩ false, none⟩]
        ledger := ⟨some 8, 8⟩ }
    let E := P.engine 1
    G.Fits (· = []) w ∧
      (match E.probeName (some ⟨1⟩) "x" true w with
        | .error (.thrown e) _ => some e
        | _ => none) = some (.allocationFailed 8) ∧
      (match E.probeName (some ⟨1⟩) "x" true (G.split w) with
        | .ok v _ => some v
        | .error .. => none) = some (some .null) ∧
      [w, G.split w].map (fun u =>
        match (E.readName (some ⟨1⟩) "z" true).holding G.entities u with
        | .ok v _ => some v
        | .error .. => none) = [some (.boolean true), some (.boolean false)] := by
  intro G P native getter properties w E
  refine ⟨⟨⟨_, _, rfl, rfl⟩, rfl⟩, ?_, ?_, ?_⟩
  · decide +kernel
  · decide +kernel
  · decide +kernel

end EcmaCore
