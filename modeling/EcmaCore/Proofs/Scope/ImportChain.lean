import EcmaCore.Program
import EcmaCore.Proofs.Action
import EcmaCore.Proofs.World.Settle

/-!
# Chains of imports

An import is read from its module every time, and a linked module reads the name from
its environment, where it may be an import again. So a read follows a chain of imports
to an environment that declares the name itself. The slots that the importing
environments have for the name are never looked at.

A module that nothing keeps any more breaks the chain. Which modules that are is
settled once, at the start of the read: the read itself only holds on to more.

## Main results

* `ImportChain.getBinding_settled`: a read of a settled world follows the chain.
* `Program.getBinding_importChain`: a read through a chain is a read at its origin, or an
  error that names the first broken link.
-/

namespace EcmaCore

/-- A link of a chain of imports: the name in the importing environment, and the module that the
name comes from. -/
structure ImportLink where
  name : String
  source : ModuleId
  deriving DecidableEq

/-- What a probe reports for an import with a value. -/
def Binding.ofImport (v : Value) : Binding :=
  { value := some v, mutable := false, deletable := false, strict := true }

variable {σ : Type}

/-- A name of an environment leads through imports from linked modules to the name of a module
environment where it is not an import. The links are listed from the reading end. -/
inductive ImportChain (w : World σ) :
    ScopeId → String → List ImportLink → ScopeId → String → Prop where
  | origin {s : ScopeId} {x : String} {slots : Bindings} {imports : Table String Import}
      (hrecord : (w.scope s).record = .module slots imports) (himport : imports.get? x = none) :
      ImportChain w s x [] s x
  | link {s next origin : ScopeId} {x y : String} {i : Import} {links : List ImportLink}
      (himport : (w.scope s).record.import? x = some i)
      (hsource : (w.module i.source).source = .linked next)
      (rest : ImportChain w next i.exported links origin y) :
      ImportChain w s x (⟨x, i.source⟩ :: links) origin y

namespace World

variable [Embedding σ]

/-- Whether something still keeps a module, see `available_settle`. -/
def isKept (w : World σ) (m : ModuleId) : Bool := (w.settle.module m).available

/-- The first link of a chain whose module is gone. -/
def brokenLink? (w : World σ) (links : List ImportLink) : Option ImportLink :=
  links.find? fun link => !w.isKept link.source

/-- What reading through a chain answers. -/
def chainOutcome (w : World σ) (links : List ImportLink) (origin : ScopeId) (y : String) :
    Except Error Value :=
  match w.brokenLink? links with
  | some link => .error (.moduleGone link.name)
  | none => (w.scope origin).record.slots.read y

theorem chainOutcome_of_broken {w : World σ} {links : List ImportLink} {link : ImportLink}
    (h : w.brokenLink? links = some link) (origin : ScopeId) (y : String) :
    w.chainOutcome links origin y = .error (.moduleGone link.name) := by
  rw [chainOutcome, h]

theorem chainOutcome_of_unbroken {w : World σ} {links : List ImportLink}
    (h : w.brokenLink? links = none) (origin : ScopeId) (y : String) :
    w.chainOutcome links origin y = (w.scope origin).record.slots.read y := by
  rw [chainOutcome, h]

theorem chainOutcome_nil (w : World σ) (origin : ScopeId) (y : String) :
    w.chainOutcome [] origin y = (w.scope origin).record.slots.read y :=
  rfl

theorem chainOutcome_cons (w : World σ) (link : ImportLink) (links : List ImportLink)
    (origin : ScopeId) (y : String) :
    w.chainOutcome (link :: links) origin y =
      if w.isKept link.source then w.chainOutcome links origin y
      else .error (.moduleGone link.name) := by
  unfold chainOutcome brokenLink?
  rw [List.find?_cons]
  cases w.isKept link.source <;> rfl

theorem chainOutcome_congr {w w' : World σ} (hkept : ∀ m, w'.isKept m = w.isKept m)
    (hscope : ∀ s, w'.scope s = w.scope s) (links : List ImportLink) (origin : ScopeId)
    (y : String) : w'.chainOutcome links origin y = w.chainOutcome links origin y := by
  simp only [chainOutcome, brokenLink?, hkept, hscope]

@[simp] theorem isKept_settle (w : World σ) (m : ModuleId) : w.settle.isKept m = w.isKept m := by
  rw [isKept, isKept, settle_settle]

/-- Holding on to more brings no module back. -/
theorem isKept_holding {w : World σ} (hsettled : w.settle = w) (entities : List Entity)
    (m : ModuleId) : ({ w with held := entities ++ w.held } : World σ).isKept m = w.isKept m := by
  rw [isKept, isKept, settle_holding hsettled, hsettled]
  rfl

theorem chainOutcome_holding {w : World σ} (hsettled : w.settle = w) (entities : List Entity)
    (links : List ImportLink) (origin : ScopeId) (y : String) :
    ({ w with held := entities ++ w.held } : World σ).chainOutcome links origin y =
      w.chainOutcome links origin y :=
  chainOutcome_congr (isKept_holding hsettled entities) (fun _ => rfl) links origin y

end World

namespace Engine

variable [Embedding σ] {E : Engine σ} {w : World σ} {s : ScopeId} {x : String} {i : Import}

/-- Reading an import settles the world and, if the module is still kept, asks it. -/
theorem readImport_eq (E : Engine σ) (x : String) (i : Import) (w : World σ) :
    E.readImport x i w =
      if w.isKept i.source then
        (E.readExport i.source i.exported true).holding [.module i.source] w.settle
      else .error (.thrown (.moduleGone x)) w.settle := by
  have hsettle : (Action.settle : Action σ Unit) w = .ok () w.settle := rfl
  rw [readImport, Action.bind_ok hsettle, Action.bind_ok (Action.get_apply _), World.isKept]
  split <;> rfl

theorem getBinding_of_import (himport : (w.scope s).record.import? x = some i) (strict : Bool) :
    E.getBinding s x strict w = E.readImport x i w := by
  rw [getBinding, Action.bind_ok (Action.get_apply w)]
  simp only [himport]

/-- Settling before an import is read makes no difference. -/
theorem getBinding_settle (himport : (w.scope s).record.import? x = some i) (strict : Bool) :
    E.getBinding s x strict w = E.getBinding s x strict w.settle := by
  have himport' : (w.settle.scope s).record.import? x = some i := by rw [w.scope_settle, himport]
  rw [getBinding_of_import himport, getBinding_of_import himport', readImport_eq, readImport_eq,
    w.isKept_settle, w.settle_settle]

/-- A probe of an import reports what a read of it answers. -/
theorem probeBinding_of_import (himport : (w.scope s).record.import? x = some i) (strict : Bool) :
    E.probeBinding s x strict w =
      (E.getBinding s x strict >>= fun v => pure (some (.ofImport v, v))) w := by
  rw [probeBinding, Action.bind_ok (Action.get_apply w)]
  simp only [himport]
  exact Action.bind_congr (getBinding_of_import himport strict).symm

/-- Reading a name that a module environment declares itself runs no code. -/
theorem getBinding_of_module {slots : Bindings} {imports : Table String Import}
    (hrecord : (w.scope s).record = .module slots imports) (himport : imports.get? x = none)
    (strict : Bool) : E.getBinding s x strict w = Action.ofExcept (slots.read x) w := by
  rw [getBinding, Action.bind_ok (Action.get_apply w)]
  simp only [hrecord, Record.import?, himport]
  rfl

end Engine

/-- A linked module reads an export from its environment, one call deeper. -/
theorem Program.readExport_engine [Embedding σ] (P : Program σ) {budget : Nat} {w : World σ}
    {m : ModuleId} {s : ScopeId} (hsource : (w.module m).source = .linked s) (x : String)
    (strict : Bool) :
    (P.engine (budget + 1)).readExport m x strict w =
      (P.engine budget).getBinding s x strict w := by
  show P.readExport (P.engine budget) m x strict w = _
  rw [Program.readExport, Action.bind_ok (Action.get_apply w)]
  simp only [hsource]

namespace ImportChain

variable [Embedding σ] {w : World σ} {s origin : ScopeId} {x y : String}
  {links : List ImportLink}

/-- A read of a settled world follows the chain, as far as nothing is broken. -/
theorem getBinding_settled (P : Program σ) (budget : Nat) (h : ImportChain w s x links origin y)
    {w' : World σ} (hsettled : w'.settle = w') (hscope : ∀ s, w'.scope s = w.scope s)
    (hsource : ∀ m, (w'.module m).source = (w.module m).source) (strict : Bool) :
    (P.engine (links.length + budget)).getBinding s x strict w' =
      Action.ofExcept (w'.chainOutcome links origin y) w' := by
  -- each link holds on to its module, so the rest of the chain is read in another world
  induction h generalizing w' strict with
  | origin hrecord himport =>
      rw [← hscope] at hrecord
      rw [Engine.getBinding_of_module hrecord himport, World.chainOutcome_nil, hrecord]
      rfl
  | @link s next origin x y i links himport hlinked rest ih =>
      have himport' : (w'.scope s).record.import? x = some i := by rw [hscope, himport]
      rw [Engine.getBinding_of_import himport', Engine.readImport_eq, World.chainOutcome_cons,
        hsettled]
      split
      · have hread := ih (World.settle_holding hsettled [.module i.source]) hscope hsource true
        rw [World.chainOutcome_holding hsettled] at hread
        apply Action.holding_ofExcept
        rw [List.length_cons, Nat.add_right_comm]
        rw [P.readExport_engine (s := next), hread]
        exact (hsource i.source).trans hlinked
      · rfl

/-- A read through at least one link settles the world and follows the chain. -/
theorem getBinding_eq (P : Program σ) (budget : Nat) (h : ImportChain w s x links origin y)
    (hlinks : links ≠ []) (strict : Bool) :
    (P.engine (links.length + budget)).getBinding s x strict w =
      Action.ofExcept (w.chainOutcome links origin y) w.settle := by
  have hsettled :=
    h.getBinding_settled P budget w.settle_settle w.scope_settle w.source_settle strict
  rw [World.chainOutcome_congr w.isKept_settle w.scope_settle] at hsettled
  rw [← hsettled]
  cases h with
  | origin => exact absurd rfl hlinks
  | link himport hlinked rest => exact Engine.getBinding_settle himport strict

/-- A probe through at least one link reports the value that a read answers. -/
theorem probeBinding_eq (P : Program σ) (budget : Nat) (h : ImportChain w s x links origin y)
    (hlinks : links ≠ []) (strict : Bool) :
    (P.engine (links.length + budget)).probeBinding s x strict w =
      Action.ofExcept
        ((w.chainOutcome links origin y).map fun v => some (Binding.ofImport v, v)) w.settle := by
  have hread := h.getBinding_eq P budget hlinks strict
  cases h with
  | origin => exact absurd rfl hlinks
  | link himport hlinked rest =>
      rw [Engine.probeBinding_of_import himport]
      cases hanswer : w.chainOutcome _ origin y with
      | ok v =>
          rw [hanswer] at hread
          rw [Action.bind_ok hread]
          rfl
      | error e =>
          rw [hanswer] at hread
          rw [Action.bind_error hread]
          rfl

/-- A read at the origin of a chain answers from the slots there. -/
theorem getBinding_origin (h : ImportChain w s x links origin y) (E : Engine σ) (strict : Bool) :
    E.getBinding origin y strict w =
      Action.ofExcept ((w.scope origin).record.slots.read y) w := by
  induction h with
  | origin hrecord himport =>
      rw [Engine.getBinding_of_module hrecord himport, hrecord]
      rfl
  | link _ _ _ ih => exact ih

end ImportChain

/-- **Imports are aliases.** Let a name lead through imports, of any number, to a name of a module
environment. While something keeps the modules on the way, a read answers what a strict read at
the origin answers in that state, value or error, and a probe reports that value as a constant;
otherwise both are errors that name the import of the first link whose module is gone. So two
names that lead to one origin agree, and so do two imports of one export of a module that is
kept. -/
theorem Program.getBinding_importChain [Embedding σ] (P : Program σ) (budget : Nat) {w : World σ}
    {s origin : ScopeId} {x y : String} {links : List ImportLink}
    (h : ImportChain w s x links origin y) (hlinks : links ≠ []) (strict : Bool) :
    let E := P.engine (links.length + budget)
    -- while every module is kept, the read is that of the origin
    (w.brokenLink? links = none → ∃ outcome : Except Error Value,
      (∀ E₀ : Engine σ, E₀.getBinding origin y true w = Action.ofExcept outcome w) ∧
      E.getBinding s x strict w = Action.ofExcept outcome w.settle ∧
      E.probeBinding s x strict w =
        Action.ofExcept (outcome.map fun v => some (Binding.ofImport v, v)) w.settle) ∧
    -- the first module that is gone breaks the chain
    (∀ link, w.brokenLink? links = some link →
      (Error.moduleGone link.name).kind = .reference ∧
      E.getBinding s x strict w = .error (.thrown (.moduleGone link.name)) w.settle ∧
      E.probeBinding s x strict w = .error (.thrown (.moduleGone link.name)) w.settle) ∧
    -- chains to one origin agree, and so do imports of one export
    (∀ s' x' links' budget' strict', ImportChain w s' x' links' origin y → links' ≠ [] →
      w.brokenLink? links = none → w.brokenLink? links' = none →
      (P.engine (links'.length + budget')).getBinding s' x' strict' w =
        E.getBinding s x strict w) ∧
    ∀ s' x' i (E' : Engine σ) strict', (w.scope s).record.import? x = some i →
      (w.scope s').record.import? x' = some i → w.isKept i.source = true →
      E'.getBinding s' x' strict' w = E'.getBinding s x strict w := by
  have hread := h.getBinding_eq P budget hlinks strict
  have hprobe := h.probeBinding_eq P budget hlinks strict
  refine ⟨fun hnone => ?_, fun link hlink => ?_, ?_, ?_⟩
  · rw [World.chainOutcome_of_unbroken hnone] at hread hprobe
    exact ⟨_, fun E₀ => h.getBinding_origin E₀ true, hread, hprobe⟩
  · rw [World.chainOutcome_of_broken hlink] at hread hprobe
    exact ⟨rfl, hread, hprobe⟩
  · intro s' x' links' budget' strict' h' hlinks' hnone hnone'
    rw [h'.getBinding_eq P budget' hlinks', hread, World.chainOutcome_of_unbroken hnone,
      World.chainOutcome_of_unbroken hnone']
  · intro s' x' i E' strict' himport himport' hkept
    rw [Engine.getBinding_of_import himport, Engine.getBinding_of_import himport',
      Engine.readImport_eq, Engine.readImport_eq, if_pos hkept, if_pos hkept]

/-- Two links to a module environment, with other values in the slots of the importers. -/
theorem Program.getBinding_of_reexport :
    let slot (name : String) (v : Value) : Bindings :=
      Table.empty.insert name ⟨some v, true, false, true⟩
    let imports (name : String) (i : Import) : Table String Import := Table.empty.insert name i
    let w : World Unit :=
      { World.empty none (.below 0) () with
        scopes := #[⟨.module (slot "a" (.boolean true)) .empty, none⟩,
          ⟨.module (slot "b" .undefined) (imports "b" ⟨⟨0⟩, "a"⟩), none⟩,
          ⟨.module (slot "c" .null) (imports "c" ⟨⟨1⟩, "b"⟩), none⟩]
        modules := #[⟨.linked ⟨0⟩, true⟩, ⟨.linked ⟨1⟩, true⟩]
        held := [.module ⟨0⟩, .module ⟨1⟩] }
    let P : Program Unit := fun _ _ => .done .undefined
    (P.engine 2).getBinding ⟨2⟩ "c" false w = .ok (.boolean true) w.settle := by
  intro slot imports w P
  have hchain : ImportChain w ⟨2⟩ "c" [⟨"c", ⟨1⟩⟩, ⟨"b", ⟨0⟩⟩] ⟨0⟩ "a" :=
    .link (i := ⟨⟨1⟩, "b"⟩) rfl rfl (.link (i := ⟨⟨0⟩, "a"⟩) rfl rfl (.origin rfl rfl))
  have hlinks : [(⟨"c", ⟨1⟩⟩ : ImportLink), ⟨"b", ⟨0⟩⟩] ≠ [] := List.cons_ne_nil _ _
  have hunbroken : w.brokenLink? [⟨"c", ⟨1⟩⟩, ⟨"b", ⟨0⟩⟩] = none := by decide +kernel
  obtain ⟨outcome, horigin, hread, _⟩ :=
    (P.getBinding_importChain 0 hchain hlinks false).1 hunbroken
  have hvalue : Action.ofExcept outcome w = .ok (.boolean true) w := (horigin .exhausted).symm
  cases outcome with
  | ok v =>
      cases hvalue
      exact hread
  | error e => cases hvalue

end EcmaCore
