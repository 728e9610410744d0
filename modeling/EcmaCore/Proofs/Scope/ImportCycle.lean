import EcmaCore.Proofs.Scope.Probe
import Mathlib.Data.Finset.Card

/-!
# Imports that lead in a circle

A read of an import goes on to the name in the environment of its module, and if that is an import,
too, to the next. Nothing keeps two modules from importing a name from each other, and a read does
not remember which names it has come by. So it ends exactly if it comes by no name twice, and then
it follows no more imports than there are.

How many imports a read may follow is the budget of the engine. `World.importAnswer` is what a read
answers within a budget, and `World.follow` the name it has come to after a number of imports.

## Main results

* `World.exists_importAnswer`, `World.importAnswer_of_circles`: the names that are answered, and
  those that are not.
* `Program.getBinding_eq_importAnswer`: a read answers `World.importAnswer`.
* `ModuleOperation.linksModules_runEach`: what is done to module environments keeps their modules
  linked.
* `Program.importReads_end_iff`: which reads of imports end.
-/

namespace EcmaCore

variable {σ : Type} [Embedding σ]

/-! ## Following imports -/

namespace World

/-- The name that a name of an environment is imported from, in the environment of a linked module
that is kept. -/
def importNext? (w : World σ) (p : ScopeId × String) : Option (ScopeId × String) :=
  match (w.scope p.1).record.import? p.2 with
  | none => none
  | some i =>
      match (w.module i.source).source with
      | .linked t => if w.isKept i.source then some (t, i.exported) else none
      | .code _ => none

/-- The name that a name leads to through a number of imports. -/
def follow (w : World σ) : Nat → ScopeId × String → Option (ScopeId × String)
  | 0, p => some p
  | n + 1, p => (w.importNext? p).bind (w.follow n)

/-- The imports from a name on lead to some name again and again. -/
def Circles (w : World σ) (p : ScopeId × String) : Prop :=
  ∃ q m n, w.follow m p = some q ∧ w.follow (n + 1) q = some q

/-- The names of all imports, with their environments. -/
def importNames (w : World σ) : List (ScopeId × String) :=
  (List.range w.scopes.size).flatMap fun n =>
    match (w.scope ⟨n⟩).record with
    | .module _ imports => imports.keys.map (⟨n⟩, ·)
    | _ => []

/-- What a read answers at a name that leads no further: an import from a module that is gone is an
error, and any other name is a slot. -/
def lastAnswer (w : World σ) (p : ScopeId × String) : Except Failure Value :=
  match (w.scope p.1).record.import? p.2 with
  | some _ => .error (.thrown (.moduleGone p.2))
  | none => ((w.scope p.1).record.slots.read p.2).mapError .thrown

/-- What a read answers that may follow so many imports. -/
def importAnswer (w : World σ) : Nat → ScopeId × String → Except Failure Value
  | 0, p => if (w.importNext? p).isSome then .error .exhausted else w.lastAnswer p
  | bound + 1, p =>
      match w.importNext? p with
      | some q => w.importAnswer bound q
      | none => w.lastAnswer p

/-- Modules that are available are linked to module environments. -/
def LinksModules (w : World σ) : Prop :=
  ∀ m, (w.module m).available = true → ∃ t slots imports,
    (w.module m).source = .linked t ∧ (w.scope t).record = .module slots imports

/-! ## Reads that come to an end -/

variable {w : World σ} {p q : ScopeId × String}

theorem follow_add (w : World σ) (m n : Nat) (p : ScopeId × String) :
    w.follow (m + n) p = (w.follow m p).bind (w.follow n) := by
  induction m generalizing p with
  | zero => rw [Nat.zero_add]; rfl
  | succ m ih =>
      rw [Nat.succ_add, follow, follow, Option.bind_assoc]
      simp only [ih]

/-- A name that leads through a number of imports leads through fewer. -/
theorem isSome_follow_of_le {m n : Nat} (hmn : m ≤ n) (h : (w.follow n p).isSome = true) :
    (w.follow m p).isSome = true := by
  obtain ⟨k, rfl⟩ := Nat.exists_eq_add_of_le hmn
  rw [follow_add] at h
  cases hfollow : w.follow m p with
  | some q => rfl
  | none =>
      rw [hfollow] at h
      cases h

/-- A circle leads on through any number of imports. -/
theorem Circles.isSome_follow (h : w.Circles p) (k : Nat) : (w.follow k p).isSome = true := by
  obtain ⟨q, m, n, hreach, hreturn⟩ := h
  have hround (j : Nat) : w.follow (j * (n + 1)) q = some q := by
    induction j with
    | zero => rw [Nat.zero_mul]; rfl
    | succ j ih =>
        rw [Nat.succ_mul, follow_add, ih]
        exact hreturn
  have hlong : w.follow (m + k * (n + 1)) p = some q := by
    rw [follow_add, hreach]
    exact hround k
  refine isSome_follow_of_le ?_ (Option.isSome_of_eq_some hlong)
  calc k ≤ k * (n + 1) := Nat.le_mul_of_pos_right k n.succ_pos
    _ ≤ m + k * (n + 1) := Nat.le_add_left _ m

theorem mem_importNames (h : (w.importNext? p).isSome = true) : p ∈ w.importNames := by
  obtain ⟨s, x⟩ := p
  rw [importNext?] at h
  cases himport : (w.scope s).record.import? x with
  | none =>
      rw [himport] at h
      cases h
  | some i =>
      obtain ⟨slots, imports, hrecord, hname⟩ := Record.eq_module_of_import himport
      have hlt : s.index < w.scopes.size := index_lt_of_record (by rw [hrecord]; nofun)
      refine List.mem_flatMap.2 ⟨s.index, List.mem_range.2 hlt, ?_⟩
      rw [hrecord]
      exact List.mem_map.2 ⟨x, (imports.mem_keys_iff x).2 (Option.isSome_of_eq_some hname), rfl⟩

/-- A name that leads through more imports than there are leads in a circle. -/
theorem circles_of_follow (h : (w.follow (w.importNames.length + 1) p).isSome = true) :
    w.Circles p := by
  -- each name on the way but the last is an import
  have hmaps (k : Nat) (hk : k ∈ Finset.range (w.importNames.length + 1)) :
      w.follow k p ∈ (w.importNames.map some).toFinset := by
    have hle : k + 1 ≤ w.importNames.length + 1 := Finset.mem_range.1 hk
    have hnext := isSome_follow_of_le hle h
    obtain ⟨q, hq⟩ := Option.isSome_iff_exists.1 (isSome_follow_of_le (Nat.le_of_succ_le hle) h)
    rw [follow_add, hq] at hnext
    have himport : (w.importNext? q).isSome = true := by
      cases hq' : w.importNext? q with
      | some _ => rfl
      | none =>
          rw [Option.bind_some, follow, hq'] at hnext
          cases hnext
    rw [hq, List.mem_toFinset, List.mem_map]
    exact ⟨q, mem_importNames himport, rfl⟩
  have hcard : (w.importNames.map some).toFinset.card <
      (Finset.range (w.importNames.length + 1)).card := by
    rw [Finset.card_range]
    refine Nat.lt_succ_of_le ((List.toFinset_card_le _).trans ?_)
    rw [List.length_map]
  obtain ⟨i, hi, j, hj, hne, heq⟩ :=
    Finset.exists_ne_map_eq_of_card_lt_of_maps_to hcard hmaps
  -- so two of them are the same
  have hcircle {i j : Nat} (hi : i ∈ Finset.range (w.importNames.length + 1)) (hlt : i < j)
      (heq : w.follow i p = w.follow j p) : w.Circles p := by
    obtain ⟨n, rfl⟩ := Nat.exists_eq_add_of_lt hlt
    obtain ⟨q, hq⟩ := Option.isSome_iff_exists.1
      (isSome_follow_of_le (Finset.mem_range.1 hi).le h)
    refine ⟨q, i, n, hq, ?_⟩
    rw [Nat.add_assoc, follow_add, hq] at heq
    exact heq.symm
  rcases Nat.lt_or_gt_of_ne hne with hlt | hlt
  · exact hcircle hi hlt heq
  · exact hcircle hj hlt heq.symm

/-- A name that leads through more imports than the budget is not answered within it. -/
theorem importAnswer_of_isSome_follow {bound : Nat} (h : (w.follow (bound + 1) p).isSome = true) :
    w.importAnswer bound p = .error .exhausted := by
  induction bound generalizing p with
  | zero =>
      rw [follow] at h
      rw [importAnswer, if_pos (Option.isSome_of_isSome_bind h)]
  | succ bound ih =>
      rw [follow] at h
      rw [importAnswer]
      cases hnext : w.importNext? p with
      | none =>
          rw [hnext] at h
          cases h
      | some q =>
          rw [hnext] at h
          exact ih h

/-- A name that leads no further is answered alike within every budget. -/
theorem importAnswer_of_next_none (h : w.importNext? p = none) :
    ∃ answer : Except Error Value, ∀ bound, w.importAnswer bound p = answer.mapError .thrown := by
  have hlast (bound : Nat) : w.importAnswer bound p = w.lastAnswer p := by
    cases bound with
    | zero => rw [importAnswer, h]; rfl
    | succ bound => rw [importAnswer, h]
  simp only [hlast, lastAnswer]
  cases (w.scope p.1).record.import? p.2 with
  | some i => exact ⟨.error (.moduleGone p.2), fun _ => rfl⟩
  | none => exact ⟨_, fun _ => rfl⟩

/-- A name that leads through so many imports and no further is answered within a budget of so
many. -/
theorem importAnswer_of_follow_none {n : Nat} (h : w.follow (n + 1) p = none) :
    ∃ answer : Except Error Value, ∀ bound, n ≤ bound →
      w.importAnswer bound p = answer.mapError .thrown := by
  induction n generalizing p with
  | zero =>
      have hnext : w.importNext? p = none := by
        cases hnext : w.importNext? p with
        | none => rfl
        | some q =>
            rw [follow, hnext] at h
            cases h
      obtain ⟨answer, hanswer⟩ := importAnswer_of_next_none hnext
      exact ⟨answer, fun bound _ => hanswer bound⟩
  | succ n ih =>
      cases hnext : w.importNext? p with
      | none =>
          obtain ⟨answer, hanswer⟩ := importAnswer_of_next_none hnext
          exact ⟨answer, fun bound _ => hanswer bound⟩
      | some q =>
          rw [follow, hnext] at h
          obtain ⟨answer, hanswer⟩ := ih h
          refine ⟨answer, fun bound hbound => ?_⟩
          obtain ⟨bound, rfl⟩ := Nat.exists_eq_add_of_le' (Nat.le_of_add_left_le hbound)
          rw [importAnswer, hnext]
          exact hanswer bound (Nat.le_of_succ_le_succ hbound)

/-- A name that does not lead in a circle is answered. -/
theorem exists_importAnswer (h : ¬w.Circles p) : ∃ answer : Except Error Value, ∀ bound,
    w.importNames.length ≤ bound → w.importAnswer bound p = answer.mapError .thrown := by
  refine importAnswer_of_follow_none (Option.eq_none_iff_forall_not_mem.2 fun q hq => h ?_)
  exact circles_of_follow (Option.isSome_of_mem hq)

/-- A name that leads in a circle is not answered, whatever the budget. -/
theorem importAnswer_of_circles (h : w.Circles p) (bound : Nat) :
    w.importAnswer bound p = .error .exhausted :=
  importAnswer_of_isSome_follow (h.isSome_follow (bound + 1))

end World

/-! ## Reads -/

/-- Another world is settled, and the imports of a world lead to the same names there. -/
structure World.ImportsIn (w w' : World σ) : Prop where
  settled : w'.settle = w'
  scope : ∀ s, w'.scope s = w.scope s
  source : ∀ m, (w'.module m).source = (w.module m).source
  kept : ∀ m, w'.isKept m = w.isKept m

namespace World.ImportsIn

variable {w w' : World σ}

theorem settle (w : World σ) : w.ImportsIn w.settle where
  settled := w.settle_settle
  scope := w.scope_settle
  source := w.source_settle
  kept := w.isKept_settle

/-- Holding on to more makes no difference to the imports of a settled world. -/
theorem holding (h : w.ImportsIn w') (entities : List Entity) :
    w.ImportsIn { w' with held := entities ++ w'.held } where
  settled := settle_holding h.settled entities
  scope := h.scope
  source := h.source
  kept m := (isKept_holding h.settled entities m).trans (h.kept m)

end World.ImportsIn

namespace World

variable {w w' : World σ} {s t : ScopeId} {x y : String}

theorem importNext?_eq_some (h : w.importNext? (s, x) = some (t, y)) :
    ∃ m, (w.scope s).record.import? x = some ⟨m, y⟩ ∧ w.isKept m = true ∧
      (w.module m).source = .linked t := by
  rw [importNext?] at h
  split at h
  · cases h
  · next i himport =>
    split at h
    · next hsource =>
      split at h
      · next hkept =>
        cases h
        exact ⟨i.source, himport, hkept, hsource⟩
      · cases h
    · cases h

/-- A module that is kept is linked to a module environment. -/
theorem LinksModules.linked (h : w.LinksModules) {m : ModuleId} (hkept : w.isKept m = true) :
    ∃ t slots imports, (w.module m).source = .linked t ∧
      (w.scope t).record = .module slots imports :=
  h m ((w.available_settle m).1 hkept).1

/-- The reads at a name that leads no further. -/
theorem getBinding_last (hlinks : w.LinksModules) (h : w.ImportsIn w') {slots : Bindings}
    {imports : Table String Import} (hrecord : (w.scope s).record = .module slots imports)
    (hnext : w.importNext? (s, x) = none) (E : Engine σ) (strict : Bool) :
    E.getBinding s x strict w' = Action.ending (w.lastAnswer (s, x)) w' := by
  have hrecord' : (w'.scope s).record = .module slots imports := by rw [h.scope, hrecord]
  rw [lastAnswer, hrecord]
  cases himport : imports.get? x with
  | none =>
      simp only [Record.import?, Record.slots, himport]
      rw [Engine.getBinding_of_module hrecord' himport, Action.ofExcept_apply]
  | some i =>
      have himport' : (w'.scope s).record.import? x = some i := by rw [hrecord']; exact himport
      have hgone : w.isKept i.source = false := by
        rw [← Bool.not_eq_true]
        intro hkept
        obtain ⟨t, -, -, hsource, -⟩ := hlinks.linked hkept
        rw [importNext?, hrecord] at hnext
        simp only [Record.import?, himport, hsource, hkept, if_true] at hnext
        cases hnext
      simp only [Record.import?, himport]
      rw [Engine.getBinding_of_import himport', Engine.readImport_eq, h.kept, hgone, h.settled]
      rfl

/-- The reads at a name that leads further. -/
theorem getBinding_next (hlinks : w.LinksModules) (h : w.ImportsIn w')
    (hnext : w.importNext? (s, x) = some (t, y)) :
    ∃ m slots imports, (w.module m).source = .linked t ∧
      (w.scope t).record = .module slots imports ∧ ∀ (E : Engine σ) (strict : Bool),
        E.getBinding s x strict w' = (E.readExport m y true).holding [.module m] w' := by
  obtain ⟨m, himport, hkept, hsource⟩ := importNext?_eq_some hnext
  obtain ⟨t', slots, imports, hsource', hrecord⟩ := hlinks.linked hkept
  rw [hsource] at hsource'
  cases hsource'
  refine ⟨m, slots, imports, hsource, hrecord, fun E strict => ?_⟩
  have himport' : (w'.scope s).record.import? x = some ⟨m, y⟩ := by rw [h.scope, himport]
  rw [Engine.getBinding_of_import himport', Engine.readImport_eq, h.kept, if_pos hkept, h.settled]

end World

namespace Program

variable {w w' : World σ} {s : ScopeId} {x : String}

/-- A read follows imports as far as the budget goes. -/
theorem getBinding_eq_importAnswer (P : Program σ) (budget : Nat) (hlinks : w.LinksModules)
    (h : w.ImportsIn w') {slots : Bindings} {imports : Table String Import}
    (hrecord : (w.scope s).record = .module slots imports) (strict : Bool) :
    (P.engine budget).getBinding s x strict w' =
      Action.ending (w.importAnswer budget (s, x)) w' := by
  induction budget generalizing w' s x slots imports strict with
  | zero =>
      cases hnext : w.importNext? (s, x) with
      | none =>
          rw [World.importAnswer, hnext]
          exact World.getBinding_last hlinks h hrecord hnext _ strict
      | some q =>
          obtain ⟨m, _, _, -, -, hread⟩ := World.getBinding_next hlinks h hnext
          rw [World.importAnswer, hnext, hread]
          rfl
  | succ budget ih =>
      cases hnext : w.importNext? (s, x) with
      | none =>
          rw [World.importAnswer, hnext]
          exact World.getBinding_last hlinks h hrecord hnext _ strict
      | some q =>
          obtain ⟨m, _, _, hsource, hrecord, hread⟩ := World.getBinding_next hlinks h hnext
          rw [World.importAnswer, hnext, hread]
          -- the module is held on to, so the rest is read in another world
          have hheld := h.holding [.module m]
          have hrest := (P.readExport_engine ((hheld.source m).trans hsource) q.2 true).trans
            (ih hheld hrecord true)
          exact (Action.holding_ending hrest :)

/-- A read of an import settles the world and follows imports. -/
theorem getBinding_import (P : Program σ) (budget : Nat) (hlinks : w.LinksModules)
    (himport : ((w.scope s).record.import? x).isSome = true) (strict : Bool) :
    (P.engine budget).getBinding s x strict w =
      Action.ending (w.importAnswer budget (s, x)) w.settle := by
  obtain ⟨i, hi⟩ := Option.isSome_iff_exists.1 himport
  obtain ⟨slots, imports, hrecord, -⟩ := Record.eq_module_of_import hi
  rw [Engine.getBinding_settle hi]
  exact P.getBinding_eq_importAnswer budget hlinks (.settle w) hrecord strict

/-- A probe of an import reports what a read answers. -/
theorem probeBinding_import (P : Program σ) (budget : Nat) (hlinks : w.LinksModules)
    (himport : ((w.scope s).record.import? x).isSome = true) (strict : Bool) :
    (P.engine budget).probeBinding s x strict w =
      Action.ending ((w.importAnswer budget (s, x)).map fun v => some (.ofImport v, v))
        w.settle := by
  obtain ⟨i, hi⟩ := Option.isSome_iff_exists.1 himport
  have hread := P.getBinding_import budget hlinks himport strict
  rw [Engine.probeBinding_of_import hi]
  cases hanswer : w.importAnswer budget (s, x) with
  | ok v =>
      rw [hanswer] at hread
      rw [Action.bind_ok hread]
      rfl
  | error e =>
      rw [hanswer] at hread
      rw [Action.bind_error hread]
      rfl

/-- A name that is probed from an environment outward, and that is first found as an import, is read
there while the environment is held on to. -/
theorem probeName_import (P : Program σ) (budget : Nat) (hlinks : w.LinksModules)
    (himport : ((w.scope s).record.import? x).isSome = true) {start : Option ScopeId}
    {before rest : List ScopeId} (hchain : w.chainFrom start = before ++ s :: rest)
    (hbefore : ∀ t ∈ before, w.QuietScope t x ∧ w.shows t x = false) (strict : Bool) :
    let u : World σ := { w with held := [.scope s] ++ w.held }
    (P.engine budget).probeName start x strict w =
      Action.ending ((u.importAnswer budget (s, x)).map some)
        { u.settle with held := w.held } := by
  intro u
  have hpassed : (P.engine budget).probeIn x strict (before ++ s :: rest) w =
      (P.engine budget).probeIn x strict (s :: rest) w := by
    clear hchain
    induction before with
    | nil => rfl
    | cons t before ih =>
        obtain ⟨hquiet, hhidden⟩ := hbefore t (by simp)
        rw [List.cons_append, Engine.probeIn_cons_of_hidden _ hquiet hhidden]
        exact ih fun t' ht' => hbefore t' (by simp [ht'])
  have hall : Engine.chainOf start w = .ok (before ++ s :: rest) w := by
    rw [← hchain]
    rfl
  have hprobe : ((P.engine budget).probeBinding s x strict).holding [.scope s] w = _ :=
    Action.holding_ending (P.probeBinding_import (w := u) budget hlinks himport strict)
  rw [Engine.probeName, Action.bind_ok hall, hpassed, Engine.probeIn]
  cases hanswer : u.importAnswer budget (s, x) with
  | ok v =>
      rw [hanswer] at hprobe
      rw [Action.bind_ok hprobe]
      rfl
  | error e =>
      rw [hanswer] at hprobe
      rw [Action.bind_error hprobe]
      rfl

end Program

/-! ## Module environments -/

namespace ModuleOperation

variable {w : World σ} {s : ScopeId} {slots : Bindings} {imports : Table String Import}

omit [Embedding σ]

theorem after_updateSlots (hrecord : (w.scope s).record = .module slots imports)
    (f : Bindings → Except Error Bindings) :
    ∃ slots', (Engine.updateSlots s f).after w = w.setRecord s (.module slots' imports) := by
  have hrun := Engine.updateSlots_eq s f w
  rw [hrecord] at hrun
  cases hslots : f slots with
  | ok slots' =>
      simp only [Record.slots, hslots] at hrun
      exact ⟨slots', Action.after_of_ok hrun⟩
  | error e =>
      simp only [Record.slots, hslots] at hrun
      exact ⟨slots, (Action.after_of_error hrun).trans (World.setRecord_self hrecord).symm⟩

/-- An operation on a module environment replaces its record by one of a module. -/
theorem after_run (E : Engine σ) (hrecord : (w.scope s).record = .module slots imports)
    (operation : ModuleOperation) : ∃ slots' imports',
      (operation.run E s).after w = w.setRecord s (.module slots' imports') := by
  cases operation with
  | createMutable name deletable =>
      rw [run, Action.after_congr (createMutable_eq hrecord name deletable)]
      exact (after_updateSlots hrecord _).imp fun _ h => ⟨imports, h⟩
  | createImmutable name strict =>
      rw [run, Action.after_congr (createImmutable_eq hrecord name strict)]
      exact (after_updateSlots hrecord _).imp fun _ h => ⟨imports, h⟩
  | init name v =>
      rw [run, Action.after_congr (initBinding_eq E hrecord name v)]
      exact (after_updateSlots hrecord _).imp fun _ h => ⟨imports, h⟩
  | set name v strict =>
      rw [run, Action.after_congr (setBinding_eq E hrecord name v strict)]
      exact (after_updateSlots hrecord _).imp fun _ h => ⟨imports, h⟩
  | delete name =>
      have hdelete := Engine.deleteBinding_of_module hrecord name
      cases hslot : slots.delete name with
      | none =>
          rw [hslot] at hdelete
          have hrun : run E s (.delete name) w = .ok () w := Action.bind_ok hdelete
          exact ⟨slots, imports,
            (Action.after_of_ok hrun).trans (World.setRecord_self hrecord).symm⟩
      | some slots' =>
          rw [hslot] at hdelete
          have hrun : run E s (.delete name) w = .ok () (w.setRecord s (.module slots' imports)) :=
            Action.bind_ok hdelete
          exact ⟨slots', imports, Action.after_of_ok hrun⟩
  | addImport name target =>
      obtain ⟨slots', hadd, -⟩ := Record.addImport_module slots imports name target
      have hrun : Engine.createImport s target.source name target.exported w =
          .ok () (w.setRecord s (.module slots' (imports.insert name target))) := by
        apply Action.attempt_ok
        rw [hrecord, hadd]
        rfl
      exact ⟨slots', imports.insert name target, Action.after_of_ok hrun⟩

/-- The world after operations in turn, each on an environment, however they end. -/
def runEach (E : Engine σ) (operations : List (ScopeId × ModuleOperation)) (w : World σ) :
    World σ :=
  operations.foldl (fun w operation => (operation.2.run E operation.1).after w) w

/-- Operations on module environments keep modules linked to such environments. -/
theorem linksModules_runEach (E : Engine σ) {operations : List (ScopeId × ModuleOperation)}
    (hlinks : w.LinksModules) (hmodules : ∀ operation ∈ operations, ∃ slots imports,
      (w.scope operation.1).record = .module slots imports) :
    (runEach E operations w).LinksModules := by
  induction operations generalizing w with
  | nil => exact hlinks
  | cons operation rest ih =>
      obtain ⟨slots, imports, hrecord⟩ := hmodules operation List.mem_cons_self
      obtain ⟨slots', imports', hafter⟩ := after_run E hrecord operation.2
      have hstays (t : ScopeId) (h : ∃ slots imports, (w.scope t).record = .module slots imports) :
          ∃ slots imports, (((operation.2.run E operation.1).after w).scope t).record =
            .module slots imports := by
        rw [hafter, World.scope_setRecord]
        split
        · exact ⟨slots', imports', rfl⟩
        · exact h
      refine ih (fun m hm => ?_) fun other hother =>
        hstays other.1 (hmodules other (List.mem_cons_of_mem _ hother))
      have hmodule : ((operation.2.run E operation.1).after w).module m = w.module m := by
        rw [hafter]
        rfl
      rw [hmodule] at hm ⊢
      obtain ⟨t, slots, imports, hsource, ht⟩ := hlinks m hm
      obtain ⟨slots, imports, ht⟩ := hstays t ⟨slots, imports, ht⟩
      exact ⟨t, slots, imports, hsource, ht⟩

end ModuleOperation

/-- **Reads of imports end unless imports lead in a circle.** Let modules be linked to module
environments, and anything be done to these: names declared, assigned to, deleted and imported, from
each other, too. If the imports from a name on do not lead to a name a second time, then reading and
probing it end with a value or an error, after no more imports than there are. If they do, neither
ends, however much it may call. The same holds for a name that is probed from an environment outward
and found as an import, with the environment held on to. -/
theorem Program.importReads_end_iff (P : Program σ) {w₀ : World σ} (hlinks : w₀.LinksModules)
    (E : Engine σ) (operations : List (ScopeId × ModuleOperation))
    (hmodules : ∀ operation ∈ operations, ∃ slots imports,
      (w₀.scope operation.1).record = .module slots imports) :
    let w := ModuleOperation.runEach E operations w₀
    ∀ s x, ((w.scope s).record.import? x).isSome = true →
      (¬w.Circles (s, x) → ∃ answer : Except Error Value, ∀ budget,
        w.importNames.length ≤ budget → ∀ strict,
          (P.engine budget).getBinding s x strict w = Action.ofExcept answer w.settle ∧
          (P.engine budget).probeBinding s x strict w =
            Action.ofExcept (answer.map fun v => some (.ofImport v, v)) w.settle) ∧
      (w.Circles (s, x) → ∀ budget strict,
        (P.engine budget).getBinding s x strict w = .error .exhausted w.settle ∧
        (P.engine budget).probeBinding s x strict w = .error .exhausted w.settle) ∧
      ∀ start before rest, w.chainFrom start = before ++ s :: rest →
        (∀ t ∈ before, w.QuietScope t x ∧ w.shows t x = false) →
        let u : World σ := { w with held := [.scope s] ++ w.held }
        (¬u.Circles (s, x) → ∃ answer : Except Error Value, ∀ budget,
          w.importNames.length ≤ budget → ∀ strict,
            (P.engine budget).probeName start x strict w =
              Action.ofExcept (answer.map some) { u.settle with held := w.held }) ∧
        (u.Circles (s, x) → ∀ budget strict,
          (P.engine budget).probeName start x strict w =
            .error .exhausted { u.settle with held := w.held }) := by
  intro w s x himport
  have hlinked : w.LinksModules := ModuleOperation.linksModules_runEach E hlinks hmodules
  refine ⟨fun hends => ?_, fun hcircle budget strict => ?_,
    fun start before rest hchain hbefore => ?_⟩
  · obtain ⟨answer, hanswer⟩ := World.exists_importAnswer hends
    refine ⟨answer, fun budget hbudget strict => ?_⟩
    rw [P.getBinding_import budget hlinked himport, P.probeBinding_import budget hlinked himport,
      hanswer budget hbudget]
    cases answer <;> exact ⟨rfl, rfl⟩
  · rw [P.getBinding_import budget hlinked himport, P.probeBinding_import budget hlinked himport,
      World.importAnswer_of_circles hcircle]
    exact ⟨rfl, rfl⟩
  · intro u
    refine ⟨fun hends => ?_, fun hcircle budget strict => ?_⟩
    · obtain ⟨answer, hanswer⟩ := World.exists_importAnswer hends
      refine ⟨answer, fun budget hbudget strict => ?_⟩
      rw [P.probeName_import budget hlinked himport hchain hbefore, hanswer budget hbudget]
      cases answer <;> rfl
    · rw [P.probeName_import budget hlinked himport hchain hbefore,
        World.importAnswer_of_circles hcircle]
      rfl

/-- A name that is imported from a module that has a value for it. -/
theorem Program.importRead_of_declared :
    let slots : Bindings := Table.empty.insert "y" ⟨some (.boolean true), true, false, true⟩
    let w₀ : World Unit :=
      { World.empty none (.below 0) () with
        scopes := #[⟨.module .empty .empty, none⟩, ⟨.module slots .empty, none⟩]
        modules := #[⟨.linked ⟨0⟩, true⟩, ⟨.linked ⟨1⟩, true⟩]
        held := [.module ⟨0⟩, .module ⟨1⟩] }
    let w := ModuleOperation.runEach .exhausted [(⟨0⟩, .addImport "x" ⟨⟨1⟩, "y"⟩)] w₀
    let P : Program Unit := fun _ _ => .done .undefined
    ∀ budget, 1 ≤ budget →
      (P.engine budget).getBinding ⟨0⟩ "x" true w = .ok (.boolean true) w.settle := by
  intro slots w₀ w P budget hbudget
  have hlinks : w₀.LinksModules := by
    rintro ⟨_ | _ | n⟩ h
    · exact ⟨⟨0⟩, _, _, rfl, rfl⟩
    · exact ⟨⟨1⟩, _, _, rfl, rfl⟩
    · cases h
  have hmodules : ∀ operation ∈ [((⟨0⟩ : ScopeId), ModuleOperation.addImport "x" ⟨⟨1⟩, "y"⟩)],
      ∃ slots imports, (w₀.scope operation.1).record = .module slots imports := by
    rintro _ (_ | ⟨_, ⟨⟩⟩)
    exact ⟨_, _, rfl⟩
  obtain ⟨hends, -⟩ := P.importReads_end_iff hlinks .exhausted _ hmodules ⟨0⟩ "x" rfl
  have hlast : w.follow 2 (⟨0⟩, "x") = none := by decide +kernel
  obtain ⟨answer, hanswer⟩ := hends fun hcircle => by
    have hlong := hcircle.isSome_follow 2
    rw [hlast] at hlong
    cases hlong
  have hnext : w.importNext? (⟨0⟩, "x") = some (⟨1⟩, "y") := by decide +kernel
  have hread := P.getBinding_import (w := w) (s := ⟨0⟩) (x := "x") 1
    (ModuleOperation.linksModules_runEach _ hlinks hmodules) rfl true
  rw [(hanswer 1 (Nat.le_refl 1) true).1, World.importAnswer, hnext] at hread
  rw [(hanswer budget hbudget true).1, hread]
  rfl

/-- Two modules that import a name from each other. -/
theorem Program.importRead_of_mutual_imports :
    let w₀ : World Unit :=
      { World.empty none (.below 0) () with
        scopes := #[⟨.module .empty .empty, none⟩, ⟨.module .empty .empty, none⟩]
        modules := #[⟨.linked ⟨0⟩, true⟩, ⟨.linked ⟨1⟩, true⟩]
        held := [.module ⟨0⟩, .module ⟨1⟩] }
    let w₁ := (Engine.createImport ⟨0⟩ ⟨1⟩ "x" "x").after w₀
    let w := (Engine.createImport ⟨1⟩ ⟨0⟩ "x" "x").after w₁
    Engine.createImport ⟨0⟩ ⟨1⟩ "x" "x" w₀ = .ok () w₁ ∧
      Engine.createImport ⟨1⟩ ⟨0⟩ "x" "x" w₁ = .ok () w ∧
      ∀ (P : Program Unit) (budget : Nat) (strict : Bool),
        (P.engine budget).getBinding ⟨0⟩ "x" strict w = .error .exhausted w.settle ∧
        (P.engine budget).probeBinding ⟨0⟩ "x" strict w = .error .exhausted w.settle := by
  intro w₀ w₁ w
  have hlinks : w.LinksModules := by
    rintro ⟨_ | _ | n⟩ h
    · exact ⟨⟨0⟩, _, _, rfl, rfl⟩
    · exact ⟨⟨1⟩, _, _, rfl, rfl⟩
    · cases h
  have hcircle : w.Circles (⟨0⟩, "x") := ⟨(⟨0⟩, "x"), 0, 1, rfl, by decide +kernel⟩
  refine ⟨rfl, rfl, fun P budget strict => ?_⟩
  rw [P.getBinding_import budget hlinks rfl, P.probeBinding_import budget hlinks rfl,
    World.importAnswer_of_circles hcircle]
  exact ⟨rfl, rfl⟩

end EcmaCore
