import EcmaCore.Proofs.World.Functions

/-!
# Chains of bound functions

A bound function stands for its target, which may be bound again. A call through a chain
of bound functions is a call of the function at its end, with the `this` of the innermost
link and the arguments of all links, innermost first; a construction is one with that
function, which also takes the place of every link as the new target.

The one thing that a chain adds to a call is that it holds on to what it has no use for:
the `this` that each link but the innermost is called with is kept until the call
returns. That shows where something depends on what is kept, such as the bytes that a
limited heap has left.

## Main results

* `BoundChain.newBound`, `BoundChain.keeps`: how chains come about, and that they stay.
* `BoundChain.isConstructorObject_eq`: a chain constructs if the function at its end does.
* `BoundChain.call_eq`, `BoundChain.construct_eq`: calls and constructions of chains.
* `Program.boundChain_spec`: the three of them.
-/

namespace EcmaCore

/-- A link of a chain of bound functions: the function with the `this` and the arguments that it
fixes. -/
structure BoundLink where
  function : ObjectId
  boundThis : Value
  boundArgs : List Value
  deriving DecidableEq

namespace BoundLink

/-- The `this` that the function at the end of a chain is called with. -/
def receiver (links : List BoundLink) (this : Value) : Value :=
  (links.getLast?.map boundThis).getD this

/-- The arguments that the function at the end of a chain is called with. -/
def arguments (links : List BoundLink) (args : List Value) : List Value :=
  links.reverse.flatMap boundArgs ++ args

/-- What a chain is called with as `this` and then calls its own links with, but for the innermost
one, from the inside out: nobody uses these. -/
def unused (links : List BoundLink) (this : Value) : List Value :=
  (this :: links.map boundThis).dropLast.reverse

/-- The new target of a construction with the function at the end of a chain, where the chain itself
is constructed with if none is given. -/
def target (links : List BoundLink) (t : ObjectId) : Option ObjectId → ObjectId
  | none => t
  | some newTarget => if newTarget ∈ links.map function then t else newTarget

variable (link : BoundLink) (links : List BoundLink)

theorem receiver_cons (this : Value) :
    receiver (link :: links) this = receiver links link.boundThis := by
  cases links with
  | nil => rfl
  | cons next rest => rfl

theorem arguments_cons (args : List Value) :
    arguments (link :: links) args = arguments links (link.boundArgs ++ args) := by
  simp [arguments]

theorem unused_cons (next : BoundLink) (this : Value) :
    unused (link :: next :: links) this = unused (next :: links) link.boundThis ++ [this] := by
  simp [unused]

theorem target_cons (t newTarget : ObjectId) :
    target (link :: links) t (some newTarget) =
      if newTarget = link.function then t else target links t (some newTarget) := by
  by_cases heq : newTarget = link.function
  · simp [target, heq]
  · simp [target, heq]

end BoundLink

variable {σ : Type}

/-- A function is bound, by links that are listed from the outermost one, to the function `t`, which
is not bound itself. Each link was created after its target. -/
inductive BoundChain (w : World σ) (t : ObjectId) : ObjectId → List BoundLink → Prop where
  | target {f : Function} (hf : w.function? t = some f) (hbound : ∀ b, f ≠ .bound b) :
      BoundChain w t t []
  | bound {g : ObjectId} {b : BoundFunction} {links : List BoundLink}
      (hg : w.function? g = some (.bound b)) (hlt : b.target.index < g.index)
      (rest : BoundChain w t b.target links) :
      BoundChain w t g (⟨g, b.boundThis, b.boundArgs⟩ :: links)

namespace BoundChain

variable {w w' : World σ} {t g : ObjectId} {links : List BoundLink}

/-! ## How chains come about -/

theorem exists_function (h : BoundChain w t g links) : ∃ f, w.function? g = some f := by
  cases h with
  | target hf _ => exact ⟨_, hf⟩
  | bound hg _ _ => exact ⟨_, hg⟩

/-- Chains stay what they are where functions do. -/
theorem keeps (h : BoundChain w t g links) (hkeeps : w.FunctionsKeep w') :
    BoundChain w' t g links := by
  induction h with
  | target hf hbound => exact .target (hkeeps _ _ hf) hbound
  | bound hg hlt _ ih => exact .bound (hkeeps _ _ hg) hlt ih

/-- Binding the function of a chain adds a link. -/
theorem newBound [Embedding σ] (h : BoundChain w t g links) (E : Engine σ) (boundThis : Value)
    (boundArgs : List Value) :
    ∃ f w', (Request.newBound g boundThis boundArgs).perform E w = .ok (.object (some f)) w' ∧
      BoundChain w' t f (⟨f, boundThis, boundArgs⟩ :: links) := by
  obtain ⟨callee, hcallee⟩ := h.exists_function
  have hlt : g.index < w.objects.size := by
    refine Nat.lt_of_not_le fun hle => ?_
    rw [World.function?, w.object_of_size_le hle] at hcallee
    cases hcallee
  have hcallable : w.isCallable (.object g) = true := by
    show (w.function? g).isSome = true
    rw [hcallee]
    rfl
  let b : BoundFunction := ⟨g, boundThis, boundArgs⟩
  let new : Object := .new (w.object g).prototype (.function (.bound b))
  refine ⟨⟨w.objects.size⟩, (w.addObject new).2, ?_, ?_⟩
  · have hcreated : Engine.boundFunction g boundThis boundArgs { w with held := [] ++ w.held } =
        .ok new { w with held := [] ++ w.held } := by
      rw [Engine.boundFunction, Action.bind_ok (Action.get_apply _)]
      exact congrFun (if_pos hcallable) _
    rw [Request.perform, Action.holding_apply, Request.execute]
    rw [show (Request.newBound g boundThis boundArgs).operands = [] from rfl,
      Action.bind_ok hcreated]
    rfl
  · have hnew : (w.addObject new).2.function? ⟨w.objects.size⟩ = some (.bound b) := by
      rw [World.function?, World.object_addObject, if_pos rfl]
      rfl
    exact .bound hnew hlt (h.keeps (w.functionsKeep_addObject new))

/-! ## Constructors -/

/-- Whether the function of a chain constructs is a question to the function at its end, with any
bound that is large enough to get there. -/
theorem constructsWithin_eq (h : BoundChain w t g links) {bound : Nat} (hlt : g.index < bound) :
    w.constructsWithin bound g = w.isConstructorObject t := by
  induction h generalizing bound with
  | @target f hf hbound =>
      obtain ⟨bound, rfl⟩ := Nat.exists_eq_succ_of_ne_zero (Nat.ne_zero_of_lt hlt)
      rw [World.isConstructorObject, World.constructsWithin, World.constructsWithin, hf]
      cases f with
      | ordinary d => rfl
      | native n => rfl
      | bound b => exact absurd rfl (hbound b)
  | @bound g b links hg hindex rest ih =>
      obtain ⟨bound, rfl⟩ := Nat.exists_eq_succ_of_ne_zero (Nat.ne_zero_of_lt hlt)
      rw [World.constructsWithin, hg]
      exact ih (by omega)

/-- A chain constructs exactly if the function at its end does. -/
theorem isConstructorObject_eq (h : BoundChain w t g links) :
    w.isConstructorObject g = w.isConstructorObject t :=
  h.constructsWithin_eq (Nat.lt_succ_self _)

/-! ## Calls and constructions -/

/-- A chain that is constructed with itself as the new target constructs with the function at its
end as the new target. -/
theorem target_self (h : BoundChain w t g links) : BoundLink.target links t (some g) = t := by
  cases h with
  | target => rfl
  | bound => rw [BoundLink.target_cons, if_pos rfl]

variable [Embedding σ]

/-- A bound function calls its target and holds on to its own `this` meanwhile. -/
theorem call_bound (P : Program σ) (budget : Nat) {b : BoundFunction}
    (hg : w.function? g = some (.bound b)) (this : Value) (args : List Value) :
    (P.engine (budget + 1)).call g this args w =
      ((P.engine budget).call b.target b.boundThis (b.boundArgs ++ args)).holding this.entities
        w := by
  show P.call (P.engine budget) g this args w = _
  rw [Program.call, Action.bind_ok (Action.get_apply w)]
  simp only [hg]

/-- A call through a chain is a call of the function at its end. -/
theorem call_eq (P : Program σ) (budget : Nat) (h : BoundChain w t g links) (hlinks : links ≠ [])
    (hkeeps : w.FunctionsKeep w') (this : Value) (args : List Value) :
    (P.engine (links.length + budget)).call g this args w' =
      ((P.engine budget).call t (BoundLink.receiver links this)
        (BoundLink.arguments links args)).holding
          ((BoundLink.unused links this).flatMap Value.entities) w' := by
  -- each link holds on to its `this`, so the rest of the chain is called in another world
  induction h generalizing w' this args with
  | target => exact absurd rfl hlinks
  | @bound g b links hg hlt rest ih =>
      rw [List.length_cons, Nat.add_right_comm, call_bound P _ (hkeeps _ _ hg),
        BoundLink.receiver_cons, BoundLink.arguments_cons]
      cases rest with
      | target =>
          rw [List.length_nil, Nat.zero_add]
          show _ = ((P.engine budget).call _ _ _).holding (this.entities ++ []) w'
          rw [List.append_nil]
          rfl
      | bound =>
          have hheld : w.FunctionsKeep { w' with held := this.entities ++ w'.held } := hkeeps
          have hrest := ih (List.cons_ne_nil _ _) hheld b.boundThis (b.boundArgs ++ args)
          rw [Action.holding_congr hrest, Action.holding_holding, BoundLink.unused_cons,
            List.flatMap_append, List.flatMap_singleton]

/-- A bound function passes its target on in its own place. -/
theorem construct_bound (P : Program σ) (budget : Nat) {b : BoundFunction}
    (hg : w.function? g = some (.bound b)) (hconstructs : w.isConstructorObject g = true)
    (args : List Value) (newTarget : ObjectId) :
    (P.engine (budget + 1)).construct g args newTarget w =
      (P.engine budget).construct b.target (b.boundArgs ++ args)
        (if newTarget = g then b.target else newTarget) w := by
  show P.construct (P.engine budget) g args newTarget w = _
  rw [Program.construct, Action.bind_ok (Action.get_apply w), if_pos hconstructs]
  simp only [hg]

/-- A construction with a chain is one with the function at its end, which takes the place of every
link as the new target. -/
theorem construct_eq (P : Program σ) (budget : Nat) (h : BoundChain w t g links)
    (hconstructs : w.isConstructorObject t = true) (args : List Value) (newTarget : ObjectId) :
    (P.engine (links.length + budget)).construct g args newTarget w =
      (P.engine budget).construct t (BoundLink.arguments links args)
        (BoundLink.target links t (some newTarget)) w := by
  induction h generalizing args newTarget with
  | target =>
      rw [List.length_nil, Nat.zero_add]
      rfl
  | @bound g b links hg hlt rest ih =>
      have hg' : w.isConstructorObject g = true := by
        rw [(BoundChain.bound hg hlt rest).isConstructorObject_eq, hconstructs]
      have htarget : BoundLink.target links t (some (if newTarget = g then b.target else newTarget))
          = BoundLink.target (⟨g, b.boundThis, b.boundArgs⟩ :: links) t (some newTarget) := by
        rw [BoundLink.target_cons]
        split
        · exact rest.target_self
        · rfl
      rw [List.length_cons, Nat.add_right_comm, construct_bound P _ hg hg', ih, htarget,
        BoundLink.arguments_cons]

end BoundChain

/-- **Chains of bound functions.** A call through a chain of bound functions, of any length, is a
call of the function at its end, with the `this` of the innermost link and the arguments of all
links before those of the call, made while the `this` of the call and those of the other links
are held on to. The chain is a constructor exactly if that function is, and a construction with
it is one with that function, on the same arguments, for which the function takes the place of
an absent new target and of one that is a link. -/
theorem Program.boundChain_spec [Embedding σ] (P : Program σ) (budget : Nat) {w : World σ}
    {t g : ObjectId} {links : List BoundLink} (h : BoundChain w t g links) (hlinks : links ≠ []) :
    let E := P.engine (links.length + budget)
    let E' := P.engine budget
    (∀ this args, E.call g this args w =
      (E'.call t (BoundLink.receiver links this) (BoundLink.arguments links args)).holding
        ((BoundLink.unused links this).flatMap Value.entities) w) ∧
    w.isConstructorObject g = w.isConstructorObject t ∧
    (w.isConstructorObject t = true → ∀ args (newTarget : Option ObjectId),
      E.construct g args (newTarget.getD g) w =
        E'.construct t (BoundLink.arguments links args)
          (BoundLink.target links t newTarget) w) := by
  refine ⟨fun this args => ?_, h.isConstructorObject_eq, fun hconstructs args newTarget => ?_⟩
  · exact h.call_eq P budget hlinks (fun _ _ hf => hf) this args
  · cases newTarget with
    | none =>
        have hself := h.construct_eq P budget hconstructs args g
        rw [h.target_self] at hself
        exact hself
    | some newTarget => exact h.construct_eq P budget hconstructs args newTarget

/-- A constructor that is bound twice. -/
theorem Program.boundChain_of_two_links :
    let t : NativeFunction := ⟨"t", 0, .code ⟨0⟩, some (.code ⟨0⟩)⟩
    let w : World Unit :=
      { World.empty none (.below 0) () with
        objects := #[.new none (.function (.native t)),
          .new none (.function (.bound ⟨⟨0⟩, .boolean true, [.null]⟩)),
          .new none (.function (.bound ⟨⟨1⟩, .boolean false, [.undefined]⟩))] }
    ∀ P : Program Unit,
      (P.engine 3).call ⟨2⟩ (.object ⟨0⟩) [.null] w =
        ((P.engine 1).call ⟨0⟩ (.boolean true) [.null, .undefined, .null]).holding [.object ⟨0⟩] w ∧
      (P.engine 3).construct ⟨2⟩ [] ⟨1⟩ w =
        (P.engine 1).construct ⟨0⟩ [.null, .undefined] ⟨0⟩ w := by
  intro t w P
  have hchain : BoundChain w ⟨0⟩ ⟨2⟩ [⟨⟨2⟩, .boolean false, [.undefined]⟩,
      ⟨⟨1⟩, .boolean true, [.null]⟩] :=
    .bound (b := ⟨⟨1⟩, .boolean false, [.undefined]⟩) rfl (by decide)
      (.bound (b := ⟨⟨0⟩, .boolean true, [.null]⟩) rfl (by decide)
        (.target (f := .native t) rfl (by rintro b ⟨⟩)))
  obtain ⟨hcall, -, hconstruct⟩ := P.boundChain_spec 1 hchain (List.cons_ne_nil _ _)
  exact ⟨hcall (.object ⟨0⟩) [.null], hconstruct rfl [] (some ⟨1⟩)⟩

/-- On a heap of eight bytes, a function lets go of the only buffer and reserves its bytes. Called
by itself it succeeds. Called through a bound function with the buffer as `this`, which nobody
uses, it fails: the buffer is still held on to. -/
theorem Program.boundChain_holds_this :
    let t : NativeFunction := ⟨"t", 0, .code ⟨0⟩, none⟩
    let w : World Unit :=
      { World.empty none (.below 9) () with
        objects := #[
          ⟨none, true, Table.empty.insert "x" (.data (.object ⟨3⟩) true true true), .plain⟩,
          .new none (.function (.native t)), .new none (.function (.bound ⟨⟨1⟩, .undefined, []⟩)),
          .charged ⟨0⟩ 8 none]
        scopes := #[⟨.declarative .empty, none⟩]
        ledger := ⟨some 8, 8⟩ }
    let P : Program Unit := fun _ _ =>
      .ask (.delete ⟨0⟩ "x") fun _ => .ask (.reserve 8) fun
        | .ok _ => .done .null
        | .error e => .fail e
    BoundChain w ⟨1⟩ ⟨2⟩ [⟨⟨2⟩, .undefined, []⟩] ∧
      (match (P.engine 1).call ⟨1⟩ .undefined [] w with
        | .ok v _ => some v
        | .error .. => none) = some .null ∧
      (match (P.engine 2).call ⟨2⟩ (.object ⟨3⟩) [] w with
        | .error (.thrown e) _ => some e
        | _ => none) = some (.allocationFailed 8) := by
  intro t w P
  refine ⟨?_, ?_, ?_⟩
  · exact .bound (b := ⟨⟨1⟩, .undefined, []⟩) rfl (by decide)
      (.target (f := .native t) rfl (by rintro b ⟨⟩))
  · decide +kernel
  · decide +kernel

end EcmaCore
