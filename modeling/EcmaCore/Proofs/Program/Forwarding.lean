import EcmaCore.Proofs.Builtin.Bind
import EcmaCore.Proofs.Conversion
import EcmaCore.Proofs.Number.Index
import EcmaCore.Proofs.Program.BoundChain
import EcmaCore.Proofs.Program.Entry

/-!
# Three ways to pass arguments on

`call`, `apply` and `bind` put a `this` and a list of arguments together, each from other pieces:
`call` from its own arguments, `apply` from the elements of an array-like object, and a bound
function from the arguments that it was bound to and those that it is called with. All three then
call the same function with the same `this` and the same arguments.

They differ in what they hold on to until this call is over, which is what they were given and do
not hand on. A heap with a limit shows that: bytes that are held on to cannot be reserved.

## Main results

* `Engine.listFromArrayLike_eq`: the list in an array-like object that is read without running code.
* `Engine.functionCall_eq`, `Engine.functionApply_eq`: `call` and `apply`.
* `Program.functionBind_call`: calls of what `bind` makes.
* `Program.forwarding_spec`: the three of them.
* `Program.forwarding_keeps_arguments`: what they hold on to makes a difference.
-/

namespace EcmaCore

/-! ## Lists in array-like objects -/

namespace World

variable {σ : Type}

/-- An object lists values: its own length is their number, and at each position there is an own
data property with the value, or nothing to be found where the value is undefined. -/
structure Lists (w : World σ) (o : ObjectId) (values : List Value) : Prop where
  length : ∃ m writable enumerable configurable,
    w.own o "length" = some (.data (.number m) writable enumerable configurable) ∧
      m.toDouble = .ofNat values.length
  element : ∀ i v, values[i]? = some v →
    (∃ writable enumerable configurable,
      w.own o (.ofIndex i) = some (.data v writable enumerable configurable)) ∨
    (w.lookup o (.ofIndex i) = none ∧ v = .undefined)

variable {w : World σ} {o : ObjectId} {values : List Value}

/-- What is held on to makes no difference to what an object lists. -/
theorem Lists.holding (h : w.Lists o values) (entities : List Entity) :
    ({ w with held := entities ++ w.held } : World σ).Lists o values where
  length := h.length
  element i v hv := by
    rw [lookup_holding]
    exact h.element i v hv

/-- Reading an element runs no code. -/
theorem Lists.getProperty_holding (h : w.Lists o values) {i : Nat} {v : Value}
    (hv : values[i]? = some v) (E : Engine σ) (gathered : List Entity) :
    (E.getProperty o (.ofIndex i)).holding gathered w = .ok v w := by
  have hfound : w.ReadsQuietly o (.ofIndex i) ∧ w.dataValue o (.ofIndex i) = v := by
    rw [ReadsQuietly, dataValue]
    rcases h.element i v hv with ⟨writable, enumerable, configurable, hown⟩ | ⟨hlookup, rfl⟩
    · rw [lookup_of_own hown]
      exact ⟨by rintro _ ⟨⟩; rfl, rfl⟩
    · rw [hlookup]
      exact ⟨fun p hp => (by cases hp), rfl⟩
  rw [hfound.1.getProperty_holding gathered E, hfound.2]

end World

namespace Engine

variable {σ : Type} {E : Engine σ} {w : World σ} {o f : ObjectId} {values : List Value}

/-- The elements from a position on are those that the object lists there. -/
theorem elementsFrom_eq (h : w.Lists o values) (E : Engine σ) {position left : Nat}
    (hlength : position + left = values.length) (read : List Value) (gathered : List Entity) :
    E.elementsFrom o position read gathered left w =
      .ok (read.reverse ++ values.drop position) w := by
  induction left generalizing position read gathered with
  | zero =>
      rw [List.drop_eq_nil_of_le (by omega), List.append_nil]
      rfl
  | succ left ih =>
      have hlt : position < values.length := by omega
      rw [elementsFrom, Action.bind_ok
        (h.getProperty_holding (List.getElem?_eq_getElem hlt) E gathered), ih (by omega),
        List.reverse_cons, List.append_assoc, List.singleton_append, List.getElem_cons_drop]

/-- **The list in an array-like object** that is read without running code. -/
theorem listFromArrayLike_eq (h : w.Lists o values) (hlength : values.length < 4294967296)
    (E : Engine σ) : E.listFromArrayLike (.object o) w = .ok values w := by
  obtain ⟨m, writable, enumerable, configurable, hown, hm⟩ := h.length
  have hread : E.getProperty o "length" w = .ok (.number m) w :=
    World.getProperty_of_data E (World.lookup_of_own hown)
  have hword : E.toWord (.number m) w = .ok m.toDouble.word w := rfl
  have hcount : m.toDouble.word.toNat = values.length := by
    rw [hm, Double.word_ofNat hlength]
  have helements : E.elementsFrom o 0 [] [] values.length w = .ok values w :=
    elementsFrom_eq h E (Nat.zero_add _) [] []
  unfold listFromArrayLike
  dsimp only
  rw [Action.bind_ok hread]
  refine Action.holding_nil ?_ rfl
  rw [Action.bind_ok hword, hcount]
  exact helements

/-! ## The methods -/

theorem requireCallable_ok (hcallable : w.isCallable (.object f) = true) (method : String) :
    requireCallable (.object f) method w = .ok () w := by
  rw [requireCallable, Action.bind_ok (Action.get_apply w), if_pos hcallable]
  rfl

/-- **Calling a function by `call`** is calling it with what comes after its `this`. -/
theorem functionCall_eq (hcallable : w.isCallable (.object f) = true) (E : Engine σ) (t : Value)
    (args : List Value) :
    E.functionCall (.object f) (t :: args) w = (E.call f t args).holding [.object f] w := by
  have hcallable' : ({ w with held := [.object f] ++ w.held } : World σ).isCallable (.object f) =
      true := hcallable
  rw [functionCall, Action.bind_ok (requireCallable_ok hcallable "call")]
  exact Action.holding_congr (callValue_eq hcallable' E t args)

/-- **Calling a function by `apply`** is calling it with what the array-like object lists. -/
theorem functionApply_eq (hcallable : w.isCallable (.object f) = true) (h : w.Lists o values)
    (hlength : values.length < 4294967296) (E : Engine σ) (t : Value) :
    E.functionApply (.object f) [t, .object o] w =
      (E.call f t values).holding ([.object f, t, .object o].flatMap Value.entities) w := by
  let kept := [.object f, t, .object o].flatMap Value.entities
  have hcallable' : ({ w with held := kept ++ w.held } : World σ).isCallable (.object f) = true :=
    hcallable
  have hlist := listFromArrayLike_eq (h.holding kept) hlength E
  rw [functionApply, Action.bind_ok (requireCallable_ok hcallable "apply")]
  exact Action.holding_congr ((Action.bind_ok hlist).trans (callValue_eq hcallable' E t values))

end Engine

namespace Program

variable {σ : Type} [Embedding σ] {w v : World σ} {f : ObjectId}

/-- A function is a built-in one with a behaviour. -/
def IsBuiltin (w : World σ) (method : ObjectId) (b : Builtin) : Prop :=
  ∃ n, w.function? method = some (.native n) ∧ n.call = .builtin b

/-- Calling a built-in function is running its behaviour. -/
theorem call_builtin (P : Program σ) (budget : Nat) {method : ObjectId} {b : Builtin}
    (h : IsBuiltin w method b) (this : Value) (args : List Value) :
    (P.engine (budget + 1)).call method this args w =
      (P.engine budget).callBuiltin b this args w := by
  obtain ⟨⟨name, arity, behaviour, build⟩, hmethod, hbehaviour⟩ := h
  cases hbehaviour
  rw [P.engine_call, Program.call, Action.bind_ok (Action.get_apply w), hmethod]

/-- **Calling a function that was bound without running code** is calling its target with the `this`
and the arguments that it was bound to, and then those that it is called with. -/
theorem functionBind_call (P : Program σ) (budget : Nat) (E : Engine σ)
    (hcallable : w.isCallable (.object f) = true)
    (hlength : ∀ p, w.own f "length" = some p → p.isAccessor = false)
    (hname : w.ReadsQuietly f "name") (t : Value) (ys : List Value) :
    ∃ b new, E.functionBind (.object f) (t :: ys) w = .ok (.object b) (w.addObject new).2 ∧
      ∀ v, (w.addObject new).2.FunctionsKeep v → ∀ this zs,
        (P.engine (budget + 1)).call b this zs v =
          ((P.engine budget).call f t (ys ++ zs)).holding this.entities v := by
  refine ⟨_, _, Engine.functionBind_ok hcallable (E.getOwn_of_data _ hlength)
    (hname.getProperty_holding _ E), fun v hkeeps this zs => ?_⟩
  refine BoundChain.call_bound P budget (b := ⟨f, t, ys⟩) (hkeeps _ _ ?_) this zs
  rw [World.function?, World.object_addObject, if_pos rfl]
  rfl

/-- **`call`, `apply` and `bind` agree.** For a function, a `this` and fewer than `2 ^ 32`
arguments, each of the three makes one call of the function with this `this` and these arguments,
and ends as this call does:

* `call` with the `this` and the arguments as its own, while the function is held on to;
* `apply` with the `this` and an object that lists the arguments, while these two and the function
  are held on to;
* and a function that `bind` has made of the `this` and some of the arguments, when it is called
  with the others, at any later time, while the `this` that it is called with is held on to. Here
  the length and the name of the function must not be accessors; then `bind` does nothing but add
  the new function. -/
theorem forwarding_spec (P : Program σ) (budget : Nat)
    {callMethod applyMethod bindMethod : ObjectId}
    (hcall : IsBuiltin w callMethod .functionCall) (happly : IsBuiltin w applyMethod .functionApply)
    (hbind : IsBuiltin w bindMethod .functionBind) (hcallable : w.isCallable (.object f) = true)
    (t : Value) {xs : List Value} (hxs : xs.length < 4294967296) :
    ((P.engine (budget + 1)).call callMethod (.object f) (t :: xs) w =
      ((P.engine budget).call f t xs).holding [.object f] w) ∧
    (∀ a, w.Lists a xs →
      (P.engine (budget + 1)).call applyMethod (.object f) [t, .object a] w =
        ((P.engine budget).call f t xs).holding
          ([.object f, t, .object a].flatMap Value.entities) w) ∧
    ∀ ys zs, xs = ys ++ zs → (∀ p, w.own f "length" = some p → p.isAccessor = false) →
      w.ReadsQuietly f "name" →
      ∃ b new, (P.engine (budget + 1)).call bindMethod (.object f) (t :: ys) w =
          .ok (.object b) (w.addObject new).2 ∧
        ∀ v, (w.addObject new).2.FunctionsKeep v → ∀ this,
          (P.engine (budget + 1)).call b this zs v =
            ((P.engine budget).call f t xs).holding this.entities v := by
  refine ⟨?_, fun a hlists => ?_, fun ys zs hsplit hlength hname => ?_⟩
  · rw [P.call_builtin budget hcall]
    exact Engine.functionCall_eq hcallable _ t xs
  · rw [P.call_builtin budget happly]
    exact Engine.functionApply_eq hcallable hlists hxs _ t
  · obtain ⟨b, new, hbound, hagain⟩ :=
      P.functionBind_call budget (P.engine budget) hcallable hlength hname t ys
    refine ⟨b, new, ?_, fun v hkeeps this => ?_⟩
    · rw [P.call_builtin budget hbind]
      exact hbound
    · rw [hsplit]
      exact hagain v hkeeps this zs

/-- A function that is passed three arguments in three ways. The list of them has nothing in the
second place, and the first two of them are bound. -/
theorem forwarding_of_hole :
    let w : World Unit :=
      { World.empty none (.below 0) () with
        objects := #[.ofNative none (.text "f") 0 (.code ⟨0⟩) none,
          .ofNative none (.text "call") 1 (.builtin .functionCall) none,
          .ofNative none (.text "apply") 2 (.builtin .functionApply) none,
          .ofNative none (.text "bind") 1 (.builtin .functionBind) none,
          ⟨none, true, ⟨[("length", .data (.number (.integer 3)) true true true),
            ("0", .data (.boolean true) true true true), ("2", .data .null true true true)]⟩,
            .plain⟩] }
    let xs : List Value := [.boolean true, .undefined, .null]
    ∀ P : Program Unit,
      (P.engine 2).call ⟨1⟩ (.object ⟨0⟩) (.null :: xs) w =
          ((P.engine 1).call ⟨0⟩ .null xs).holding [.object ⟨0⟩] w ∧
        (P.engine 2).call ⟨2⟩ (.object ⟨0⟩) [.null, .object ⟨4⟩] w =
          ((P.engine 1).call ⟨0⟩ .null xs).holding [.object ⟨0⟩, .object ⟨4⟩] w ∧
        ∃ b w', (P.engine 2).call ⟨3⟩ (.object ⟨0⟩) [.null, .boolean true, .undefined] w =
            .ok (.object b) w' ∧
          (P.engine 2).call b (.object ⟨4⟩) [.null] w' =
            ((P.engine 1).call ⟨0⟩ .null xs).holding [.object ⟨4⟩] w' := by
  intro w xs P
  have hcall : IsBuiltin w ⟨1⟩ .functionCall := ⟨_, rfl, rfl⟩
  have happly : IsBuiltin w ⟨2⟩ .functionApply := ⟨_, rfl, rfl⟩
  have hbind : IsBuiltin w ⟨3⟩ .functionBind := ⟨_, rfl, rfl⟩
  have hlists : w.Lists ⟨4⟩ xs := by
    refine ⟨⟨.integer 3, true, true, true, rfl, by decide +kernel⟩, fun i v hv => ?_⟩
    match i, hv with
    | 0, rfl => exact .inl ⟨true, true, true, by decide +kernel⟩
    | 1, rfl => exact .inr ⟨by decide +kernel, rfl⟩
    | 2, rfl => exact .inl ⟨true, true, true, by decide +kernel⟩
  have hlength : ∀ p, w.own ⟨0⟩ "length" = some p → p.isAccessor = false := by
    rintro _ ⟨⟩
    rfl
  have hname : w.ReadsQuietly ⟨0⟩ "name" := by
    rintro _ ⟨⟩
    rfl
  obtain ⟨hcalled, happlied, hbound⟩ := P.forwarding_spec 1 hcall happly hbind
    (show w.isCallable (.object ⟨0⟩) = true from rfl) .null
    (show xs.length < 4294967296 from by decide)
  obtain ⟨b, new, hnew, hagain⟩ := hbound [.boolean true, .undefined] [.null] rfl hlength hname
  exact ⟨hcalled, happlied ⟨4⟩ hlists, b, _, hnew, hagain _ (fun _ _ h => h) (.object ⟨4⟩)⟩

/-- On a heap of eight bytes, a function lets go of the only buffer and reserves its bytes. Called
by itself it succeeds. It fails when the buffer is the list of its arguments, which is empty, or the
`this` that is given to `apply`, and when it is bound and called with the buffer as a `this` that
nobody uses: each time the buffer is still held on to. -/
theorem forwarding_keeps_arguments :
    let w : World Unit :=
      { World.empty none (.below 9) () with
        objects := #[
          ⟨none, true, Table.empty.insert "x" (.data (.object ⟨4⟩) true true true), .plain⟩,
          .ofNative none (.text "f") 0 (.code ⟨0⟩) none,
          .ofNative none (.text "apply") 2 (.builtin .functionApply) none,
          .ofNative none (.text "bind") 1 (.builtin .functionBind) none,
          { Object.charged ⟨0⟩ 8 none with
            properties :=
              Table.empty.insert "length" (.data (.number (.integer 0)) true true true) },
          ⟨none, true, Table.empty.insert "length" (.data (.number (.integer 0)) true true true),
            .plain⟩]
        scopes := #[⟨.declarative .empty, none⟩]
        ledger := ⟨some 8, 8⟩ }
    let P : Program Unit := fun _ _ =>
      .ask (.delete ⟨0⟩ "x") fun _ => .ask (.reserve 8) fun
        | .ok _ => .done .null
        | .error e => .fail e
    let returned := fun result : EStateM.Result Failure (World Unit) Value =>
      match result with
      | .ok v _ => some v
      | .error .. => none
    let refused := fun result : EStateM.Result Failure (World Unit) Value =>
      match result with
      | .error (.thrown e) _ => some e
      | _ => none
    (w.isCallable (.object ⟨1⟩) = true ∧ IsBuiltin w ⟨2⟩ .functionApply ∧
      IsBuiltin w ⟨3⟩ .functionBind ∧ w.Lists ⟨4⟩ [] ∧ w.Lists ⟨5⟩ []) ∧
    (∀ t ∈ [.undefined, .object ⟨4⟩], returned ((P.engine 1).call ⟨1⟩ t [] w) = some .null) ∧
      refused ((P.engine 2).call ⟨2⟩ (.object ⟨1⟩) [.undefined, .object ⟨4⟩] w) =
        some (.allocationFailed 8) ∧
      refused ((P.engine 2).call ⟨2⟩ (.object ⟨1⟩) [.object ⟨4⟩, .object ⟨5⟩] w) =
        some (.allocationFailed 8) ∧
      (match (P.engine 2).call ⟨3⟩ (.object ⟨1⟩) [.undefined] w with
        | .ok (.object b) w' => refused ((P.engine 2).call b (.object ⟨4⟩) [] w')
        | _ => none) = some (.allocationFailed 8) := by
  intro w P returned refused
  have hlists (o : ObjectId) (h : w.own o "length" =
      some (.data (.number (.integer 0)) true true true)) : w.Lists o [] :=
    ⟨⟨.integer 0, true, true, true, h, by decide +kernel⟩, fun i v hv => by cases hv⟩
  refine ⟨⟨rfl, ⟨_, rfl, rfl⟩, ⟨_, rfl, rfl⟩, hlists ⟨4⟩ rfl, hlists ⟨5⟩ rfl⟩, ?_, ?_, ?_, ?_⟩
  · decide +kernel
  · decide +kernel
  · decide +kernel
  · decide +kernel

end Program

end EcmaCore
