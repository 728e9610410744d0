import EcmaCore.Program
import EcmaCore.Proofs.Integer
import EcmaCore.Proofs.World.Lookup
import EcmaCore.Proofs.World.Prototypes

/-!
# Binding functions

A bound function is made in two parts. First the target is asked for its length and its name, which
may run any code. Then the new object is put together without any: it has the prototype of the
target and four properties, and nothing can be in the way of any of them.

How long a bound function is follows from what the target's own length reads as, and from how many
arguments are bound. `BoundLengthRule` lists the cases. Taking arguments away in two steps is taking
them away in one, since what is left in between is an integer that a Number holds exactly.

## Main results

* `BoundLengthRule.ofDouble_eq`: the length of a bound function follows the rule.
* `BoundLengthRule.again`: the rule applied twice.
* `Engine.functionBind_ok`, `Engine.functionBind_eq_ok`: what binding makes, and from what.
* `World.PlainLength.own_bound_again`: functions that are bound in two steps.
* `Program.boundLength_spec`: lengths of bound functions, and of functions that are bound again.
-/

namespace EcmaCore

/-! ## The rule for lengths -/

/-- The length of a function that is bound to `n` arguments, from what the own length of its target
reads as, if it has one: an infinite length stays, a finite integer part that is a safe integer
loses `n` but not more than there is, and everything else is nothing. -/
inductive BoundLengthRule (n : Nat) : Option Value → Number → Prop
  | infinite {m : Number} (h : m.toDouble = .infinity false) :
      BoundLengthRule n (some (.number m)) .positiveInfinity
  | finite {m : Number} {i : Int} (h : m.toDouble.toInt? = some i)
      (hi : i.natAbs < Number.integerBound) :
      BoundLengthRule n (some (.number m)) (.integer (max (i - n) 0))
  | absent : BoundLengthRule n none (.integer 0)
  | negativeInfinite {m : Number} (h : m.toDouble = .infinity true) :
      BoundLengthRule n (some (.number m)) (.integer 0)
  | nan {m : Number} (h : m.toDouble = .nan) : BoundLengthRule n (some (.number m)) (.integer 0)
  | notNumber {v : Value} (h : ∀ m, v ≠ .number m) : BoundLengthRule n (some v) (.integer 0)

namespace BoundLengthRule

variable {n : Nat} {read : Option Value} {length : Number}

/-- **The length of a bound function follows the rule.** -/
theorem ofDouble_eq (h : BoundLengthRule n read length) :
    Number.ofDouble (Engine.boundLength read n) = length := by
  have hzero : Number.ofDouble .zero = .integer 0 := by decide +kernel
  cases h with
  | infinite h =>
      rw [Engine.boundLength, h]
      rfl
  | @finite m i h hi =>
      have hleft : ((i - n).toNat : Int) = max (i - n) 0 := by omega
      have hlength : Engine.boundLength (some (.number m)) n = .ofNat (i - n).toNat := by
        rw [Engine.boundLength]
        split
        · next hinfinite =>
          rw [hinfinite] at h
          cases h
        · next hinfinite =>
          rw [hinfinite] at h
          cases h
        · exact Double.max_sub_ofNat h hi n
      rw [hlength, Number.ofDouble_ofNat (by omega), hleft]
  | absent => exact hzero
  | negativeInfinite h =>
      rw [Engine.boundLength, h]
      exact hzero
  | nan h =>
      -- not-a-number has the integer part of zero
      have hleft := Double.max_sub_ofNat (x := .zero) (i := 0) (by decide +kernel) (by decide) n
      rw [Engine.boundLength, h]
      show Number.ofDouble ((Double.zero.integerPart.sub (.ofNat n)).max .zero) = _
      rw [hleft, show (0 - (n : Int)).toNat = 0 by omega, Number.ofDouble_ofNat (by decide)]
      rfl
  | @notNumber v h =>
      cases v with
      | number m => exact absurd rfl (h m)
      | _ => exact hzero

/-- What the rule covers does not depend on the number of arguments. -/
theorem exists_length (h : BoundLengthRule n read length) (m : Nat) :
    ∃ length', BoundLengthRule m read length' := by
  cases h with
  | infinite h => exact ⟨_, .infinite h⟩
  | finite h hi => exact ⟨_, .finite h hi⟩
  | absent => exact ⟨_, .absent⟩
  | negativeInfinite h => exact ⟨_, .negativeInfinite h⟩
  | nan h => exact ⟨_, .nan h⟩
  | notNumber h => exact ⟨_, .notNumber h⟩

theorem toInt?_integer {k : Nat} (h : k < Number.integerBound) :
    (Number.integer k).toDouble.toInt? = some (k : Int) := by
  rw [← Number.ofDouble_ofNat h, Number.toDouble_ofDouble,
    Double.toInt?_ofNat (Nat.le_of_lt h)]

/-- **The rule applied twice** is the rule applied once, to all arguments together. -/
theorem again (h : BoundLengthRule n read length) (m : Nat) :
    ∃ length', BoundLengthRule m (some (.number length)) length' ∧
      BoundLengthRule (n + m) read length' := by
  have hnone : BoundLengthRule m (some (.number (.integer 0))) (.integer 0) := by
    have hzero := BoundLengthRule.finite (n := m) (toInt?_integer (by decide : 0 < _)) (by decide)
    rwa [show max (((0 : Nat) : Int) - m) 0 = 0 by omega] at hzero
  cases h with
  | infinite h => exact ⟨_, .infinite rfl, .infinite h⟩
  | @finite l i h hi =>
      refine ⟨.integer (max (i - (n + m : Nat)) 0), ?_, .finite h hi⟩
      obtain ⟨k, hk⟩ := Int.eq_ofNat_of_zero_le (Int.le_max_right (i - n) 0)
      have hbound : k < Number.integerBound := by omega
      have hagain := BoundLengthRule.finite (n := m) (toInt?_integer hbound) (by omega)
      rw [hk]
      rwa [show max ((k : Int) - m) 0 = max (i - (n + m : Nat)) 0 by omega] at hagain
  | absent => exact ⟨_, hnone, .absent⟩
  | negativeInfinite h => exact ⟨_, hnone, .negativeInfinite h⟩
  | nan h => exact ⟨_, hnone, .nan h⟩
  | notNumber h => exact ⟨_, hnone, .notNumber h⟩

end BoundLengthRule

/-- The length of a bound function is never negative. -/
theorem Engine.isNegative_boundLength (read : Option Value) (n : Nat) :
    (boundLength read n).isNegative = false := by
  unfold boundLength
  split
  · split
    · rfl
    · rfl
    · exact Double.isNegative_max_zero _
  · rfl

/-! ## The object that is made -/

/-- A bound function as an object, with its properties. -/
def Object.ofBound (prototype : Option ObjectId) (b : BoundFunction) (length : Number)
    (name : String) (thrower : ObjectId) : Object where
  prototype := prototype
  extensible := true
  nature := .function (.bound b)
  properties :=
    let poison := Property.accessor (some thrower) (some thrower) false false
    ⟨[("length", .data (.number length) false false true),
      ("name", .data (.string ("bound " ++ name)) false false true),
      ("caller", poison), ("callee", poison)]⟩

theorem Object.ofBound_eq (prototype : Option ObjectId) (b : BoundFunction) (length : Number)
    (name : String) (thrower : ObjectId) :
    ((((Object.new prototype (.function (.bound b))).setFunctionLength length).setFunctionName
      (.text name) "bound").defineQuietly "caller" (Engine.poisoned thrower)).defineQuietly "callee"
        (Engine.poisoned thrower) = .ofBound prototype b length name thrower := by
  rfl

/-! ## What is asked, and what is made of it -/

namespace Engine

variable {σ : Type} {E : Engine σ} {w u : World σ} {target : ObjectId} {args : List Value}

/-- What the arguments of `bind` bind: a `this` and the first arguments. -/
def boundTo (target : ObjectId) (args : List Value) : BoundFunction :=
  ⟨target, args.getD 0 .undefined, args.drop 1⟩

/-- What is held on to while the target is asked for its length and name. -/
def binding (w : World σ) (target : ObjectId) (args : List Value) : List Entity :=
  .object target ::
    (Object.new (w.object target).prototype (.function (.bound (boundTo target args)))).entities

/-- The text of a value, if it is one. -/
def textOf : Value → String
  | .string s => s
  | _ => ""

/-- The object that binding adds to a world `u` for a target of `w`, from what it was told. -/
def newBound (w : World σ) (target : ObjectId) (args : List Value) (length : Option Value)
    (name : Value) (u : World σ) : Object :=
  .ofBound (w.object target).prototype (boundTo target args)
    (.ofDouble (boundLength length (args.length - 1))) (textOf name) u.realm.throwTypeError

/-- Binding a function asks it for its length and its name, and then makes the new object. -/
theorem functionBind_eq (E : Engine σ) (args : List Value)
    (hcallable : w.isCallable (.object target) = true) :
    E.functionBind (.object target) args w =
      (do
        let length ← E.getOwn target "length" (binding w target args)
        let name ← (E.getProperty target "name").holding (binding w target args)
        let u ← get
        let b ← Action.change (·.addObject (newBound w target args length name u))
        return .object b : Action σ Value) w := by
  have hbound : boundFunction target (args.getD 0 .undefined) (args.drop 1) w =
      .ok (.new (w.object target).prototype (.function (.bound (boundTo target args)))) w := by
    rw [boundFunction, Action.bind_ok (Action.get_apply w), if_pos hcallable]
    rfl
  unfold functionBind
  dsimp only
  rw [Action.bind_ok hbound]
  refine congrFun (Action.bind_congr_next fun length => Action.bind_congr_next fun name =>
    Action.bind_congr_next fun u => ?_) w
  rw [Object.ofBound_eq]
  cases name <;> rfl

/-- A function that can be called, and tells its length and its name, is bound. -/
theorem functionBind_ok {length : Option Value} {name : Value} {u₁ : World σ}
    (hcallable : w.isCallable (.object target) = true)
    (hlength : E.getOwn target "length" (binding w target args) w = .ok length u₁)
    (hname : (E.getProperty target "name").holding (binding w target args) u₁ = .ok name u) :
    E.functionBind (.object target) args w =
      .ok (.object ⟨u.objects.size⟩) (u.addObject (newBound w target args length name u)).2 := by
  rw [E.functionBind_eq args hcallable, Action.bind_ok hlength, Action.bind_ok hname]
  rfl

/-- A function that is bound can be called and has told its length and its name. -/
theorem functionBind_eq_ok {this v : Value} {w' : World σ}
    (h : E.functionBind this args w = .ok v w') :
    ∃ target length u₁ name u, this = .object target ∧ w.isCallable (.object target) = true ∧
      E.getOwn target "length" (binding w target args) w = .ok length u₁ ∧
      (E.getProperty target "name").holding (binding w target args) u₁ = .ok name u ∧
      v = .object ⟨u.objects.size⟩ ∧
      w' = (u.addObject (newBound w target args length name u)).2 := by
  cases this with
  | object target =>
      by_cases hcallable : w.isCallable (.object target) = true
      · rw [E.functionBind_eq args hcallable] at h
        obtain ⟨length, u₁, hlength, h⟩ := Action.bind_eq_ok.1 h
        obtain ⟨name, u, hname, h⟩ := Action.bind_eq_ok.1 h
        cases h
        exact ⟨target, length, u₁, name, u, rfl, hcallable, hlength, hname, rfl, rfl⟩
      · have hbound : boundFunction target (args.getD 0 .undefined) (args.drop 1) w =
            .error (.thrown .bindTarget) w := by
          rw [boundFunction, Action.bind_ok (Action.get_apply w), if_neg hcallable]
          rfl
        unfold functionBind at h
        dsimp only at h
        rw [Action.bind_error hbound] at h
        cases h
  | _ => cases h

/-! ## Asking the target -/

/-- Reading a property of an object if it is one of its own: there is none, or it is read while what
was gathered is held on to. -/
inductive OwnRead (E : Engine σ) (o : ObjectId) (key : PropertyKey) (gathered : List Entity)
    (w : World σ) : Option Value → World σ → Prop
  | missing (h : w.own o key = none) : OwnRead E o key gathered w none w
  | read {v : Value} {u : World σ} (h : w.own o key ≠ none)
      (hread : (E.getProperty o key).holding gathered w = .ok v u) :
      OwnRead E o key gathered w (some v) u

theorem ownRead_of_getOwn {o : ObjectId} {key : PropertyKey} {gathered : List Entity}
    {read : Option Value} (h : E.getOwn o key gathered w = .ok read u) :
    OwnRead E o key gathered w read u := by
  rw [getOwn, Action.bind_ok (Action.get_apply w), World.hasOwn] at h
  cases hown : w.own o key with
  | none =>
      rw [hown] at h
      cases h
      exact .missing hown
  | some p =>
      rw [hown] at h
      obtain ⟨v, u', hread, hdone⟩ := Action.bind_eq_ok.1 h
      cases hdone
      exact .read (by rw [hown]; exact Option.some_ne_none p) hread

/-- An own property that is no accessor is read without running code. -/
theorem getOwn_of_data {o : ObjectId} {key : PropertyKey} (E : Engine σ) (gathered : List Entity)
    (h : ∀ p, w.own o key = some p → p.isAccessor = false) :
    E.getOwn o key gathered w = .ok ((w.own o key).map Property.value) w := by
  rw [getOwn, Action.bind_ok (Action.get_apply w), World.hasOwn]
  cases hown : w.own o key with
  | none => rfl
  | some p =>
      have hlookup := World.lookup_of_own hown
      have hquiet : w.ReadsQuietly o key := by
        rw [World.ReadsQuietly, hlookup]
        rintro _ ⟨⟩
        exact h p hown
      show ((E.getProperty o key).holding gathered >>= fun v => pure (some v)) w = _
      rw [Action.bind_ok (hquiet.getProperty_holding gathered E),
        World.dataValue_of_lookup hlookup]
      rfl

/-- What binding adds is the bound function. -/
theorem object_of_functionBind {v : Value} {w' : World σ}
    (h : E.functionBind (.object target) args w = .ok v w') :
    ∃ b length u₁ name u, v = .object b ∧ w.isCallable (.object target) = true ∧
      E.getOwn target "length" (binding w target args) w = .ok length u₁ ∧
      w'.object b = newBound w target args length name u := by
  obtain ⟨f, length, u₁, name, u, htarget, hcallable, hlength, -, rfl, rfl⟩ := functionBind_eq_ok h
  cases htarget
  exact ⟨_, length, u₁, name, u, rfl, hcallable, hlength, u.object_addObject_self _⟩

/-- Where a target was, its prototype is still that of the bound function in the end. -/
theorem prototype_of_functionBind [Embedding σ] {v : Value} {w' : World σ}
    (hE : E.Guarantees World.PrototypesStay)
    (h : E.functionBind (.object target) args w = .ok v w') :
    (w'.object target).prototype = (w.object target).prototype := by
  obtain ⟨-, -, -, -, -, -, hcallable, -⟩ := object_of_functionBind h
  have hlt : target.index < w.objects.size := by
    refine Nat.lt_of_not_le fun hle => ?_
    rw [World.isCallable, w.object_of_size_le hle] at hcallable
    cases hcallable
  have hguarantee := World.prototypesStay_guarantee (σ := σ) .all
  exact ((hguarantee.functionBind hE (.object target) args).of_ok h target hlt).2

end Engine

/-! ## Lengths of bound functions -/

/-- The keys of the properties that a bound function has. -/
def boundKeys : List PropertyKey := ["length", "name", "caller", "callee"]

namespace World

variable {σ : Type}

/-- The own length of a function, if it has one, is a data property that the rule covers. -/
def PlainLength (w : World σ) (f : ObjectId) : Prop :=
  ∀ p, w.own f "length" = some p →
    p.isAccessor = false ∧ ∃ n length, BoundLengthRule n (some p.value) length

variable {w u w' : World σ} {f b : ObjectId} {E : Engine σ} {args : List Value}

/-- Some case of the rule covers a plain length. -/
theorem PlainLength.exists_length (h : w.PlainLength f) (n : Nat) :
    ∃ length, BoundLengthRule n ((w.own f "length").map Property.value) length := by
  cases hown : w.own f "length" with
  | none => exact ⟨_, .absent⟩
  | some p =>
      obtain ⟨-, _, _, hrule⟩ := h p hown
      exact hrule.exists_length n

/-- Binding a function with a plain length gives one with the length of the rule. -/
theorem PlainLength.own_bound (h : w.PlainLength f)
    (hbind : E.functionBind (.object f) args w = .ok (.object b) w') {length : Number}
    (hrule : BoundLengthRule (args.length - 1) ((w.own f "length").map Property.value) length) :
    w'.own b "length" = some (.data (.number length) false false true) := by
  obtain ⟨b', read, u₁, name, u, hb, -, hread, hobject⟩ := Engine.object_of_functionBind hbind
  cases hb
  rw [E.getOwn_of_data _ fun p hp => (h p hp).1] at hread
  cases hread
  rw [World.own, hobject, ← hrule.ofDouble_eq]
  rfl

/-- A function that is bound can be bound again, without running code. -/
theorem exists_bound_again (hbind : E.functionBind (.object f) args w = .ok (.object b) w')
    (hsame : u.object b = w'.object b) (args' : List Value) :
    ∃ b' u', E.functionBind (.object b) args' u = .ok (.object b') u' := by
  obtain ⟨b', read, u₁, name, u₂, hb, -, -, hobject⟩ := Engine.object_of_functionBind hbind
  cases hb
  rw [hobject] at hsame
  have hcallable : u.isCallable (.object b) = true := by
    rw [isCallable, hsame]
    rfl
  have hlength : ∀ p, u.own b "length" = some p → p.isAccessor = false := by
    rw [World.own, hsame]
    rintro _ ⟨⟩
    rfl
  have hname : u.ReadsQuietly b "name" := by
    have hown : u.own b "name" =
        some (.data (.string ("bound " ++ Engine.textOf name)) false false true) := by
      rw [World.own, hsame]
      rfl
    rw [ReadsQuietly, lookup_of_own hown]
    rintro _ ⟨⟩
    rfl
  exact ⟨_, _, Engine.functionBind_ok hcallable (E.getOwn_of_data _ hlength)
    (hname.getProperty_holding _ E)⟩

/-- **A function that is bound in two steps** has the length that it has when all the arguments are
bound at once, whatever happens in between to anything but the lengths of the two functions. -/
theorem PlainLength.own_bound_again {w₁ w₂ v : World σ} {b₁ b₂ : ObjectId} {t t' t'' : Value}
    {ys zs : List Value} (h : w.PlainLength f)
    (hbind : E.functionBind (.object f) (t :: ys) w = .ok (.object b₁) w₁)
    (hkept : u.own b₁ "length" = w₁.own b₁ "length")
    (hagain : E.functionBind (.object b₁) (t' :: zs) u = .ok (.object b₂) w₂)
    (hlength : v.own f "length" = w.own f "length")
    (honce : E.functionBind (.object f) (t'' :: (ys ++ zs)) v = .ok (.object b) w') :
    w₂.own b₂ "length" = w'.own b "length" := by
  obtain ⟨length₁, hrule₁⟩ := h.exists_length ys.length
  obtain ⟨length, hrule₂, hrule⟩ := hrule₁.again zs.length
  have hown₁ : u.own b₁ "length" = some (.data (.number length₁) false false true) :=
    hkept.trans (h.own_bound hbind hrule₁)
  have hplain₁ : u.PlainLength b₁ := by
    rw [PlainLength, hown₁]
    rintro _ ⟨⟩
    exact ⟨rfl, _, _, hrule₂⟩
  have hplain : v.PlainLength f := by
    rw [PlainLength, hlength]
    exact h
  have hown₂ : w₂.own b₂ "length" = some (.data (.number length) false false true) := by
    refine hplain₁.own_bound hagain ?_
    rw [hown₁]
    exact hrule₂
  have hown : w'.own b "length" = some (.data (.number length) false false true) := by
    refine hplain.own_bound honce ?_
    rw [hlength, List.length_cons, List.length_append]
    exact hrule
  rw [hown₂, hown]

end World

/-- **How long bound functions are.** A function that is bound has exactly the four properties of
bound functions, and the prototype of its target. Its length follows the rule, from what the
target's own length reads as and the number of arguments that are bound, and is never negative.

If the target has a plain length, what comes of it can always be bound again, and then has the
length that it would have with all the arguments bound at once. -/
theorem Program.boundLength_spec {σ : Type} [Embedding σ] (P : Program σ) (budget : Nat) :
    (∀ (w w' : World σ) (this : Value) (args : List Value) (v : Value),
      (P.engine budget).functionBind this args w = .ok v w' →
        ∃ target b read u length, this = .object target ∧ v = .object b ∧
          (P.engine budget).OwnRead target "length" (Engine.binding w target args) w read u ∧
          w'.own b "length" = some (.data (.number length) false false true) ∧
          (∀ length', BoundLengthRule (args.length - 1) read length' → length = length') ∧
          length.toDouble.isNegative = false ∧
          (∀ key, w'.hasOwn b key = true ↔ key ∈ boundKeys) ∧
          (w'.object b).prototype = (w'.object target).prototype) ∧
    ∀ (w w₁ : World σ) (f b₁ : ObjectId) (t t' t'' : Value) (ys zs : List Value),
      w.PlainLength f →
      (P.engine budget).functionBind (.object f) (t :: ys) w = .ok (.object b₁) w₁ →
        ∀ u, u.object b₁ = w₁.object b₁ →
          ∃ b₂ w₂, (P.engine budget).functionBind (.object b₁) (t' :: zs) u = .ok (.object b₂) w₂ ∧
            ∀ (v w' : World σ) b, v.own f "length" = w.own f "length" →
              (P.engine budget).functionBind (.object f) (t'' :: (ys ++ zs)) v =
                .ok (.object b) w' →
              w₂.own b₂ "length" = w'.own b "length" := by
  constructor
  · intro w w' this args v hbind
    obtain ⟨target, -, -, -, -, rfl, -⟩ := Engine.functionBind_eq_ok hbind
    obtain ⟨b, read, u, name, u', rfl, -, hread, hobject⟩ := Engine.object_of_functionBind hbind
    have hprototype := Engine.prototype_of_functionBind (P.engine_prototypesStay budget) hbind
    refine ⟨target, b, read, u, .ofDouble (Engine.boundLength read (args.length - 1)), rfl, rfl,
      Engine.ownRead_of_getOwn hread, ?_, ?_, ?_, ?_, ?_⟩
    · rw [World.own, hobject]
      rfl
    · exact fun length' hrule => hrule.ofDouble_eq
    · rw [Number.toDouble_ofDouble]
      exact Engine.isNegative_boundLength _ _
    · intro key
      rw [World.hasOwn, World.own, hobject, Object.own, ← Table.mem_keys_iff]
      rfl
    · rw [hobject, hprototype]
      rfl
  · intro w w₁ f b₁ t t' t'' ys zs hplain hbind u hsame
    obtain ⟨b₂, w₂, hagain⟩ := World.exists_bound_again hbind hsame (t' :: zs)
    have hkept : u.own b₁ "length" = w₁.own b₁ "length" := by rw [World.own, World.own, hsame]
    exact ⟨b₂, w₂, hagain, fun v w' b hlength => hplain.own_bound_again hbind hkept hagain hlength⟩

/-- A function of length three that is bound to two arguments, one after the other or at once: it
has length one. -/
theorem Program.boundLength_of_three :
    let w : World Unit :=
      { World.empty none (.below 0) () with
        objects := #[.ofNative none (.text "f") 3 (.code ⟨0⟩) none] }
    let E := Program.engine (fun _ _ => .done .null : Program Unit) 0
    ∃ w₁ b₂ w₂ w', E.functionBind (.object ⟨0⟩) [.null, .null] w = .ok (.object ⟨1⟩) w₁ ∧
      E.functionBind (.object ⟨1⟩) [.null, .null] w₁ = .ok (.object b₂) w₂ ∧
      E.functionBind (.object ⟨0⟩) [.null, .null, .null] w = .ok (.object ⟨1⟩) w' ∧
      w₂.own b₂ "length" = some (.data (.number (.integer 1)) false false true) ∧
      w'.own ⟨1⟩ "length" = some (.data (.number (.integer 1)) false false true) := by
  intro w E
  obtain ⟨hbound, hagain⟩ := Program.boundLength_spec (fun _ _ => .done .null : Program Unit) 0
  have hthree (n : Nat) :
      BoundLengthRule n (some (.number (.integer 3))) (.integer (max (3 - n) 0)) :=
    .finite (by decide +kernel) (by decide)
  have hplain : w.PlainLength ⟨0⟩ := by
    rintro _ ⟨⟩
    exact ⟨rfl, 0, _, hthree 0⟩
  have hrun : E.functionBind (.object ⟨0⟩) [.null, .null] w = .ok (.object ⟨1⟩) _ := rfl
  have honce : E.functionBind (.object ⟨0⟩) [.null, .null, .null] w = .ok (.object ⟨1⟩) _ := rfl
  obtain ⟨b₂, w₂, htwice, hsame⟩ :=
    hagain w _ ⟨0⟩ ⟨1⟩ .null .null .null [.null] [.null] hplain hrun _ rfl
  obtain ⟨_, _, read, _, length, htarget, hb, hread, hown, hrule, -⟩ := hbound _ _ _ _ _ honce
  cases htarget
  cases hb
  have hlength : length = .integer 1 := by
    cases hread with
    | missing h => cases h
    | read _ hread =>
        cases hread
        exact hrule _ (hthree 2)
  subst hlength
  exact ⟨_, b₂, w₂, _, hrun, htwice, honce, (hsame w _ ⟨1⟩ rfl honce).trans hown, hown⟩

end EcmaCore
