import EcmaCore.Ledger

/-!
# Arithmetic of the ledger

The ledger counts in 64-bit words and cuts off below zero when bytes are given
back. As long as no more is given back than is held, and the limit is respected,
neither shows: charging, giving back and moving are plain addition and
subtraction. `Ledger.Exchange` says so for all three of them at once. A ledger without a
limit counts right as long as the sum fits into a word, and `Ledger.Counts` covers both.

## Main results

* `charge_exchange`, `release_exchange`, `move_exchange`: the operations as
  exchanges of bytes.
* `exists_charge_iff`: a charge succeeds exactly when the bytes are available.
* `release_of_charge`: a charge that is taken back leaves no trace.
* `toNat_charge`, `release_charge`, `toNat_move`, `release_move`: the same for ledgers that
  may have no limit.
-/

namespace EcmaCore

namespace Ledger

variable {N : UInt64} {l l' l'' : Ledger} {n held wanted : UInt64}

/-- The bytes of a reservation, none where there is no reservation. -/
def bytesOf (reservation : Option UInt64) : Nat := reservation.elim 0 UInt64.toNat

@[simp] theorem bytesOf_none : bytesOf none = 0 :=
  rfl

@[simp] theorem bytesOf_some (bytes : UInt64) : bytesOf (some bytes) = bytes.toNat :=
  rfl

/-- A ledger with a limit that it respects. -/
structure Within (N : UInt64) (l : Ledger) : Prop where
  limit_eq : l.limit = some N
  bounded : l.allocated ≤ N

/-- The second ledger is the first after so many bytes were given back and so many taken, and it
still respects the limit. -/
structure Exchange (N : UInt64) (l l' : Ledger) (given taken : Nat) : Prop where
  within : l'.Within N
  exact : l'.allocated.toNat + given = l.allocated.toNat + taken

theorem Within.exchange (h : l.Within N) (n : Nat) : Exchange N l l n n :=
  ⟨h, rfl⟩

theorem Exchange.trans {given between taken : Nat} (h : Exchange N l l' given between)
    (h' : Exchange N l' l'' between taken) : Exchange N l l'' given taken := by
  refine ⟨h'.within, ?_⟩
  have hfirst := h.exact
  have hsecond := h'.exact
  omega

/-- What the limit admits fits into a word, and the sum stays below the limit. -/
theorem charge_exchange (hl : l.Within N) (h : l.charge n = .ok l') :
    Exchange N l l' 0 n.toNat := by
  unfold charge at h
  split at h
  · next hadmits =>
    cases h
    simp only [admits, hl.limit_eq, decide_eq_true_eq] at hadmits
    have hlimit := N.toNat_lt
    have hsum : (l.allocated + n).toNat = l.allocated.toNat + n.toNat := by
      rw [UInt64.toNat_add, Nat.mod_eq_of_lt (by omega)]
    refine ⟨⟨hl.limit_eq, ?_⟩, hsum⟩
    rw [UInt64.le_iff_toNat_le, hsum]
    exact hadmits
  · cases h

theorem available_eq (hl : l.Within N) : l.available = some (N - l.allocated) := by
  rw [available, hl.limit_eq, Option.map_some, if_pos hl.bounded]

/-- A charge succeeds exactly when the bytes are available. -/
theorem exists_charge_iff (hl : l.Within N) (n : UInt64) :
    (∃ l', l.charge n = .ok l') ↔ ∃ free, l.available = some free ∧ n ≤ free := by
  have hle := UInt64.le_iff_toNat_le.1 hl.bounded
  have hsub := UInt64.toNat_sub_of_le _ _ hl.bounded
  simp only [available_eq hl, Option.some.injEq, exists_eq_left', UInt64.le_iff_toNat_le, hsub]
  unfold charge
  rw [admits, hl.limit_eq]
  dsimp only
  constructor
  · rintro ⟨l', h⟩
    split at h
    · next hadmits =>
      have := of_decide_eq_true hadmits
      omega
    · cases h
  · intro h
    rw [if_pos (decide_eq_true (by omega))]
    exact ⟨_, rfl⟩

/-- Giving back is subtraction that stops at zero. -/
theorem toNat_release (l : Ledger) (n : UInt64) :
    (l.release n).allocated.toNat = l.allocated.toNat - n.toNat := by
  by_cases h : n ≤ l.allocated
  · rw [release, if_pos h, UInt64.toNat_sub_of_le _ _ h]
  · have hlt := UInt64.lt_iff_toNat_lt.1 (UInt64.not_le.1 h)
    rw [release, if_neg h, UInt64.toNat_zero]
    omega

@[simp] theorem release_zero (l : Ledger) : l.release 0 = l := by
  rw [release, if_pos UInt64.zero_le, UInt64.sub_zero]

/-- Bytes are given back in any order. -/
theorem release_comm (l : Ledger) (m n : UInt64) :
    (l.release m).release n = (l.release n).release m := by
  have hallocated : ((l.release m).release n).allocated = ((l.release n).release m).allocated := by
    rw [← UInt64.toNat_inj]
    simp only [toNat_release]
    omega
  exact congrArg (Ledger.mk l.limit) hallocated

/-- Giving back no more than is held is subtraction. -/
theorem release_exchange (hl : l.Within N) (h : n ≤ l.allocated) :
    Exchange N l (l.release n) n.toNat 0 := by
  have hle := UInt64.le_iff_toNat_le.1 h
  have hsub := l.toNat_release n
  refine ⟨⟨hl.limit_eq, ?_⟩, ?_⟩
  · have hbounded := UInt64.le_iff_toNat_le.1 hl.bounded
    rw [UInt64.le_iff_toNat_le, hsub]
    omega
  · rw [hsub]
    omega

/-- Moving a reservation downward always succeeds. -/
theorem move_of_le (l : Ledger) (h : wanted ≤ held) :
    l.move held wanted = .ok (l.release (held - wanted)) := by
  rw [move, if_neg (UInt64.not_lt.2 h)]

/-- Moving a reservation that is held gives it back and takes the new one. -/
theorem move_exchange (hl : l.Within N) (hheld : held ≤ l.allocated)
    (h : l.move held wanted = .ok l') : Exchange N l l' held.toNat wanted.toNat := by
  have hallocated := UInt64.le_iff_toNat_le.1 hheld
  by_cases hlt : held < wanted
  · rw [move, if_pos hlt] at h
    have hexchange := charge_exchange hl h
    have hsub := UInt64.toNat_sub_of_le _ _ (UInt64.le_of_lt hlt)
    have hgrows := UInt64.lt_iff_toNat_lt.1 hlt
    have hexact := hexchange.exact
    exact ⟨hexchange.within, by omega⟩
  · have hle := UInt64.not_lt.1 hlt
    rw [move_of_le l hle] at h
    cases h
    have hsub := UInt64.toNat_sub_of_le _ _ hle
    have hshrinks := UInt64.le_iff_toNat_le.1 hle
    have hexchange := release_exchange hl (n := held - wanted)
      (UInt64.le_iff_toNat_le.2 (by omega))
    have hexact := hexchange.exact
    exact ⟨hexchange.within, by omega⟩

/-- A charge that is taken back leaves no trace. -/
theorem release_of_charge (hl : l.Within N) (h : l.charge n = .ok l') : l'.release n = l := by
  have hcharge := charge_exchange hl h
  have hexact := hcharge.exact
  have hle : n ≤ l'.allocated := UInt64.le_iff_toNat_le.2 (by omega)
  have hrelease := (release_exchange hcharge.within hle).exact
  have hallocated : (l'.release n).allocated = l.allocated :=
    UInt64.toNat_inj.1 (by omega)
  have hlimit : (l'.release n).limit = l.limit :=
    (release_exchange hcharge.within hle).within.limit_eq.trans hl.limit_eq.symm
  cases l
  cases hreleased : l'.release n
  rw [hreleased] at hallocated hlimit
  cases hallocated
  cases hlimit
  rfl

/-! ## Ledgers that may have no limit -/

/-- A ledger counts so many more bytes right: because it has a limit, which is a word, or because
the sum is one. -/
def Counts (l : Ledger) (n : UInt64) : Prop :=
  l.limit.isSome = true ∨ l.allocated.toNat + n.toNat < UInt64.size

/-- A ledger that was charged without being asked. -/
def charged (l : Ledger) (n : UInt64) : Ledger := { l with allocated := l.allocated + n }

theorem counts_of_limit (h : l.limit = some N) (n : UInt64) : l.Counts n := by
  refine .inl ?_
  rw [h]
  rfl

/-- Bytes that are admitted and counted right are added. -/
theorem toNat_charge (h : l.Counts n) (hadmits : l.admits n = true) :
    (l.charged n).allocated.toNat = l.allocated.toNat + n.toNat := by
  have hsum : l.allocated.toNat + n.toNat < 2 ^ 64 := by
    rcases h with hlimit | hsum
    · obtain ⟨N, hN⟩ := Option.isSome_iff_exists.1 hlimit
      simp only [admits, hN, decide_eq_true_eq] at hadmits
      exact Nat.lt_of_le_of_lt hadmits N.toNat_lt
    · exact hsum
  rw [charged, UInt64.toNat_add, Nat.mod_eq_of_lt hsum]

/-- A charge that is admitted, counted right and taken back leaves no trace. -/
theorem release_charge (h : l.Counts n) (hadmits : l.admits n = true) :
    (l.charged n).release n = l := by
  have hle : n ≤ (l.charged n).allocated := by
    rw [UInt64.le_iff_toNat_le, toNat_charge h hadmits]
    exact Nat.le_add_left _ _
  rw [release, if_pos hle, charged]
  dsimp only
  rw [UInt64.add_sub_cancel]

/-- A charge beyond what a word can count leaves nothing behind when it is taken back. -/
theorem release_charge_of_not_counts (h : ¬l.Counts n) :
    ((l.charged n).release n).allocated = 0 := by
  obtain ⟨-, hsum⟩ := not_or.1 h
  have hallocated := l.allocated.toNat_lt
  have hn := n.toNat_lt
  have hsize : UInt64.size = 2 ^ 64 := rfl
  have hlt : ¬n ≤ (l.charged n).allocated := by
    rw [UInt64.le_iff_toNat_le, charged, UInt64.toNat_add]
    omega
  rw [release]
  exact if_neg hlt

/-- A ledger counts the move of a reservation right: it counts growth right, and it counts all the
bytes that are given back. -/
structure CountsMove (l : Ledger) (held wanted : UInt64) : Prop where
  grows : held < wanted → l.Counts (wanted - held)
  shrinks : wanted ≤ held → held - wanted ≤ l.allocated

/-- A reservation that a ledger with a limit counts is moved right. -/
theorem Within.countsMove (hl : l.Within N) (hheld : held ≤ l.allocated) (wanted : UInt64) :
    l.CountsMove held wanted where
  grows _ := counts_of_limit hl.limit_eq _
  shrinks hle := by
    have hallocated := UInt64.le_iff_toNat_le.1 hheld
    rw [UInt64.le_iff_toNat_le, UInt64.toNat_sub_of_le _ _ hle]
    omega

theorem move_of_lt (hlt : held < wanted) :
    l.move held wanted =
      if l.admits (wanted - held) then .ok (l.charged (wanted - held))
      else .error (.allocationFailed (wanted - held)) := by
  rw [move, if_pos hlt]
  rfl

/-- A reservation can be moved if the ledger admits its growth. -/
theorem exists_move_iff :
    (∃ l', l.move held wanted = .ok l') ↔ (held < wanted → l.admits (wanted - held) = true) := by
  by_cases hlt : held < wanted
  · rw [move_of_lt hlt]
    by_cases hadmits : l.admits (wanted - held) = true
    · simp [hadmits]
    · simp [hadmits, hlt]
  · simp [move_of_le l (UInt64.not_lt.1 hlt), hlt]

/-- A move that is counted right adds what it takes and subtracts what it gives back. -/
theorem toNat_move (hcounts : l.CountsMove held wanted) (h : l.move held wanted = .ok l') :
    l'.allocated.toNat + held.toNat = l.allocated.toNat + wanted.toNat := by
  by_cases hlt : held < wanted
  · rw [move_of_lt hlt] at h
    split at h
    · next hadmits =>
      cases h
      have hsub := UInt64.toNat_sub_of_le _ _ (UInt64.le_of_lt hlt)
      have hgrows := UInt64.lt_iff_toNat_lt.1 hlt
      have hcharge := toNat_charge (hcounts.grows hlt) hadmits
      omega
    · cases h
  · have hle := UInt64.not_lt.1 hlt
    rw [move_of_le l hle] at h
    cases h
    have hback := hcounts.shrinks hle
    have hsub := UInt64.toNat_sub_of_le _ _ hle
    have hshrinks := UInt64.le_iff_toNat_le.1 hle
    have hallocated := UInt64.le_iff_toNat_le.1 hback
    rw [toNat_release]
    omega

/-- Growth that is counted right and taken back leaves no trace. -/
theorem release_move (hcounts : l.CountsMove held wanted) (hlt : held < wanted)
    (h : l.move held wanted = .ok l') : l'.release (wanted - held) = l := by
  rw [move_of_lt hlt] at h
  split at h
  · next hadmits =>
    cases h
    exact release_charge (hcounts.grows hlt) hadmits
  · cases h

end Ledger

end EcmaCore
