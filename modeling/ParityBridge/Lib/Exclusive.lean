import Mathlib.Data.Nat.Notation

/-! # One token among a client's flags — free, one call in flight, or offline

    A loop that talks to a client keeps a flag that says the client is
    free, a future for each kind of call it makes, and a timer that brings
    the client back after a failed call.  `Exclusive free calls offline`
    says that exactly one of them is set: the client is free with nothing
    in flight, or exactly one call is in flight, or it waits on its timer.
    Then the loop never starts a call over one in flight, which would drop
    it.

    The route:

    * a call that ends frees the client or starts its timer
      (`Exclusive.finish`);
    * the timer that ends frees the client (`Exclusive.wake`);
    * a free client given a call is no longer free (`Exclusive.call`). -/

namespace ClientToken

/-- Exactly one of: the client is free, one of its calls is in flight, its
    offline timer runs. -/
def Exclusive (free : Bool) (calls : List Bool) (offline : Bool) : Prop :=
  free.toNat + calls.count true + offline.toNat = 1

/-- A client with a call in flight is neither free nor waiting, and has no
    other call in flight. -/
theorem Exclusive.of_call {free offline : Bool} {calls : List Bool} (h : Exclusive free calls offline)
    {i : ℕ} (hi : i < calls.length) (hcall : calls[i] = true) :
    free = false ∧ offline = false ∧ calls.count true = 1 := by
  have hpos : 0 < calls.count true := List.count_pos_iff.mpr (hcall ▸ List.getElem_mem hi)
  unfold Exclusive at h
  -- the call holds the one token: the flag and the timer have none
  have hfree : free.toNat = 0 := by omega
  have hoffline : offline.toNat = 0 := by omega
  exact ⟨Bool.toNat_eq_zero.mp hfree, Bool.toNat_eq_zero.mp hoffline, by omega⟩

/-- **A CALL ENDS**: the client is free again if the call succeeded, and
    else waits on its timer. -/
theorem Exclusive.finish {free offline : Bool} {calls : List Bool} (h : Exclusive free calls offline)
    {i : ℕ} (hi : i < calls.length) (hcall : calls[i] = true) (online : Bool) :
    Exclusive online (calls.set i false) (offline || !online) := by
  obtain ⟨-, rfl, hone⟩ := h.of_call hi hcall
  -- the ended call was the only one in flight
  have hcount : (calls.set i false).count true = 0 := by
    rw [List.count_set hi, hcall, hone]
    rfl
  unfold Exclusive
  rw [hcount]
  cases online <;> rfl

/-- **THE TIMER ENDS**: a client waiting on its timer is free again. -/
theorem Exclusive.wake {free : Bool} {calls : List Bool} (h : Exclusive free calls true) :
    Exclusive true calls false := by
  unfold Exclusive at h ⊢
  -- the timer holds the token: no call is in flight
  have hnone : calls.count true = 0 := by
    simp only [Bool.toNat_true] at h
    omega
  rw [hnone]
  rfl

/-- **A CALL STARTS**: a free client given a call has that call, and only
    it, in flight. -/
theorem Exclusive.call {offline : Bool} {calls : List Bool} (h : Exclusive true calls offline)
    {j : ℕ} (hj : j < calls.length) : Exclusive false (calls.set j true) offline := by
  unfold Exclusive at h ⊢
  -- a free client has no call in flight, so the new call is the only one
  simp only [Bool.toNat_true] at h
  have hnone : calls.count true = 0 := by omega
  have hoffline : offline.toNat = 0 := by omega
  have hcount : (calls.set j true).count true = 1 := by
    rw [List.count_set hj, hnone]
    cases calls[j] <;> rfl
  rw [hcount, hoffline]
  rfl

end ClientToken
