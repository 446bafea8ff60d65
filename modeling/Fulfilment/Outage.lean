/-!
# Outages

How long a part is out of order: until it is repaired, for a number of calls, or as a script says, call after call.

* `Outage.strikes`, `Outage.worn`: whether a call fails, and what is left of the outage after it.
* `Outage.strikes_repeat_worn`: with a script the calls may fail in any pattern.
-/

namespace Fulfilment

/-- What is out of order: every call, or some number of the next. -/
structure Outage where
  lasting : Bool
  next : Nat
  /-- Whether the calls after those fail, call after call; when that is used up they succeed. -/
  script : List Bool := []
  deriving DecidableEq, Repr

namespace Outage

def none : Outage := ⟨false, 0, []⟩

/-- Whether a call fails now. -/
def strikes (o : Outage) : Bool := o.lasting || o.next != 0 || o.script.headD false

/-- The outage after one more call. -/
def worn (o : Outage) : Outage :=
  if o.next = 0 then { o with script := o.script.tail } else { o with next := o.next - 1 }

/-- By a script alone, call number `n` fails just when the script says so. -/
theorem strikes_repeat_worn (script : List Bool) (n : Nat) :
    (Nat.repeat worn n ⟨false, 0, script⟩).strikes = script.getD n false := by
  have h : ∀ n, Nat.repeat worn n ⟨false, 0, script⟩ = ⟨false, 0, script.drop n⟩ := by
    intro n
    induction n with
    | zero => rfl
    | succ n ih => simp [Nat.repeat, ih, worn]
  rw [h n]
  simp [strikes, List.headD_eq_head?_getD, List.getD_eq_getElem?_getD]

end Outage

end Fulfilment
