import Microcode.Machine.Step
/-!
# Running a Microprogram

Executing words from the control store, up to a number of them.

The run is bounded by the cycle counter itself: it goes on while fewer than the permitted number
of cycles have been counted since its start. The counter has sixty-four bits and wraps, and so
does the difference to the start, which is what makes a run that passes the wrap as long as any
other.

## Main definitions

* `Machine.runLimited`: Executing at most a number of words.
-/

namespace Microcode

namespace Machine

/-- One more cycle brings a count that is below its limit closer to it. -/
theorem remaining_lt {limit start cycles : UInt64} (h : cycles - start < limit) :
    (limit - (cycles + 1 - start)).toNat < (limit - (cycles - start)).toNat := by
  have hd : cycles + 1 - start = (cycles - start) + 1 := by
    rw [UInt64.sub_eq_add_neg, UInt64.sub_eq_add_neg, UInt64.add_assoc, UInt64.add_comm 1,
      ← UInt64.add_assoc]
  rw [hd]
  generalize cycles - start = d at h ⊢
  have hlt := UInt64.lt_iff_toNat_lt.mp h
  have hlimit := limit.toNat_lt
  have hsucc : (d + 1).toNat = d.toNat + 1 := by
    rw [UInt64.toNat_add, show (1 : UInt64).toNat = 1 from rfl]
    exact Nat.mod_eq_of_lt (by omega)
  rw [UInt64.toNat_sub_of_le _ _ (UInt64.le_iff_toNat_le.mpr (by omega)),
    UInt64.toNat_sub_of_le _ _ (UInt64.le_iff_toNat_le.mpr (by omega)), hsucc]
  omega

/-- The rest of a run that began with the counter at `start` and has recorded `log`. -/
def runFrom (m : Machine) (limit start : UInt64) (log : Array Trace.Entry) : Outcome UInt64 :=
  if h : m.cycles - start < limit then
    match hc : m.cycle with
    | ⟨m', .error e, more⟩ => ⟨m', .error e, (log ++ more).toList⟩
    | ⟨m', .ok _, more⟩ =>
      have : (limit - (m'.cycles - start)).toNat < (limit - (m.cycles - start)).toNat := by
        have hm : m'.cycles = m.cycles + 1 := by
          have := cycles_cycle (m := m) (congrArg Outcome.result hc)
          rwa [hc] at this
        rw [hm]
        exact remaining_lt h
      runFrom m' limit start (log ++ more)
  else ⟨m, .ok (m.cycles - start), log.toList⟩
termination_by (limit - (m.cycles - start)).toNat

/-- Executes at most `limit` words from the control store. The result is their number. -/
def runLimited (m : Machine) (limit : UInt64) : Outcome UInt64 :=
  m.runFrom limit m.cycles #[]

end Machine

end Microcode
