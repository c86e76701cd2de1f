import Mathlib.Logic.Function.Iterate
import Microcode.Machine.Run
import Microcode.Proofs.Outcomes
import Microcode.Proofs.Rejection
/-!
# Bounded Runs

A run with a limit is the cycle, iterated.

The run does not count its cycles. It looks at the difference between the cycle counter and what
the counter was at the start, and it is the machine that counts. Since every cycle that succeeds
counts one, and a limit has as many bits as the counter, the difference after `k` cycles is `k`
wherever the counter stood, at the wrap as well. That is `elapsed_after`, and with it
`runLimited_advance` follows a run through any number of cycles that succeed. What is left is how
a run ends: `runLimited_of_completes` at its limit, `runLimited_of_fails` at a cycle that fails.

That runs can be put together is then a matter of counting cycles, and that a failed run stays
failed is due to the failed cycle, which has not changed the machine.

## Main definitions

* `Machine.after`: The machine after some cycles.
* `Machine.recorded`: What some cycles record.
* `Machine.Completes`: Some cycles all succeed.

## Theorems

* `after_add`, `recorded_add`, `completes_add`: Cycles in two parts.
* `first_failure`: Cycles that do not all succeed have a first one that fails.
* `elapsed_after`: The counter tells how many cycles have succeeded.
* `runLimited_advance`: A run passes through the machine after any number of its cycles.
* `runLimited_of_completes`, `runLimited_of_fails`: The two ways in which a run ends.
* `runLimited_iterates_cycle`: A run with a limit is the cycle, iterated.
* `runLimited_wraps`: A run across the wrap of the counter that ends in front of its limit.
-/

namespace Microcode

namespace Machine

/-- The machine after some cycles. One that fails leaves the machine as it is. -/
def after (m : Machine) (n : Nat) : Machine :=
  (fun m => m.cycle.machine)^[n] m

/-- What some cycles record. -/
def recorded (m : Machine) (n : Nat) : List Trace.Entry :=
  (List.range n).flatMap (fun k => (m.after k).cycle.log)

/-- Some cycles, one after the other, all succeed. -/
def Completes (m : Machine) (n : Nat) : Prop :=
  ∀ k, k < n → ∃ r, (m.after k).cycle.result = .ok r

theorem after_succ (m : Machine) (n : Nat) : m.after (n + 1) = (m.after n).cycle.machine :=
  Function.iterate_succ_apply' _ n m

/-- Cycles that are made in two parts lead to the same machine. -/
theorem after_add (m : Machine) (j k : Nat) : m.after (j + k) = (m.after j).after k := by
  rw [after, Nat.add_comm j k]
  exact Function.iterate_add_apply _ k j m

theorem recorded_succ (m : Machine) (n : Nat) :
    m.recorded (n + 1) = m.recorded n ++ (m.after n).cycle.log := by
  rw [recorded, List.range_succ, List.flatMap_append, List.flatMap_singleton]
  rfl

theorem recorded_add (m : Machine) (j k : Nat) :
    m.recorded (j + k) = m.recorded j ++ (m.after j).recorded k := by
  induction k with
  | zero => exact (List.append_nil _).symm
  | succ k ih => rw [← Nat.add_assoc, recorded_succ, recorded_succ, ih, after_add,
      List.append_assoc]

/-- So many cycles succeed if the first ones do and then the others. -/
theorem completes_add (m : Machine) (j k : Nat) :
    m.Completes (j + k) ↔ m.Completes j ∧ (m.after j).Completes k := by
  constructor
  · intro h
    refine ⟨fun i hi => h i (Nat.lt_of_lt_of_le hi (Nat.le_add_right j k)), fun i hi => ?_⟩
    rw [← after_add]
    exact h (j + i) (Nat.add_lt_add_left hi j)
  · rintro ⟨hj, hk⟩ i hi
    by_cases hij : i < j
    · exact hj i hij
    · have hsplit : i = j + (i - j) := by omega
      rw [hsplit, after_add]
      exact hk (i - j) (by omega)

/-- Cycles that do not all succeed have a first one that fails. -/
theorem first_failure (m : Machine) (n : Nat) (h : ¬ m.Completes n) :
    ∃ k e, k < n ∧ m.Completes k ∧ (m.after k).cycle.result = .error e := by
  induction n with
  | zero => exact absurd (fun k hk => absurd hk (Nat.not_lt_zero k)) h
  | succ n ih =>
      by_cases hn : m.Completes n
      · -- All cycles but the last succeed, so it is the last one that fails.
        cases hlast : (m.after n).cycle.result with
        | error e => exact ⟨n, e, Nat.lt_succ_self n, hn, hlast⟩
        | ok r =>
            refine absurd ((m.completes_add n 1).mpr ⟨hn, fun k hk => ?_⟩) h
            rw [Nat.lt_one_iff.mp hk]
            exact ⟨r, hlast⟩
      · rcases ih hn with ⟨k, e, hk, hbefore, he⟩
        exact ⟨k, e, Nat.lt_succ_of_lt hk, hbefore, he⟩

/-- Every cycle that succeeds counts one. -/
theorem cycles_after (m : Machine) (n : Nat) (h : m.Completes n) :
    (m.after n).cycles = m.cycles + UInt64.ofNat n := by
  induction n with
  | zero => exact (UInt64.add_zero _).symm
  | succ n ih =>
      rcases h n (Nat.lt_succ_self n) with ⟨r, hr⟩
      rw [after_succ, cycles_cycle hr, ih (fun k hk => h k (Nat.lt_succ_of_lt hk)),
        UInt64.ofNat_add, ← UInt64.add_assoc]
      rfl

/-- The counter tells how many cycles have succeeded, whether or not it wraps on the way. -/
theorem elapsed_after (m : Machine) (n : Nat) (h : m.Completes n) :
    (m.after n).cycles - m.cycles = UInt64.ofNat n := by
  rw [m.cycles_after n h, UInt64.add_comm, UInt64.add_sub_cancel]

-- A count that a limit can have is not cut off.
theorem ofNat_lt_iff (n : Nat) (limit : UInt64) (h : n ≤ limit.toNat) :
    UInt64.ofNat n < limit ↔ n < limit.toNat := by
  rw [UInt64.lt_iff_toNat_lt, UInt64.toNat_ofNat_of_lt' (Nat.lt_of_le_of_lt h limit.toNat_lt)]

theorem runFrom_ok (m : Machine) (limit start : UInt64) (log : Array Trace.Entry) (r : StepResult)
    (h : m.cycles - start < limit) (hr : m.cycle.result = .ok r) :
    m.runFrom limit start log = m.cycle.machine.runFrom limit start (log ++ m.cycle.log) := by
  rw [runFrom, dif_pos h]
  split
  · rename_i hc
    rw [hc] at hr
    cases hr
  · rename_i hc
    simp only [hc]

theorem runFrom_error (m : Machine) (limit start : UInt64) (log : Array Trace.Entry)
    (e : StepError) (h : m.cycles - start < limit) (he : m.cycle.result = .error e) :
    m.runFrom limit start log = ⟨m, .error e, (log ++ m.cycle.log).toList⟩ := by
  have hm := m.cycle_machine_of_error e he
  rw [runFrom, dif_pos h]
  split
  · rename_i hc
    simp only [hc] at hm he ⊢
    cases he
    rw [hm]
  · rename_i hc
    rw [hc] at he
    cases he

theorem runFrom_done (m : Machine) (limit start : UInt64) (log : Array Trace.Entry)
    (h : ¬ m.cycles - start < limit) :
    m.runFrom limit start log = ⟨m, .ok (m.cycles - start), log.toList⟩ := by
  rw [runFrom, dif_neg h]

/-- A run passes through the machine after any number of its cycles that succeed. -/
theorem runLimited_advance (m : Machine) (limit : UInt64) (n : Nat) (hn : n ≤ limit.toNat)
    (h : m.Completes n) :
    m.runLimited limit = (m.after n).runFrom limit m.cycles (m.recorded n).toArray := by
  induction n with
  | zero => rfl
  | succ n ih =>
      have hbefore : m.Completes n := fun k hk => h k (Nat.lt_succ_of_lt hk)
      rcases h n (Nat.lt_succ_self n) with ⟨r, hr⟩
      have hlt : (m.after n).cycles - m.cycles < limit := by
        rw [m.elapsed_after n hbefore]
        exact (ofNat_lt_iff n limit (Nat.le_of_succ_le hn)).mpr hn
      rw [ih (Nat.le_of_succ_le hn) hbefore, runFrom_ok _ limit m.cycles _ r hlt hr, ← after_succ,
        recorded_succ, List.toArray_appendList]

/-- A run all of whose cycles succeed ends at its limit. -/
theorem runLimited_of_completes (m : Machine) (limit : UInt64) (h : m.Completes limit.toNat) :
    m.runLimited limit = ⟨m.after limit.toNat, .ok limit, m.recorded limit.toNat⟩ := by
  have helapsed : (m.after limit.toNat).cycles - m.cycles = limit := by
    rw [m.elapsed_after _ h, UInt64.ofNat_toNat]
  have hdone : ¬ (m.after limit.toNat).cycles - m.cycles < limit := by
    rw [helapsed]
    exact UInt64.lt_irrefl limit
  rw [m.runLimited_advance limit limit.toNat (Nat.le_refl _) h, runFrom_done _ _ _ _ hdone,
    helapsed]

/-- A run ends at the first of its cycles that fails, with the error of that cycle. -/
theorem runLimited_of_fails (m : Machine) (limit : UInt64) (n : Nat) (e : StepError)
    (hn : n < limit.toNat) (h : m.Completes n) (he : (m.after n).cycle.result = .error e) :
    m.runLimited limit = ⟨m.after n, .error e, m.recorded (n + 1)⟩ := by
  have hlt : (m.after n).cycles - m.cycles < limit := by
    rw [m.elapsed_after n h]
    exact (ofNat_lt_iff n limit (Nat.le_of_lt hn)).mpr hn
  rw [m.runLimited_advance limit n (Nat.le_of_lt hn) h, runFrom_error _ _ _ _ e hlt he,
    recorded_succ, List.toArray_appendList]

/-- A run that returns a count has had as many cycles as its limit, and all succeeded. -/
theorem completes_of_runLimited (m : Machine) (limit n : UInt64)
    (h : (m.runLimited limit).result = .ok n) : m.Completes limit.toNat ∧ n = limit := by
  by_cases hall : m.Completes limit.toNat
  · rw [m.runLimited_of_completes limit hall] at h
    cases h
    exact ⟨hall, rfl⟩
  · rcases m.first_failure _ hall with ⟨k, e, hk, hbefore, he⟩
    rw [m.runLimited_of_fails limit k e hk hbefore he] at h
    cases h

/-- A run can be interrupted, unless it fails before that. -/
theorem runLimited_add (m : Machine) (a b : UInt64) (hab : a.toNat + b.toNat < UInt64.size)
    (h : m.Completes a.toNat) :
    m.runLimited (a + b) =
      ⟨((m.after a.toNat).runLimited b).machine,
        ((m.after a.toNat).runLimited b).result.map (a + ·),
        m.recorded a.toNat ++ ((m.after a.toNat).runLimited b).log⟩ := by
  have hsum : (a + b).toNat = a.toNat + b.toNat := by
    rw [UInt64.toNat_add, Nat.mod_eq_of_lt hab]
  by_cases hrest : (m.after a.toNat).Completes b.toNat
  · have hall : m.Completes (a + b).toNat := by
      rw [hsum]
      exact (m.completes_add _ _).mpr ⟨h, hrest⟩
    rw [m.runLimited_of_completes _ hall, runLimited_of_completes _ b hrest, hsum, after_add,
      recorded_add]
    rfl
  · -- The first cycle of the rest that fails is the first one of the whole run.
    rcases first_failure _ _ hrest with ⟨k, e, hk, hbefore, he⟩
    have hfirst : m.Completes (a.toNat + k) := (m.completes_add _ _).mpr ⟨h, hbefore⟩
    have hlt : a.toNat + k < (a + b).toNat := by
      rw [hsum]
      exact Nat.add_lt_add_left hk _
    rw [runLimited_of_fails _ b k e hk hbefore he,
      m.runLimited_of_fails _ _ e hlt hfirst (by rw [after_add]; exact he), after_add,
      Nat.add_assoc, recorded_add]
    rfl

/-- A run with a limit is the cycle, iterated, from any count of the cycle counter. It returns its
    limit exactly if that many cycles succeed, and leaves the machine after them; otherwise it
    returns the error of the first cycle that fails, and leaves the machine that this cycle found.
    Two runs, the first of which succeeds, are one run, and a failed run fails again in the same
    way for as long as nothing else happens to the machine. -/
theorem runLimited_iterates_cycle (m : Machine) (limit : UInt64) :
    ((m.runLimited limit).result = .ok limit ↔ m.Completes limit.toNat) ∧
    (m.Completes limit.toNat →
      m.runLimited limit = ⟨m.after limit.toNat, .ok limit, m.recorded limit.toNat⟩) ∧
    (¬ m.Completes limit.toNat → ∃ k e, k < limit.toNat ∧ m.Completes k ∧
      (m.after k).cycle.result = .error e ∧
      m.runLimited limit = ⟨m.after k, .error e, m.recorded (k + 1)⟩) ∧
    (∀ n more : UInt64, (m.runLimited limit).result = .ok n →
      limit.toNat + more.toNat < UInt64.size → m.runLimited (limit + more) =
        ⟨((m.runLimited limit).machine.runLimited more).machine,
          ((m.runLimited limit).machine.runLimited more).result.map (n + ·),
          (m.runLimited limit).log ++ ((m.runLimited limit).machine.runLimited more).log⟩) ∧
    (∀ e more, (m.runLimited limit).result = .error e → 0 < more →
      ((m.runLimited limit).machine.runLimited more).result = .error e ∧
      ((m.runLimited limit).machine.runLimited more).machine = (m.runLimited limit).machine) := by
  have hfails : ¬ m.Completes limit.toNat → ∃ k e, k < limit.toNat ∧ m.Completes k ∧
      (m.after k).cycle.result = .error e ∧
      m.runLimited limit = ⟨m.after k, .error e, m.recorded (k + 1)⟩ := by
    intro hnot
    rcases m.first_failure _ hnot with ⟨k, e, hk, hbefore, he⟩
    exact ⟨k, e, hk, hbefore, he, m.runLimited_of_fails limit k e hk hbefore he⟩
  refine ⟨⟨fun h => (m.completes_of_runLimited limit limit h).1, fun h => ?_⟩,
    m.runLimited_of_completes limit, hfails, ?_, ?_⟩
  · rw [m.runLimited_of_completes limit h]
  · intro n more h hsum
    rcases m.completes_of_runLimited limit n h with ⟨hall, rfl⟩
    rw [m.runLimited_add n more hsum hall, m.runLimited_of_completes n hall]
  · intro e more h hmore
    have hnot : ¬ m.Completes limit.toNat := by
      intro hall
      rw [m.runLimited_of_completes limit hall] at h
      cases h
    rcases hfails hnot with ⟨k, e', _, _, he, hrun⟩
    rw [hrun] at h ⊢
    cases h
    -- The machine that is left fails at once, so the next run is over before it begins.
    have hnone : (m.after k).Completes 0 := fun i hi => absurd hi (Nat.not_lt_zero i)
    rw [(m.after k).runLimited_of_fails more 0 e (UInt64.lt_iff_toNat_lt.mp hmore) hnone he]
    exact ⟨rfl, rfl⟩

/-- A run that begins with the last count in front of the wrap and fails after two words, and runs
    of one word each that lead to the same place. -/
theorem runLimited_wraps :
    let word : MicroWord := { write := 0, read := 0, alu := 0, jump := 0, jumpAddress := 0 }
    let m : Machine :=
      { ((Machine.new .builtin).load [word, word]).1 with cycles := 0xFFFFFFFFFFFFFFFF }
    (m.runLimited 1).result = .ok 1 ∧ (m.runLimited 1).machine.cycles = 0 ∧
      m.runLimited (1 + 1) =
        ⟨((m.runLimited 1).machine.runLimited 1).machine,
          ((m.runLimited 1).machine.runLimited 1).result.map (1 + ·),
          (m.runLimited 1).log ++ ((m.runLimited 1).machine.runLimited 1).log⟩ ∧
      (m.runLimited 3).result = .error (.emptyAddress 2) ∧
      (m.runLimited 3).machine.cycles = 1 ∧
      ((m.runLimited 3).machine.runLimited 5).machine = (m.runLimited 3).machine := by
  intro word m
  have hfirst : m.Completes 1 := by
    intro k hk
    rw [Nat.lt_one_iff.mp hk]
    exact ⟨_, rfl⟩
  have hboth : m.Completes 2 := by
    intro k hk
    rcases Nat.lt_or_eq_of_le (Nat.le_of_lt_succ hk) with hlt | rfl
    · exact hfirst k hlt
    · exact ⟨_, rfl⟩
  have hwrap : (0xFFFFFFFFFFFFFFFF : UInt64) + UInt64.ofNat 1 = 0 := by decide
  have hpast : (0xFFFFFFFFFFFFFFFF : UInt64) + UInt64.ofNat 2 = 1 := by decide
  have hthird : (m.after 2).cycle.result = .error (.emptyAddress 2) := rfl
  have hone := (runLimited_iterates_cycle m 1).2.1 hfirst
  have hthree := m.runLimited_of_fails 3 2 _ (by decide) hboth hthird
  have herror : (m.runLimited 3).result = .error (.emptyAddress 2) := by
    rw [hthree]
  refine ⟨?_, ?_, (runLimited_iterates_cycle m 1).2.2.2.1 1 1 ?_ (by decide), herror, ?_,
    ((runLimited_iterates_cycle m 3).2.2.2.2 _ 5 herror (by decide)).2⟩
  · rw [hone]
  · rw [hone]
    exact (m.cycles_after 1 hfirst).trans hwrap
  · rw [hone]
  · rw [hthree]
    exact (m.cycles_after 2 hboth).trans hpast

end Machine

end Microcode
