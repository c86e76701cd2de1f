import Mathlib.Data.Nat.Digits.Defs
import Mathlib.Tactic.LinearCombination
import Microcode.Proofs.Flags
/-!
# Numbers of Several Bytes

Sums and differences of numbers that do not fit in a register.

A number of several bytes is kept with its lowest byte first. It is added to another one position
by position, and the carry of a position goes into the next one by the choice of the function that
is used there: `A+B+1` behind a carry and `A+B` otherwise. A difference is built in the same way
with `A-B-1` behind a borrow and `A-B` otherwise. No byte is kept but the low one of each exact
value, and nothing but one flag is passed on, so everything hangs on the flag being set for the
values that do not fit, at both ends of the range and with the carry counted in.

`Chain` puts the two pairs of functions side by side. They differ in a sign: the second operand and
the carry are both added, or they are both taken away, and then a carry that comes out stands for
256 that are missing in the byte, or for 256 that it has too many.

## Main definitions

* `numberOf`: The number that some bytes stand for.
* `AluFunction.cascade`: What a pair of functions gives, position by position.
* `AluFunction.carryAfter`: The carry that is left at the end.
* `AluFunction.Chain`: The pairs of functions, with their sign.

## Theorems

* `Chain.evaluate_exact`: Nothing is lost at one position.
* `Chain.cascade_exact`: Nothing is lost in a row of positions.
* `cascades_exact`: Sums and differences of any length.
* `cascades_exact_ripple`: A carry and a borrow that go through all positions.
-/

namespace Microcode

/-- The number that some bytes stand for, the lowest one first. -/
def numberOf (bytes : List UInt8) : Nat :=
  Nat.ofDigits 256 (bytes.map UInt8.toNat)

theorem numberOf_nil : numberOf [] = 0 :=
  rfl

theorem numberOf_cons (byte : UInt8) (bytes : List UInt8) :
    numberOf (byte :: bytes) = byte.toNat + 256 * numberOf bytes := by
  rw [numberOf, List.map_cons, Nat.ofDigits_cons, numberOf]

namespace AluFunction

/-- The results at the positions of two numbers, from the lowest position on: those of `chained`
    where the position before has left a carry, and those of `plain` where it has not. Each
    position gets the flags of the one before. -/
def cascade (plain chained : AluFunction) (carry : Bool) (status : StatusWord) :
    List (UInt8 × UInt8) → List (UInt8 × StatusWord)
  | [] => []
  | (a, b) :: rest =>
    let result := (if carry then chained else plain).evaluate a b status
    result :: cascade plain chained result.2.carry result.2 rest

/-- The carry that the last of some results has left, or the one from before if there is none. -/
def carryAfter (carry : Bool) (results : List (UInt8 × StatusWord)) : Bool :=
  (results.getLast?.map (fun result => result.2.carry)).getD carry

/-- Two functions for the positions of a number, without and with a carry, and the sign with which
    the second operand and the carry count. -/
inductive Chain : Int → AluFunction → AluFunction → Prop where
  | sum : Chain 1 aPlusB aPlusBPlus1
  | difference : Chain (-1) aMinusB aMinusBMinus1

theorem carryAfter_cons (carry : Bool) (result : UInt8 × StatusWord)
    (results : List (UInt8 × StatusWord)) :
    carryAfter carry (result :: results) = carryAfter result.2.carry results := by
  rw [carryAfter, carryAfter, List.getLast?_cons]
  cases results.getLast? <;> rfl

theorem length_cascade (plain chained : AluFunction) (carry : Bool) (status : StatusWord)
    (operands : List (UInt8 × UInt8)) :
    (cascade plain chained carry status operands).length = operands.length := by
  induction operands generalizing carry status with
  | nil => rfl
  | cons operand rest ih => rw [cascade, List.length_cons, List.length_cons, ih]

variable {sign : Int} {plain chained : AluFunction}

/-- The exact value at a position, with the carry counted in. -/
theorem Chain.value_eq (h : Chain sign plain chained) (carry : Bool) (a b : UInt8) :
    (if carry then chained else plain).value a b =
      a.toNat + sign * (b.toNat + carry.toNat) := by
  cases h with
  | sum =>
      cases carry with
      | false => simp only [Bool.false_eq_true, if_false, value, Bool.toNat_false]; omega
      | true => simp only [if_true, value, Bool.toNat_true]; omega
  | difference =>
      cases carry with
      | false => simp only [Bool.false_eq_true, if_false, value, Bool.toNat_false]; omega
      | true => simp only [if_true, value, Bool.toNat_true]; omega

/-- Nothing is lost at one position: the byte and the carry that it leaves make up the exact
    value. -/
theorem Chain.evaluate_exact (h : Chain sign plain chained) (carry : Bool) (a b : UInt8)
    (status : StatusWord) :
    let result := (if carry then chained else plain).evaluate a b status
    (result.1.toNat : Int) + sign * (256 * result.2.carry.toNat) =
      a.toNat + sign * (b.toNat + carry.toNat) := by
  intro result
  have hvalue := h.value_eq carry a b
  have hbyte : (result.1.toNat : Int) = _ := lowByte_toNat _
  have hcarry : result.2.carry = true ↔ _ := (StatusWord.ofValue_describes _ _).carry
  rw [hvalue] at hbyte hcarry
  have ha := a.toNat_lt
  have hb := b.toNat_lt
  have hc := carry.toNat_le
  -- The value is less than 512 and not less than -256, and out of range on one side only.
  cases hout : result.2.carry with
  | false =>
      have hin := mt hcarry.mpr (by rw [hout]; exact Bool.false_ne_true)
      rw [Bool.toNat_false]
      cases h with
      | sum => omega
      | difference => omega
  | true =>
      have hin := hcarry.mp hout
      rw [Bool.toNat_true]
      cases h with
      | sum => omega
      | difference => omega

/-- Nothing is lost in a row of positions: the bytes, and a carry one position further up, make up
    what the operands and the carry in front of them come to. -/
theorem Chain.cascade_exact (h : Chain sign plain chained) (as bs : List UInt8)
    (hlength : as.length = bs.length) (carry : Bool) (status : StatusWord) :
    let results := cascade plain chained carry status (as.zip bs)
    (numberOf (results.map Prod.fst) : Int) +
        sign * (256 ^ as.length * (carryAfter carry results).toNat) =
      numberOf as + sign * (numberOf bs + carry.toNat) := by
  intro results
  induction as generalizing bs carry status with
  | nil =>
      cases List.length_eq_zero_iff.mp hlength.symm
      change ((numberOf [] : Nat) : Int) + sign * (256 ^ 0 * carry.toNat) = _
      simp only [numberOf_nil, Nat.cast_zero, pow_zero, one_mul, zero_add]
  | cons a as ih =>
      cases bs with
      | nil => cases hlength
      | cons b bs =>
          let result := (if carry then chained else plain).evaluate a b status
          have hfirst : (result.1.toNat : Int) + sign * (256 * result.2.carry.toNat) = _ :=
            h.evaluate_exact carry a b status
          have hrest := ih bs (Nat.succ.inj hlength) result.2.carry result.2
          have hresults : results =
              result :: cascade plain chained result.2.carry result.2 (as.zip bs) := rfl
          rw [hresults, carryAfter_cons, List.map_cons, numberOf_cons, numberOf_cons,
            numberOf_cons, List.length_cons, pow_succ]
          -- The first position is exact, and so are the others with 256 times their weight.
          push_cast
          linear_combination hfirst + 256 * hrest

/-- Numbers of any length are added and subtracted exactly. If each position takes the carry of the
    position before in, the bytes of the results and the last carry stand for the sum, and with
    the carry as a borrow for the difference, whatever the flags were at first. -/
theorem cascades_exact (as bs : List UInt8) (hlength : as.length = bs.length)
    (status : StatusWord) :
    let sum := cascade aPlusB aPlusBPlus1 false status (as.zip bs)
    let difference := cascade aMinusB aMinusBMinus1 false status (as.zip bs)
    (sum.length = as.length ∧
      numberOf (sum.map Prod.fst) + (carryAfter false sum).toNat * 256 ^ as.length =
        numberOf as + numberOf bs) ∧
    difference.length = as.length ∧
      (numberOf (difference.map Prod.fst) : Int) -
        (carryAfter false difference).toNat * 256 ^ as.length = numberOf as - numberOf bs := by
  intro sum difference
  have hzip : (as.zip bs).length = as.length := by
    rw [List.length_zip, hlength, min_self]
  have hnone : ((false.toNat : Nat) : Int) = 0 := rfl
  have hsum := Chain.sum.cascade_exact as bs hlength false status
  have hdifference := Chain.difference.cascade_exact as bs hlength false status
  refine ⟨⟨?_, ?_⟩, ?_, ?_⟩
  · rw [length_cascade, hzip]
  · zify
    linear_combination hsum + hnone
  · rw [length_cascade, hzip]
  · linear_combination hdifference - hnone

/-- Two numbers of three bytes whose sum and whose difference both leave a carry at every position.
    In the middle and at the top the carry that comes in makes the value as large, and as small, as
    the value of a position can be. -/
theorem cascades_exact_ripple :
    let as : List UInt8 := [0x80, 0xFF, 0x00]
    let bs : List UInt8 := [0x81, 0xFF, 0xFF]
    let status : StatusWord := { carry := true }
    let sum := cascade aPlusB aPlusBPlus1 false status (as.zip bs)
    let difference := cascade aMinusB aMinusBMinus1 false status (as.zip bs)
    as.length = bs.length ∧
    sum.map Prod.fst = [0x01, 0xFF, 0x00] ∧ sum.map (fun r => r.2.carry) = [true, true, true] ∧
    difference.map Prod.fst = [0xFF, 0xFF, 0x00] ∧
    difference.map (fun r => r.2.carry) = [true, true, true] ∧
    (sum.length = as.length ∧
      numberOf (sum.map Prod.fst) + (carryAfter false sum).toNat * 256 ^ as.length =
        numberOf as + numberOf bs) ∧
    difference.length = as.length ∧
      (numberOf (difference.map Prod.fst) : Int) -
        (carryAfter false difference).toNat * 256 ^ as.length = numberOf as - numberOf bs := by
  intro as bs status sum difference
  exact ⟨rfl, by decide, by decide, by decide, by decide, cascades_exact as bs rfl status⟩

end AluFunction

end Microcode
