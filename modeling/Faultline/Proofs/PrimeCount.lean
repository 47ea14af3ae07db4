/-
Counting primes by trial division.

The inner loop tries the odd numbers from three up to the root, which it
never computes: `divisor ≤ candidate / divisor` says that the divisor's
square is within the candidate. For an odd candidate no divisor among them
means no divisor at all. The outer loop's invariant is that the count is the
number of primes below the candidate, or up to the number once the candidate
is past it. Fuel for every candidate up to the number is enough.
-/
import Mathlib.NumberTheory.PrimeCounting
import Mathlib.Data.Nat.Digits.Lemmas
import Faultline.Proofs.DecimalParsers

namespace Faultline

open Lib

variable {env : TaskEnv} {candidate divisor number count fuel k : Nat}

-- ================================================== one candidate

/-- No odd number from a start up to the root divides. -/
def NoOddDivisor (candidate start : Nat) : Prop :=
  ∀ e, start ≤ e → e % 2 = 1 → e * e ≤ candidate → ¬ e ∣ candidate

/-- An odd candidate without an odd divisor is prime. -/
theorem noOddDivisor_iff_prime (hodd : candidate % 2 = 1)
    (hthree : 3 ≤ candidate) :
    NoOddDivisor candidate 3 ↔ candidate.Prime := by
  rw [Nat.prime_def_le_sqrt]
  constructor
  · refine fun h => ⟨by omega, fun m hm hroot hdvd => ?_⟩
    have hmodd : m % 2 = 1 := by
      obtain ⟨other, rfl⟩ := hdvd
      rcases Nat.mod_two_eq_zero_or_one m with heven | hmodd
      · rw [Nat.mul_mod, heven] at hodd
        simp at hodd
      · exact hmodd
    exact h m (by omega) hmodd (Nat.le_sqrt.mp hroot) hdvd
  · exact fun h e he _ hroot => h.2 e (by omega) (Nat.le_sqrt.mpr hroot)

/-- Passing over one odd number. -/
theorem NoOddDivisor.step_iff (hodd : divisor % 2 = 1)
    (hroot : divisor * divisor ≤ candidate) :
    NoOddDivisor candidate divisor
      ↔ ¬ divisor ∣ candidate ∧ NoOddDivisor candidate (divisor + 2) := by
  constructor
  · exact fun h => ⟨h divisor (Nat.le_refl _) hodd hroot,
      fun e he => h e (by omega)⟩
  · rintro ⟨hfirst, hrest⟩ e he heodd
    by_cases heq : e = divisor
    · rw [heq]
      exact fun _ => hfirst
    · exact hrest e (by omega) heodd

/-- The inner loop decides, with fuel to pass the candidate. -/
theorem primeTest_spec (quiet : ∀ k, env.cancel k = false)
    (hword : candidate < 2 ^ 63) (hthree : 3 ≤ divisor)
    (hodd : divisor % 2 = 1) (hbound : divisor ≤ candidate + 3)
    (hfuel : candidate + 4 ≤ divisor + fuel) (k : Nat) :
    ∃ answer k', primeTest env candidate fuel divisor k = .ok (answer, k')
      ∧ (answer = true ↔ NoOddDivisor candidate divisor) := by
  induction fuel generalizing divisor k with
  | zero => omega
  | succ fuel ih =>
      have hpos : divisor ≠ 0 := by omega
      unfold primeTest
      rw [quotient_ok hpos]
      by_cases hmore : divisor ≤ candidate / divisor
      · have hroot : divisor * divisor ≤ candidate :=
          (Nat.le_div_iff_mul_le (by omega)).mp hmore
        have hle : divisor ≤ candidate :=
          Nat.le_trans (Nat.le_mul_self divisor) hroot
        have hstep := NoOddDivisor.step_iff hodd hroot
        simp only [exactly, ok_bind, if_pos hmore, quiet, Bool.false_eq_true,
          if_false, remainder_ok hpos]
        by_cases hdvd : candidate % divisor = 0
        · rw [hdvd]
          refine ⟨false, k + 1, rfl, iff_of_false nofun fun hnone => ?_⟩
          exact (hstep.mp hnone).1 (Nat.dvd_of_mod_eq_zero hdvd)
        · rw [if_neg (by simpa using hdvd), fitting_ok (by omega)]
          simp only [ok_bind]
          obtain ⟨answer, k', hrun, hanswer⟩ := @ih (divisor + 2) (by omega)
            (by omega) (by omega) (by omega) (k + 1)
          refine ⟨answer, k', hrun, hanswer.trans ?_⟩
          rw [hstep]
          exact (and_iff_right fun h => hdvd (Nat.mod_eq_zero_of_dvd h)).symm
      · simp only [exactly, ok_bind, if_neg hmore]
        refine ⟨true, k, rfl, iff_of_true rfl fun e he _ hroot => ?_⟩
        have hlarger : divisor * divisor ≤ candidate :=
          Nat.le_trans (Nat.mul_le_mul he he) hroot
        exact absurd ((Nat.le_div_iff_mul_le (by omega)).mpr hlarger) hmore

/-- Every odd candidate is classified. -/
theorem primeTest_prime (quiet : ∀ k, env.cancel k = false)
    (hword : candidate < 2 ^ 63) (hodd : candidate % 2 = 1)
    (hthree : 3 ≤ candidate) (hfuel : candidate < fuel) (k : Nat) :
    ∃ k', primeTest env candidate fuel 3 k
      = .ok (decide candidate.Prime, k') := by
  obtain ⟨answer, k', hrun, hanswer⟩ :=
    primeTest_spec quiet hword (Nat.le_refl 3) rfl (by omega)
      (by omega : candidate + 4 ≤ 3 + fuel) k
  rw [noOddDivisor_iff_prime hodd hthree] at hanswer
  refine ⟨k', hrun.trans ?_⟩
  congr 2
  cases answer with
  | true => exact (decide_eq_true (hanswer.mp rfl)).symm
  | false => exact (decide_eq_false fun h => nomatch hanswer.mpr h).symm

-- ==================================================== the count

/-- How many primes are counted when the loop comes to a candidate. -/
def primesBefore (number candidate : Nat) : Nat :=
  Nat.count Nat.Prime (min candidate (number + 1))

/-- Two numbers further: the candidate and an even number. -/
theorem primesBefore_step (hodd : candidate % 2 = 1) (hthree : 3 ≤ candidate)
    (hle : candidate ≤ number) :
    primesBefore number (candidate + 2)
      = if candidate.Prime then primesBefore number candidate + 1
        else primesBefore number candidate := by
  have heven : ¬ (candidate + 1).Prime := by
    intro hprime
    rcases hprime.eq_two_or_odd with htwo | hodd'
    · omega
    · omega
  have hhere : primesBefore number candidate = Nat.count Nat.Prime candidate := by
    rw [primesBefore, Nat.min_eq_left (by omega)]
  have hnext : primesBefore number (candidate + 2)
      = Nat.count Nat.Prime (candidate + 1) := by
    unfold primesBefore
    by_cases hlast : candidate = number
    · rw [hlast, Nat.min_eq_right (by omega)]
    · rw [Nat.min_eq_left (by omega), Nat.count_succ, if_neg heven,
        Nat.add_zero]
  rw [hnext, hhere, Nat.count_succ]
  split <;> rfl

/-- The outer loop counts on to the end. -/
theorem primeLoop_spec {steps : Nat} (quiet : ∀ k, env.cancel k = false)
    (hword : number < 2 ^ 62) (hsteps : number < steps)
    (hodd : candidate % 2 = 1) (hthree : 3 ≤ candidate)
    (hbound : candidate ≤ number + 3)
    (hfuel : number + 4 ≤ candidate + fuel) (k : Nat) :
    ∃ k', primeLoop env number steps fuel candidate
        (primesBefore number candidate) k
      = .ok (Nat.count Nat.Prime (number + 1), k') := by
  induction fuel generalizing candidate k with
  | zero => omega
  | succ fuel ih =>
      unfold primeLoop
      by_cases hmore : candidate ≤ number
      · obtain ⟨k₁, htest⟩ := primeTest_prime quiet (by omega) hodd hthree
          (by omega : candidate < steps) (k + 1)
        have hcount : primesBefore number (candidate + 2) ≤ number + 1 :=
          Nat.le_trans (Nat.count_le ..) (Nat.min_le_right _ _)
        have hstep := primesBefore_step hodd hthree hmore
        simp only [if_pos hmore, quiet, Bool.false_eq_true, if_false, htest,
          ok_bind, decide_eq_true_eq, ← hstep]
        rw [fitting_ok (by omega), fitting_ok (by omega)]
        exact @ih (candidate + 2) (by omega) (by omega) (by omega) (by omega) k₁
      · rw [if_neg hmore]
        refine ⟨k, ?_⟩
        show Except.ok (primesBefore number candidate, k) = _
        rw [primesBefore, Nat.min_eq_right (by omega)]

theorem countPrimes_spec (quiet : ∀ k, env.cancel k = false)
    (hword : number < 2 ^ 62) (hfuel : number < fuel) (k : Nat) :
    ∃ k', countPrimes env number fuel k
      = .ok (Nat.count Nat.Prime (number + 1), k') := by
  have hstart : (if number ≥ 2 then 1 else 0) = primesBefore number 3 := by
    unfold primesBefore
    split
    · rw [Nat.min_eq_left (by omega)]
      decide
    · have hsmall : number = 0 ∨ number = 1 := by omega
      rcases hsmall with rfl | rfl <;> decide
  unfold countPrimes
  rw [hstart]
  exact primeLoop_spec quiet hword hfuel rfl (Nat.le_refl 3) (by omega)
    (by omega) k

-- ===================================================== the task

/-- A number of a prime count's size has few digits. -/
theorem length_decimalText (h : count < 10 ^ 9) :
    (decimalText count).length < jobMaxResultSize := by
  unfold decimalText
  split
  · decide
  · have hdigits : (Nat.digits 10 count).length ≤ 9 :=
      (Nat.digits_length_le_iff (by decide) count).mpr h
    rw [List.length_map, List.length_reverse]
    have hsize : jobMaxResultSize = 1024 := rfl
    omega

theorem parseNumber_le {limit : Nat} {bytes : List UInt8}
    (hlimit : limit < 2 ^ 64)
    (h : parseNumber limit bytes 0 = .ok (true, number)) :
    number ≤ limit := by
  have hparse : parseNumber limit bytes 0 = .ok
      (if DecimalIn 0 limit bytes then (true, decimalValue bytes)
        else (false, 0)) :=
    parseText_nat (numberStep_decimal hlimit) (fun _ => by simp) bytes 0
  rw [h] at hparse
  split at hparse
  · rename_i hdecimal
    cases hparse
    exact hdecimal.2.2.2
  · cases hparse

/-- Given a number that parses and no cancellation, the prime count returns:
its inner loop classifies every odd candidate, its counter is the number of
primes up to the number, and that is the result of the task. Every operation
on the way is exact. -/
theorem prime_count_correct (env : TaskEnv) (arguments : List UInt8)
    (number fuel : Nat) (quiet : ∀ k, env.cancel k = false)
    (parsed : parseNumber primeCountMax arguments 0 = .ok (true, number))
    (enough : number < fuel) :
    (∀ candidate k, 3 ≤ candidate → candidate % 2 = 1 → candidate ≤ number →
        ∃ k', primeTest env candidate fuel 3 k
          = .ok (decide candidate.Prime, k'))
      ∧ (∃ k, countPrimes env number fuel 1
        = .ok ({p ∈ Finset.range (number + 1) | p.Prime}.card, k))
      ∧ (arguments.length ≤ jobMaxArgumentSize →
        taskExecute fuel env TaskType.primeCount.code arguments
          = .ok (decimalText
            {p ∈ Finset.range (number + 1) | p.Prime}.card)) := by
  have hle : number ≤ 100000000 := parseNumber_le (by decide) parsed
  obtain ⟨k, hcount⟩ := countPrimes_spec quiet (by omega) enough 1
  rw [← Nat.count_eq_card_filter_range]
  refine ⟨fun candidate k hthree hodd hcandidate =>
    primeTest_prime quiet (by omega) hodd hthree (by omega) k, ⟨k, hcount⟩,
    fun hsize => ?_⟩
  have hfew : Nat.count Nat.Prime (number + 1) < 10 ^ 9 :=
    Nat.lt_of_le_of_lt (Nat.count_le ..) (by omega)
  have hlength := length_decimalText hfew
  have hcode : TaskType.ofCode TaskType.primeCount.code
      = some .primeCount := by decide
  have hnumber : taskNumber .primeCount arguments = .ok number := by
    simp only [taskNumber, parsed]
    rfl
  simp only [taskExecute, Nat.not_lt.mpr hsize, quiet, hcode, hnumber,
    runTask, hcount, ok_bind, if_false, Bool.false_eq_true]
  show (if (decimalText _).length ≥ jobMaxResultSize then _ else _) = _
  rw [if_neg (Nat.not_le.mpr hlength)]
  rfl

/-- Nothing is cancelled. -/
def undisturbed : TaskEnv :=
  { cancel := fun _ => false, clock := fun _ => 0, nap := fun _ => .done }

theorem prime_count_correct_thirty :
    ∃ k, countPrimes undisturbed 30 31 1
      = .ok ({p ∈ Finset.range 31 | p.Prime}.card, k) :=
  (prime_count_correct undisturbed [51, 48] 30 31 (fun _ => rfl) (by decide)
    (by decide)).2.1

end Faultline
