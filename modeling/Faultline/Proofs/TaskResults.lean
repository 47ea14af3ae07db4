/-
What the task executor computes.

`taskAnswer` says what a task is for: a number in decimal digits within the
task's limit has an answer, and any bytes have a checksum; nothing else is
answered. A run reads its environment on the way, so it may also be cancelled,
meet a broken clock or go on. `TaskEnds` is what remains: every run that returns
OK returns the answer, and no word overflows. In an environment that lets it,
every run comes to its answer (`TaskEnv.Patient`).
-/
import Mathlib.Data.Nat.Fib.Basic
import Faultline.Proofs.PrimeCount

namespace Faultline

open Lib

variable {env : TaskEnv} {candidate divisor number count fuel k : Nat}
  {arguments text : List UInt8} {type : TaskType} {taskType : UInt16}
  {faults : Prop}

-- ====================================================== answers

/-- The largest number a task takes. -/
def TaskType.limit : TaskType → Nat
  | .sleep => sleepMaxMs
  | .primeCount => primeCountMax
  | .fibonacci => fibonacciMax
  | .hash => 0

/-- The 64-bit FNV-1a checksum, on numbers. -/
def fnv1a (bytes : List UInt8) : Nat :=
  bytes.foldl (fun hash byte => (hash ^^^ byte.toNat) * 1099511628211 % 2 ^ 64)
    14695981039346656037

/-- The answer to a task about a number and its arguments. -/
def TaskType.answerTo (type : TaskType) (number : Nat)
    (arguments : List UInt8) : List UInt8 :=
  match type with
  | .sleep => sleptText ++ decimalText number
  | .primeCount =>
      decimalText {p ∈ Finset.range (number + 1) | p.Prime}.card
  | .fibonacci => decimalText (Nat.fib number)
  | .hash => hexText (.ofNat (fnv1a arguments))

/-- The arguments a task takes. -/
def TaskType.Takes (type : TaskType) (arguments : List UInt8) : Prop :=
  type = .hash ∨ DecimalIn 0 type.limit arguments

instance : Decidable (type.Takes arguments) :=
  inferInstanceAs (Decidable (_ ∨ _))

/-- The number a task is about; a checksum is about none. -/
def TaskType.numberIn (type : TaskType) (arguments : List UInt8) : Nat :=
  match type with
  | .hash => 0
  | _ => decimalValue arguments

/-- The answer to a task, if it has one. -/
def TaskType.answer (type : TaskType) (arguments : List UInt8) :
    Option (List UInt8) :=
  if type.Takes arguments then
    some (type.answerTo (type.numberIn arguments) arguments)
  else none

/-- The answer to what an assignment asks for. -/
def taskAnswer (taskType : UInt16) (arguments : List UInt8) :
    Option (List UInt8) :=
  if arguments.length > jobMaxArgumentSize then none
  else (TaskType.ofCode taskType).bind (·.answer arguments)

-- ========================================================= runs

/-- A run returns a value as it should, is cancelled, meets an error of the
system, or has not ended; a fault has its reason. -/
def TaskEnds {α : Type} (faults : Prop) (P : α → Prop) :
    Except TaskStop α → Prop
  | .ok a => P a
  | .error (.status status) => status = .cancelled ∨ status = .systemError
  | .error .fuel => True
  | .error (.fault _) => faults

theorem TaskEnds.bind {α β : Type} {P : α → Prop} {Q : β → Prop}
    {run : Except TaskStop α} {f : α → Except TaskStop β}
    (h : TaskEnds faults P run) (hf : ∀ a, P a → TaskEnds faults Q (f a)) :
    TaskEnds faults Q (run >>= f) := by
  cases run with
  | ok a => exact hf a h
  | error stop => cases stop <;> exact h

theorem TaskEnds.mono {α : Type} {P Q : α → Prop} {faults' : Prop}
    {run : Except TaskStop α} (h : TaskEnds faults P run)
    (why : faults → faults') (hpq : ∀ a, P a → Q a) :
    TaskEnds faults' Q run := by
  cases run with
  | ok a => exact hpq a h
  | error stop =>
      cases stop with
      | fault fault => exact why h
      | _ => exact h

theorem TaskEnds.cancelled {α : Type} {P : α → Prop} :
    TaskEnds faults P (.error (.status .cancelled)) := .inl rfl

theorem TaskEnds.systemError {α : Type} {P : α → Prop} :
    TaskEnds faults P (.error (.status .systemError)) := .inr rfl

-- ================================================== prime count

/-- Whatever the environment does, an inner loop that returns has decided. -/
theorem primeTest_ends (hword : candidate < 2 ^ 63) (hthree : 3 ≤ divisor)
    (hodd : divisor % 2 = 1) (k : Nat) :
    TaskEnds faults (fun tested : Bool × Nat =>
        tested.1 = true ↔ NoOddDivisor candidate divisor)
      (primeTest env candidate fuel divisor k) := by
  induction fuel generalizing divisor k with
  | zero => trivial
  | succ fuel ih =>
      have hpos : divisor ≠ 0 := by omega
      unfold primeTest
      rw [quotient_ok hpos]
      by_cases hmore : divisor ≤ candidate / divisor
      · have hroot : divisor * divisor ≤ candidate :=
          (Nat.le_div_iff_mul_le (by omega)).mp hmore
        have hle : divisor ≤ candidate :=
          Nat.le_trans (Nat.le_mul_self divisor) hroot
        have hstep := NoOddDivisor.step_iff hodd hroot
        simp only [exactly, ok_bind, if_pos hmore]
        split
        · exact .cancelled
        rw [remainder_ok hpos]
        simp only [ok_bind]
        by_cases hdvd : candidate % divisor = 0
        · rw [hdvd]
          refine iff_of_false Bool.false_ne_true fun hnone => ?_
          exact (hstep.mp hnone).1 (Nat.dvd_of_mod_eq_zero hdvd)
        · rw [if_neg (by simpa using hdvd), fitting_ok (by omega)]
          simp only [ok_bind]
          have hrest := @ih (divisor + 2) (by omega) (by omega) (k + 1)
          rw [hstep]
          rwa [and_iff_right fun h => hdvd (Nat.mod_eq_zero_of_dvd h)]
      · simp only [exactly, ok_bind, if_neg hmore]
        refine iff_of_true rfl fun e he _ hroot => ?_
        have hlarger : divisor * divisor ≤ candidate :=
          Nat.le_trans (Nat.mul_le_mul he he) hroot
        exact absurd ((Nat.le_div_iff_mul_le (by omega)).mpr hlarger) hmore

theorem primeLoop_ends {steps : Nat} (hword : number < 2 ^ 62)
    (hodd : candidate % 2 = 1) (hthree : 3 ≤ candidate)
    (hbound : candidate ≤ number + 3) (k : Nat) :
    TaskEnds faults (fun counted : Nat × Nat =>
        counted.1 = Nat.count Nat.Prime (number + 1))
      (primeLoop env number steps fuel candidate
        (primesBefore number candidate) k) := by
  induction fuel generalizing candidate k with
  | zero => trivial
  | succ fuel ih =>
      unfold primeLoop
      by_cases hmore : candidate ≤ number
      · rw [if_pos hmore]
        split
        · exact .cancelled
        refine (primeTest_ends (by omega) (Nat.le_refl 3) rfl (k + 1)).bind ?_
        rintro ⟨prime, k₁⟩ htested
        have hprime : prime = decide candidate.Prime := by
          rw [Bool.eq_iff_iff, decide_eq_true_eq]
          exact htested.trans (noOddDivisor_iff_prime hodd hthree)
        have hcount : primesBefore number (candidate + 2) ≤ number + 1 :=
          Nat.le_trans (Nat.count_le ..) (Nat.min_le_right _ _)
        simp only [hprime, decide_eq_true_eq,
          ← primesBefore_step hodd hthree hmore]
        rw [fitting_ok (by omega), fitting_ok (by omega)]
        exact @ih (candidate + 2) (by omega) (by omega) (by omega) k₁
      · rw [if_neg hmore]
        show primesBefore number candidate = _
        rw [primesBefore, Nat.min_eq_right (by omega)]

theorem firstCount_eq (number : Nat) :
    (if number ≥ 2 then 1 else 0) = primesBefore number 3 := by
  unfold primesBefore
  split
  · rw [Nat.min_eq_left (by omega)]
    decide
  · have hsmall : number = 0 ∨ number = 1 := by omega
    rcases hsmall with rfl | rfl <;> decide

theorem countPrimes_ends (hword : number < 2 ^ 62) (k : Nat) :
    TaskEnds faults (fun counted : Nat × Nat =>
        counted.1 = Nat.count Nat.Prime (number + 1))
      (countPrimes env number fuel k) := by
  unfold countPrimes
  rw [firstCount_eq]
  exact primeLoop_ends hword rfl (Nat.le_refl 3) (by omega) k

-- ======================================================== sleep

/-- The loop ends when the clock has reached the deadline. -/
theorem sleepLoop_ends {deadline : Int} (k : Nat) :
    TaskEnds faults (fun k' => ∃ j, k < j ∧ j < k'
        ∧ deadline ≤ (env.clock j).toInt)
      (sleepLoop env deadline fuel k) := by
  induction fuel generalizing k with
  | zero => trivial
  | succ fuel ih =>
      unfold sleepLoop
      split
      · exact .cancelled
      split
      · exact .systemError
      split
      · rename_i hlate
        exact ⟨k + 1, Nat.lt_succ_self _, Nat.lt_succ_self _, hlate⟩
      split
      · exact .systemError
      refine (ih (k + 3)).mono id fun k' hlater => ?_
      obtain ⟨j, hfrom, hto, hlate⟩ := hlater
      exact ⟨j, by omega, hto, hlate⟩

/-- A sleep is not over before its time. -/
theorem runSleep_ends {duration : Nat} :
    TaskEnds (2 ^ 63 ≤ (env.clock k).toInt + duration)
      (fun k' => ∃ j, k < j ∧ j < k'
        ∧ (env.clock k).toInt + duration ≤ (env.clock j).toInt)
      (runSleep env duration fuel k) := by
  unfold runSleep
  split
  · exact .systemError
  rename_i hstart
  have hnonneg : 0 ≤ (env.clock k).toInt :=
    Int64.le_iff_toInt_le.mp (Int64.not_lt.mp hstart)
  by_cases hclock : (env.clock k).toInt + duration < 2 ^ 63
  · have hfits : fittingInt64 ((env.clock k).toInt + duration)
        = .ok ((env.clock k).toInt + duration) := if_pos ⟨by omega, hclock⟩
    rw [hfits]
    refine (sleepLoop_ends (k + 1)).mono id fun k' hlater => ?_
    obtain ⟨j, hfrom, hto, hlate⟩ := hlater
    exact ⟨j, by omega, hto, hlate⟩
  · have hfault : fittingInt64 ((env.clock k).toInt + duration)
        = .error .overflow := if_neg fun h => hclock h.2
    rw [hfault]
    exact Int.not_lt.mp hclock

-- =========================================== Fibonacci and hash

/-- The loop carries two neighbours. -/
theorem fibonacciLoop_eq (rounds n : Nat)
    (hword : Nat.fib (n + 1 + rounds) < 2 ^ 64) :
    fibonacciLoop rounds (Nat.fib n) (Nat.fib (n + 1))
      = .ok (Nat.fib (n + 1 + rounds)) := by
  induction rounds generalizing n with
  | zero => rfl
  | succ rounds ih =>
      have hlast : n + 1 + (rounds + 1) = n + 1 + 1 + rounds := by omega
      rw [hlast] at hword ⊢
      have hnext : Nat.fib n + Nat.fib (n + 1) < 2 ^ 64 := by
        rw [← Nat.fib_add_two]
        exact Nat.lt_of_le_of_lt (Nat.fib_mono (by omega)) hword
      unfold fibonacciLoop
      rw [fitting_ok hnext, ok_bind, ← Nat.fib_add_two]
      exact ih (n + 1) hword

/-- Every number within the limit fits its word. -/
theorem fib_word (h : number ≤ fibonacciMax) : Nat.fib number < 2 ^ 64 :=
  Nat.lt_of_le_of_lt (Nat.fib_mono h) (by decide +kernel)

theorem fibonacci_eq (h : number ≤ fibonacciMax) :
    fibonacci number = .ok (Nat.fib number) := by
  unfold fibonacci
  cases number with
  | zero => rfl
  | succ n =>
      have hindex : 0 + 1 + n = n + 1 := by omega
      have hword : Nat.fib (0 + 1 + n) < 2 ^ 64 := by
        rw [hindex]
        exact fib_word h
      have hloop : fibonacciLoop n 0 1 = .ok (Nat.fib (0 + 1 + n)) :=
        fibonacciLoop_eq n 0 hword
      rw [hindex] at hloop
      show (fibonacciLoop n 0 1 >>= _) = _
      rw [hloop]
      rfl

theorem hashBytes_eq : hashBytes arguments = .ofNat (fnv1a arguments) := by
  have hfold (hash : UInt64) :
      (arguments.foldl
        (fun hash byte => (hash ^^^ byte.toUInt64) * 1099511628211)
          hash).toNat
        = arguments.foldl (fun hash byte =>
          (hash ^^^ byte.toNat) * 1099511628211 % 2 ^ 64) hash.toNat := by
    induction arguments generalizing hash with
    | nil => rfl
    | cons byte rest ih =>
        rw [List.foldl_cons, List.foldl_cons, ih, UInt64.toNat_mul,
          UInt64.toNat_xor, UInt8.toNat_toUInt64]
        rfl
  have hvalue : (hashBytes arguments).toNat = fnv1a arguments := hfold _
  rw [← hvalue, UInt64.ofNat_toNat]

-- ====================================================== numbers

/-- The number of a task is parsed if the task takes its arguments. -/
theorem taskNumber_eq : taskNumber type arguments
    = if type.Takes arguments then .ok (type.numberIn arguments)
      else .error (.status .invalidArgument) := by
  have hparse (limit : Nat) (hlimit : limit < 2 ^ 64) :
      parseNumber limit arguments 0 = .ok
        (if DecimalIn 0 limit arguments then (true, decimalValue arguments)
          else (false, 0)) :=
    parseText_nat (numberStep_decimal hlimit) (by simp) arguments 0
  have hnumber (limit : Nat) (hlimit : limit < 2 ^ 64) :
      (exactly (parseNumber limit arguments 0) >>= fun parsed =>
        if parsed.1 then pure parsed.2
        else Except.error (TaskStop.status .invalidArgument))
      = if DecimalIn 0 limit arguments then
          .ok (decimalValue arguments)
        else .error (.status .invalidArgument) := by
    rw [hparse limit hlimit]
    split <;> rfl
  cases type with
  | hash =>
      rw [if_pos (.inl rfl)]
      rfl
  | sleep =>
      simp only [TaskType.Takes, reduceCtorEq, false_or]
      exact hnumber sleepMaxMs (by decide)
  | primeCount =>
      simp only [TaskType.Takes, reduceCtorEq, false_or]
      exact hnumber primeCountMax (by decide)
  | fibonacci =>
      simp only [TaskType.Takes, reduceCtorEq, false_or]
      exact hnumber fibonacciMax (by decide)

/-- A number the task can be about. -/
def TaskType.Fits (type : TaskType) (number : Nat) : Prop :=
  type = .hash ∨ number ≤ type.limit

theorem TaskType.Takes.fits (h : type.Takes arguments) :
    type.Fits (type.numberIn arguments) := by
  rcases h with hhash | hdecimal
  · exact .inl hhash
  · cases type with
    | hash => exact .inl rfl
    | _ => exact .inr hdecimal.2.2.2

/-- What fits a word has a short text. -/
theorem length_decimalText_word (h : number < 2 ^ 64) :
    (decimalText number).length ≤ 20 := by
  unfold decimalText
  split
  · decide
  · rw [List.length_map, List.length_reverse,
      Nat.digits_length_le_iff (by decide)]
    omega

/-- Every answer fits the result. -/
theorem TaskType.Fits.length (h : type.Fits number) :
    (type.answerTo number arguments).length < jobMaxResultSize := by
  have hshort {n : Nat} (hn : n < 2 ^ 64) :
      (sleptText ++ decimalText n).length < jobMaxResultSize
        ∧ (decimalText n).length < jobMaxResultSize := by
    have hlength := length_decimalText_word hn
    have hsize : jobMaxResultSize = 1024 := rfl
    have hslept : sleptText.length = 9 := rfl
    rw [List.length_append]
    omega
  cases type with
  | hash =>
      show (hexText _).length < _
      simp [hexText, jobMaxResultSize]
  | sleep =>
      obtain hhash | hle := h
      · cases hhash
      have hlimit : TaskType.sleep.limit = 86400000 := rfl
      exact (hshort (by omega)).1
  | primeCount =>
      obtain hhash | hle := h
      · cases hhash
      have hlimit : TaskType.primeCount.limit = 100000000 := rfl
      have hcard := Finset.card_filter_le (Finset.range (number + 1))
        (fun p => p.Prime)
      rw [Finset.card_range] at hcard
      exact (hshort (by omega)).2
  | fibonacci =>
      obtain hhash | hle := h
      · cases hhash
      exact (hshort (fib_word hle)).2

-- ======================================================== tasks

/-- A sleep has lasted by the time of a reading. -/
def TaskType.Lasts (type : TaskType) (env : TaskEnv) (number k : Nat) :
    Prop :=
  type = .sleep → ∃ j, k < j
    ∧ (env.clock k).toInt + number ≤ (env.clock j).toInt

theorem runTask_ends (h : type.Fits number) :
    TaskEnds (type = .sleep ∧ 2 ^ 63 ≤ (env.clock k).toInt + number)
      (fun done : List UInt8 × Nat =>
        done.1 = type.answerTo number arguments ∧ type.Lasts env number k)
      (runTask fuel env type number arguments k) := by
  cases type with
  | sleep =>
      refine (runSleep_ends.mono (fun hfar => ⟨rfl, hfar⟩)
        fun _ => id).bind fun k' hlater => ?_
      obtain ⟨j, hfrom, -, hlate⟩ := hlater
      exact ⟨rfl, fun _ => ⟨j, hfrom, hlate⟩⟩
  | primeCount =>
      obtain hhash | hle := h
      · cases hhash
      have hlimit : TaskType.primeCount.limit = 100000000 := rfl
      refine (countPrimes_ends (by omega) k).bind fun counted hcount => ?_
      refine ⟨?_, fun hsleep => absurd hsleep (by decide)⟩
      rw [Nat.count_eq_card_filter_range] at hcount
      exact congrArg decimalText hcount
  | fibonacci =>
      obtain hhash | hle := h
      · cases hhash
      simp only [runTask, fibonacci_eq hle]
      exact ⟨rfl, fun hsleep => absurd hsleep (by decide)⟩
  | hash =>
      refine ⟨?_, fun hsleep => absurd hsleep (by decide)⟩
      rw [hashBytes_eq]
      rfl

/-- The environment lets a run come to its end. -/
structure TaskEnv.Patient (env : TaskEnv) : Prop where
  calm : ∀ k, env.cancel k = false
  running : ∀ k, 0 ≤ env.clock k
  naps : ∀ k, env.nap k ≠ .failed
  passes : ∃ k, ∀ j, k ≤ j →
    (env.clock 1).toInt + sleepMaxMs ≤ (env.clock j).toInt

theorem sleepLoop_returns {deadline : Int} {last : Nat} (h : env.Patient)
    (hlast : ∀ j, last ≤ j → deadline ≤ (env.clock j).toInt)
    (hfuel : last + 2 ≤ k + 3 * fuel) (hpos : fuel ≠ 0) :
    ∃ k', sleepLoop env deadline fuel k = .ok k' := by
  induction fuel generalizing k with
  | zero => exact absurd rfl hpos
  | succ fuel ih =>
      have hrunning : ¬ env.clock (k + 1) < 0 :=
        Int64.not_lt.mpr (h.running _)
      unfold sleepLoop
      simp only [h.calm, Bool.false_eq_true, if_false, if_neg hrunning,
        if_neg (h.naps _)]
      split
      · exact ⟨_, rfl⟩
      · rename_i hearly
        have hbefore : k + 1 < last := Nat.not_le.mp fun hle =>
          hearly (hlast _ hle)
        exact ih (by omega) (by omega)

theorem runTask_returns (h : env.Patient) (hfits : type.Fits number) :
    ∃ enough, ∀ fuel, enough ≤ fuel →
      ∃ done, runTask fuel env type number arguments 1 = .ok done := by
  cases type with
  | sleep =>
      obtain hhash | hle := hfits
      · cases hhash
      have hlimit : TaskType.sleep.limit = sleepMaxMs := rfl
      rw [hlimit] at hle
      obtain ⟨last, hpasses⟩ := h.passes
      refine ⟨last + 1, fun fuel hfuel => ?_⟩
      have hstart : ¬ env.clock 1 < 0 := Int64.not_lt.mpr (h.running 1)
      have hnonneg : 0 ≤ (env.clock 1).toInt :=
        Int64.le_iff_toInt_le.mp (h.running 1)
      have hword := (env.clock last).toInt_lt
      have hfar := hpasses last (Nat.le_refl _)
      have hfitting : fittingInt64 ((env.clock 1).toInt + number)
          = .ok ((env.clock 1).toInt + number) :=
        if_pos ⟨by omega, by omega⟩
      obtain ⟨k', hloop⟩ := @sleepLoop_returns env fuel 2
        ((env.clock 1).toInt + number) last h
        (fun j hj => by have := hpasses j hj; omega) (by omega) (by omega)
      refine ⟨(sleptText ++ decimalText number, k'), ?_⟩
      simp only [runTask, runSleep, if_neg hstart, hfitting, exactly, ok_bind,
        hloop]
      rfl
  | primeCount =>
      obtain hhash | hle := hfits
      · cases hhash
      have hlimit : TaskType.primeCount.limit = 100000000 := rfl
      refine ⟨number + 1, fun fuel hfuel => ?_⟩
      obtain ⟨k', hcount⟩ := countPrimes_spec h.calm (by omega) hfuel 1
      refine ⟨(decimalText (Nat.count Nat.Prime (number + 1)), k'), ?_⟩
      simp only [runTask, hcount, ok_bind]
      rfl
  | fibonacci =>
      obtain hhash | hle := hfits
      · cases hhash
      refine ⟨0, fun fuel _ => ⟨(decimalText (Nat.fib number), 1), ?_⟩⟩
      simp only [runTask, fibonacci_eq hle, exactly, ok_bind]
      rfl
  | hash => exact ⟨0, fun fuel _ => ⟨_, rfl⟩⟩

-- ================================================= the executor

/-- Tasks that have an answer. -/
theorem taskAnswer_some (h : taskAnswer taskType arguments = some text) :
    arguments.length ≤ jobMaxArgumentSize
      ∧ ∃ type, TaskType.ofCode taskType = some type
        ∧ type.Takes arguments
        ∧ text = type.answerTo (type.numberIn arguments) arguments := by
  unfold taskAnswer at h
  split at h
  · cases h
  rename_i hsize
  obtain ⟨type, htype, hanswer⟩ := Option.bind_eq_some_iff.mp h
  unfold TaskType.answer at hanswer
  split at hanswer
  · rename_i htakes
    refine ⟨Nat.not_lt.mp hsize, type, htype, htakes, ?_⟩
    cases hanswer
    rfl
  · cases hanswer

/-- An executor that gets to run the task. -/
theorem taskExecute_eq (hsize : arguments.length ≤ jobMaxArgumentSize)
    (htype : TaskType.ofCode taskType = some type)
    (htakes : type.Takes arguments) :
    taskExecute fuel env taskType arguments
      = if env.cancel 0 then .error (.status .cancelled)
        else do
          let (text, k) ← runTask fuel env type (type.numberIn arguments)
            arguments 1
          if text.length ≥ jobMaxResultSize then .error (.status .systemError)
          else if env.cancel k then .error (.status .cancelled)
          else return text := by
  unfold taskExecute
  rw [if_neg (Nat.not_lt.mpr hsize)]
  simp only [htype, taskNumber_eq, if_pos htakes, ok_bind]

/-- A task without an answer is refused. -/
theorem taskExecute_refuses (h : taskAnswer taskType arguments = none) :
    taskExecute fuel env taskType arguments
        = .error (.status .invalidArgument)
      ∨ env.cancel 0 = true
        ∧ taskExecute fuel env taskType arguments
          = .error (.status .cancelled) := by
  unfold taskAnswer at h
  unfold taskExecute
  split at h
  · rename_i hsize
    exact .inl (if_pos hsize)
  rename_i hsize
  rw [if_neg hsize]
  cases hcancel : env.cancel 0 with
  | true => exact .inr ⟨rfl, rfl⟩
  | false =>
      refine .inl ?_
      rw [if_neg (by decide)]
      cases htype : TaskType.ofCode taskType with
      | none => rfl
      | some type =>
          have hrefused : ¬ type.Takes arguments := by
            intro htakes
            rw [htype, Option.bind_some, TaskType.answer, if_pos htakes] at h
            cases h
          simp only [taskNumber_eq, if_neg hrefused]
          rfl

/-- A task with an answer is answered, if the run returns. -/
theorem taskExecute_ends (h : taskAnswer taskType arguments = some text) :
    TaskEnds (2 ^ 63 ≤ (env.clock 1).toInt + sleepMaxMs)
      (fun result => result = text
        ∧ (taskType = TaskType.sleep.code → ∃ j, 1 < j
          ∧ (env.clock 1).toInt + decimalValue arguments
            ≤ (env.clock j).toInt))
      (taskExecute fuel env taskType arguments) := by
  obtain ⟨hsize, type, htype, htakes, rfl⟩ := taskAnswer_some h
  rw [taskExecute_eq hsize htype htakes]
  split
  · exact .cancelled
  -- of the four, only a sleep reads the clock
  have hfar : type = .sleep ∧ (2 ^ 63 : Int)
      ≤ (env.clock 1).toInt + type.numberIn arguments →
      (2 ^ 63 : Int) ≤ (env.clock 1).toInt + sleepMaxMs := by
    rintro ⟨rfl, hfar⟩
    rcases htakes.fits with hhash | hle
    · cases hhash
    · have hlimit : TaskType.sleep.limit = sleepMaxMs := rfl
      omega
  refine (runTask_ends htakes.fits).mono hfar (fun _ => id) |>.bind ?_
  rintro ⟨result, k⟩ ⟨hresult, hlasts⟩
  dsimp only at hresult ⊢
  rw [hresult, if_neg (Nat.not_le.mpr htakes.fits.length)]
  split
  · exact .cancelled
  refine ⟨rfl, fun hsleep => ?_⟩
  obtain rfl : type = .sleep := by
    rw [hsleep, TaskType.ofCode_code] at htype
    exact (Option.some.inj htype).symm
  exact hlasts rfl

theorem taskExecute_returns (h : taskAnswer taskType arguments = some text)
    (patient : env.Patient) :
    ∃ enough, ∀ fuel, enough ≤ fuel →
      taskExecute fuel env taskType arguments = .ok text := by
  obtain ⟨hsize, type, htype, htakes, rfl⟩ := taskAnswer_some h
  obtain ⟨enough, hreturns⟩ := @runTask_returns env (type.numberIn arguments)
    arguments type patient htakes.fits
  refine ⟨enough, fun fuel hfuel => ?_⟩
  obtain ⟨⟨result, k⟩, hrun⟩ := hreturns fuel hfuel
  have hends := @runTask_ends env (type.numberIn arguments) fuel 1 arguments
    type htakes.fits
  rw [hrun] at hends
  obtain ⟨rfl, -⟩ := hends
  rw [taskExecute_eq hsize htype htakes, patient.calm, if_neg (by decide),
    hrun]
  simp only [ok_bind, if_neg (Nat.not_le.mpr htakes.fits.length),
    patient.calm]
  rfl

/-- The executor, in every environment: a task without an answer (an unknown
type, too many bytes, anything but a decimal number within the limit) is
refused, unless it is cancelled first. A run of any other task that returns a
result returns the answer: the time slept and not a moment before it has
passed, the number of primes up to the number, the Fibonacci number, the
FNV-1a checksum. Otherwise it was cancelled, the clock or a nap failed, or it
has not ended; nothing overflows while the clock is a day away from the end of
its range. And if it is not cancelled, and time passes, it ends with the
answer. -/
theorem task_execution_exact (env : TaskEnv) (taskType : UInt16)
    (arguments : List UInt8) :
    (taskAnswer taskType arguments = none → ∀ fuel,
      taskExecute fuel env taskType arguments
          = .error (.status .invalidArgument)
        ∨ env.cancel 0 = true
          ∧ taskExecute fuel env taskType arguments
            = .error (.status .cancelled))
    ∧ ∀ text, taskAnswer taskType arguments = some text →
      (∀ fuel, TaskEnds (2 ^ 63 ≤ (env.clock 1).toInt + sleepMaxMs)
        (fun result => result = text
          ∧ (taskType = TaskType.sleep.code → ∃ j, 1 < j
            ∧ (env.clock 1).toInt + decimalValue arguments
              ≤ (env.clock j).toInt))
        (taskExecute fuel env taskType arguments))
      ∧ (env.Patient → ∃ enough, ∀ fuel, enough ≤ fuel →
        taskExecute fuel env taskType arguments = .ok text) :=
  ⟨fun hnone _ => taskExecute_refuses hnone, fun _ hanswer =>
    ⟨fun _ => taskExecute_ends hanswer, taskExecute_returns hanswer⟩⟩

/-- A day passes between the first reading of the clock and the next. -/
def calmDay : TaskEnv :=
  { cancel := fun _ => false
    clock := fun k => if k ≤ 1 then 0 else 86400000
    nap := fun _ => .done }

theorem calmDay_patient : calmDay.Patient where
  calm _ := rfl
  running k := by
    unfold calmDay
    dsimp only
    split <;> decide
  naps _ := nofun
  passes := by
    refine ⟨2, fun j hj => ?_⟩
    have hlater : calmDay.clock j = 86400000 :=
      if_neg (Nat.not_le.mpr hj)
    rw [hlater]
    decide

/-- The tenth Fibonacci number. -/
theorem task_execution_exact_fibonacci :
    ∃ enough, ∀ fuel, enough ≤ fuel →
      taskExecute fuel calmDay TaskType.fibonacci.code (decimalText 10)
        = .ok (decimalText 55) :=
  ((task_execution_exact calmDay TaskType.fibonacci.code (decimalText 10)).2
    (decimalText 55) (by decide +kernel)).2 calmDay_patient

/-- OK comes with a result. -/
theorem taskExecute_status_ne :
    taskExecute fuel env taskType arguments ≠ .error (.status .ok) := by
  intro h
  cases hanswer : taskAnswer taskType arguments with
  | none =>
      rcases @taskExecute_refuses env fuel arguments taskType hanswer with
        hrefused | ⟨-, hcancelled⟩
      · rw [hrefused] at h
        cases h
      · rw [hcancelled] at h
        cases h
  | some answer =>
      have hends := @taskExecute_ends env fuel arguments answer taskType
        hanswer
      rw [h] at hends
      rcases hends with hends | hends <;> cases hends

/-- What the executor returns is the answer. -/
theorem taskExecute_ok
    (h : taskExecute fuel env taskType arguments = .ok text) :
    taskAnswer taskType arguments = some text := by
  cases hanswer : taskAnswer taskType arguments with
  | none =>
      rcases @taskExecute_refuses env fuel arguments taskType hanswer with
        hrefused | ⟨-, hcancelled⟩
      · rw [hrefused] at h
        cases h
      · rw [hcancelled] at h
        cases h
  | some answer =>
      have hends := @taskExecute_ends env fuel arguments answer taskType
        hanswer
      rw [h] at hends
      rw [hends.1]

end Faultline
