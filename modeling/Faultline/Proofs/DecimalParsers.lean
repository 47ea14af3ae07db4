/-
The decimal parsers accept their languages.

Each loop's step is a `DecimalStep` up to the greatest number its parser
accepts, whatever way it guards against overflow; the library's rule for such
loops then gives what every parser does on every text.
-/
import Faultline.Cli.Arguments
import Faultline.Worker.Task

namespace Faultline

open Lib

variable {c : UInt8} {value n limit : Nat}

theorem notDigit_iff : notDigit c = true ↔ ¬ IsDigit c := by
  simp only [notDigit, IsDigit, Bool.or_eq_true, decide_eq_true_eq, not_and,
    UInt8.not_le, gt_iff_lt]
  constructor
  · rintro (hlow | hhigh) hge
    · exact absurd hge (UInt8.not_le.mpr hlow)
    · exact hhigh
  · intro h
    by_cases hlow : c < 48
    · exact .inl hlow
    · exact .inr (h (UInt8.not_lt.mp hlow))

theorem notDigit_false (h : IsDigit c) : notDigit c = false := by
  rw [← Bool.not_eq_true, notDigit_iff]
  exact not_not_intro h

-- ======================================================== steps

theorem portStep_decimal :
    DecimalStep (fun value n => value = n) 0xffff portStep where
  takes := by
    rintro value n c rfl hle hdigit hfits
    refine ⟨_, ?_, rfl⟩
    unfold digitValue at hfits ⊢
    simp only [portStep, notDigit_false hdigit, Bool.false_eq_true, if_false]
    rw [fitting_ok (by omega), ok_bind, fitting_ok (by omega),
      ok_bind, if_neg (by omega)]
    rfl
  refuses := by
    rintro value n c rfl hle hrefused
    unfold portStep
    by_cases hdigit : IsDigit c
    · have hnine := digitValue_le hdigit
      have hlarge := hrefused hdigit
      unfold digitValue at hlarge hnine
      simp only [notDigit_false hdigit, Bool.false_eq_true, if_false]
      rw [fitting_ok (by omega), ok_bind, fitting_ok (by omega),
        ok_bind, if_pos (by omega)]
      rfl
    · rw [if_pos (notDigit_iff.mpr hdigit)]

theorem durationStep_decimal :
    DecimalStep (fun (value : Int) n => value = n) (2 ^ 31 - 1)
      durationStep where
  takes := by
    rintro value n c rfl hle hdigit hfits
    have hlow : 48 ≤ c.toNat := hdigit.1
    have hhigh : c.toNat ≤ 57 := hdigit.2
    refine ⟨_, ?_, rfl⟩
    unfold digitValue at hfits ⊢
    unfold durationStep
    rw [fittingInt_ok (by omega) (by omega), ok_bind, if_neg,
      fittingInt_ok (by omega) (by omega), ok_bind,
      fittingInt_ok (by omega) (by omega), ok_bind]
    · show Except.ok (some _) = Except.ok (some _)
      congr 2
      omega
    · simp only [Bool.or_eq_true, decide_eq_true_eq, not_or, not_lt]
      omega
  refuses := by
    rintro value n c rfl hle hrefused
    have hbyte := c.toNat_lt
    unfold durationStep
    rw [fittingInt_ok (by omega) (by omega), ok_bind, if_pos]
    · rfl
    · simp only [Bool.or_eq_true, decide_eq_true_eq]
      by_cases hdigit : IsDigit c
      · have hlow : 48 ≤ c.toNat := hdigit.1
        have hlarge := hrefused hdigit
        unfold digitValue at hlarge
        omega
      · have hout : ¬ (48 ≤ c.toNat ∧ c.toNat ≤ 57) := hdigit
        omega

theorem checkedStep_decimal (hlimit : 9 ≤ limit) :
    DecimalStep (fun value n => value = n) limit (checkedStep limit) where
  takes := by
    rintro value n c rfl hle hdigit hfits
    have hnine := digitValue_le hdigit
    refine ⟨_, ?_, rfl⟩
    unfold digitValue at hfits hnine ⊢
    unfold checkedStep
    rw [notDigit_false hdigit, if_neg (by decide), if_neg (by omega),
      fitting_ok (by omega), ok_bind, fitting_ok (by omega),
      ok_bind]
    rfl
  refuses := by
    rintro value n c rfl hle hrefused
    unfold checkedStep
    by_cases hdigit : IsDigit c
    · have hnine := digitValue_le hdigit
      have hlarge := hrefused hdigit
      unfold digitValue at hlarge hnine
      rw [notDigit_false hdigit, if_neg (by decide), if_pos (by omega)]
    · rw [if_pos (notDigit_iff.mpr hdigit)]

theorem numberStep_decimal (hlimit : limit < 2 ^ 64) :
    DecimalStep (fun value n => value = n) limit (numberStep limit) where
  takes := by
    rintro value n c rfl hle hdigit hfits
    refine ⟨_, ?_, rfl⟩
    unfold digitValue at hfits ⊢
    unfold numberStep
    rw [notDigit_false hdigit, if_neg (by decide)]
    dsimp only
    rw [if_neg, fitting_ok (by omega), ok_bind, fitting_ok (by omega),
      ok_bind]
    · rfl
    · simp only [Bool.or_eq_true, Bool.and_eq_true, decide_eq_true_eq,
        beq_iff_eq, not_or, not_and, not_lt]
      omega
  refuses := by
    rintro value n c rfl hle hrefused
    unfold numberStep
    by_cases hdigit : IsDigit c
    · have hnine := digitValue_le hdigit
      have hlarge := hrefused hdigit
      unfold digitValue at hlarge hnine
      rw [notDigit_false hdigit, if_neg (by decide)]
      dsimp only
      rw [if_pos]
      simp only [Bool.or_eq_true, Bool.and_eq_true, decide_eq_true_eq,
        beq_iff_eq]
      omega
    · rw [if_pos (notDigit_iff.mpr hdigit)]

-- ====================================================== parsers

/-- What a parser made of a digit loop does on every text. -/
theorem parseText_decimal {α : Type} {stands : α → Nat → Prop}
    {step : α → UInt8 → Except Fault (Option α)} {zero : α}
    {passes : α → Bool} {low : Nat} (hstep : DecimalStep stands limit step)
    (hzero : stands zero 0)
    (hpasses : ∀ value n, stands value n → (passes value = true ↔ low ≤ n))
    (text : List UInt8) (cell : α) :
    (DecimalIn low limit text → ∃ value, stands value (decimalValue text)
        ∧ parseText step zero passes text cell = .ok (true, value))
      ∧ (¬ DecimalIn low limit text →
        parseText step zero passes text cell = .ok (false, cell)) := by
  by_cases hempty : text = []
  · subst hempty
    exact ⟨fun h => absurd rfl h.1, fun _ => rfl⟩
  have hnonempty : text.isEmpty = false := by
    simpa using hempty
  by_cases htext : (∀ c ∈ text, IsDigit c) ∧ decimalValue text ≤ limit
  · obtain ⟨value, hscan, hvalue⟩ :=
      scanText_takes hstep hzero htext.1 htext.2
    have hlow := hpasses value _ hvalue
    refine ⟨fun h => ⟨value, hvalue, ?_⟩, fun h => ?_⟩
    · simp [parseText, hnonempty, hscan, hlow.mpr h.2.2.1]
    · have hfails : passes value = false := by
        rw [← Bool.not_eq_true, hlow]
        exact fun hle => h ⟨hempty, htext.1, hle, htext.2⟩
      simp [parseText, hnonempty, hscan, hfails]
  · refine ⟨fun h => absurd ⟨h.2.1, h.2.2.2⟩ htext, fun _ => ?_⟩
    have hscan := scanText_refuses hstep hzero (Nat.zero_le _)
      fun hdigits => Nat.not_le.mp fun hle => htext ⟨hdigits, hle⟩
    simp [parseText, hnonempty, hscan]

/-- The same, for parsers whose values are the numbers. -/
theorem parseText_nat {step : Nat → UInt8 → Except Fault (Option Nat)}
    {passes : Nat → Bool} {low : Nat}
    (hstep : DecimalStep (fun value n => value = n) limit step)
    (hpasses : ∀ n, passes n = true ↔ low ≤ n) (text : List UInt8)
    (cell : Nat) :
    parseText step 0 passes text cell
      = .ok (if DecimalIn low limit text then (true, decimalValue text)
        else (false, cell)) := by
  have hstands (value n : Nat) (h : value = n) :
      passes value = true ↔ low ≤ n := by
    rw [h]
    exact hpasses n
  obtain ⟨htaken, hrefused⟩ := parseText_decimal hstep rfl hstands text cell
  split
  · rename_i h
    obtain ⟨value, rfl, hparse⟩ := htaken h
    exact hparse
  · rename_i h
    exact hrefused h

/-- On every text, each parser succeeds exactly when the text is a number in
decimal digits within the parser's bounds, stores that number, and otherwise
leaves its output alone; no operation overflows on the way. -/
theorem decimal_parsers_exact (text : List UInt8) :
    (∀ port, parsePort text port = .ok
        (if DecimalIn 1 65535 text then (true, decimalValue text)
          else (false, port)))
      ∧ (∀ durationMs, parseDurationMs text durationMs = .ok
        (if DecimalIn 1 (2 ^ 31 - 1) text
          then (true, (decimalValue text : Int)) else (false, durationMs)))
      ∧ (∀ retries, parseRetries text retries = .ok
        (if DecimalIn 0 (2 ^ 32 - 1) text then (true, decimalValue text)
          else (false, retries)))
      ∧ (∀ jobId, parseJobId text jobId = .ok
        (if DecimalIn 1 (2 ^ 64 - 1) text then (true, decimalValue text)
          else (false, jobId)))
      ∧ ∀ (limit : UInt64) (number : Nat),
        parseNumber limit.toNat text number = .ok
          (if DecimalIn 0 limit.toNat text then (true, decimalValue text)
            else (false, number)) := by
  have hnonzero (n : Nat) : (n != 0) = true ↔ 1 ≤ n := by
    rw [bne_iff_ne]
    omega
  refine ⟨fun port => parseText_nat portStep_decimal hnonzero text port,
    fun durationMs => ?_,
    fun retries => parseText_nat (checkedStep_decimal (by decide))
      (by simp) text retries,
    fun jobId => parseText_nat (checkedStep_decimal (by decide)) hnonzero text
      jobId,
    fun limit number => parseText_nat (numberStep_decimal limit.toNat_lt)
      (by simp) text number⟩
  have hsigned (value : Int) (n : Nat) (h : value = n) :
      (value != 0) = true ↔ 1 ≤ n := by
    rw [h, bne_iff_ne]
    omega
  obtain ⟨htaken, hrefused⟩ :=
    parseText_decimal durationStep_decimal rfl hsigned text durationMs
  split
  · rename_i h
    obtain ⟨value, rfl, hparse⟩ := htaken h
    exact hparse
  · rename_i h
    exact hrefused h

end Faultline
