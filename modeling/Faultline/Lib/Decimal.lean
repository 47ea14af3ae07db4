/-
Decimal numbers in text, and loops that read them.

`decimalFrom n text` is the value of a text read digit by digit behind a
value `n`. A loop reads a text with a step that may refuse a character; a
step is a `DecimalStep` up to a limit when it takes exactly the digits that
keep the value within the limit. Then the loop takes exactly the texts of
digits whose value is within the limit (`scanText_takes`, `scanText_refuses`).
-/
import Faultline.Lib.Exact

namespace Lib

/-- An ASCII digit. -/
def IsDigit (c : UInt8) : Prop := 48 ≤ c ∧ c ≤ 57

instance {c : UInt8} : Decidable (IsDigit c) := inferInstanceAs (Decidable (_ ∧ _))

def digitValue (c : UInt8) : Nat := c.toNat - 48

/-- The value of a text behind a value. -/
def decimalFrom (n : Nat) (text : List UInt8) : Nat :=
  text.foldl (fun value c => value * 10 + digitValue c) n

/-- The value of a text. -/
def decimalValue (text : List UInt8) : Nat := decimalFrom 0 text

/-- A number in decimal digits, within bounds. -/
def DecimalIn (low high : Nat) (text : List UInt8) : Prop :=
  text ≠ [] ∧ (∀ c ∈ text, IsDigit c) ∧ low ≤ decimalValue text
    ∧ decimalValue text ≤ high

instance {low high : Nat} {text : List UInt8} :
    Decidable (DecimalIn low high text) :=
  inferInstanceAs (Decidable (_ ∧ _ ∧ _ ∧ _))

variable {α : Type}

/-- Read a text character by character, until one is refused. -/
def scanText (step : α → UInt8 → Except Fault (Option α)) :
    List UInt8 → α → Except Fault (Option α)
  | [], value => .ok (some value)
  | c :: text, value =>
      match step value c with
      | .error fault => .error fault
      | .ok none => .ok none
      | .ok (some value) => scanText step text value

/-- A step that reads digits up to a limit, on values that stand for
numbers. -/
structure DecimalStep (stands : α → Nat → Prop) (limit : Nat)
    (step : α → UInt8 → Except Fault (Option α)) : Prop where
  takes : ∀ {value n c}, stands value n → n ≤ limit → IsDigit c →
    n * 10 + digitValue c ≤ limit →
    ∃ value', step value c = .ok (some value')
      ∧ stands value' (n * 10 + digitValue c)
  refuses : ∀ {value n c}, stands value n → n ≤ limit →
    (IsDigit c → limit < n * 10 + digitValue c) → step value c = .ok none

theorem le_decimalFrom (n : Nat) (text : List UInt8) :
    n ≤ decimalFrom n text := by
  induction text generalizing n with
  | nil => exact Nat.le_refl n
  | cons c text ih =>
      have htail := ih (n * 10 + digitValue c)
      show n ≤ decimalFrom (n * 10 + digitValue c) text
      omega

theorem digitValue_le {c : UInt8} (h : IsDigit c) : digitValue c ≤ 9 := by
  have hle : c.toNat ≤ 57 := h.2
  unfold digitValue
  omega

variable {stands : α → Nat → Prop} {limit n : Nat} {value : α}
  {step : α → UInt8 → Except Fault (Option α)} {text : List UInt8}

/-- A text of digits whose value is within the limit is read. -/
theorem scanText_takes (hstep : DecimalStep stands limit step)
    (hvalue : stands value n) (hdigits : ∀ c ∈ text, IsDigit c)
    (hlimit : decimalFrom n text ≤ limit) :
    ∃ value', scanText step text value = .ok (some value')
      ∧ stands value' (decimalFrom n text) := by
  induction text generalizing value n with
  | nil => exact ⟨value, rfl, hvalue⟩
  | cons c text ih =>
      have htail : decimalFrom (n * 10 + digitValue c) text ≤ limit := hlimit
      have hnext := le_decimalFrom (n * 10 + digitValue c) text
      obtain ⟨next, htaken, hnextValue⟩ := hstep.takes hvalue (by omega)
        (hdigits c (List.mem_cons_self ..)) (by omega)
      simp only [scanText, htaken]
      exact ih hnextValue (fun d hd => hdigits d (List.mem_cons_of_mem _ hd))
        htail

/-- Every other text is refused. -/
theorem scanText_refuses (hstep : DecimalStep stands limit step)
    (hvalue : stands value n) (hle : n ≤ limit)
    (hother : (∀ c ∈ text, IsDigit c) → limit < decimalFrom n text) :
    scanText step text value = .ok none := by
  induction text generalizing value n with
  | nil =>
      have hlt : limit < n := hother (by simp)
      omega
  | cons c text ih =>
      by_cases htaken : IsDigit c ∧ n * 10 + digitValue c ≤ limit
      · obtain ⟨next, hok, hnextValue⟩ :=
          hstep.takes hvalue hle htaken.1 htaken.2
        simp only [scanText, hok]
        refine ih hnextValue htaken.2 fun hdigits => ?_
        refine hother fun d hd => ?_
        rcases List.mem_cons.mp hd with rfl | hd
        · exact htaken.1
        · exact hdigits d hd
      · have hnone : step value c = .ok none :=
          hstep.refuses hvalue hle fun hdigit =>
            Nat.not_le.mp fun hfits => htaken ⟨hdigit, hfits⟩
        simp only [scanText, hnone]

end Lib
