/-
Work handed over one piece at a time.

A giver sends items to a taker, who answers each with two notices: it has
begun, it has finished. The giver never has more than one item out. Each side
is described by what has passed its own end (`Given`, `Taken`); items and
notices travel first in, first out, so what has passed the far end is a prefix
of what has passed the near one. From the two prefixes alone the whole
exchange is in one of six places (`Given.place`), and with it which notice
comes next, and that nothing reaches a taker who is busy.
-/
import Mathlib.Data.List.Infix

namespace Lib

/-- What a taker says about an item. -/
inductive Notice where
  | begun
  | finished
deriving DecidableEq, Repr

variable {ι : Type}

/-- All notices about items that are finished. -/
def notices (items : List ι) : List (ι × Notice) :=
  items.flatMap fun item => [(item, .begun), (item, .finished)]

/-- The giver's side: the items given out, the notices heard, and the item
that is out with whether its begin was heard. -/
inductive Given (given : List ι) (heard : List (ι × Notice)) :
    Option (ι × Bool) → Prop where
  | home (all : heard = notices given) : Given given heard none
  | waiting {before : List ι} {item : ι} (last : given = before ++ [item])
      (rest : heard = notices before) : Given given heard (some (item, false))
  | begun {before : List ι} {item : ι} (last : given = before ++ [item])
      (rest : heard = notices before ++ [(item, .begun)]) :
      Given given heard (some (item, true))

/-- The taker's side: the items taken, the notices sent, and the item in
hand. -/
inductive Taken (taken : List ι) (said : List (ι × Notice)) :
    Option ι → Prop where
  | idle (all : said = notices taken) : Taken taken said none
  | busy {before : List ι} {item : ι} (last : taken = before ++ [item])
      (rest : said = notices before ++ [(item, .begun)]) :
      Taken taken said (some item)

/-- The notice a giver is ready to hear. -/
def Due : Option (ι × Bool) → ι × Notice → Prop
  | some (item, false), notice => notice = (item, .begun)
  | some (item, true), notice => notice = (item, .finished)
  | none, _ => False

variable {given taken : List ι} {heard said : List (ι × Notice)}
  {out : Option (ι × Bool)} {held : Option ι} {item : ι}
  {notice : ι × Notice}

theorem notices_snoc :
    notices (given ++ [item])
      = notices given ++ [(item, .begun), (item, .finished)] := by
  simp [notices]

theorem length_notices : (notices given).length = 2 * given.length := by
  induction given with
  | nil => rfl
  | cons item given ih =>
      simp only [notices, List.flatMap_cons, List.length_append,
        List.length_cons] at ih ⊢
      rw [ih, List.length_nil]
      omega

-- ================================================== own steps

theorem Given.give (h : Given given heard none) :
    Given (given ++ [item]) heard (some (item, false)) := by
  cases h with
  | home all => exact .waiting rfl all

/-- The notice that was due is heard. -/
theorem Given.hear (h : Given given heard out) (due : Due out notice) :
    Given given (heard ++ [notice])
      (if notice.2 = .begun then some (notice.1, true) else none) := by
  cases h with
  | home all => exact due.elim
  | waiting last rest =>
      obtain rfl : notice = _ := due
      exact .begun last (by rw [rest])
  | begun last rest =>
      obtain rfl : notice = _ := due
      refine .home ?_
      rw [rest, last, notices_snoc, List.append_assoc]
      rfl

theorem Taken.take (h : Taken taken said none) :
    Taken (taken ++ [item]) (said ++ [(item, .begun)]) (some item) := by
  cases h with
  | idle all => exact .busy rfl (by rw [all])

theorem Taken.finish (h : Taken taken said (some item)) :
    Taken taken (said ++ [(item, .finished)]) none := by
  cases h with
  | busy last rest =>
      refine .idle ?_
      rw [rest, last, notices_snoc, List.append_assoc]
      rfl

-- ==================================================== together

/-- Where an exchange can be. -/
inductive Place (given : List ι) (heard : List (ι × Notice))
    (taken : List ι) (said : List (ι × Notice)) :
    Option (ι × Bool) → Option ι → Prop where
  | rest (items : given = taken) (notices : said = heard) :
      Place given heard taken said none none
  | sent {item : ι} (items : given = taken ++ [item])
      (notices : said = heard) :
      Place given heard taken said (some (item, false)) none
  | beginning {item : ι} (items : given = taken)
      (notices : said = heard ++ [(item, .begun)]) :
      Place given heard taken said (some (item, false)) (some item)
  | working {item : ι} (items : given = taken) (notices : said = heard) :
      Place given heard taken said (some (item, true)) (some item)
  | unheard {item : ι} (items : given = taken)
      (notices : said = heard ++ [(item, .begun), (item, .finished)]) :
      Place given heard taken said (some (item, false)) none
  | finishing {item : ι} (items : given = taken)
      (notices : said = heard ++ [(item, .finished)]) :
      Place given heard taken said (some (item, true)) none

/-- Both sides together are in one of these places. The prefixes bound the
lengths against each other; the lengths leave no other case. -/
theorem Given.place (g : Given given heard out) (t : Taken taken said held)
    (items : taken <+: given) (notices : heard <+: said) :
    Place given heard taken said out held := by
  have hitems := items.length_le
  have hnotices := notices.length_le
  -- what was taken is as much as was given, or lacks the last
  have hfull (h : given.length ≤ taken.length) : given = taken :=
    (items.eq_of_length_le h).symm
  cases g with
  | home all =>
      rw [all, length_notices] at hnotices
      cases t with
      | idle all' =>
          rw [all', length_notices] at hnotices
          have heq := hfull (by omega)
          exact .rest heq (by rw [all, all', heq])
      | @busy before item last rest =>
          rw [rest, List.length_append, length_notices] at hnotices
          rw [last, List.length_append] at hitems
          simp only [List.length_singleton] at hitems hnotices
          omega
  | @waiting before item last rest =>
      rw [rest, length_notices] at hnotices
      cases t with
      | idle all =>
          rw [all, length_notices] at hnotices
          rcases List.prefix_concat_iff.mp (last ▸ items) with heq | hshort
          · have heq' : given = taken := last.trans heq.symm
            refine .unheard heq' ?_
            rw [all, ← heq', last, notices_snoc, rest]
          · have heq := hshort.eq_of_length_le (by omega)
            exact .sent (heq ▸ last) (by rw [all, rest, heq])
      | @busy before' item' last' rest' =>
          rw [rest', List.length_append, length_notices,
            List.length_singleton] at hnotices
          have heq := hfull (by
            rw [last, last', List.length_append, List.length_append]
            simp only [List.length_singleton]
            omega)
          obtain ⟨rfl, hitem⟩ := List.append_inj'
            (last.symm.trans (heq.trans last')) rfl
          cases hitem
          exact .beginning heq (by rw [rest', rest])
  | @begun before item last rest =>
      rw [rest, List.length_append, length_notices, List.length_singleton]
        at hnotices
      have hgiven : given.length = before.length + 1 := by
        rw [last, List.length_append, List.length_singleton]
      cases t with
      | idle all =>
          rw [all, length_notices] at hnotices
          have heq := hfull (by omega)
          refine .finishing heq ?_
          rw [all, ← heq, last, notices_snoc, rest, List.append_assoc]
          rfl
      | @busy before' item' last' rest' =>
          rw [rest', List.length_append, length_notices,
            List.length_singleton] at hnotices
          have heq := hfull (by
            rw [hgiven, last', List.length_append, List.length_singleton]
            omega)
          obtain ⟨rfl, hitem⟩ := List.append_inj'
            (last.symm.trans (heq.trans last')) rfl
          cases hitem
          exact .working heq (by rw [rest', rest])

/-- The next notice to arrive is the one that is due. -/
theorem Place.next (h : Place given heard taken said out held)
    (notices : heard ++ [notice] <+: said) : Due out notice := by
  have hnothing (hsame : said = heard) : False := by
    have hlength := notices.length_le
    rw [hsame, List.length_append, List.length_singleton] at hlength
    omega
  have hnext {more : List (ι × Notice)} (hsaid : said = heard ++ more) :
      [notice] <+: more := by
    rwa [hsaid, List.prefix_append_right_inj] at notices
  cases h with
  | rest items same => exact (hnothing same).elim
  | sent items same => exact (hnothing same).elim
  | beginning items said =>
      exact (List.cons_prefix_cons.mp (hnext said)).1
  | working items same => exact (hnothing same).elim
  | unheard items said =>
      exact (List.cons_prefix_cons.mp (hnext said)).1
  | finishing items said =>
      exact (List.cons_prefix_cons.mp (hnext said)).1

/-- Nothing reaches a taker that is busy. -/
theorem Place.idle (h : Place given heard taken said out held)
    (items : taken ++ [item] <+: given) : held = none := by
  have hmore := items.length_le
  rw [List.length_append, List.length_singleton] at hmore
  cases h with
  | beginning same => rw [same] at hmore; omega
  | working same => rw [same] at hmore; omega
  | _ => rfl

end Lib
