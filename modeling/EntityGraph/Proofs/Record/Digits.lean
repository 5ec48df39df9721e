import EntityGraph.Json.Writer
import EntityGraph.Record.Compare
import Mathlib.Data.Int.Notation
import Mathlib.Data.Nat.Notation

/-!
The digits of integers among texts. They are no timestamp, so they compare character by character
on every field, and the only text that equals them is they themselves.
-/

namespace EntityGraph

/-- The digits of an integer. -/
def digits (n : ℤ) : String := Json.compact (.int n)

theorem toList_digits_natCast (m : ℕ) : (digits m).toList = Nat.toDigits 10 m :=
  String.toList_ofList

theorem toList_digits_negSucc (m : ℕ) :
    (digits (.negSucc m)).toList = '-' :: Nat.toDigits 10 (m + 1) := by
  have hdigits : digits (.negSucc m) = "-" ++ String.ofList (Nat.toDigits 10 (m + 1)) := rfl
  simp [hdigits, String.toList_append]

namespace Timestamp

theorem mark?_eq_none {m : Char} {cs : List Char} (h : m ∉ cs) : mark? m cs = none := by
  cases cs with
  | nil => rfl
  | cons c cs =>
    have hc : c ≠ m := fun hc => h (hc ▸ List.mem_cons_self)
    rw [mark?, if_neg hc]

theorem suffix_of_pair? {cs rest : List Char} {n : ℕ} (h : pair? cs = some (n, rest)) :
    rest <:+ cs := by
  match cs with
  | [] | [_] => cases h
  | a :: b :: cs =>
    simp only [pair?, Option.bind_eq_bind, Option.bind_eq_some_iff, Option.some.injEq,
      Prod.mk.injEq] at h
    obtain ⟨-, -, -, -, -, rfl⟩ := h
    exact ⟨[a, b], rfl⟩

/-- A date is written with dashes. -/
theorem parse?_eq_none {text : String} (h : '-' ∉ text.toList) : parse? text = none := by
  unfold parse?
  cases hcentury : pair? text.toList with
  | none => rfl
  | some p =>
    obtain ⟨century, cs⟩ := p
    cases hyears : pair? cs with
    | none => simp only [Option.bind_eq_bind, Option.bind_some, hyears, Option.bind_none]
    | some q =>
      obtain ⟨years, ds⟩ := q
      have hds : '-' ∉ ds := fun hmem =>
        h ((suffix_of_pair? hcentury).subset ((suffix_of_pair? hyears).subset hmem))
      simp only [Option.bind_eq_bind, Option.bind_some, hyears, mark?_eq_none hds,
        Option.bind_none]

/-- The digits of an integer are no timestamp. -/
theorem parse?_digits (n : ℤ) : parse? (digits n) = none := by
  cases n with
  | ofNat m =>
    refine parse?_eq_none fun hmem => ?_
    have hdigit := Nat.isDigit_of_mem_toDigits (by decide) (by decide)
      (toList_digits_natCast m ▸ hmem)
    exact absurd hdigit (by decide)
  | negSucc m =>
    have hpair : pair? (digits (.negSucc m)).toList = none := by
      rw [toList_digits_negSucc]
      cases Nat.toDigits 10 (m + 1) <;> rfl
    unfold parse?
    rw [hpair]
    rfl

end Timestamp

theorem ValueKind.equal_digits (kind : ValueKind) (k : String) (n : ℤ) :
    kind.equal (.str k) (.str (digits n)) = decide (k = digits n) := by
  have htexts : kind.compareTexts k (digits n) = compare k (digits n) := by
    cases kind with
    | plain => rfl
    | timestamp =>
      simp only [compareTexts, Timestamp.compareTexts?, Timestamp.parse?_digits]
      cases Timestamp.parse? k <;> rfl
  rw [Bool.eq_iff_iff, decide_eq_true_iff]
  simp [equal, Json.same, compare?, htexts]

end EntityGraph
