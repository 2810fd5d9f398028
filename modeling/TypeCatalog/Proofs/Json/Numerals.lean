import Mathlib.Tactic.SplitIfs
import TypeCatalog.Json.Value
import TypeCatalog.Proofs.Json.Grammar

/-! Numbers as they are written. Where digits are written before a point or an exponent, the first
of them is no zero unless it is the only one, so an integer is a number of the grammar, and so is a
finite double in either of its layouts. -/
namespace TypeCatalog

open Json.Grammar

section Digits

variable {n : Nat}

theorem isDigit_of_mem_toDigits {c : Char} (member : c ∈ Nat.toDigits 10 n) : c.isDigit = true :=
  Nat.isDigit_of_mem_toDigits (by decide) (by decide) member

/-- By induction on the number without its last digit. -/
theorem exists_toDigits_of_pos (positive : 0 < n) :
    ∃ d ds, Nat.toDigits 10 n = d :: ds ∧ d ≠ '0' := by
  induction n using Nat.strongRecOn with
  | ind n ih =>
    by_cases small : n < 10
    · have table : ∀ k : Fin 10, 0 < k.val → k.val.digitChar ≠ '0' := by decide
      exact ⟨n.digitChar, [], Nat.toDigits_of_lt_base small, table ⟨n, small⟩ positive⟩
    · obtain ⟨d, ds, front, nonzero⟩ := ih (n / 10) (by omega) (by omega)
      have last := Nat.toDigits_append_toDigits (b := 10) (n := n / 10) (d := n % 10)
        (by decide) (by omega) (by omega)
      rw [Nat.div_add_mod, front] at last
      exact ⟨d, ds ++ Nat.toDigits 10 (n % 10), last.symm, nonzero⟩

theorem digits_toDigits (n : Nat) (r : List Char) : Digits (Nat.toDigits 10 n ++ r) r :=
  ⟨_, Nat.toDigits_ne_nil, fun _ => isDigit_of_mem_toDigits, rfl⟩

theorem whole_of_digits {d : Char} {ds : List Char} (nonzero : d ≠ '0')
    (all_digits : ∀ c ∈ d :: ds, c.isDigit = true) (r : List Char) : Whole (d :: ds ++ r) r :=
  .other nonzero ⟨d :: ds, by simp, all_digits, rfl⟩

theorem isDigit_of_mem_zeros {count : Nat} {c : Char} (member : c ∈ List.replicate count '0') :
    c.isDigit = true := by
  rw [List.eq_of_mem_replicate member]
  rfl

/-- Zeros may be written behind the digits of a number, but not behind a zero. -/
theorem whole_scaled {count : Nat} (scaled : n = 0 → count = 0) (r : List Char) :
    Whole (Nat.toDigits 10 n ++ List.replicate count '0' ++ r) r := by
  rcases Nat.eq_zero_or_pos n with rfl | positive
  · rw [scaled rfl]
    exact .zero
  · have digit {c : Char} (member : c ∈ Nat.toDigits 10 n) : c.isDigit = true :=
      isDigit_of_mem_toDigits member
    obtain ⟨d, ds, digits, nonzero⟩ := exists_toDigits_of_pos positive
    rw [digits] at digit ⊢
    refine whole_of_digits nonzero (fun c member => ?_) r
    exact (List.mem_append.mp member).elim digit isDigit_of_mem_zeros

theorem whole_toDigits (n : Nat) (r : List Char) : Whole (Nat.toDigits 10 n ++ r) r := by
  simpa using whole_scaled (n := n) (fun _ => rfl) r

end Digits

namespace Decimal

namespace Layout

variable {s r : List Char} {n : Nat} {exponent : Int}

theorem magnitude_of_point (ds : List Char) (whole : Whole s ('.' :: (ds ++ r)))
    (some_digit : ds ≠ []) (all_digits : ∀ d ∈ ds, d.isDigit = true) : Magnitude s r :=
  .intro whole (.some ⟨ds, some_digit, all_digits, rfl⟩) .none

/-- Between two digits there may be a point, as a zero has no second digit. -/
theorem magnitude_divided {count : Nat} (positive : 0 < count)
    (within : count < (Nat.toDigits 10 n).length) (r : List Char) :
    Magnitude ((Nat.toDigits 10 n).take count ++ '.' :: (Nat.toDigits 10 n).drop count ++ r) r := by
  have nonzero : 0 < n := by
    rcases Nat.eq_zero_or_pos n with rfl | nonzero
    · simp only [Nat.toDigits_zero, List.length_singleton] at within
      omega
    · exact nonzero
  have digit {c : Char} (member : c ∈ Nat.toDigits 10 n) : c.isDigit = true :=
    isDigit_of_mem_toDigits member
  obtain ⟨d, ds, digits, first⟩ := exists_toDigits_of_pos nonzero
  obtain ⟨k, rfl⟩ := Nat.exists_eq_add_one.mpr positive
  rw [digits] at digit within ⊢
  rw [List.take_succ_cons, List.drop_succ_cons, List.append_assoc, List.cons_append]
  refine magnitude_of_point _ (whole_of_digits first (fun c member => ?_) _) ?_ fun c member => ?_
  · exact digit ((List.take_sublist (k + 1) (d :: ds)).mem member)
  · simpa using within
  · exact digit (List.mem_cons_of_mem d (List.mem_of_mem_drop member))

theorem magnitude_pointed (scaled : n = 0 → exponent ≤ 0) (r : List Char) :
    Magnitude (pointed (Nat.toDigits 10 n) exponent ++ r) r := by
  simp only [pointed]
  split_ifs with whole inside
  · rw [List.append_assoc]
    refine magnitude_of_point ['0'] (whole_scaled (by omega) _) (by simp) fun _ member => ?_
    exact @isDigit_of_mem_zeros 1 _ member
  · exact magnitude_divided (by omega) (by omega) r
  · rw [List.cons_append, List.cons_append, List.append_assoc, ← List.append_assoc]
    refine magnitude_of_point _ .zero ?_ fun c member => ?_
    · simp
    · exact (List.mem_append.mp member).elim isDigit_of_mem_zeros isDigit_of_mem_toDigits

theorem magnitude_exponential (n : Nat) (lead : Int) (r : List Char) :
    Magnitude (exponential (Nat.toDigits 10 n) lead ++ r) r := by
  obtain ⟨d, ds, digits⟩ : ∃ d ds, Nat.toDigits 10 n = d :: ds :=
    List.exists_cons_of_ne_nil Nat.toDigits_ne_nil
  have digit {c : Char} (member : c ∈ d :: ds) : c.isDigit = true :=
    isDigit_of_mem_toDigits (digits ▸ member)
  have whole (t : List Char) : Whole (d :: t) t := by
    by_cases zero : d = '0'
    · exact zero ▸ .zero
    · exact .other zero ⟨[d], by simp, by simpa using digit List.mem_cons_self, rfl⟩
  have mark : Exponent ('e' :: ([if lead < 0 then '-' else '+'] ++
      (Nat.toDigits 10 lead.natAbs ++ r))) r :=
    .some (by simp) (by split <;> simp) (digits_toDigits lead.natAbs r)
  simp only [exponential, digits, List.take_succ_cons, List.take_zero, List.drop_succ_cons,
    List.drop_zero, List.append_assoc]
  cases ds with
  | nil => exact .intro (whole _) .none mark
  | cons c ds =>
    refine .intro (whole _) (.some ⟨c :: ds, by simp, fun _ member => ?_, rfl⟩) mark
    exact digit (List.mem_cons_of_mem d member)

theorem magnitude_unsigned (l : Layout) {d : Scaled} (scaled : d.digits = 0 → d.exponent ≤ 0)
    (r : List Char) : Magnitude (l.unsigned d ++ r) r := by
  simp only [unsigned]
  split
  · exact magnitude_pointed scaled r
  · exact magnitude_exponential d.digits _ r

end Layout

variable {tie : Tie} {mantissa : Nat} {exponent k : Int}

/-- The point of zero does not name a number that is not zero, however coarse the grid may be. -/
theorem gridPoint?_ne_zero (positive : 0 < mantissa) :
    gridPoint? tie mantissa exponent k ≠ some 0 := by
  intro named
  have fine : 0 < Nat.pow 2 (exponent - 2).toNat * Nat.pow 10 (-k).toNat :=
    Nat.mul_pos (Nat.pow_pos (by decide)) (Nat.pow_pos (by decide))
  simp only [gridPoint?] at named
  generalize Nat.pow 2 (exponent - 2).toNat * Nat.pow 10 (-k).toNat = unit at *
  generalize Nat.pow 2 (2 - exponent).toNat * Nat.pow 10 k.toNat = cell at *
  have far : 4 * unit ≤ 4 * mantissa * unit := Nat.mul_le_mul_right unit (by omega)
  generalize 4 * mantissa * unit = value at *
  have near : (if mantissa = leastMantissa ∧ exponent ≠ -1074 then unit else 2 * unit) ≤
      2 * unit := by
    split <;> omega
  generalize (if mantissa = leastMantissa ∧ exponent ≠ -1074 then unit else 2 * unit) = below at *
  by_cases low : value / cell = 0
  · have outside : ¬value - below ≤ 0 := by omega
    simp only [low, Nat.zero_mul, outside, Nat.not_lt_zero, false_and, decide_false, ite_self]
      at named
    split at named <;> simp_all
  · split at named
    · split_ifs at named <;> simp [low] at named
    all_goals simp [low] at named

theorem exponent_shortest (positive : 0 < mantissa)
    (zero : (shortest tie mantissa exponent).digits = 0) :
    (shortest tie mantissa exponent).exponent ≤ 0 := by
  rw [shortest] at zero ⊢
  generalize picked : List.findSome? _ _ = d? at *
  cases d? with
  | none => exact Int.le_refl 0
  | some d =>
    obtain ⟨i, -, found⟩ := List.exists_of_findSome?_eq_some picked
    obtain ⟨c, point, rfl⟩ := Option.map_eq_some_iff.mp found
    obtain rfl : c = 0 := zero
    exact absurd point (gridPoint?_ne_zero positive)

theorem Layout.begins_sign {s r : List Char} (negative : Bool) (magnitude : Magnitude s r) :
    Begins (sign negative ++ s) .number r := by
  cases negative with
  | false => exact .number magnitude
  | true => exact .negative magnitude

/-- What the bits of a finite double say is written as a number, be it zero or not. -/
theorem Layout.begins_text {l : Layout} {f : Float} {negative : Bool}
    (finite : Double.ofFloat f = .finite negative mantissa exponent) (r : List Char) :
    Begins ((l.text f).toList ++ r) .number r := by
  rw [text, finite]
  rcases Nat.eq_zero_or_pos mantissa with rfl | positive
  · simp only [String.toList_ofList, List.append_assoc]
    refine begins_sign negative (magnitude_of_point ['0'] .zero (by simp) fun _ member => ?_)
    exact @isDigit_of_mem_zeros 1 _ member
  · obtain ⟨m, rfl⟩ := Nat.exists_eq_add_one.mpr positive
    simp only [String.toList_ofList, List.append_assoc]
    exact begins_sign negative (magnitude_unsigned l (exponent_shortest positive) r)

end Decimal

namespace Json

/-- Infinities and what is not a number cannot be written. -/
def Number.IsFinite : Number → Prop
  | .integer _ => True
  | .float f => ∃ negative mantissa exponent,
      Decimal.Double.ofFloat f = .finite negative mantissa exponent

theorem begins_intText (n : Int) (r : List Char) : Begins (intText n ++ r) .number r := by
  have magnitude : Magnitude (Nat.toDigits 10 n.natAbs ++ r) r :=
    .intro (whole_toDigits n.natAbs r) .none .none
  unfold intText
  split
  · exact .negative magnitude
  · exact .number magnitude

theorem Number.IsFinite.begins_text {n : Number} (finite : n.IsFinite) (r : List Char) :
    Begins (n.text ++ r) .number r := by
  cases n with
  | integer n => exact begins_intText n r
  | float f =>
    obtain ⟨negative, mantissa, exponent, bits⟩ := finite
    exact Decimal.Layout.begins_text bits r

end Json

end TypeCatalog
