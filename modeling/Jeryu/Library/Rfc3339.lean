import Mathlib.Data.List.Basic
import Mathlib.Data.String.Basic
import Mathlib.Tactic.NormNum

/-!
Times of UTC as RFC 3339 texts. A fraction of a second is written with no more digits than it takes,
in threes, and the texts stand in the order of the times all the same.
-/

namespace Rfc3339

section Digits

def digit (n : Nat) : Char := Char.ofNat (48 + n)

theorem digit_lt {m n : Nat} (small : m < 10) (small' : n < 10) : digit m < digit n ↔ m < n := by
  have all : ∀ m n : Fin 10, digit m < digit n ↔ m.val < n.val := by decide
  exact all ⟨m, small⟩ ⟨n, small'⟩

theorem digit_eq {m n : Nat} (small : m < 10) (small' : n < 10) : digit m = digit n ↔ m = n := by
  have all : ∀ m n : Fin 10, digit m = digit n ↔ m.val = n.val := by decide
  exact all ⟨m, small⟩ ⟨n, small'⟩

/-- The last `width` digits of a number. -/
def digits : Nat → Nat → List Char
  | 0, _ => []
  | width + 1, n => digit (n / 10 ^ width % 10) :: digits width (n % 10 ^ width)

/-- Numbers written in one width are ordered as the texts are. -/
theorem digits_append_lt {width m n : Nat} (small : m < 10 ^ width) (small' : n < 10 ^ width) (rest rest' : List Char) :
    digits width m ++ rest < digits width n ++ rest' ↔ m < n ∨ m = n ∧ rest < rest' := by
  induction width generalizing m n with
  | zero =>
    obtain rfl : m = 0 := by simpa using small
    obtain rfl : n = 0 := by simpa using small'
    simp [digits]
  | succ width ih =>
    have large : 0 < 10 ^ width := Nat.pos_of_ne_zero (by simp)
    rw [Nat.pow_succ] at small small'
    have top : m / 10 ^ width < 10 := Nat.div_lt_of_lt_mul small
    have top' : n / 10 ^ width < 10 := Nat.div_lt_of_lt_mul small'
    have low := Nat.mod_lt m large
    have low' := Nat.mod_lt n large
    have whole := Nat.div_add_mod m (10 ^ width)
    have whole' := Nat.div_add_mod n (10 ^ width)
    simp only [digits, List.cons_append, List.cons_lt_cons_iff, Nat.mod_eq_of_lt top, Nat.mod_eq_of_lt top',
      digit_lt top top', digit_eq top top', ih low low']
    generalize 10 ^ width = unit at *
    rcases Nat.lt_trichotomy (m / unit) (n / unit) with less | same | more
    · have apart : m < n := by
        have step : unit * (m / unit + 1) ≤ unit * (n / unit) := Nat.mul_le_mul_left unit less
        rw [Nat.mul_succ] at step
        omega
      simp [less, apart]
    · rw [same] at whole ⊢
      have less : m % unit < n % unit ↔ m < n := by omega
      have equal : m % unit = n % unit ↔ m = n := by omega
      simp only [Nat.lt_irrefl, false_or, true_and, less, equal]
    · have apart : n < m := by
        have step : unit * (n / unit + 1) ≤ unit * (m / unit) := Nat.mul_le_mul_left unit more
        rw [Nat.mul_succ] at step
        omega
      have notSame : m / unit ≠ n / unit := Nat.ne_of_gt more
      simp only [Nat.not_lt.2 more.le, notSame, false_and, or_self, false_iff, not_or, not_and]
      omega

end Digits

section Fraction

/-- The digits after the point, in the fewest threes. -/
def fraction (nano : Nat) : List Char :=
  if nano = 0 then []
  else if nano % 10 ^ 6 = 0 then '.' :: digits 3 (nano / 10 ^ 6)
  else if nano % 10 ^ 3 = 0 then '.' :: digits 6 (nano / 10 ^ 3)
  else '.' :: digits 9 nano

def offset : List Char := ['+', '0', '0', ':', '0', '0']

theorem digits_mod (width n : Nat) : digits width (n % 10 ^ width) = digits width n := by
  cases width with
  | zero => rfl
  | succ width =>
    rw [digits, digits, Nat.pow_succ, Nat.mod_mul_right_div_self, Nat.mod_mul_right_mod, Nat.mod_mod]

theorem digits_add (width more n : Nat) : digits (width + more) n = digits width (n / 10 ^ more) ++ digits more (n % 10 ^ more) := by
  induction width generalizing n with
  | zero =>
    rw [Nat.zero_add, digits_mod]
    rfl
  | succ width ih =>
    have power : 10 ^ (width + more) = 10 ^ more * 10 ^ width := by rw [Nat.add_comm, Nat.pow_add]
    rw [Nat.succ_add, digits, ih, power, Nat.mod_mul_right_div_self, Nat.mod_mul_right_mod, ← Nat.div_div_eq_div_mul]
    rfl

variable {m n : Nat}

/-- The offset stands before any digit. -/
theorem offset_lt_digits {more : Nat} (some_ : 0 < more) (rest : List Char) : offset < digits more n ++ rest := by
  obtain ⟨more, rfl⟩ : ∃ k, more = k + 1 := ⟨more - 1, by omega⟩
  have all : ∀ n : Fin 10, '+' < digit n := by decide
  have first := all ⟨n / 10 ^ more % 10, Nat.mod_lt _ (by decide)⟩
  show '+' :: _ < digit (n / 10 ^ more % 10) :: _
  rw [List.cons_lt_cons_iff]
  exact .inl first

theorem shorter_lt (width more : Nat) (small : m < 10 ^ width) (small' : n < 10 ^ (width + more)) (some_ : 0 < more) (le : m * 10 ^ more ≤ n) :
    digits width m ++ offset < digits (width + more) n ++ offset := by
  have large : 0 < 10 ^ more := Nat.pos_of_ne_zero (by simp)
  have top : n / 10 ^ more < 10 ^ width := Nat.div_lt_of_lt_mul (by rwa [Nat.mul_comm, ← Nat.pow_add])
  have below : m ≤ n / 10 ^ more := (Nat.le_div_iff_mul_le large).2 le
  rw [digits_add, List.append_assoc, digits_append_lt small top]
  rcases Nat.lt_or_eq_of_le below with less | same
  · exact .inl less
  · exact .inr ⟨same, offset_lt_digits some_ _⟩

theorem longer_lt (width more : Nat) (small : m < 10 ^ (width + more)) (small' : n < 10 ^ width) (lt : m < n * 10 ^ more) :
    digits (width + more) m ++ offset < digits width n ++ offset := by
  have top : m / 10 ^ more < 10 ^ width := Nat.div_lt_of_lt_mul (by rwa [Nat.mul_comm, ← Nat.pow_add])
  have below : m / 10 ^ more < n := Nat.div_lt_of_lt_mul (by rwa [Nat.mul_comm])
  rw [digits_add, List.append_assoc, digits_append_lt top small']
  exact .inl below

theorem offset_lt_point (rest : List Char) : offset < '.' :: rest := by
  show '+' :: _ < '.' :: _
  rw [List.cons_lt_cons_iff]
  exact .inl (by decide)

theorem fraction_lt (lt : m < n) (small : n < 10 ^ 9) : fraction m ++ offset < fraction n ++ offset := by
  have point (rest rest' : List Char) : '.' :: rest < '.' :: rest' ↔ rest < rest' := by simp
  have exact_ {width m n : Nat} (small : m < 10 ^ width) (small' : n < 10 ^ width) (lt : m < n) :
      digits width m ++ offset < digits width n ++ offset := (digits_append_lt small small' _ _).2 (.inl lt)
  unfold fraction
  rw [if_neg (Nat.ne_zero_of_lt lt)]
  by_cases zero : m = 0
  · rw [if_pos zero]
    split
    · exact offset_lt_point _
    · split <;> exact offset_lt_point _
  · rw [if_neg zero]
    by_cases millis : m % 10 ^ 6 = 0
    · rw [if_pos millis]
      by_cases millis' : n % 10 ^ 6 = 0
      · rw [if_pos millis']
        exact (point _ _).2 (exact_ (by omega) (by omega) (by omega))
      · rw [if_neg millis']
        by_cases micros' : n % 10 ^ 3 = 0
        · rw [if_pos micros']
          exact (point _ _).2 (shorter_lt 3 3 (by omega) (by omega) (by omega) (by omega))
        · rw [if_neg micros']
          exact (point _ _).2 (shorter_lt 3 6 (by omega) (by omega) (by omega) (by omega))
    · rw [if_neg millis]
      by_cases micros : m % 10 ^ 3 = 0
      · rw [if_pos micros]
        by_cases millis' : n % 10 ^ 6 = 0
        · rw [if_pos millis']
          exact (point _ _).2 (longer_lt 3 3 (by omega) (by omega) (by omega))
        · rw [if_neg millis']
          by_cases micros' : n % 10 ^ 3 = 0
          · rw [if_pos micros']
            exact (point _ _).2 (exact_ (by omega) (by omega) (by omega))
          · rw [if_neg micros']
            exact (point _ _).2 (shorter_lt 6 3 (by omega) (by omega) (by omega) (by omega))
      · rw [if_neg micros]
        by_cases millis' : n % 10 ^ 6 = 0
        · rw [if_pos millis']
          exact (point _ _).2 (longer_lt 3 6 (by omega) (by omega) (by omega))
        · rw [if_neg millis']
          by_cases micros' : n % 10 ^ 3 = 0
          · rw [if_pos micros']
            exact (point _ _).2 (longer_lt 6 3 (by omega) (by omega) (by omega))
          · rw [if_neg micros']
            exact (point _ _).2 (exact_ (by omega) (by omega) (by omega))

end Fraction

section Calendar

def leap (year : Nat) : Bool := year % 4 = 0 && (year % 100 ≠ 0 || year % 400 = 0)

def daysOfYear (year : Nat) : Nat := if leap year then 366 else 365

def daysOfMonth (year month : Nat) : Nat :=
  match month with
  | 2 => if leap year then 29 else 28
  | 4 | 6 | 9 | 11 => 30
  | _ => 31

/-- The days of the first periods of a calendar. -/
def before (days : Nat → Nat) : Nat → Nat
  | 0 => 0
  | n + 1 => before days n + days n

theorem before_mono (days : Nat → Nat) {m n : Nat} (le : m ≤ n) : before days m ≤ before days n := by
  induction le with
  | refl => exact Nat.le_refl _
  | step _ ih => exact Nat.le_trans ih (Nat.le_add_right _ _)

theorem before_lt (days : Nat → Nat) {m n day : Nat} (lt : m < n) (inside : day < days m) : before days m + day < before days n := by
  have whole : before days m + days m ≤ before days n := before_mono days lt
  omega

theorem months_of_year (year : Nat) : before (fun month => daysOfMonth year (month + 1)) 12 = daysOfYear year := by
  simp only [before, daysOfMonth, daysOfYear]
  split <;> rfl

/-- A time of the years with four digits. -/
structure UtcTime where
  year : Nat
  month : Nat
  day : Nat
  hour : Nat
  minute : Nat
  second : Nat
  nano : Nat
  year_lt : year < 10 ^ 4
  month_pos : 0 < month
  month_le : month ≤ 12
  day_pos : 0 < day
  day_le : day ≤ daysOfMonth year month
  hour_lt : hour < 24
  minute_lt : minute < 60
  second_lt : second < 60
  nano_lt : nano < 10 ^ 9

namespace UtcTime

variable (time : UtcTime)

def dayOfYear : Nat := before (fun month => daysOfMonth time.year (month + 1)) (time.month - 1) + (time.day - 1)

/-- Nanoseconds since the start of the year 0. -/
def instant : Nat :=
  ((((before daysOfYear time.year + time.dayOfYear) * 24 + time.hour) * 60 + time.minute) * 60 + time.second) * 10 ^ 9 +
    time.nano

def text : String :=
  String.ofList (digits 4 time.year ++ ('-' :: (digits 2 time.month ++ ('-' :: (digits 2 time.day ++ ('T' ::
    (digits 2 time.hour ++ (':' :: (digits 2 time.minute ++ (':' :: (digits 2 time.second ++
      (fraction time.nano ++ offset))))))))))))

theorem day_lt : time.day - 1 < daysOfMonth time.year (time.month - 1 + 1) := by
  have shift : time.month - 1 + 1 = time.month := Nat.sub_add_cancel time.month_pos
  rw [shift]
  exact Nat.lt_of_lt_of_le (Nat.sub_lt time.day_pos Nat.one_pos) time.day_le

theorem dayOfYear_lt : time.dayOfYear < daysOfYear time.year := by
  rw [← months_of_year]
  exact before_lt (fun month => daysOfMonth time.year (month + 1)) (by have := time.month_le; omega) time.day_lt

/-- The first field that differs is smaller. -/
def Earlier (a b : UtcTime) : Prop :=
  a.year < b.year ∨ a.year = b.year ∧ (a.month < b.month ∨ a.month = b.month ∧ (a.day < b.day ∨ a.day = b.day ∧
    (a.hour < b.hour ∨ a.hour = b.hour ∧ (a.minute < b.minute ∨ a.minute = b.minute ∧
      (a.second < b.second ∨ a.second = b.second ∧ a.nano < b.nano)))))

variable {a b : UtcTime}

theorem Earlier.days (year : a.year = b.year) (earlier : a.month < b.month ∨ a.month = b.month ∧ a.day < b.day) :
    a.dayOfYear < b.dayOfYear := by
  unfold dayOfYear
  rw [year]
  have positive := a.day_pos
  have positive' := a.month_pos
  rcases earlier with month | ⟨month, day⟩
  · have inside : a.day - 1 < daysOfMonth b.year (a.month - 1 + 1) := year ▸ a.day_lt
    have sooner : a.month - 1 < b.month - 1 := by omega
    have whole := before_lt (fun month => daysOfMonth b.year (month + 1)) sooner inside
    omega
  · rw [month]
    omega

theorem Earlier.instant_lt (earlier : a.Earlier b) : a.instant < b.instant := by
  have hour := a.hour_lt
  have hour' := b.hour_lt
  have minute := a.minute_lt
  have second := a.second_lt
  have nano := a.nano_lt
  unfold instant
  unfold Earlier at earlier
  by_cases days : before daysOfYear a.year + a.dayOfYear < before daysOfYear b.year + b.dayOfYear
  · omega
  · have year : a.year = b.year := by
      rcases earlier with sooner | same
      · have whole := before_lt daysOfYear sooner a.dayOfYear_lt
        omega
      · exact same.1
    have date : ¬ (a.month < b.month ∨ a.month = b.month ∧ a.day < b.day) := by
      intro sooner
      have whole := Earlier.days year sooner
      rw [year] at days
      omega
    have same : a.dayOfYear = b.dayOfYear := by
      have month : a.month = b.month := by omega
      have day : a.day = b.day := by omega
      unfold dayOfYear
      rw [year, month, day]
    rw [year, same]
    omega

theorem Earlier.text_lt (earlier : a.Earlier b) : a.text < b.text := by
  have cons_lt (c : Char) (rest rest' : List Char) : c :: rest < c :: rest' ↔ rest < rest' := by simp
  have month := a.month_le
  have month' := b.month_le
  have fits (time : UtcTime) : time.day < 10 ^ 2 := by
    have day := time.day_le
    have most : daysOfMonth time.year time.month ≤ 31 := by
      unfold daysOfMonth
      split
      · split <;> decide
      all_goals decide
    omega
  have hour := a.hour_lt
  have hour' := b.hour_lt
  have minute := a.minute_lt
  have minute' := b.minute_lt
  have second := a.second_lt
  have second' := b.second_lt
  unfold text
  rw [String.lt_iff, String.toList_ofList, String.toList_ofList, digits_append_lt a.year_lt b.year_lt, cons_lt,
    digits_append_lt (by omega) (by omega), cons_lt, digits_append_lt (fits a) (fits b), cons_lt,
    digits_append_lt (by omega) (by omega), cons_lt, digits_append_lt (by omega) (by omega), cons_lt,
    digits_append_lt (by omega) (by omega)]
  -- the fraction is the only field that is not written in one width
  have last : a.second = b.second ∧ a.nano < b.nano →
      a.second = b.second ∧ fraction a.nano ++ offset < fraction b.nano ++ offset :=
    And.imp_right fun lt => fraction_lt lt b.nano_lt
  exact earlier.imp_right (And.imp_right (Or.imp_right (And.imp_right (Or.imp_right (And.imp_right (Or.imp_right
    (And.imp_right (Or.imp_right (And.imp_right (Or.imp_right last))))))))))

theorem earlier_total (a b : UtcTime) : a.Earlier b ∨ a = b ∨ b.Earlier a := by
  have same : a.year = b.year → a.month = b.month → a.day = b.day → a.hour = b.hour → a.minute = b.minute →
      a.second = b.second → a.nano = b.nano → a = b := by
    intro year month day hour minute second nano
    cases a
    cases b
    simp_all
  unfold Earlier
  by_cases equal : a = b
  · exact .inr (.inl equal)
  · by_contra neither
    apply equal
    apply same <;> omega

/-- The texts are ordered as the times. -/
theorem text_lt_iff (a b : UtcTime) : a.text < b.text ↔ a.instant < b.instant := by
  rcases earlier_total a b with earlier | rfl | later
  · exact iff_of_true earlier.text_lt earlier.instant_lt
  · exact iff_of_false (lt_irrefl _) (lt_irrefl _)
  · exact iff_of_false later.text_lt.asymm later.instant_lt.asymm

theorem text_le_iff (a b : UtcTime) : a.text ≤ b.text ↔ a.instant ≤ b.instant := by
  rw [← not_lt, ← not_lt, text_lt_iff]

end UtcTime

end Calendar

end Rfc3339
