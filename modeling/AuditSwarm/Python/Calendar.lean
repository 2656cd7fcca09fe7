import AuditSwarm.Python.Text

/-!
# Dates

`datetime.date`: a day of the years 1 to 9999 by its number in the proleptic Gregorian calendar.
-/

namespace Python

/-- `date.max.toordinal()` -/
def maxOrdinal : Nat := 3652059

structure Date where
  ordinal : Nat
  positive : 1 ≤ ordinal
  atMost : ordinal ≤ maxOrdinal

def isLeap (year : Nat) : Bool := year % 4 = 0 && (year % 100 ≠ 0 || year % 400 = 0)

def daysBeforeYear (year : Nat) : Nat :=
  let y := year - 1
  y * 365 + y / 4 - y / 100 + y / 400

def daysInMonth (year month : Nat) : Nat :=
  match month with
  | 2 => if isLeap year then 29 else 28
  | 4 | 6 | 9 | 11 => 30
  | _ => 31

def daysBeforeMonth (year month : Nat) : Nat :=
  ((List.range (month - 1)).map fun m => daysInMonth year (m + 1)).sum

structure IsDay (year month day : Nat) : Prop where
  year_pos : 1 ≤ year
  year_le : year ≤ 9999
  month_pos : 1 ≤ month
  month_le : month ≤ 12
  day_pos : 1 ≤ day
  day_le : day ≤ daysInMonth year month

instance (year month day : Nat) : Decidable (IsDay year month day) :=
  decidable_of_iff (1 ≤ year ∧ year ≤ 9999 ∧ 1 ≤ month ∧ month ≤ 12 ∧ 1 ≤ day ∧
      day ≤ daysInMonth year month)
    ⟨fun h => ⟨h.1, h.2.1, h.2.2.1, h.2.2.2.1, h.2.2.2.2.1, h.2.2.2.2.2⟩,
      fun h => ⟨h.1, h.2, h.3, h.4, h.5, h.6⟩⟩

def ymdOrdinal (year month day : Nat) : Nat :=
  daysBeforeYear year + daysBeforeMonth year month + day

/-- The days of a year up to the end of a month. -/
theorem daysBeforeMonth_add_le {year month : Nat} (hpos : 1 ≤ month) (hle : month ≤ 12) :
    daysBeforeMonth year month + daysInMonth year month ≤ if isLeap year then 366 else 365 := by
  cases hleap : isLeap year with
  | true =>
      interval_cases month <;>
        simp [daysBeforeMonth, daysInMonth, List.range_succ, hleap]
  | false =>
      interval_cases month <;>
        simp [daysBeforeMonth, daysInMonth, List.range_succ, hleap]

theorem IsDay.ordinal_le {year month day : Nat} (h : IsDay year month day) :
    ymdOrdinal year month day ≤ maxOrdinal := by
  have hmonth := @daysBeforeMonth_add_le year month h.month_pos h.month_le
  have hday := h.day_le
  have hlow := h.year_pos
  have hhigh := h.year_le
  have hyear : daysBeforeYear year ≤ (year - 1) * 365 + (year - 1) / 4 - (year - 1) / 100 +
      (year - 1) / 400 := le_rfl
  unfold ymdOrdinal maxOrdinal
  by_cases hlast : year = 9999
  · subst hlast
    have hleap : isLeap 9999 = false := by decide
    rw [hleap] at hmonth
    simp only [Bool.false_eq_true, if_false] at hmonth
    omega
  · have hlength : daysBeforeMonth year month + daysInMonth year month ≤ 366 := by
      cases hleap : isLeap year with
      | true => simpa [hleap] using hmonth
      | false =>
          simp only [hleap, Bool.false_eq_true, if_false] at hmonth
          omega
    omega

theorem IsDay.ordinal_pos {year month day : Nat} (h : IsDay year month day) :
    1 ≤ ymdOrdinal year month day := by
  have hday := h.day_pos
  unfold ymdOrdinal
  omega

namespace Date

/-- `datetime.date(year, month, day)`; `none` is a `ValueError`. -/
def ofYmd (year month day : Nat) : Option Date :=
  if h : IsDay year month day then some ⟨ymdOrdinal year month day, h.ordinal_pos, h.ordinal_le⟩
  else none

/-- `date + timedelta(days=days)`; `none` is an `OverflowError`. -/
def addDays (d : Date) (days : Nat) : Option Date :=
  if h : d.ordinal + days ≤ maxOrdinal then
    some ⟨d.ordinal + days, d.positive.trans (Nat.le_add_right _ _), h⟩
  else none

def earlier (d e : Date) : Date := if e.ordinal < d.ordinal then e else d

def later (d e : Date) : Date := if d.ordinal < e.ordinal then e else d

def digitsValue (s : Str) : Option Nat :=
  if s.all fun c => 48 ≤ c.val && c.val ≤ 57 then
    some (s.foldl (fun n c => 10 * n + (c.val - 48)) 0)
  else none

/-- `date.fromisoformat` of a text of the shape `YYYY-MM-DD`; `none` is a `ValueError`. -/
def fromIso (s : Str) : Option Date := do
  let year ← digitsValue (s.take 4)
  let month ← digitsValue ((s.drop 5).take 2)
  let day ← digitsValue ((s.drop 8).take 2)
  ofYmd year month day

def monthDay (year : Nat) : Nat → Nat → Nat → Nat × Nat
  | 0, month, day => (month, day)
  | n + 1, month, day =>
      if day ≤ daysInMonth year month then (month, day)
      else monthDay year n (month + 1) (day - daysInMonth year month)

/-- `_ord2ymd` -/
def toYmd (d : Date) : Nat × Nat × Nat :=
  let n := d.ordinal - 1
  let n400 := n / 146097
  let n := n % 146097
  let n100 := n / 36524
  let n := n % 36524
  let n4 := n / 1461
  let n := n % 1461
  let n1 := n / 365
  let year := n400 * 400 + n100 * 100 + n4 * 4 + n1 + 1
  if n1 = 4 ∨ n100 = 4 then (year - 1, 12, 31)
  else (year, monthDay year 11 1 (n % 365 + 1))

/-- A number written with at least the given number of digits. -/
def padded (width n : Nat) : Str :=
  List.replicate (width - (decimal n).length) 48 ++ decimal n

/-- `date.isoformat()` -/
def isoFormat (d : Date) : Str :=
  padded 4 d.toYmd.1 ++ lit "-" ++ padded 2 d.toYmd.2.1 ++ lit "-" ++ padded 2 d.toYmd.2.2

end Date

example : (Date.fromIso (lit "2024-02-29")).map Date.isoFormat = some (lit "2024-02-29") := by
  decide +kernel

end Python
